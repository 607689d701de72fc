import AccessGate.Proofs.Json.Written

/-!
# What a value gives for the fields of a record

A record is read from an object, or from an array that holds the fields in their order. Either way
the value gives entries, each for one field (`Json.entries?`), and the record is read exactly if no
field is given twice, each entry passes its field's check, and no required field is left out
(`Json.asRecord_eq_ok_iff`). What is read of a field then depends on its own entry alone
(`Json.field_eq_ok_iff`, `Json.fieldOr_eq_ok_iff`).
-/

namespace AccessGate.Json

variable {f : Field} {fields : List Field} {kept rest : List (String × Json)} {key : String}
  {v j : Json} {items : List Json}

/-! ## Entries -/

/-- The entries that a value gives for fields: of an object the members that are fields, of an array
its items, in the order of the fields. -/
def entries? (fields : List Field) : Json → Option (List (String × Json))
  | object ms => some (ms.filter fun m => isField fields m.1)
  | array items =>
    if items.length ≤ fields.length then some ((fields.map Field.key).zip items) else none
  | _ => none

/-- That entries comply with fields. -/
structure Complies (fields : List Field) (given : List (String × Json)) : Prop where
  /-- No field is given twice. -/
  nodup : (given.map Prod.fst).Nodup
  /-- What is given passes the check of its field. -/
  passes : ∀ m ∈ given, Passes fields m
  /-- No required field is left out. -/
  required : ∀ f ∈ fields, f.required = true → f.key ∈ given.map Prod.fst

/-- No field is missing exactly if there is an entry for each required one. -/
theorem requireFields_eq_ok_iff :
    requireFields fields kept = .ok () ↔
      ∀ f ∈ fields, f.required = true → f.key ∈ kept.map Prod.fst := by
  have hany (f : Field) : kept.any (·.1 == f.key) = true ↔ f.key ∈ kept.map Prod.fst := by
    simp
  unfold requireFields
  split
  · next f hfind =>
    have hf := List.find?_some hfind
    rw [Bool.and_eq_true, Bool.not_eq_true'] at hf
    refine iff_of_false (fun h => nomatch h) fun h => ?_
    rw [← Bool.not_eq_true, hany] at hf
    exact hf.2 (h f (List.mem_of_find?_eq_some hfind) hf.1)
  · next hnone =>
    refine iff_of_true rfl fun f hf hrequired => ?_
    have hkept := List.find?_eq_none.1 hnone f hf
    rw [hrequired, Bool.true_and, Bool.not_eq_true', Bool.not_eq_false] at hkept
    exact (hany f).1 hkept

/-- The elements of an array are taken exactly if each passes the check of the field in its place,
and no required field is beyond them. -/
theorem takeElements_eq_ok_iff {record : String} {count i : Nat} {left : List Json} :
    takeElements record count i fields items = .ok (kept, left) ↔
      kept = (fields.map Field.key).zip items ∧ left = items.drop fields.length ∧
        (∀ p ∈ fields.zip items, p.1.check p.2 = .ok ()) ∧
        ∀ f ∈ fields.drop items.length, f.required = false := by
  induction fields generalizing i kept items left with
  | nil =>
    rw [takeElements]
    constructor
    · rintro ⟨⟩
      simp
    · rintro ⟨rfl, rfl, -, -⟩
      rfl
  | cons f fields ih =>
    cases items with
    | nil =>
      rw [takeElements]
      cases hrequired : f.required with
      | true =>
        refine iff_of_false (fun h => nomatch h) fun h => ?_
        have hf := h.2.2.2 f List.mem_cons_self
        rw [hrequired] at hf
        cases hf
      | false =>
        rw [if_neg Bool.false_ne_true, ih]
        simp [hrequired]
    | cons v items =>
      have hzip : ((f :: fields).map Field.key).zip (v :: items) =
          (f.key, v) :: (fields.map Field.key).zip items := rfl
      rw [hzip]
      simp only [List.zip_cons_cons, List.forall_mem_cons, List.length_cons, List.drop_succ_cons]
      constructor
      · intro h
        obtain ⟨_, hcheck, h⟩ := bind_eq_ok_iff.1 h
        obtain ⟨⟨kept', left'⟩, htake, h⟩ := bind_eq_ok_iff.1 h
        obtain ⟨rfl, rfl, hchecks, hrest⟩ := ih.1 htake
        cases h
        exact ⟨rfl, rfl, ⟨hcheck, hchecks⟩, hrest⟩
      · rintro ⟨rfl, rfl, ⟨hcheck, hchecks⟩, hrest⟩
        refine bind_eq_ok_iff.2 ⟨(), hcheck, ?_⟩
        exact bind_eq_ok_iff.2 ⟨_, ih.2 ⟨rfl, rfl, hchecks, hrest⟩, rfl⟩

/-- Where fields have different keys, the checks of the elements are those of the entries. -/
theorem forall_mem_zip_iff (hnd : (fields.map Field.key).Nodup) (items : List Json) :
    (∀ p ∈ fields.zip items, p.1.check p.2 = .ok ()) ↔
      ∀ m ∈ (fields.map Field.key).zip items, Passes fields m := by
  rw [List.zip_map_left, List.forall_mem_map]
  refine forall₂_congr fun p hp => ?_
  have hfind := Written.find?_key hnd (List.of_mem_zip hp).1
  constructor
  · intro hcheck f hf
    obtain rfl := Option.some.inj (hfind.symm.trans hf)
    exact hcheck
  · intro hpass
    exact hpass p.1 hfind

/-- Items are paired with as many keys as there are of them. -/
theorem map_fst_zip (keys : List String) (items : List Json) :
    (keys.zip items).map Prod.fst = keys.take items.length := by
  induction keys generalizing items with
  | nil => simp
  | cons key keys ih =>
    cases items with
    | nil => rfl
    | cons v items => exact congrArg (key :: ·) (ih items)

/-- A record is read from a value exactly if the value gives entries that comply with its fields;
these are then what was read. -/
theorem asRecord_eq_ok_iff (hnd : (fields.map Field.key).Nodup) {record : String}
    {source : Source} :
    asRecord record fields source j = .ok kept ↔
      entries? fields j = some kept ∧ Complies fields kept := by
  cases j with
  | object ms =>
    rw [asRecord, entries?, Option.some.injEq]
    constructor
    · intro h
      obtain ⟨kept', htake, h⟩ := bind_eq_ok_iff.1 h
      obtain ⟨_, hrequire, h⟩ := bind_eq_ok_iff.1 h
      cases h
      obtain ⟨rfl, hnodup, hpass⟩ := takeFields_nil_eq_ok_iff.1 htake
      exact ⟨rfl, hnodup, fun m hm => hpass m (List.mem_filter.1 hm).1,
        requireFields_eq_ok_iff.1 hrequire⟩
    · rintro ⟨rfl, hcomplies⟩
      refine bind_eq_ok_iff.2 ⟨_, takeFields_nil_eq_ok_iff.2 ⟨rfl, hcomplies.nodup, ?_⟩,
        bind_eq_ok_iff.2 ⟨(), requireFields_eq_ok_iff.2 hcomplies.required, rfl⟩⟩
      intro m hm f hf
      exact hcomplies.passes m (List.mem_filter.2 ⟨hm, isField_iff.2 ⟨f, hf⟩⟩) f hf
  | array items =>
    have hkeys : ((fields.map Field.key).zip items).map Prod.fst =
        (fields.map Field.key).take items.length := map_fst_zip _ _
    rw [asRecord, entries?]
    constructor
    · intro h
      obtain ⟨⟨kept', left⟩, htake, h⟩ := bind_eq_ok_iff.1 h
      obtain ⟨rfl, rfl, hchecks, hrest⟩ := takeElements_eq_ok_iff.1 htake
      dsimp only at h
      split at h
      · next hempty =>
        obtain rfl := Except.ok.inj h
        have hlength : items.length ≤ fields.length :=
          List.drop_eq_nil_iff.1 (List.isEmpty_iff.1 hempty)
        refine ⟨if_pos hlength, ?_, (forall_mem_zip_iff hnd items).1 hchecks, ?_⟩
        · rw [hkeys]
          exact hnd.sublist (List.take_sublist _ _)
        · intro f hf hrequired
          rw [hkeys, ← List.map_take]
          rw [← List.take_append_drop items.length fields] at hf
          rcases List.mem_append.1 hf with hf | hf
          · exact List.mem_map_of_mem hf
          · rw [hrest f hf] at hrequired
            cases hrequired
      · cases h
    · rintro ⟨hentries, hcomplies⟩
      split at hentries
      · next hlength =>
        cases hentries
        refine bind_eq_ok_iff.2 ⟨_, takeElements_eq_ok_iff.2
          ⟨rfl, rfl, (forall_mem_zip_iff hnd items).2 hcomplies.passes, ?_⟩, ?_⟩
        · intro f hf
          refine Bool.eq_false_iff.2 fun hrequired => ?_
          have htaken := hcomplies.required f (List.mem_of_mem_drop hf) hrequired
          rw [hkeys] at htaken
          have hleft : f.key ∈ (fields.map Field.key).drop items.length := by
            rw [← List.map_drop]
            exact List.mem_map_of_mem hf
          exact List.disjoint_take_drop hnd (Nat.le_refl _) htaken hleft
        · rw [List.drop_eq_nil_of_le hlength]
          rfl
      · cases hentries
  | null | bool | number | string =>
    constructor
    · intro h
      cases h
    · rintro ⟨hentries, -⟩
      cases hentries

/-- A value as a map gives no field twice. -/
theorem nodup_entries_canonical (hnd : (fields.map Field.key).Nodup)
    (h : entries? fields j.canonical = some kept) : (kept.map Prod.fst).Nodup := by
  cases j with
  | object ms =>
    rw [canonical, entries?, Option.some.injEq] at h
    subst h
    exact nodup_keys_filter _ (nodup_keys_sortMembers _)
  | array items =>
    rw [canonical, entries?] at h
    split at h
    · obtain rfl := Option.some.inj h
      rw [map_fst_zip]
      exact hnd.sublist (List.take_sublist _ _)
    · cases h
  | null | bool | number | string => cases h

/-! ## Fields -/

/-- Entries with different keys comply with fields if what they give for each passes its check, and
they give each that is required. -/
theorem Complies.of_fields (hkept : (kept.map Prod.fst).Nodup)
    (hfield : ∀ f ∈ fields, (∀ v ∈ valueOf? kept f.key, f.check v = .ok ()) ∧
      (f.required = true → (valueOf? kept f.key).isSome = true)) : Complies fields kept where
  nodup := hkept
  passes m hm f hf := by
    have hkey : f.key = m.1 := by simpa using List.find?_some hf
    refine (hfield f (List.mem_of_find?_eq_some hf)).1 m.2 ?_
    rw [hkey]
    exact (valueOf?_eq_some_iff hkept).2 hm
  required f hf hrequired := by
    obtain ⟨v, hv⟩ := Option.isSome_iff_exists.1 ((hfield f hf).2 hrequired)
    exact List.mem_map_of_mem (mem_of_valueOf? hv)

/-- A required field is read exactly of the value that its entry has. -/
theorem field_eq_ok_iff {α : Type} {read : Json → Except DecodeError α} {a : α} :
    field kept key read = .ok a ↔ ∃ v, valueOf? kept key = some v ∧ read v = .ok a := by
  rw [field_eq]
  cases valueOf? kept key <;> simp

/-- A field with a default is the default exactly if it has no entry, and else read of its entry. -/
theorem fieldOr_eq_ok_iff {α : Type} {read : Json → Except DecodeError α} {d a : α} :
    fieldOr kept key d read = .ok a ↔
      (valueOf? kept key = none ∧ a = d) ∨ ∃ v, valueOf? kept key = some v ∧ read v = .ok a := by
  rw [fieldOr_eq]
  cases valueOf? kept key <;> simp [eq_comm]

/-- What is given for a required field that was read passes its check. -/
theorem must_of_field {α : Type} {read : Json → Except DecodeError α} {a : α}
    (h : field kept key read = .ok a) :
    (∀ v ∈ valueOf? kept key, (Field.must key read).check v = .ok ()) ∧
      ((Field.must key read).required = true → (valueOf? kept key).isSome = true) := by
  obtain ⟨v, hv, hread⟩ := field_eq_ok_iff.1 h
  rw [hv]
  refine ⟨?_, fun _ => rfl⟩
  rintro _ ⟨⟩
  exact check_must hread

/-- What is given for a field that was read, if anything is, passes its check. -/
theorem may_of_fieldOr {α : Type} {read : Json → Except DecodeError α} {d a : α}
    (h : fieldOr kept key d read = .ok a) :
    (∀ v ∈ valueOf? kept key, (Field.may key read).check v = .ok ()) ∧
      ((Field.may key read).required = true → (valueOf? kept key).isSome = true) := by
  refine ⟨fun v hv => ?_, fun hrequired => nomatch hrequired⟩
  rcases fieldOr_eq_ok_iff.1 h with ⟨hnone, -⟩ | ⟨w, hw, hread⟩
  · rw [hnone] at hv
    cases hv
  · obtain rfl := Option.some.inj (hw.symm.trans hv)
    exact check_may hread

/-! ## Texts -/

/-- What a reader looks at of a text: its value, or the parts of the shape if it has none. -/
def looked? (shape : Shape) (text : String) : Option Json :=
  (draft? text).bind fun d => d.value?.or (d.keep shape depthLimit)

/-- A text is decoded exactly by reading the tree that it has. -/
theorem decodeText_eq_ok_iff {α : Type} {shape : Shape} {read : Json → Except DecodeError α}
    {text : String} {a : α} :
    decodeText shape read text = .ok a ↔ ∃ j, looked? shape text = some j ∧ read j = .ok a := by
  unfold decodeText looked?
  cases draft? text with
  | none => simp
  | some d =>
    cases hvalue : d.value? with
    | some j => simp [hvalue]
    | none =>
      cases hkeep : d.keep shape depthLimit with
      | none => simp [hvalue, hkeep]
      | some j =>
        simp only [hkeep, Option.map_some, Option.bind_some, hvalue, Option.none_or,
          Option.some.injEq, exists_eq_left']
        cases read j <;> simp

/-! ## Values -/

/-- A truth value is read of a truth value only. -/
theorem asBool_eq_ok_iff {b : Bool} : asBool j = .ok b ↔ j = bool b := by
  cases j <;> simp [asBool]

/-- A number of 64 bits is read of such a number only. -/
theorem asInt64_eq_ok_iff {n : Int} : asInt64 j = .ok n ↔ j = ofInt n ∧ IsInt64 n := by
  constructor
  · intro h
    refine ⟨?_, range_of_asInteger h⟩
    unfold asInt64 asInteger at h
    split at h
    · split at h
      · exact congrArg ofInt (Except.ok.inj h)
      · cases h
    · cases h
  · rintro ⟨rfl, hn⟩
    exact asInt64_ofInt hn

variable {α : Type} {read : Json → Except DecodeError α} {g : α → Json} {P : α → Prop}

/-- A list is read exactly from the array of its elements' values. -/
theorem asList_eq_ok_iff (hread : ∀ v a, read v = .ok a ↔ v = g a) {l : List α} :
    asList read j = .ok l ↔ j = array (l.map g) := by
  have hitems (items : List Json) : items.mapM read = .ok l ↔ items = l.map g := by
    induction items generalizing l with
    | nil => cases l <;> simp [pure, Except.pure]
    | cons v items ih =>
      rw [List.mapM_cons]
      cases l with
      | nil => simp [bind_eq_ok_iff, pure, Except.pure]
      | cons a l => simp [bind_eq_ok_iff, pure, Except.pure, hread, ih]
  cases j with
  | array items => rw [asList, hitems, array.injEq]
  | null | bool | number | string | object => simp [asList]

/-- That what is given for a field, if anything is, gives a value that may be left out or null. -/
def GivesOption (g : α → Json) (given : Option Json) : Option α → Prop
  | none => given = none ∨ given = some null
  | some a => given = some (g a)

/-- What is read of a field that may be left out or null. -/
theorem fieldOr_none_eq_ok_iff (hread : ∀ v a, read v = .ok a ↔ v = g a ∧ P a)
    (hnull : ∀ a, g a ≠ null) {o : Option α} :
    fieldOr kept key none (asOption read) = .ok o ↔
      GivesOption g (valueOf? kept key) o ∧ ∀ a ∈ o, P a := by
  have hvalue (v : Json) : asOption read v = .ok o ↔ GivesOption g (some v) o ∧ ∀ a ∈ o, P a := by
    by_cases hv : v = null
    · subst hv
      cases o with
      | none => simp [asOption, GivesOption]
      | some a => simp [asOption, GivesOption, (hnull a).symm]
    · have hsome : asOption read v = (read v).map some := by
        cases v <;> first | rfl | exact absurd rfl hv
      rw [hsome]
      cases o with
      | none => cases read v <;> simp [GivesOption, Except.map, hv]
      | some a =>
        have ha := hread v a
        cases hr : read v <;> simp_all [GivesOption, Except.map]
  rw [fieldOr_eq_ok_iff]
  cases valueOf? kept key with
  | none => cases o <;> simp [GivesOption]
  | some v => simp [hvalue]

end AccessGate.Json
