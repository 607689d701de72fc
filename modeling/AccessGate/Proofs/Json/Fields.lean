import AccessGate.Json.Decode
import AccessGate.Proofs.Json.Members
import Mathlib.Data.List.Sort

/-!
# The fields of a record among the members of an object

`Json.takeFields` keeps the members that are fields, and succeeds exactly when none of them is there
twice and each passes its check (`Json.takeFields_eq_ok_iff`). When the checked values are maps all
the way down, as strings are, the fields kept from the members as they were written are those kept
from the object as a map (`Json.takeFields_canonical`). What is taken from an object as a map, or
why nothing can be, depends on the last members with the fields' keys only
(`Json.takeFields_canonical_congr`).
-/

namespace AccessGate.Json

variable {fields : List Field} {kept kept' ms ms' : List (String × Json)} {key : String} {v : Json}

/-- Whether a key is that of a field. -/
def isField (fields : List Field) (key : String) : Bool := fields.any (·.key == key)

/-- A key is that of a field exactly if a field with it is found. -/
theorem isField_iff : isField fields key = true ↔ ∃ f, fields.find? (·.key == key) = some f := by
  rw [isField, List.any_eq_true, ← List.find?_isSome, Option.isSome_iff_exists]

/-- No field is found for a key that is not that of a field. -/
theorem find?_eq_none_of_not_isField (h : isField fields key = false) :
    fields.find? (·.key == key) = none := by
  rw [List.find?_eq_none]
  intro f hf hkey
  have hany : isField fields key = true := List.any_eq_true.2 ⟨f, hf, hkey⟩
  rw [h] at hany
  cases hany

/-- That a member with the key of a field has a value that passes the field's check. -/
def Passes (fields : List Field) (m : String × Json) : Prop :=
  ∀ f, fields.find? (·.key == m.1) = some f → f.check m.2 = .ok ()

/-- Fields are taken from members exactly when none is there twice and each passes its check. -/
theorem takeFields_eq_ok_iff (hkept : (kept.map Prod.fst).Nodup) :
    takeFields fields kept ms = .ok kept' ↔
      kept' = kept ++ ms.filter (fun m => isField fields m.1) ∧ (kept'.map Prod.fst).Nodup ∧
        ∀ m ∈ ms, Passes fields m := by
  induction ms generalizing kept with
  | nil =>
    rw [takeFields, List.filter_nil, List.append_nil]
    constructor
    · intro h
      obtain rfl := Except.ok.inj h
      exact ⟨rfl, hkept, fun m hm => absurd hm List.not_mem_nil⟩
    · rintro ⟨rfl, -, -⟩
      rfl
  | cons m ms ih =>
    obtain ⟨k, v⟩ := m
    rw [takeFields]
    cases hk : isField fields k with
    | false =>
      have hfind := find?_eq_none_of_not_isField hk
      have hpass : Passes fields (k, v) := fun f hf => by rw [hfind] at hf; cases hf
      simp only [hfind, ih hkept, List.filter_cons, hk, Bool.false_eq_true, if_false,
        List.forall_mem_cons, hpass, true_and]
    | true =>
      obtain ⟨f, hfind⟩ := isField_iff.1 hk
      simp only [hfind, List.filter_cons, hk, if_true, List.forall_mem_cons]
      cases hany : kept.any (·.1 == k) with
      | true =>
        -- The field has been met before, so it would be kept twice.
        constructor
        · intro h
          cases h
        · rintro ⟨rfl, hnd, -⟩
          obtain ⟨n, hn, hnk⟩ := List.any_eq_true.1 hany
          have hnk : n.1 = k := by simpa using hnk
          rw [List.map_append, List.map_cons] at hnd
          exact absurd (hnk ▸ List.mem_map.2 ⟨n, hn, rfl⟩)
            fun hmem => (List.nodup_append.1 hnd).2.2 k hmem k List.mem_cons_self rfl
      | false =>
        have hnot : k ∉ kept.map Prod.fst := by
          intro hmem
          obtain ⟨n, hn, hnk⟩ := List.mem_map.1 hmem
          have hany' : kept.any (·.1 == k) = true :=
            List.any_eq_true.2 ⟨n, hn, by simpa using hnk⟩
          rw [hany] at hany'
          cases hany'
        have hkept' : ((kept ++ [(k, v)]).map Prod.fst).Nodup := by
          rw [List.map_append]
          refine List.nodup_append.2 ⟨hkept, List.nodup_singleton _, fun a ha b hb hab => ?_⟩
          rw [hab, List.mem_singleton.1 hb] at ha
          exact hnot ha
        cases hcheck : f.check v with
        | error fault =>
          constructor
          · intro h
            cases h
          · rintro ⟨-, -, hpass, -⟩
            have hok := hpass f hfind
            rw [hcheck] at hok
            cases hok
        | ok u =>
          have hpass : Passes fields (k, v) := by
            intro f' hf'
            rw [hfind] at hf'
            obtain rfl := Option.some.inj hf'
            exact hcheck
          refine (ih hkept').trans ?_
          simp only [List.append_assoc, List.singleton_append, hpass, true_and]

/-- Fields are taken from an object exactly when none is there twice and each passes its check. -/
theorem takeFields_nil_eq_ok_iff :
    takeFields fields [] ms = .ok kept ↔
      kept = ms.filter (fun m => isField fields m.1) ∧ (kept.map Prod.fst).Nodup ∧
        ∀ m ∈ ms, Passes fields m :=
  takeFields_eq_ok_iff List.nodup_nil

/-! ## Fields of a map -/

/-- Keys stay distinct if members are left out. -/
theorem nodup_keys_filter (p : String × Json → Bool) (h : (ms.map Prod.fst).Nodup) :
    ((ms.filter p).map Prod.fst).Nodup :=
  h.sublist (List.filter_sublist.map Prod.fst)

/-- Where whatever passes a check is a map already, fields that can be taken from the members as
they were written can be taken from the object as a map, and have the same values. -/
theorem takeFields_canonical (hmap : ∀ f ∈ fields, ∀ v, f.check v = .ok () → v.canonical = v)
    (h : takeFields fields [] ms = .ok kept) :
    ∃ kept', takeFields fields [] (object ms).canonical.members = .ok kept' ∧
      ∀ key, isField fields key = true → valueOf? kept' key = valueOf? kept key := by
  obtain ⟨hkept, hnd, hpass⟩ := takeFields_nil_eq_ok_iff.1 h
  have hsame (k : String) (v : Json) (hk : isField fields k = true) (hmem : (k, v) ∈ ms) :
      v.canonical = v := by
    obtain ⟨f, hf⟩ := isField_iff.1 hk
    exact hmap f (List.mem_of_find?_eq_some hf) v (hpass _ hmem f hf)
  have hsorted : ((object ms).canonical.members.map Prod.fst).Nodup := by
    rw [canonical]
    exact nodup_keys_sortMembers _
  refine ⟨_, takeFields_nil_eq_ok_iff.2 ⟨rfl, ?_, ?_⟩, ?_⟩
  · exact nodup_keys_filter _ hsorted
  · rintro ⟨k, v'⟩ hm f hf
    have hk := isField_iff.2 ⟨f, hf⟩
    have hv := (valueOf?_eq_some_iff hsorted).2 hm
    rw [valueOf?_canonical] at hv
    obtain ⟨v, hlast, rfl⟩ := Option.map_eq_some_iff.1 hv
    have hmem : (k, v) ∈ ms := List.mem_reverse.1 (mem_of_valueOf? hlast)
    rw [hsame k v hk hmem]
    exact hpass _ hmem f hf
  · intro key hkey
    calc valueOf? ((object ms).canonical.members.filter fun m => isField fields m.1) key
        = valueOf? (object ms).canonical.members key := valueOf?_filter hkey _
      _ = (valueOf? ms.reverse key).map canonical := valueOf?_canonical ms key
      _ = (valueOf? kept.reverse key).map canonical := by
          rw [hkept, ← List.filter_reverse, valueOf?_filter hkey]
      _ = (valueOf? kept key).map canonical := by rw [valueOf?_reverse hnd]
      _ = valueOf? kept key := by
          cases hv : valueOf? kept key with
          | none => rfl
          | some v =>
            have hmem : (key, v) ∈ ms := by
              have hmem := mem_of_valueOf? hv
              rw [hkept] at hmem
              exact (List.mem_filter.1 hmem).1
            exact congrArg some (hsame key v hkey hmem)

/-- Members that are no fields are passed over. -/
theorem takeFields_filter (fields : List Field) (kept ms : List (String × Json)) :
    takeFields fields kept (ms.filter fun m => isField fields m.1) = takeFields fields kept ms := by
  induction ms generalizing kept with
  | nil => rfl
  | cons m ms ih =>
    obtain ⟨k, v⟩ := m
    cases hk : isField fields k with
    | false =>
      simp only [List.filter_cons, hk, Bool.false_eq_true, if_false, ih, takeFields,
        find?_eq_none_of_not_isField hk]
    | true => simp only [List.filter_cons, hk, if_true, ih, takeFields]

/-- Two objects with the same last member for each field are the same as maps, fields only. -/
theorem filter_canonical_congr
    (h : ∀ key, isField fields key = true → (object ms).member? key = (object ms').member? key) :
    (object ms).canonical.members.filter (fun m => isField fields m.1) =
      (object ms').canonical.members.filter fun m => isField fields m.1 := by
  have hsorted (ms : List (String × Json)) :
      ((object ms).canonical.members.filter fun m => isField fields m.1).Pairwise (·.1 < ·.1) := by
    rw [canonical]
    exact (sortMembers_pairwise _).sublist List.filter_sublist
  have hnodup (ms : List (String × Json)) : ((object ms).canonical.members.map Prod.fst).Nodup := by
    rw [canonical]
    exact nodup_keys_sortMembers _
  have hne {m n : String × Json} (hlt : m.1 < n.1) : m ≠ n := by
    rintro rfl
    exact String.lt_irrefl _ hlt
  have hmem (m : String × Json) (ms : List (String × Json)) (hm : isField fields m.1 = true) :
      m ∈ (object ms).canonical.members ↔ ((object ms).member? m.1).map canonical = some m.2 := by
    rw [← valueOf?_eq_some_iff (hnodup ms), valueOf?_canonical]
    rfl
  refine List.Perm.eq_of_pairwise (fun m n _ _ hmn hnm => ?_) (hsorted ms) (hsorted ms') ?_
  · exact absurd (String.lt_trans hmn hnm) (String.lt_irrefl _)
  · refine (List.perm_ext_iff_of_nodup ((hsorted ms).imp hne) ((hsorted ms').imp hne)).2 fun m => ?_
    rw [List.mem_filter, List.mem_filter]
    refine and_congr_left fun hm => ?_
    rw [hmem m ms hm, hmem m ms' hm, h m.1 hm]

/-- From two objects with the same last member for each field, the same is taken as maps. -/
theorem takeFields_canonical_congr (kept : List (String × Json))
    (h : ∀ key, isField fields key = true → (object ms).member? key = (object ms').member? key) :
    takeFields fields kept (object ms).canonical.members =
      takeFields fields kept (object ms').canonical.members := by
  rw [← takeFields_filter, filter_canonical_congr h, takeFields_filter]

/-! ## The values of fields -/

/-- The value of a field that may be left out is read off the member with its key. -/
theorem fieldOr_eq {α : Type} (kept : List (String × Json)) (key : String) (d : α)
    (read : Json → Except DecodeError α) :
    fieldOr kept key d read = ((valueOf? kept key).map read).getD (.ok d) := by
  rw [fieldOr, valueOf?]
  cases kept.find? (·.1 == key) <;> rfl

/-- A field depends on the value under its key only. -/
theorem fieldOr_congr {α : Type} (d : α) (read : Json → Except DecodeError α)
    (h : valueOf? kept key = valueOf? kept' key) :
    fieldOr kept key d read = fieldOr kept' key d read := by
  rw [fieldOr_eq, fieldOr_eq, h]

/-- A string is read of a string only. -/
theorem asString_eq_ok_iff {j : Json} {s : String} : asString j = .ok s ↔ j = string s := by
  cases j <;> simp [asString]

end AccessGate.Json
