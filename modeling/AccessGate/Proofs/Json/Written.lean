import AccessGate.Json.Document
import AccessGate.Proofs.Json.Fields
import AccessGate.Proofs.Json.RoundTrip

/-!
# Records as they are written

A record is written as an object with its fields in their order, those that are absent left out.
`Json.Written` says that members are such fields: each passes the check of its field, and can be
read back. The fields of a record are then all taken from its members (`Json.Written.takeFields`,
`Json.Written.asRecord`), and the text of the object is read as the object
(`Json.Written.parse?_text`). What is read of each field is the value of its key
(`Json.field_eq`, `Json.fieldOr_eq`).
-/

namespace AccessGate.Json

variable {n : Nat} {f : Field} {fields fs : List Field} {ms ms' : List (String × Json)}

/-- Members that are written for fields: in the fields' order, each with a value that passes the
field's check and can be read back from a text that nests so deep, and none left out that must be
there. -/
inductive Written (n : Nat) : List Field → List (String × Json) → Prop
  | nil : Written n [] []
  | put {f : Field} {v : Json} {fs : List Field} {ms : List (String × Json)}
    (hcheck : f.check v = .ok ()) (hread : v.Readable n) (h : Written n fs ms) :
    Written n (f :: fs) ((f.key, v) :: ms)
  | leave {f : Field} {fs : List Field} {ms : List (String × Json)} (hmay : f.required = false)
    (h : Written n fs ms) : Written n (f :: fs) ms

namespace Written

/-- A field that is left out when it is absent. -/
theorem option {α : Type} {g : α → Json} (o : Option α) (hmay : f.required = false)
    (hcheck : ∀ a ∈ o, f.check (g a) = .ok ()) (hread : ∀ a ∈ o, (g a).Readable n)
    (h : Written n fs ms) :
    Written n (f :: fs) ((o.map fun a => (f.key, g a)).toList ++ ms) := by
  cases o with
  | none => exact .leave hmay h
  | some a => exact .put (hcheck a rfl) (hread a rfl) h

/-- A field at the end that is left out when it is absent. -/
theorem last {α : Type} {g : α → Json} (o : Option α) (hmay : f.required = false)
    (hcheck : ∀ a ∈ o, f.check (g a) = .ok ()) (hread : ∀ a ∈ o, (g a).Readable n) :
    Written n [f] (o.map fun a => (f.key, g a)).toList := by
  rw [← List.append_nil (o.map _).toList]
  exact option o hmay hcheck hread .nil

/-- The members of a record stand in the order of its fields. -/
theorem keys_sublist (h : Written n fields ms) :
    (ms.map Prod.fst).Sublist (fields.map Field.key) := by
  induction h with
  | nil => exact .slnil
  | put _ _ _ ih => exact ih.cons_cons _
  | leave _ _ ih => exact ih.cons _

/-- Every value of a record can be read. -/
theorem readable (h : Written n fields ms) : ∀ m ∈ ms, m.2.Readable n := by
  induction h with
  | nil => nofun
  | put _ hread _ ih => exact List.forall_mem_cons.2 ⟨hread, ih⟩
  | leave _ _ ih => exact ih

/-- Every member is that of a field whose check it passes. -/
theorem exists_field (h : Written n fields ms) :
    ∀ m ∈ ms, ∃ f ∈ fields, f.key = m.1 ∧ f.check m.2 = .ok () := by
  induction h with
  | nil => nofun
  | put hcheck _ _ ih =>
    refine List.forall_mem_cons.2 ⟨⟨_, List.mem_cons_self, rfl, hcheck⟩, fun m hm => ?_⟩
    obtain ⟨f, hf, hm⟩ := ih m hm
    exact ⟨f, List.mem_cons_of_mem _ hf, hm⟩
  | leave _ _ ih =>
    intro m hm
    obtain ⟨f, hf, hm⟩ := ih m hm
    exact ⟨f, List.mem_cons_of_mem _ hf, hm⟩

/-- No required field is missing. -/
theorem mem_of_required (h : Written n fields ms) :
    ∀ f ∈ fields, f.required = true → f.key ∈ ms.map Prod.fst := by
  induction h with
  | nil => nofun
  | put _ _ _ ih =>
    refine List.forall_mem_cons.2 ⟨fun _ => List.mem_cons_self, fun f hf hreq => ?_⟩
    exact List.mem_cons_of_mem _ (ih f hf hreq)
  | leave hmay _ ih =>
    refine List.forall_mem_cons.2 ⟨fun hreq => ?_, ih⟩
    rw [hmay] at hreq
    cases hreq

/-- Of fields with different keys, the one with the key of a field is the field. -/
theorem find?_key (hnd : (fields.map Field.key).Nodup) (hf : f ∈ fields) :
    fields.find? (·.key == f.key) = some f := by
  induction fields with
  | nil => cases hf
  | cons f' fs ih =>
    rw [List.map_cons, List.nodup_cons] at hnd
    rcases List.mem_cons.1 hf with rfl | hf
    · simp
    · have hne : (f'.key == f.key) = false := by
        refine beq_false_of_ne fun he => hnd.1 ?_
        rw [he]
        exact List.mem_map_of_mem hf
      rw [List.find?_cons, hne]
      exact ih hnd.2 hf

/-- Every member of a record is a field. -/
theorem isField_of_mem (h : Written n fields ms) : ∀ m ∈ ms, isField fields m.1 = true := by
  intro m hm
  obtain ⟨f, hf, hkey, -⟩ := h.exists_field m hm
  exact List.any_eq_true.2 ⟨f, hf, by simpa using hkey⟩

/-- The fields are taken from the members, also with others beside them. -/
theorem takeFields (h : Written n fields ms) (hnd : (fields.map Field.key).Nodup)
    (hothers : ∀ m ∈ ms', isField fields m.1 = false) :
    takeFields fields [] (ms ++ ms') = .ok ms := by
  have hfield := h.isField_of_mem
  refine takeFields_nil_eq_ok_iff.2 ⟨?_, hnd.sublist h.keys_sublist, fun m hm f hfind => ?_⟩
  · rw [List.filter_append, List.filter_eq_self.2 hfield,
      List.filter_eq_nil_iff.2 fun m hm => by simp [hothers m hm], List.append_nil]
  · have hfind' : isField fields m.1 = true := isField_iff.2 ⟨f, hfind⟩
    rcases List.mem_append.1 hm with hm | hm
    · obtain ⟨f', hf', hkey, hcheck⟩ := h.exists_field m hm
      rw [← hkey, find?_key hnd hf'] at hfind
      obtain rfl := Option.some.inj hfind
      exact hcheck
    · rw [hothers m hm] at hfind'
      cases hfind'

/-- All members of a record are taken. -/
theorem takeFields_self (h : Written n fields ms) (hnd : (fields.map Field.key).Nodup) :
    Json.takeFields fields [] ms = .ok ms := by
  have htake : Json.takeFields fields [] (ms ++ []) = .ok ms := h.takeFields hnd nofun
  rwa [List.append_nil] at htake

/-- A record misses no required field. -/
theorem requireFields (h : Written n fields ms) : requireFields fields ms = .ok () := by
  have hnone : (fields.find? fun f => f.required && !ms.any (·.1 == f.key)) = none := by
    refine List.find?_eq_none.2 fun f hf => ?_
    cases hreq : f.required with
    | false => simp
    | true =>
      obtain ⟨m, hm, hkey⟩ := List.mem_map.1 (h.mem_of_required f hf hreq)
      have hany : ms.any (·.1 == f.key) = true := List.any_eq_true.2 ⟨m, hm, by simpa using hkey⟩
      simp [hany]
  rw [Json.requireFields, hnone]

/-- The members beside those of the fields. -/
theorem filter_others (h : Written n fields ms)
    (hothers : ∀ m ∈ ms', isField fields m.1 = false) :
    ((ms ++ ms').filter fun m => !isField fields m.1) = ms' := by
  have hfield := h.isField_of_mem
  rw [List.filter_append, List.filter_eq_nil_iff.2 fun m hm => by simp [hfield m hm],
    List.nil_append, List.filter_eq_self.2 fun m hm => by simp [hothers m hm]]

/-- The text of the object with the members is read as the object. -/
theorem parse?_text (h : Written n fields ms) (hn : n < depthLimit) :
    parse? (object ms).text = some (object ms) :=
  Json.parse?_text ((readable_object h.readable).mono hn)

/-- The fields of a record are read from the object that it is written as. -/
theorem asRecord (h : Written n fields ms) (hnd : (fields.map Field.key).Nodup) (record : String)
    (source : Source) : asRecord record fields source (.object ms) = .ok ms := by
  simp only [Json.asRecord, h.takeFields_self hnd, h.requireFields, bind, Except.bind]

end Written

/-! ## The values of fields -/

/-- A reading in two steps succeeds when both do. -/
theorem bind_eq_ok_iff {ε α β : Type} {x : Except ε α} {f : α → Except ε β} {b : β} :
    (x >>= f) = .ok b ↔ ∃ a, x = .ok a ∧ f a = .ok b := by
  cases x <;> simp [bind, Except.bind]

/-- A required field is the reading of its value, or missing. -/
theorem field_eq {α : Type} (kept : List (String × Json)) (key : String)
    (read : Json → Except DecodeError α) :
    field kept key read = ((valueOf? kept key).map read).getD (.error (.missingField key)) := by
  rw [field, valueOf?]
  cases kept.find? (·.1 == key) <;> rfl

/-- The value of a key among members of which the first are that of a field that may be absent. -/
@[simp] theorem valueOf?_option_append {α : Type} (o : Option α) (k : String) (g : α → Json)
    (ms : List (String × Json)) (key : String) :
    valueOf? ((o.map fun a => (k, g a)).toList ++ ms) key =
      if key = k then (o.map g).or (valueOf? ms key) else valueOf? ms key := by
  cases o with
  | none => simp
  | some a =>
    refine (valueOf?_cons _ _ _).trans ?_
    simp

/-- A member that may be left out has its value where it is not. -/
@[simp] theorem valueOf?_option {α : Type} (o : Option α) (k : String) (g : α → Json)
    (key : String) :
    valueOf? (o.map fun a => (k, g a)).toList key = if key = k then o.map g else none := by
  rw [← List.append_nil (o.map _).toList, valueOf?_option_append]
  simp [valueOf?]

/-- The value of a field that is left out when it is absent. -/
theorem asOption_map {α : Type} {read : Json → Except DecodeError α} {g : α → Json} {o : Option α}
    (h : ∀ a ∈ o, asOption read (g a) = .ok (some a)) :
    (o.map (asOption read ∘ g)).getD (.ok none) = .ok o := by
  cases o with
  | none => rfl
  | some a => exact h a rfl

@[simp] theorem asOption_map_string (o : Option String) :
    (o.map (asOption asString ∘ string)).getD (.ok none) = .ok o := asOption_map fun _ _ => rfl

/-- A text that may be null is read back. -/
@[simp] theorem asOption_ofOption_string (o : Option String) :
    asOption asString (ofOption string o) = .ok o := by
  cases o <;> rfl

/-- A list of texts is read back. -/
@[simp] theorem asList_map_string (l : List String) :
    asList asString (array (l.map string)) = .ok l := by
  rw [asList]
  induction l with
  | nil => rfl
  | cons s l ih => rw [List.map_cons, List.mapM_cons, ih]; rfl

/-- An integer in the range of its type is read back. -/
theorem asInteger_ofInt {low high i : Int} {type : String} (h : low ≤ i ∧ i < high) :
    asInteger low high type (ofInt i) = .ok i := if_pos h

/-- An integer of 64 bits with a sign is read back. -/
theorem asInt64_ofInt {i : Int} (h : IsInt64 i) : asInt64 (ofInt i) = .ok i :=
  asInteger_ofInt h

/-- A number that may be left out is read back. -/
theorem asOption_asInt64_ofInt {i : Int} (h : IsInt64 i) :
    asOption asInt64 (ofInt i) = .ok (some i) := by
  have hread := asInt64_ofInt h
  simp only [asOption, ofInt] at hread ⊢
  rw [hread]
  rfl

/-- An integer that was read is in the range of its type. -/
theorem range_of_asInteger {low high i : Int} {type : String} {j : Json}
    (h : asInteger low high type j = .ok i) : low ≤ i ∧ i < high := by
  unfold asInteger at h
  split at h
  · split at h
    · next hrange => exact Except.ok.inj h ▸ hrange
    · cases h
  · cases h

/-- What was read where null is allowed was read from the value. -/
theorem read_of_asOption {α : Type} {read : Json → Except DecodeError α} {j : Json} {o : Option α}
    (h : asOption read j = .ok o) : ∀ a ∈ o, read j = .ok a := by
  rintro a rfl
  unfold asOption at h
  split at h
  · cases h
  · cases hread : read j with
    | error fault => rw [hread] at h; cases h
    | ok b =>
      rw [hread] at h
      cases h
      rfl

/-- The value of a field that is there is read off it. -/
theorem fieldOr_of_value {α : Type} {kept : List (String × Json)} {key : String} {d a : α}
    {v : Json} {read : Json → Except DecodeError α} (hvalue : valueOf? kept key = some v)
    (h : read v = .ok a) : fieldOr kept key d read = .ok a := by
  rw [fieldOr_eq, hvalue, Option.map_some, Option.getD_some, h]

/-- What was read of a field that may be absent is its default or was read from a value. -/
theorem read_of_fieldOr {α : Type} {read : Json → Except DecodeError α} {key : String} {d a : α}
    {kept : List (String × Json)} (h : fieldOr kept key d read = .ok a) :
    a = d ∨ ∃ j, read j = .ok a := by
  rw [fieldOr_eq] at h
  cases hvalue : valueOf? kept key with
  | none =>
    rw [hvalue] at h
    exact .inl (Except.ok.inj h).symm
  | some j =>
    rw [hvalue] at h
    exact .inr ⟨j, h⟩

/-- What was read from a text was read from a value. -/
theorem read_of_decodeText {α : Type} {shape : Shape} {read : Json → Except DecodeError α}
    {text : String} {a : α} (h : decodeText shape read text = .ok a) : ∃ j, read j = .ok a := by
  unfold decodeText at h
  split at h
  · cases h
  · split at h
    · exact ⟨_, h⟩
    · split at h
      · next b hread =>
        cases h
        obtain ⟨j, -, hj⟩ := Option.map_eq_some_iff.1 hread
        exact ⟨j, hj⟩
      · cases h

/-- What was read of a field that may be absent or null was read from a value. -/
theorem read_of_fieldOr_none {α : Type} {read : Json → Except DecodeError α} {key : String}
    {kept : List (String × Json)} {o : Option α}
    (h : fieldOr kept key none (asOption read) = .ok o) : ∀ a ∈ o, ∃ j, read j = .ok a := by
  intro a ha
  rcases read_of_fieldOr h with rfl | ⟨j, hj⟩
  · cases ha
  · exact ⟨j, read_of_asOption hj a ha⟩

/-- A natural number of 64 bits is read back. -/
theorem asNat64_ofNat {i : Nat} (h : i < Nat.pow 2 64) (type : String) :
    asNat64 type (ofNat i) = .ok i := by
  have hrange : (0 : Int) ≤ i ∧ (i : Int) < Nat.pow 2 64 :=
    ⟨Int.natCast_nonneg i, Int.ofNat_lt.2 h⟩
  have hread : asInteger 0 (Nat.pow 2 64) type (ofNat i) = .ok (i : Int) := asInteger_ofInt hrange
  rw [asNat64, hread]
  rfl

/-- A natural number that was read fits 64 bits. -/
theorem lt_of_asNat64 {i : Nat} {type : String} {j : Json} (h : asNat64 type j = .ok i) :
    i < Nat.pow 2 64 := by
  unfold asNat64 at h
  cases hread : asInteger 0 (Nat.pow 2 64) type j with
  | error fault =>
    rw [hread] at h
    cases h
  | ok k =>
    rw [hread] at h
    obtain rfl := Except.ok.inj h
    obtain ⟨hlow, hhigh⟩ := range_of_asInteger hread
    exact (Int.toNat_lt hlow).2 hhigh

/-- A natural number of 64 bits can be read. -/
theorem readable_ofNat {i : Nat} (h : i < Nat.pow 2 64) : (ofNat i).Readable n :=
  readable_ofInt ⟨Int.le_trans (by decide) (Int.natCast_nonneg i), Int.ofNat_lt.2 h⟩

/-- A value passes the check of a field that it can be read for. -/
theorem check_must {α : Type} {key : String} {read : Json → Except DecodeError α} {v : Json} {a : α}
    (h : read v = .ok a) : (Field.must key read).check v = .ok () := by
  simp only [Field.must, h, Except.map]

/-- A field that may be left out passes its check if its value can be read. -/
theorem check_may {α : Type} {key : String} {read : Json → Except DecodeError α} {v : Json} {a : α}
    (h : read v = .ok a) : (Field.may key read).check v = .ok () := by
  simp only [Field.may, h, Except.map]

/-- A text that may be left out can be read. -/
theorem readable_ofOption_string (o : Option String) : (ofOption string o).Readable n := by
  cases o with
  | none => exact readable_null
  | some s => exact readable_string s

/-- A list of texts can be read. -/
theorem readable_strings (l : List String) : (array (l.map string)).Readable (n + 1) :=
  readable_array fun j hj => by
    obtain ⟨s, -, rfl⟩ := List.mem_map.1 hj
    exact readable_string s

end AccessGate.Json
