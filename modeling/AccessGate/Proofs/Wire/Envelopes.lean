import AccessGate.Proofs.Json.Bounds
import AccessGate.Proofs.Message.Agreement
import AccessGate.Proofs.Wire.Records

/-!
# Envelopes are read back as they were written

An envelope is written as one object, the header's fields first and the body's members beside them.
It is read back if no member of the body is a header field and the body can be read from its members
(`Envelope.decode_encode`). What was read from a message is such an envelope: the body was read from
the members that are no header fields, and a text nests no deeper and holds no greater integers than
can be read.
-/

namespace AccessGate.Envelope

open Json

variable {β : Type} {format : BodyFormat β} {operation message : String} {e : Envelope β}
  {ms : List (String × Json)}

/-- The body of an envelope is read from the members that are no header fields. -/
theorem body_of_decode (h : decode format operation message = .ok e) :
    ∃ ms, parse? message = some (.object ms) ∧
      format.read (ms.filter fun m => !isHeaderKey m.1) = .ok e.body := by
  unfold decode at h
  cases hparse : Json.parse? message with
  | none => rw [hparse] at h; cases h
  | some j =>
    rw [hparse] at h
    cases j with
    | object ms =>
      refine ⟨ms, rfl, ?_⟩
      cases hread : ofJson format (.object ms) with
      | error fault => simp only [hread, reduceCtorEq] at h
      | ok e' =>
        simp only [hread, Except.ok.injEq] at h
        subst h
        obtain ⟨kept, -, hread⟩ := bind_eq_ok_iff.1 hread
        obtain ⟨header, -, hread⟩ := bind_eq_ok_iff.1 hread
        obtain ⟨body, hbody, he⟩ := bind_eq_ok_iff.1 hread
        obtain rfl := Except.ok.inj he
        exact hbody
    | null | bool | number | string | array => cases h

/-- An envelope whose body can be read from its members is read back. -/
theorem decode_encode (e : Envelope β) (operation : String)
    (hothers : ∀ m ∈ format.write e.body, isHeaderKey m.1 = false)
    (hread : ∀ m ∈ format.write e.body, m.2.Readable 126)
    (hbody : format.read (format.write e.body) = .ok e.body) :
    decode format operation (e.encode format) = .ok e := by
  have hwritten := e.header.written 126
  have htake := hwritten.takeFields (by decide) hothers
  have hfilter : ((e.header.members ++ format.write e.body).filter fun m => !isHeaderKey m.1) =
      format.write e.body := hwritten.filter_others hothers
  have hparse : parse? (e.encode format) = some (e.toJson format) :=
    parse?_text (readable_object (List.forall_mem_append.2 ⟨hwritten.readable, hread⟩))
  simp only [decode, hparse, toJson, ofJson, htake, hfilter, e.header.ofFields_members, hbody, bind,
    Except.bind]

/-! ## Every other member as the body -/

/-- The members of such a body are values of the message as maps, under keys that are no header
fields. -/
theorem exists_of_mem_rest {e : Envelope (List (String × Json))}
    (h : decode .rest operation message = .ok e) :
    e.body = (Json.object e.body).canonical.members ∧
    ∃ ms, parse? message = some (.object ms) ∧
      ∀ m ∈ e.body, ∃ m' ∈ ms, m = (m'.1, m'.2.canonical) ∧ isHeaderKey m.1 = false := by
  obtain ⟨ms, hparse, hbody⟩ := body_of_decode h
  have hcanonical : (Json.object (ms.filter fun m => !isHeaderKey m.1)).canonical.members =
      e.body := Except.ok.inj hbody
  refine ⟨?_, ms, hparse, fun m hm => ?_⟩
  · rw [← hcanonical, ← canonical_object, canonical_canonical]
  · rw [← hcanonical] at hm
    obtain ⟨m', hm', rfl⟩ := exists_of_mem_canonical hm
    obtain ⟨hm', hkey⟩ := List.mem_filter.1 hm'
    exact ⟨m', hm', rfl, by simpa using hkey⟩

/-- An envelope with an object as its body is read back if there are no fractions in it. -/
theorem decode_encode_rest {e : Envelope (List (String × Json))}
    (h : decode .rest operation message = .ok e)
    (hnumbers : ∀ b, Number.float b ∉ (Json.object e.body).numbers) (operation' : String) :
    decode .rest operation' (e.encode .rest) = .ok e := by
  obtain ⟨hcanonical, ms, hparse, hmembers⟩ := exists_of_mem_rest h
  obtain ⟨hdepth, hfits⟩ := within_of_parse? hparse
  refine decode_encode e operation' ?_ ?_ ?_
  · intro m hm
    obtain ⟨m', -, -, hkey⟩ := hmembers m hm
    exact hkey
  · intro m hm
    obtain ⟨m', hm', rfl, -⟩ := hmembers m hm
    refine ⟨fun x hx => ?_, Nat.le_trans (depth_canonical_le _)
      (depth_object_le_succ_iff.1 hdepth m' hm')⟩
    cases x with
    | integer n =>
      exact hfits n (mem_numbers_object.2 ⟨m', hm', numbers_canonical_subset _ hx⟩)
    | float b => exact absurd (mem_numbers_object.2 ⟨_, hm, hx⟩) (hnumbers b)
  · exact congrArg Except.ok hcanonical.symm

end AccessGate.Envelope

namespace AccessGate

open Json

/-! ## A key with a lifetime -/

namespace KeyBody

/-- A lifetime that was read fits 64 bits. -/
theorem ttl_of_ofMembers {ms : List (String × Json)} {b : KeyBody} (h : ofMembers ms = .ok b) :
    ∀ n ∈ b.ttl, IsInt64 n := by
  obtain ⟨kept, -, h⟩ := bind_eq_ok_iff.1 h
  obtain ⟨-, -, h⟩ := bind_eq_ok_iff.1 h
  obtain ⟨key, -, h⟩ := bind_eq_ok_iff.1 h
  obtain ⟨ttl, httl, h⟩ := bind_eq_ok_iff.1 h
  obtain rfl := Except.ok.inj h
  intro n hn
  obtain ⟨j, hj⟩ := read_of_fieldOr_none httl n hn
  exact range_of_asInteger hj

/-- A body with a key and a lifetime is a record. -/
theorem written (b : KeyBody) (h : ∀ n ∈ b.ttl, IsInt64 n) :
    Written 126 fields b.members := by
  have hinteger : ∀ n ∈ b.ttl, (ofInt n).Readable 126 :=
    fun n hn => readable_ofInt (h n hn).isInteger
  exact .put (check_must rfl) (readable_string b.key)
    (.last b.ttl rfl (fun n hn => check_may (asOption_asInt64_ofInt (h n hn))) hinteger)

/-- The body is read from the members it is written as. -/
theorem ofMembers_members (b : KeyBody) (h : ∀ n ∈ b.ttl, IsInt64 n) :
    ofMembers b.members = .ok b := by
  have hwritten := b.written h
  have htake := hwritten.takeFields_self (by decide)
  have httl := asOption_map (o := b.ttl) fun n hn => asOption_asInt64_ofInt (h n hn)
  simp only [ofMembers, htake, hwritten.requireFields, bind, Except.bind]
  simp [members, field_eq, fieldOr_eq, valueOf?_cons, asString, httl]

end KeyBody

/-- An envelope with a key and a lifetime is read back. -/
theorem Envelope.decode_encode_keyed {operation message : String} {e : Envelope KeyBody}
    (h : decode .keyed operation message = .ok e) (operation' : String) :
    decode .keyed operation' (e.encode .keyed) = .ok e := by
  obtain ⟨ms, -, hbody⟩ := body_of_decode h
  have httl := KeyBody.ttl_of_ofMembers hbody
  have hwritten := e.body.written httl
  refine decode_encode e operation' ?_ hwritten.readable (e.body.ofMembers_members httl)
  intro m hm
  obtain ⟨f, hf, hkey, -⟩ := hwritten.exists_field m hm
  rw [← hkey]
  simp only [KeyBody.fields, List.mem_cons, List.not_mem_nil, or_false] at hf
  rcases hf with rfl | rfl <;> rfl

end AccessGate
