import AccessGate.Proofs.Wire.Envelopes

/-!
# Wire forms are read back

What the program writes as JSON text it reads back as the same value: permissions, roles and their
classes, validators' answers, request headers, access patterns, outcomes, audit records, replies and
envelopes (`wire_forms_read_back`). What each form needs is in `Proofs.Wire.Records` and
`Proofs.Wire.Envelopes`.
-/

namespace AccessGate

open Json

/-- **Wire forms are read back.** The JSON text of a value is read as the value: for every
permission, role, class of roles, request header, access pattern and outcome, whatever texts it
holds; for every validator's answer whose expiry is an integer of 64 bits with a sign; for every
audit record whose identifier and time are read back from their own texts; and for every reply whose
data is a map all the way down, has no numbers but integers of 64 bits and nests no deeper than a
text may, except that data that is null comes back as none. Whatever envelope is read from a message
is read back from its text: with every other member as its body, as long as there is no
floating-point number in it, and with a key and a lifetime. -/
theorem wire_forms_read_back :
    (∀ p : Permission, Permission.ofText p.toJson.text = .ok p) ∧
    (∀ r : Role, Role.ofText r.toJson.text = .ok r) ∧
    (∀ c : ScopeClass, ScopeClass.ofText (Json.string c.name).text = .ok c) ∧
    (∀ r : ValidationReply, (∀ n ∈ r.expiresAt, IsInt64 n) →
      ValidationReply.ofText r.toJson.text = .ok r) ∧
    (∀ h : RequestHeader, RequestHeader.ofText h.toJson.text = .ok h) ∧
    (∀ p : AccessPattern, AccessPattern.ofText p.toJson.text = .ok p) ∧
    (∀ o : AuditOutcome, AuditOutcome.ofText o.toJson.text = .ok o) ∧
    (∀ r : AuditRecord, Uuid.ofText r.id.text = .ok r.id →
      Timestamp.ofText r.timestamp.text = .ok r.timestamp →
      AuditRecord.ofText r.toJson.text = .ok r) ∧
    (∀ r : Reply,
      (∀ j ∈ r.data, j.canonical = j ∧ (∀ x ∈ j.numbers, x.IsInteger) ∧ j.depth < depthLimit) →
      Reply.ofText r.toJson.text = .ok { r with data := r.data.filter (· ≠ .null) }) ∧
    (∀ operation operation' message e,
      Envelope.decode .rest operation message = .ok e →
      (∀ b, Number.float b ∉ (Json.object e.body).numbers) →
      Envelope.decode .rest operation' (e.encode .rest) = .ok e) ∧
    ∀ operation operation' message e,
      Envelope.decode .keyed operation message = .ok e →
      Envelope.decode .keyed operation' (e.encode .keyed) = .ok e :=
  ⟨Permission.ofText_text, Role.ofText_text,
    fun c => (decodeText_string _ _ _).trans (c.ofJson_name .text), ValidationReply.ofText_text,
    RequestHeader.ofText_text,
    fun p => (decodeText_string _ _ _).trans (p.ofJson_toJson .text), AuditOutcome.ofText_text,
    AuditRecord.ofText_text, Reply.ofText_text,
    fun _ operation' _ _ h hnumbers => Envelope.decode_encode_rest h hnumbers operation',
    fun _ operation' _ _ h => Envelope.decode_encode_keyed h operation'⟩

/-- The earliest expiry, an outcome that carries a pattern beside the fields of its record, the
greatest integer and null as data, and messages with a member that is there twice. -/
theorem wire_forms_read_back_extremes :
    let answer : ValidationReply :=
      { valid := true, permissions := ["state:*", "\"\\\x01"], expiresAt := some (-Nat.pow 2 63) }
    let r : AuditRecord :=
      { id := ⟨0x123e4567e89b12d3a456426614174000⟩
        timestamp := ⟨1700000000, 123456789⟩
        entry := {
          credential := some "c"
          operation := "get"
          scope := "org.x"
          outcome := .granted .bound } }
    let greatest : Reply :=
      { status := .success, data := some (.array [.null, .number (.integer (Nat.pow 2 64 - 1))]) }
    let message := "\x7b\"x\":1,\"scope\":\"s\",\"x\":[\x7b\x7d],\"credential\":\"t\"\x7d"
    let e : Envelope (List (String × Json)) := ⟨⟨"t", "s"⟩, [("x", .array [.object []])]⟩
    let keyed := "\x7b\"y\":1,\"key\":\"k\",\"y\":2,\"scope\":\"s\",\"ttl\":-1\x7d"
    let e' : Envelope KeyBody := ⟨⟨"", "s"⟩, ⟨"k", some (-1)⟩⟩
    ValidationReply.ofText answer.toJson.text = .ok answer ∧
      AuditRecord.ofText r.toJson.text = .ok r ∧
      Reply.ofText greatest.toJson.text = .ok greatest ∧
      Reply.ofText (Reply.ok (some .null)).toJson.text = .ok (Reply.ok none) ∧
      Envelope.decode .rest "get" message = .ok e ∧
      Envelope.decode .rest "set" (e.encode .rest) = .ok e ∧
      Envelope.decode .keyed "get" keyed = .ok e' ∧
      Envelope.decode .keyed "set" (e'.encode .keyed) = .ok e' := by
  intro answer r greatest message e keyed e'
  obtain ⟨-, -, -, hanswer, -, -, -, hrecord, hreply, hrest, hkeyed⟩ := wire_forms_read_back
  have hid : Uuid.ofText r.id.text = .ok r.id := by decide +kernel
  have htime : Timestamp.ofText r.timestamp.text = .ok r.timestamp := by decide +kernel
  have hmessage : Envelope.decode .rest "get" message = .ok e := by decide +kernel
  have hnumbers : ∀ b, Number.float b ∉ (Json.object e.body).numbers := by
    intro b
    exact List.not_mem_nil
  have hkeyed' : Envelope.decode .keyed "get" keyed = .ok e' := by decide +kernel
  refine ⟨hanswer answer ?_, hrecord r hid htime, hreply greatest ?_, hreply _ ?_, hmessage,
    hrest "get" "set" message e hmessage hnumbers, hkeyed', hkeyed "get" "set" keyed e' hkeyed'⟩
  · rintro n ⟨⟩
    decide
  · rintro j ⟨⟩
    decide +kernel
  · rintro j ⟨⟩
    decide +kernel

end AccessGate
