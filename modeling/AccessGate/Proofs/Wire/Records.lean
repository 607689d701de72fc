import AccessGate.Audit.Record
import AccessGate.Message.Header
import AccessGate.Permission.Wire
import AccessGate.Proofs.Json.Written
import AccessGate.Reply
import AccessGate.Role.Wire
import AccessGate.Validation.Reply

/-!
# Records are read back as they were written

The JSON text of a permission, a role, a validator's answer, a request header, an outcome, an audit
record or a reply is read as the value it was made of. For each the fields are read from the object
that the value is written as (`Json.Written`); what absent fields leave out is put back by their
defaults. An outcome is written beside the fields of its record and is found among the other
members, and the data of a reply is a value of its own, read back as a map.
-/

namespace AccessGate

open Json

/-! ## Names -/

/-- A class of scopes is read back. -/
theorem ScopeClass.ofJson_name (c : ScopeClass) (source : Source) :
    ofJson source (.string c.name) = .ok c := by
  cases c <;> rfl

/-- A pattern is read back. -/
theorem AccessPattern.ofJson_toJson (p : AccessPattern) (source : Source) :
    ofJson source p.toJson = .ok p := by
  cases p <;> rfl

/-- A status is read back. -/
theorem ReplyStatus.asVariant_name (s : ReplyStatus) (source : Source) :
    asVariant variants source (.string s.name) = .ok s := by
  cases s <;> rfl

/-- A name is a text by itself. -/
theorem decodeText_string {α : Type} (shape : Shape) (read : Json → Except DecodeError α)
    (s : String) : decodeText shape read (Json.string s).text = read (.string s) :=
  decodeText_of_parse? (parse?_text (readable_string s))

/-! ## Records -/

/-- A permission is read back. -/
theorem Permission.ofText_text (p : Permission) : ofText p.toJson.text = .ok p := by
  have hwritten : Written 0 fields p.toJson.members :=
    .put (check_must rfl) (readable_string p.name)
      (.last p.scope rfl (fun s _ => check_may rfl) fun s _ => readable_string s)
  have hparse : parse? p.toJson.text = some p.toJson := hwritten.parse?_text (by decide)
  have hrecord : asRecord "struct Permission" fields .text p.toJson = .ok p.toJson.members :=
    hwritten.asRecord (by decide) _ _
  rw [ofText, decodeText_of_parse? hparse, ofJson, hrecord]
  simp [toJson, Json.members, field_eq, fieldOr_eq, valueOf?_cons, asString, bind, Except.bind]

/-- A role is read back. -/
theorem Role.ofText_text (r : Role) : ofText r.toJson.text = .ok r := by
  have hclass := r.scopeClass.ofJson_name .text
  have hwritten : Written 1 (fields .text) r.toJson.members :=
    .put (check_must rfl) (readable_string r.name)
      (.put (check_must rfl) (readable_string r.description)
        (.put (check_must (asList_map_string r.permissions)) (readable_strings r.permissions)
          (.put (check_must hclass) (readable_string r.scopeClass.name) .nil)))
  have hparse : parse? r.toJson.text = some r.toJson := hwritten.parse?_text (by decide)
  have hrecord : asRecord "struct Role" (fields .text) .text r.toJson = .ok r.toJson.members :=
    hwritten.asRecord (by decide) _ _
  rw [ofText, decodeText_of_parse? hparse, ofJson, hrecord]
  simp [toJson, Json.members, field_eq, valueOf?_cons, asString, hclass, bind, Except.bind]

/-- A reply of the validator is read back if its expiry has 64 bits. -/
theorem ValidationReply.ofText_text (r : ValidationReply)
    (h : ∀ n ∈ r.expiresAt, IsInt64 n) : ofText r.toJson.text = .ok r := by
  have hstring (key : String) (o : Option String) :
      ∀ s ∈ o, (Field.may key (asOption asString)).check (string s) = .ok () :=
    fun s _ => check_may rfl
  have hread (o : Option String) : ∀ s ∈ o, (Json.string s).Readable 1 :=
    fun s _ => readable_string s
  have hexpires : ∀ n ∈ r.expiresAt, asOption asInt64 (ofInt n) = .ok (some n) :=
    fun n hn => asOption_asInt64_ofInt (h n hn)
  have hinteger : ∀ n ∈ r.expiresAt, (ofInt n).Readable 1 :=
    fun n hn => readable_ofInt (h n hn).isInteger
  have hwritten : Written 1 fields r.toJson.members := by
    simp only [toJson, Json.members, List.append_assoc]
    refine .put (check_must rfl) (readable_bool r.valid) ?_
    refine .option _ rfl (hstring _ _) (hread _) ?_
    refine .option _ rfl (hstring _ _) (hread _) ?_
    refine .option _ rfl (hstring _ _) (hread _) ?_
    refine .put (check_may (asList_map_string r.permissions)) (readable_strings r.permissions) ?_
    refine .option _ rfl (hstring _ _) (hread _) ?_
    refine .option _ rfl (fun n hn => check_may (hexpires n hn)) hinteger ?_
    exact .last _ rfl (hstring _ _) (hread _)
  have hparse : parse? r.toJson.text = some r.toJson := hwritten.parse?_text (by decide)
  have hrecord : asRecord "struct ValidationResponse" fields .text r.toJson =
      .ok r.toJson.members := hwritten.asRecord (by decide) _ _
  rw [ofText, decodeText_of_parse? hparse, ofJson, hrecord]
  simp [toJson, Json.members, field_eq, fieldOr_eq, valueOf?_cons, asBool, asOption_map hexpires,
    bind, Except.bind]

namespace RequestHeader

/-- A header is a record. -/
theorem written (h : RequestHeader) (n : Nat) : Written n fields h.members :=
  .put (check_may rfl) (readable_string h.credential)
    (.put (check_may rfl) (readable_string h.scope) .nil)

/-- The header is read from the members it is written as. -/
theorem ofFields_members (h : RequestHeader) : ofFields h.members = .ok h := rfl

/-- A header is read back. -/
theorem ofText_text (h : RequestHeader) : ofText h.toJson.text = .ok h := by
  have hparse : parse? h.toJson.text = some h.toJson := (h.written 0).parse?_text (by decide)
  have hrecord : asRecord "struct RequestHeader" fields .text h.toJson = .ok h.members :=
    (h.written 0).asRecord (by decide) _ _
  rw [ofText, decodeText_of_parse? hparse, ofJson, hrecord]
  exact h.ofFields_members

end RequestHeader

/-! ## Outcomes and audit records -/

namespace AuditOutcome

/-- The members of an outcome can be read. -/
theorem readable_members (o : AuditOutcome) : ∀ m ∈ o.members, m.2.Readable 0 := by
  cases o with
  | granted p =>
    exact List.forall_mem_cons.2 ⟨readable_string _,
      List.forall_mem_cons.2 ⟨readable_string _, nofun⟩⟩
  | denied reason =>
    exact List.forall_mem_cons.2 ⟨readable_string _,
      List.forall_mem_cons.2 ⟨readable_string _, nofun⟩⟩
  | bypassed => exact List.forall_mem_cons.2 ⟨readable_string _, nofun⟩

/-- The outcome is read from the members it is written as. -/
theorem ofMembers_members (o : AuditOutcome) (source : Source) :
    ofMembers source o.members = .ok o := by
  cases o with
  | granted p => cases p <;> rfl
  | denied reason => rfl
  | bypassed => rfl

/-- An outcome is read back. -/
theorem ofText_text (o : AuditOutcome) : ofText o.toJson.text = .ok o := by
  have hparse : parse? o.toJson.text = some o.toJson :=
    parse?_text ((readable_object o.readable_members).mono (by decide))
  rw [ofText, decodeText_of_parse? hparse]
  exact o.ofMembers_members .text

end AuditOutcome

namespace AuditRecord

/-- The members of the record's own fields. -/
def ownMembers (r : AuditRecord) : List (String × Json) :=
  [("id", .string r.id.text), ("timestamp", r.timestamp.toJson),
    ("principal_id", .ofOption .string r.entry.principalId),
    ("credential", .ofOption .string r.entry.credential),
    ("operation", .string r.entry.operation), ("scope", .string r.entry.scope)]

/-- A record is written as its own fields with the outcome's members beside them. -/
theorem toJson_eq (r : AuditRecord) :
    r.toJson = .object (r.ownMembers ++ r.entry.outcome.members) := rfl

/-- No member of an outcome is a field of the record. -/
theorem not_isField_outcome (o : AuditOutcome) : ∀ m ∈ o.members, isField fields m.1 = false := by
  cases o with
  | granted p => exact List.forall_mem_cons.2 ⟨rfl, List.forall_mem_cons.2 ⟨rfl, nofun⟩⟩
  | denied reason => exact List.forall_mem_cons.2 ⟨rfl, List.forall_mem_cons.2 ⟨rfl, nofun⟩⟩
  | bypassed => exact List.forall_mem_cons.2 ⟨rfl, nofun⟩

/-- A record is read back if its identifier and its time are. -/
theorem ofText_text (r : AuditRecord) (hid : Uuid.ofText r.id.text = .ok r.id)
    (htime : Timestamp.ofText r.timestamp.text = .ok r.timestamp) :
    ofText r.toJson.text = .ok r := by
  have hid' : Uuid.ofJson (.string r.id.text) = .ok r.id := by simp only [Uuid.ofJson, hid]
  have htime' : Timestamp.ofJson r.timestamp.toJson = .ok r.timestamp := by
    simp only [Timestamp.ofJson, Timestamp.toJson, htime]
  have hwritten : Written 0 fields r.ownMembers :=
    .put (check_must hid') (readable_string _)
      (.put (check_must htime') (readable_string _)
        (.put (check_may (asOption_ofOption_string r.entry.principalId))
          (readable_ofOption_string _)
          (.put (check_may (asOption_ofOption_string r.entry.credential))
            (readable_ofOption_string _)
            (.put (check_must rfl) (readable_string _)
              (.put (check_must rfl) (readable_string _) .nil)))))
  have hothers := not_isField_outcome r.entry.outcome
  have hparse : parse? r.toJson.text = some r.toJson :=
    parse?_text ((readable_object (List.forall_mem_append.2
      ⟨hwritten.readable, r.entry.outcome.readable_members⟩)).mono (by decide))
  have hfilter := hwritten.filter_others hothers
  rw [ofText, decodeText_of_parse? hparse, toJson_eq, ofJson,
    hwritten.takeFields (by decide) hothers]
  simp only [isField] at hfilter
  simp only [hwritten.requireFields, hfilter, r.entry.outcome.ofMembers_members, bind, Except.bind]
  simp [ownMembers, field_eq, fieldOr_eq, valueOf?_cons, hid', htime', asString]

end AuditRecord

/-! ## Replies -/

/-- What a reply tells of an error is read back. -/
theorem ReplyError.ofJson_toJson (e : ReplyError) (source : Source) :
    ofJson source e.toJson = .ok e := by
  have hwritten : Written 0 fields e.toJson.members :=
    .put (check_must rfl) (readable_string e.kind)
      (.put (check_must rfl) (readable_string e.message) .nil)
  have hrecord : asRecord "struct ReplyError" fields source e.toJson = .ok e.toJson.members :=
    hwritten.asRecord (by decide) _ _
  rw [ofJson, hrecord]
  rfl

/-- What a reply tells of an error can be read. -/
theorem ReplyError.readable_toJson (e : ReplyError) : e.toJson.Readable 1 :=
  readable_object (List.forall_mem_cons.2 ⟨readable_string _,
    List.forall_mem_cons.2 ⟨readable_string _, nofun⟩⟩)

theorem ReplyError.asOption_toJson (e : ReplyError) (source : Source) :
    asOption (ofJson source) e.toJson = .ok (some e) := by
  have hread := e.ofJson_toJson source
  simp only [asOption, toJson] at hread ⊢
  rw [hread]
  rfl

namespace Reply

/-- Data is read back as a map, but null as none. -/
theorem asOption_asData {j : Json} (h : j.canonical = j) :
    asOption asData j = .ok ((some j).filter (· ≠ .null)) := by
  cases j with
  | null => rfl
  | bool | number | string | array | object => simp [asOption, asData, h, Except.map, Option.filter]

/-- The data stands under its key as it is. -/
theorem valueOf?_data_append (data : Option Json) (ms : List (String × Json)) (key : String) :
    valueOf? ((data.map fun j => ("data", j)).toList ++ ms) key =
      if key = "data" then data.or (valueOf? ms key) else valueOf? ms key := by
  simpa using valueOf?_option_append data "data" (fun j => j) ms key

/-- A reply is read back up to the order of the keys in its data, if these are whole numbers and not
too deep. -/
theorem ofText_text (r : Reply)
    (hdata : ∀ j ∈ r.data, j.canonical = j ∧ (∀ x ∈ j.numbers, x.IsInteger) ∧
      j.depth < depthLimit) :
    ofText r.toJson.text = .ok { r with data := r.data.filter (· ≠ .null) } := by
  have hstatus := r.status.asVariant_name .text
  have hread : ∀ j ∈ r.data, j.Readable 126 := by
    intro j hj
    obtain ⟨-, hintegers, hdepth⟩ := hdata j hj
    exact ⟨hintegers, Nat.le_of_lt_succ hdepth⟩
  have hcheck (e : ReplyError) :
      (Field.may "error" (asOption (ReplyError.ofJson .text))).check e.toJson = .ok () :=
    check_may (e.asOption_toJson .text)
  have hwritten : Written 126 (fields .text) r.toJson.members := by
    simp only [toJson, Json.members, List.append_assoc]
    refine .put (check_must hstatus) (readable_string _) ?_
    refine .option r.data rfl (fun j hj => check_may (asOption_asData (hdata j hj).1)) hread ?_
    exact .last r.error rfl (fun e _ => hcheck e) fun e _ => e.readable_toJson.mono (by decide)
  have hparse : parse? r.toJson.text = some r.toJson := hwritten.parse?_text (by decide)
  have hrecord : asRecord "struct Reply" (fields .text) .text r.toJson = .ok r.toJson.members :=
    hwritten.asRecord (by decide) _ _
  have hvalue : (r.data.map (asOption asData)).getD (.ok none) =
      .ok (r.data.filter (· ≠ .null)) := by
    cases hd : r.data with
    | none => rfl
    | some j => exact asOption_asData (hdata j hd).1
  have herror : (r.error.map (asOption (ReplyError.ofJson .text) ∘ ReplyError.toJson)).getD
      (.ok none) = .ok r.error := asOption_map fun e _ => e.asOption_toJson .text
  rw [ofText, decodeText_of_parse? hparse, ofJson, hrecord]
  simp [toJson, Json.members, field_eq, fieldOr_eq, valueOf?_cons, valueOf?_data_append,
    hstatus, hvalue, herror, bind, Except.bind]

end Reply

end AccessGate
