import AccessGate.Proofs.Json.Entries
import AccessGate.Validator.Queue

/-!
# What a reply of the validator says

A text from the queue either says something about a credential or nothing at all. It says something
if it is JSON, does not tell of a failure on the other side, and the part of it that speaks of the
credential decodes (`Queue.Answers`); then this is what is read, and otherwise there is a network
error that names the channel's endpoint (`Queue.readValidation_eq_ok_iff`,
`Queue.readValidation_cases`). What a value decodes to is said field by field
(`ValidationReply.Says`), and every value decodes to one answer at most.
-/

namespace AccessGate

open Json

/-! ## The typed answer in a value -/

namespace ValidationReply

variable {j : Json} {r r' : ValidationReply} {given : List (String × Json)}

/-- That what was given for the fields of an answer is the answer. -/
structure Says (given : List (String × Json)) (r : ValidationReply) : Prop where
  valid : valueOf? given "valid" = some (.bool r.valid)
  principalId : GivesOption .string (valueOf? given "principalId") r.principalId
  email : GivesOption .string (valueOf? given "email") r.email
  username : GivesOption .string (valueOf? given "username") r.username
  permissions :
    valueOf? given "permissions" = none ∧ r.permissions = [] ∨
      valueOf? given "permissions" = some (.array (r.permissions.map .string))
  service : GivesOption .string (valueOf? given "service") r.service
  expiresAt : GivesOption .ofInt (valueOf? given "expiresAt") r.expiresAt
  inRange : ∀ n ∈ r.expiresAt, IsInt64 n
  message : GivesOption .string (valueOf? given "message") r.message

/-- That a value is an answer: as a map, what it gives for the fields says so. -/
def Decodes (j : Json) (r : ValidationReply) : Prop :=
  ∃ given, entries? fields j.canonical = some given ∧ Says given r

/-- No field has the key of another. -/
theorem nodup_fields : (fields.map Field.key).Nodup := by decide

/-- A value of a field that may be null, of type text. -/
theorem text_eq_ok_iff {key : String} {o : Option String} :
    fieldOr given key none (asOption asString) = .ok o ↔
      GivesOption .string (valueOf? given key) o := by
  have hread (v : Json) (s : String) : asString v = .ok s ↔ v = .string s ∧ True := by
    rw [asString_eq_ok_iff, and_true]
  rw [fieldOr_none_eq_ok_iff hread fun s => Json.noConfusion]
  simp

/-- An answer is read from a value exactly if the value gives each field once, and says so. -/
theorem ofJson_eq_ok_iff {source : Source} :
    ofJson source j = .ok r ↔
      ∃ given, entries? fields j = some given ∧ (given.map Prod.fst).Nodup ∧ Says given r := by
  have hexpires {given : List (String × Json)} {o : Option Int} :
      fieldOr given "expiresAt" none (asOption asInt64) = .ok o ↔
        GivesOption .ofInt (valueOf? given "expiresAt") o ∧ ∀ n ∈ o, IsInt64 n :=
    fieldOr_none_eq_ok_iff (fun _ _ => asInt64_eq_ok_iff) fun n => Json.noConfusion
  have hlist {j : Json} {l : List String} :
      asList asString j = .ok l ↔ j = .array (l.map .string) :=
    asList_eq_ok_iff fun v s => asString_eq_ok_iff
  constructor
  · intro h
    obtain ⟨given, hrecord, h⟩ := bind_eq_ok_iff.1 h
    obtain ⟨valid, hvalid, h⟩ := bind_eq_ok_iff.1 h
    obtain ⟨principalId, hprincipalId, h⟩ := bind_eq_ok_iff.1 h
    obtain ⟨email, hemail, h⟩ := bind_eq_ok_iff.1 h
    obtain ⟨username, husername, h⟩ := bind_eq_ok_iff.1 h
    obtain ⟨permissions, hpermissions, h⟩ := bind_eq_ok_iff.1 h
    obtain ⟨service, hservice, h⟩ := bind_eq_ok_iff.1 h
    obtain ⟨expiresAt, hexpiresAt, h⟩ := bind_eq_ok_iff.1 h
    obtain ⟨message, hmessage, h⟩ := bind_eq_ok_iff.1 h
    obtain rfl := Except.ok.inj h
    obtain ⟨hgiven, hcomplies⟩ := (asRecord_eq_ok_iff nodup_fields).1 hrecord
    obtain ⟨v, hv, hread⟩ := field_eq_ok_iff.1 hvalid
    refine ⟨given, hgiven, hcomplies.nodup, {
      valid := by rw [hv, asBool_eq_ok_iff.1 hread]
      principalId := text_eq_ok_iff.1 hprincipalId
      email := text_eq_ok_iff.1 hemail
      username := text_eq_ok_iff.1 husername
      permissions := ?_
      service := text_eq_ok_iff.1 hservice
      expiresAt := (hexpires.1 hexpiresAt).1
      inRange := (hexpires.1 hexpiresAt).2
      message := text_eq_ok_iff.1 hmessage }⟩
    refine (fieldOr_eq_ok_iff.1 hpermissions).imp_right ?_
    rintro ⟨v, hv, hread⟩
    rw [hv, hlist.1 hread]
  · rintro ⟨given, hgiven, hnodup, hsaid⟩
    have hvalid : field given "valid" asBool = .ok r.valid :=
      field_eq_ok_iff.2 ⟨_, hsaid.valid, rfl⟩
    have hprincipalId := text_eq_ok_iff.2 hsaid.principalId
    have hemail := text_eq_ok_iff.2 hsaid.email
    have husername := text_eq_ok_iff.2 hsaid.username
    have hpermissions : fieldOr given "permissions" [] (asList asString) = .ok r.permissions :=
      fieldOr_eq_ok_iff.2 (hsaid.permissions.imp_right fun h => ⟨_, h, hlist.2 rfl⟩)
    have hservice := text_eq_ok_iff.2 hsaid.service
    have hexpiresAt := hexpires.2 ⟨hsaid.expiresAt, hsaid.inRange⟩
    have hmessage := text_eq_ok_iff.2 hsaid.message
    have hcomplies : Complies fields given := by
      refine .of_fields hnodup ?_
      simp only [fields, List.forall_mem_cons]
      exact ⟨must_of_field hvalid, may_of_fieldOr hprincipalId, may_of_fieldOr hemail,
        may_of_fieldOr husername, may_of_fieldOr hpermissions, may_of_fieldOr hservice,
        may_of_fieldOr hexpiresAt, may_of_fieldOr hmessage, nofun⟩
    refine bind_eq_ok_iff.2 ⟨given, (asRecord_eq_ok_iff nodup_fields).2 ⟨hgiven, hcomplies⟩, ?_⟩
    refine bind_eq_ok_iff.2 ⟨_, hvalid, bind_eq_ok_iff.2 ⟨_, hprincipalId, ?_⟩⟩
    refine bind_eq_ok_iff.2 ⟨_, hemail, bind_eq_ok_iff.2 ⟨_, husername, ?_⟩⟩
    refine bind_eq_ok_iff.2 ⟨_, hpermissions, bind_eq_ok_iff.2 ⟨_, hservice, ?_⟩⟩
    exact bind_eq_ok_iff.2 ⟨_, hexpiresAt, bind_eq_ok_iff.2 ⟨_, hmessage, rfl⟩⟩

/-- A value is read as a reply exactly if it decodes to it. -/
theorem ofValue_eq_ok_iff : ofValue j = .ok r ↔ Decodes j r := by
  rw [ofValue, ofJson_eq_ok_iff]
  refine exists_congr fun given => and_congr_right fun hgiven => ?_
  exact and_iff_right (nodup_entries_canonical nodup_fields hgiven)

/-- A value is one answer at most. -/
theorem Decodes.unique (h : Decodes j r) (h' : Decodes j r') : r = r' :=
  Except.ok.inj ((ofValue_eq_ok_iff.2 h).symm.trans (ofValue_eq_ok_iff.2 h'))

end ValidationReply

/-! ## The answer in a text -/

namespace Queue

variable {endpoint text : String} {answer body : Json} {r r' : ValidationReply}

/-- That a reply tells of a failure on the other side. -/
def TellsFailure (answer : Json) : Prop :=
  ∃ ms, answer = .object ms ∧ answer.member? "status" = some (.string "error")

/-- The part of a reply that speaks of a credential: its data, if they are an object, and otherwise
the whole. -/
def Speaks (answer body : Json) : Prop :=
  (∃ ms, answer.member? "data" = some (.object ms) ∧ body = .object ms) ∨
    (∀ ms, answer.member? "data" ≠ some (.object ms)) ∧ body = answer

/-- That a text is an answer about a credential. -/
def Answers (text : String) (r : ValidationReply) : Prop :=
  ∃ answer body, parse? text = some answer ∧ ¬ TellsFailure answer ∧ Speaks answer body ∧
    ValidationReply.Decodes body r

/-- What tells of a failure has the status of one. -/
theorem tellsFailure_iff :
    TellsFailure answer ↔ (answer.member? "status").bind Json.string? = some "error" := by
  constructor
  · rintro ⟨ms, -, hstatus⟩
    rw [hstatus]
    rfl
  · intro h
    obtain ⟨v, hv, hstring⟩ := Option.bind_eq_some_iff.1 h
    cases v with
    | string s =>
      obtain rfl := Option.some.inj hstring
      cases answer with
      | object ms => exact ⟨ms, rfl, hv⟩
      | null | bool | number | string | array => cases hv
    | null | bool | number | array | object => cases hstring

/-- What speaks of an answer is its payload. -/
theorem payload_eq_iff : payload answer = body ↔ Speaks answer body := by
  unfold payload Speaks
  cases answer.member? "data" with
  | none => simp [eq_comm]
  | some data => cases data <;> simp [Json.isObject, eq_comm]

/-- A text is accepted if it is JSON and does not tell of a failure. -/
theorem accept_eq_ok_iff :
    accept endpoint text = .ok answer ↔ parse? text = some answer ∧ ¬ TellsFailure answer := by
  rw [tellsFailure_iff]
  unfold accept
  cases parse? text with
  | none => simp
  | some j =>
    dsimp only
    split
    · next hfailure => simp; rintro rfl; exact hfailure
    · next hnone => simp; rintro rfl; exact hnone

/-- Any other is a network error. -/
theorem accept_cases (endpoint text : String) :
    (∃ answer, accept endpoint text = .ok answer) ∨
      ∃ message, accept endpoint text = .error (.network endpoint message) := by
  unfold accept
  cases parse? text with
  | none => exact .inr ⟨_, rfl⟩
  | some j =>
    dsimp only
    split
    · exact .inr ⟨_, rfl⟩
    · exact .inl ⟨j, rfl⟩

/-- What is read from a text is what it says about the credential. -/
theorem readValidation_eq_ok_iff : readValidation endpoint text = .ok r ↔ Answers text r := by
  rw [readValidation, bind_eq_ok_iff, Answers]
  refine exists_congr fun answer => ?_
  have hbody : (∃ body, Speaks answer body ∧ ValidationReply.Decodes body r) ↔
      ValidationReply.ofValue (payload answer) = .ok r := by
    simp only [← payload_eq_iff, ← ValidationReply.ofValue_eq_ok_iff, exists_eq_left']
  rw [accept_eq_ok_iff, and_assoc, exists_and_left, exists_and_left, hbody]
  cases ValidationReply.ofValue (payload answer) <;> simp

/-- A text answers with one reply. -/
theorem Answers.unique (h : Answers text r) (h' : Answers text r') : r = r' :=
  have hread : readValidation "" text = .ok r := readValidation_eq_ok_iff.2 h
  Except.ok.inj (hread.symm.trans (readValidation_eq_ok_iff.2 h'))

/-- A text that says nothing about the credential is a network error at the channel's endpoint. -/
theorem exists_network_of_not_answers (h : ∀ r, ¬ Answers text r) (endpoint : String) :
    ∃ message, readValidation endpoint text = .error (.network endpoint message) := by
  cases hread : readValidation endpoint text with
  | ok r => exact absurd (readValidation_eq_ok_iff.1 hread) (h r)
  | error e =>
    rw [readValidation] at hread
    rcases accept_cases endpoint text with ⟨answer, haccept⟩ | ⟨message, haccept⟩
    · rw [haccept] at hread
      simp only [bind, Except.bind] at hread
      split at hread
      · cases hread
      · cases hread
        exact ⟨_, rfl⟩
    · rw [haccept] at hread
      cases hread
      exact ⟨message, rfl⟩

end Queue

end AccessGate
