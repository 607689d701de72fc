import AccessGate.Json.Document

/-!
# A validator's answer

A `ValidationReply` says whether one credential is valid and, if it is, whose it is. Its JSON form
leaves out what is unknown; only the verdict must be there.
-/

namespace AccessGate

open Json

/-- A validator's answer about one credential. -/
structure ValidationReply where
  valid : Bool
  principalId : Option String := none
  email : Option String := none
  username : Option String := none
  permissions : List String := []
  /-- The service the credential was issued to. -/
  service : Option String := none
  /-- The end of the credential's life, in seconds from the start of 1970. -/
  expiresAt : Option Int := none
  message : Option String := none
deriving DecidableEq, Repr

namespace ValidationReply

/-- A refusal with a reason. -/
def rejected (reason : String) : ValidationReply := { valid := false, message := some reason }

/-- The fields of the JSON form. -/
def fields : List Field :=
  [.must "valid" asBool, .may "principalId" (asOption asString), .may "email" (asOption asString),
    .may "username" (asOption asString), .may "permissions" (asList asString),
    .may "service" (asOption asString), .may "expiresAt" (asOption asInt64),
    .may "message" (asOption asString)]

/-- Reads an answer. -/
def ofJson (source : Source) (j : Json) : Except DecodeError ValidationReply := do
  let kept ← asRecord "struct ValidationResponse" fields source j
  .ok {
    valid := ← field kept "valid" asBool
    principalId := ← fieldOr kept "principalId" none (asOption asString)
    email := ← fieldOr kept "email" none (asOption asString)
    username := ← fieldOr kept "username" none (asOption asString)
    permissions := ← fieldOr kept "permissions" [] (asList asString)
    service := ← fieldOr kept "service" none (asOption asString)
    expiresAt := ← fieldOr kept "expiresAt" none (asOption asInt64)
    message := ← fieldOr kept "message" none (asOption asString) }

/-- Reads an answer from a text. -/
def ofText : String → Except DecodeError ValidationReply :=
  decodeText (.ofFields fields) (ofJson .text)

/-- Reads an answer from a value in memory, of whose members the last with a key counts. -/
def ofValue (j : Json) : Except DecodeError ValidationReply := ofJson .value j.canonical

/-- The JSON form; what is unknown is left out. -/
def toJson (r : ValidationReply) : Json :=
  .object (
    [("valid", .bool r.valid)] ++
    (r.principalId.map fun s => ("principalId", Json.string s)).toList ++
    (r.email.map fun s => ("email", Json.string s)).toList ++
    (r.username.map fun s => ("username", Json.string s)).toList ++
    [("permissions", .array (r.permissions.map .string))] ++
    (r.service.map fun s => ("service", Json.string s)).toList ++
    (r.expiresAt.map fun n => ("expiresAt", Json.ofInt n)).toList ++
    (r.message.map fun s => ("message", Json.string s)).toList)

end ValidationReply

end AccessGate
