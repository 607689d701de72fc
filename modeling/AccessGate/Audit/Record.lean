import AccessGate.Audit.Outcome
import AccessGate.Timestamp.Wire
import AccessGate.Uuid

/-!
# Audit records

An `AuditEntry` is what is told of one decision. A credential is never told, only its fingerprint.
An `AuditRecord` is an entry under an identifier, with the time it was made.
-/

namespace AccessGate

open Json

/-- What is told of one decision. -/
structure AuditEntry where
  /-- Known once the credential has been validated. -/
  principalId : Option String := none
  /-- The fingerprint of the credential. -/
  credential : Option String := none
  operation : String
  scope : String
  outcome : AuditOutcome
deriving DecidableEq, Repr

namespace AuditEntry

/-- The members of the JSON form. -/
def members (e : AuditEntry) : List (String × Json) :=
  [("principal_id", .ofOption .string e.principalId),
    ("credential", .ofOption .string e.credential), ("operation", .string e.operation),
    ("scope", .string e.scope)] ++ e.outcome.members

/-- The JSON form. -/
def toJson (e : AuditEntry) : Json := .object e.members

end AuditEntry

/-- An entry under an identifier, with the time it was made. -/
structure AuditRecord where
  id : Uuid
  timestamp : Timestamp
  entry : AuditEntry
deriving DecidableEq, Repr

namespace AuditRecord

/-- The fields of the JSON form, but for the outcome's. -/
def fields : List Field :=
  [.must "id" Uuid.ofJson, .must "timestamp" Timestamp.ofJson,
    .may "principal_id" (asOption asString), .may "credential" (asOption asString),
    .must "operation" asString, .must "scope" asString]

/-- Reads a record; the members that are no fields of its own are the outcome's. -/
def ofJson : Json → Except DecodeError AuditRecord
  | .object ms => do
    let kept ← takeFields fields [] ms
    requireFields fields kept
    let outcome ← AuditOutcome.ofMembers .member (ms.filter fun m => !fields.any (·.key == m.1))
    .ok {
      id := ← field kept "id" Uuid.ofJson
      timestamp := ← field kept "timestamp" Timestamp.ofJson
      entry := {
        principalId := ← fieldOr kept "principal_id" none (asOption asString)
        credential := ← fieldOr kept "credential" none (asOption asString)
        operation := ← field kept "operation" asString
        scope := ← field kept "scope" asString
        outcome } }
  | j => .error (j.mismatch "struct AuditRecord")

/-- Reads a record from a text. Every member counts, since one that is no field of the record may be
the outcome's. -/
def ofText : String → Except DecodeError AuditRecord := decodeText .whole ofJson

/-- The JSON form. -/
def toJson (r : AuditRecord) : Json :=
  .object ([("id", .string r.id.text), ("timestamp", r.timestamp.toJson)] ++ r.entry.members)

end AuditRecord

end AccessGate
