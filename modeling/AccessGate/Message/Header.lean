import AccessGate.Error
import AccessGate.Json.Document

/-!
# Request headers

Every message is a JSON object in which the caller's credential and the scope stand beside what the
operation itself needs. `RequestHeader.parse` reads those two and looks at nothing else; of members
with one key the last counts, and a header field that is not there is empty.
-/

namespace AccessGate

open Json

/-- What every request carries. -/
structure RequestHeader where
  credential : String := ""
  scope : String := ""
deriving DecidableEq, Repr

namespace RequestHeader

/-- The fields of the JSON form. -/
def fields : List Field := [.may "credential" asString, .may "scope" asString]

/-- The header of the fields that were read. -/
def ofFields (kept : List (String × Json)) : Except DecodeError RequestHeader := do
  .ok {
    credential := ← fieldOr kept "credential" "" asString
    scope := ← fieldOr kept "scope" "" asString }

/-- Reads a header. -/
def ofJson (source : Source) (j : Json) : Except DecodeError RequestHeader := do
  ofFields (← asRecord "struct RequestHeader" fields source j)

/-- Reads a header from a text. -/
def ofText : String → Except DecodeError RequestHeader :=
  decodeText (.ofFields fields) (ofJson .text)

/-- The members of the JSON form. -/
def members (h : RequestHeader) : List (String × Json) :=
  [("credential", .string h.credential), ("scope", .string h.scope)]

/-- The JSON form. -/
def toJson (h : RequestHeader) : Json := .object h.members

/-- The header of a message to an operation. -/
def parse (operation message : String) : Except Error RequestHeader :=
  match Json.parse? message with
  | none => .error (.malformedRequest operation ("invalid JSON: " ++ unreadableDetail))
  | some j =>
    if !j.isObject then .error (.malformedRequest operation "message must be a JSON object")
    else
      match ofJson .value j.canonical with
      | .error fault =>
        .error (.malformedRequest operation ("invalid header: " ++ fault.message))
      | .ok header => .ok header

end RequestHeader

end AccessGate
