import AccessGate.Json.Printer
import AccessGate.Message.Header

/-!
# Envelopes

An `Envelope` is a message as a handler sees it: the header and a body read from the members beside
it. The members are taken as they were written, so a header field that is there twice is a fault
here, not a choice. Which members a body takes and how is its `BodyFormat`: `BodyFormat.rest` takes
every member that is not the header's, `BodyFormat.keyed` a key and an optional lifetime.
-/

namespace AccessGate

open Json

/-- How a body is read from the members beside the header, and written as members. -/
structure BodyFormat (β : Type) where
  read : List (String × Json) → Except DecodeError β
  write : β → List (String × Json)

namespace BodyFormat

/-- Every member as part of the body; of members with one key the last counts. -/
def rest : BodyFormat (List (String × Json)) where
  read ms := .ok (Json.canonical (.object ms)).members
  write ms := ms

end BodyFormat

/-- A key with an optional lifetime. -/
structure KeyBody where
  key : String
  ttl : Option Int := none
deriving DecidableEq, Repr

namespace KeyBody

/-- The fields of the JSON form. -/
def fields : List Field := [.must "key" asString, .may "ttl" (asOption asInt64)]

/-- Reads the body from the members beside the header; other members do not matter. -/
def ofMembers (ms : List (String × Json)) : Except DecodeError KeyBody := do
  let kept ← takeFields fields [] ms
  requireFields fields kept
  .ok {
    key := ← field kept "key" asString
    ttl := ← fieldOr kept "ttl" none (asOption asInt64) }

/-- The members of the JSON form; an absent lifetime is left out. -/
def members (b : KeyBody) : List (String × Json) :=
  [("key", .string b.key)] ++ (b.ttl.map fun n => ("ttl", Json.ofInt n)).toList

end KeyBody

namespace BodyFormat

/-- A key with an optional lifetime. -/
def keyed : BodyFormat KeyBody := ⟨KeyBody.ofMembers, KeyBody.members⟩

end BodyFormat

/-- A header with the body beside it. -/
structure Envelope (β : Type) where
  header : RequestHeader
  body : β
deriving DecidableEq

namespace Envelope

variable {β : Type}

/-- Whether a key is the header's. -/
def isHeaderKey (key : String) : Bool := RequestHeader.fields.any (·.key == key)

/-- Reads an envelope. -/
def ofJson (format : BodyFormat β) : Json → Except DecodeError (Envelope β)
  | .object ms => do
    let header ← RequestHeader.ofFields (← takeFields RequestHeader.fields [] ms)
    let body ← format.read (ms.filter fun m => !isHeaderKey m.1)
    .ok ⟨header, body⟩
  | j => .error (j.mismatch "struct Envelope")

/-- Reads the envelope of a message to an operation. -/
def decode (format : BodyFormat β) (operation message : String) : Except Error (Envelope β) :=
  let read : Except DecodeError (Envelope β) :=
    match Json.parse? message with
    | none => .error .unreadable
    | some j => ofJson format j
  match read with
  | .error fault => .error (.malformedRequest operation ("invalid body: " ++ fault.message))
  | .ok envelope => .ok envelope

/-- The JSON form: the header's fields, then the body's. -/
def toJson (format : BodyFormat β) (e : Envelope β) : Json :=
  .object (e.header.members ++ format.write e.body)

/-- The text of an envelope. -/
def encode (format : BodyFormat β) (e : Envelope β) : String := (e.toJson format).text

end Envelope

end AccessGate
