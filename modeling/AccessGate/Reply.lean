import AccessGate.Error
import AccessGate.Json.Document

/-!
# Replies

Every operation answers with a `Reply`. A failure of the caller's own making is told in full
(`ReplyStatus.denied`); any other failure has a fixed text, so that nothing about a dependency or
the service itself reaches the caller.
-/

namespace AccessGate

open Json

/-- How a request went. -/
inductive ReplyStatus
  | success
  /-- The caller was refused. -/
  | denied
  /-- The request could not be served. -/
  | failure
deriving DecidableEq, Repr

namespace ReplyStatus

/-- The name of a status. -/
def name : ReplyStatus → String
  | success => "ok"
  | denied => "denied"
  | failure => "error"

/-- The names of the statuses. -/
def variants : List (String × ReplyStatus) :=
  [success, denied, failure].map fun s => (s.name, s)

end ReplyStatus

/-- What went wrong, as told to the caller. -/
structure ReplyError where
  kind : String
  message : String
deriving DecidableEq, Repr

namespace ReplyError

/-- The fields of the JSON form. -/
def fields : List Field := [.must "kind" asString, .must "message" asString]

/-- Reads what went wrong. -/
def ofJson (source : Source) (j : Json) : Except DecodeError ReplyError := do
  let kept ← asRecord "struct ReplyError" fields source j
  .ok { kind := ← field kept "kind" asString, message := ← field kept "message" asString }

/-- The JSON form. -/
def toJson (e : ReplyError) : Json :=
  .object [("kind", .string e.kind), ("message", .string e.message)]

end ReplyError

/-- The answer to a request. -/
structure Reply where
  status : ReplyStatus
  data : Option Json := none
  error : Option ReplyError := none
deriving DecidableEq

namespace Reply

/-- A success, perhaps with data. -/
def ok (data : Option Json) : Reply := { status := .success, data }

/-- What is told of a failure of a dependency. -/
def unavailableMessage : String := "service unavailable"

/-- What is told of a failure of the service itself. -/
def internalMessage : String := "internal error"

/-- The answer to a request that failed. -/
def ofError (e : Error) : Reply :=
  let (status, message) : ReplyStatus × String :=
    match e.kind with
    | .malformedRequest | .unauthenticated | .forbidden => (.denied, e.message)
    | .unavailable => (.failure, unavailableMessage)
    | .internal => (.failure, internalMessage)
  { status, error := some ⟨e.kind.name, message⟩ }

/-- Whether the request succeeded. -/
def isOk (r : Reply) : Bool := r.status == .success

/-! ## JSON form -/

/-- Reads arbitrary data. -/
def asData (j : Json) : Except DecodeError Json := .ok j.canonical

/-- Reads the data of a success from a text; null is none. -/
def dataOfText : String → Except DecodeError (Option Json) := decodeText .whole (asOption asData)

/-- The fields of the JSON form. -/
def fields (source : Source) : List Field :=
  [.must "status" (asVariant ReplyStatus.variants source), .may "data" (asOption asData),
    { Field.may "error" (asOption (ReplyError.ofJson source)) with
      shape := .ofFields ReplyError.fields }]

/-- Reads a reply. -/
def ofJson (source : Source) (j : Json) : Except DecodeError Reply := do
  let kept ← asRecord "struct Reply" (fields source) source j
  .ok {
    status := ← field kept "status" (asVariant ReplyStatus.variants source)
    data := ← fieldOr kept "data" none (asOption asData)
    error := ← fieldOr kept "error" none (asOption (ReplyError.ofJson source)) }

/-- Reads a reply from a text. -/
def ofText : String → Except DecodeError Reply :=
  decodeText (.ofFields (fields .text)) (ofJson .text)

/-- The JSON form; what is absent is left out. -/
def toJson (r : Reply) : Json :=
  .object (
    [("status", .string r.status.name)] ++
    (r.data.map fun j => ("data", j)).toList ++
    (r.error.map fun e => ("error", e.toJson)).toList)

end Reply

end AccessGate
