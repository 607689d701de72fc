import AccessGate.Json.Printer
import AccessGate.Json.Reader
import AccessGate.Validator.Basic

/-!
# Validation over a message queue

Questions and answers are JSON texts. An answer counts only if it is JSON and does not say that the
other side failed (`Queue.accept`); what it says about a credential stands under `data`, if that is
an object, or else in the answer itself (`Queue.readValidation`). Every other answer is a network
error, and an error of the channel passes unchanged.
-/

namespace AccessGate.Queue

open Json

/-- The question about a credential. -/
def validateMessage (credential : String) : String :=
  (Json.object [("credential", .string credential), ("operation", .string "validate")]).text

/-- The question whether the other side is there. -/
def pingMessage : String := (Json.object [("operation", .string "ping")]).text

/-- What an answer says went wrong on the other side. -/
def reportedFailure (answer : Json) : String :=
  let told : Option Json :=
    (answer.member? "error").map fun e => (e.member? "message").getD e
  (told.bind Json.string?).getD "validator reported an error"

/-- The answer in a text, unless it is not JSON or tells of a failure. -/
def accept (endpoint text : String) : Except Error Json :=
  match Json.parse? text with
  | none => .error (.network endpoint ("undecodable reply: " ++ unreadableDetail))
  | some answer =>
    if (answer.member? "status").bind Json.string? = some "error" then
      .error (.network endpoint (reportedFailure answer))
    else .ok answer

/-- The part of an answer that speaks of a credential. -/
def payload (answer : Json) : Json :=
  match answer.member? "data" with
  | some data => if data.isObject then data else answer
  | none => answer

/-- What a text says about a credential. -/
def readValidation (endpoint text : String) : Except Error ValidationReply := do
  let answer ← accept endpoint text
  match ValidationReply.ofValue (payload answer) with
  | .ok reply => .ok reply
  | .error fault => .error (.network endpoint ("malformed validation reply: " ++ fault.message))

/-- A channel that carries a message to the other side and an answer back. -/
structure Channel (σ : Type) where
  endpoint : String
  send : σ → String → RemoteCall String × σ

/-- The validator at the other end of a channel. -/
def validator {σ : Type} (c : Channel σ) : Validator σ where
  endpoint := c.endpoint
  validate s credential _ :=
    let (call, s) := c.send s (validateMessage credential)
    (call.andThen (·.bind (readValidation c.endpoint)), s)
  ping s _ :=
    let (call, s) := c.send s pingMessage
    (call.andThen (·.bind fun text => (accept c.endpoint text).map fun _ => ()), s)

end AccessGate.Queue
