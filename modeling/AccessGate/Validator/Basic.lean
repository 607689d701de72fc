import AccessGate.Remote.Call
import AccessGate.Timestamp.Basic
import AccessGate.Validation.Reply

/-!
# Validators

A `Validator` is the identity service as the gate sees it: a call that asks about a credential and a
call that only asks whether it is there. A credential that it does not know is an answer; an error
means that there is none. A validator may change with every call, so each takes the state it is in
and gives the next.
-/

namespace AccessGate

/-- An identity service whose state is a `σ`. -/
structure Validator (σ : Type) where
  /-- The address in errors. -/
  endpoint : String
  /-- Asks about a credential. -/
  validate : σ → String → Moment → RemoteCall ValidationReply × σ
  /-- Asks whether the service is there. -/
  ping : σ → Moment → RemoteCall Unit × σ

end AccessGate
