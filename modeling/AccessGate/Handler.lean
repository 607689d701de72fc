import AccessGate.Reply

/-!
# Handlers

An operation is done by a callback. It is given the message as it came, and what it works on, which
it may change; it answers with a reply or fails. A failure is answered for it, so running it
(`Callback.run`) always gives a reply. Of a handler only the answer is known: run as a callback
(`Handler.noting`), it notes the messages that it is given. Only the listed operations may be served
to callers that nobody has authorized (`ExemptOperations.require`).
-/

namespace AccessGate

/-- What does an operation: it is given the message and what it works on. It comes back, with a
reply or a failure. -/
abbrev Callback (τ : Type) := String → τ → Except Error Reply × τ

/-- Runs a callback on a message. -/
def Callback.run {τ : Type} (c : Callback τ) (message : String) (t : τ) : Reply × τ :=
  match c message t with
  | (.ok reply, t) => (reply, t)
  | (.error e, t) => (.ofError e, t)

/-- What an operation answers to a message. -/
abbrev Handler := String → Except Error Reply

/-- A handler as a callback that notes the messages that it is given. -/
def Handler.noting (h : Handler) : Callback (List String) := fun message noted =>
  (h message, noted ++ [message])

/-- The reply of a handler to a message. -/
def Handler.serve (h : Handler) (message : String) : Reply := (h.noting.run message []).1

/-- A handler that is run notes the message once. -/
@[simp] theorem Handler.run_noting (h : Handler) (message : String) (noted : List String) :
    h.noting.run message noted = (h.serve message, noted ++ [message]) := by
  simp only [serve, Callback.run, noting]
  cases h message <;> rfl

/-- The operations that may run without authorization. -/
structure ExemptOperations where
  operations : List String := []

namespace ExemptOperations

/-- Whether an operation is listed. -/
def contains (x : ExemptOperations) (operation : String) : Bool := x.operations.contains operation

/-- Accepts the listed operations. -/
def require (x : ExemptOperations) (operation : String) : Except Error Unit :=
  if x.contains operation then .ok ()
  else .error (.configuration s!"operation '{operation}' is not exempt from authorization")

end ExemptOperations

end AccessGate
