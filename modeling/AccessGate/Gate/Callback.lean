import AccessGate.Gate.Lifetime
import AccessGate.Handler
import AccessGate.Message.Header

/-!
# Callbacks behind the gate

`Gate.serve?` answers a message to an operation. Only the header of the message is looked at
(`Gate.admit?`); when the gate lets the request in, the callback is given the message as it came.
Unless the request breaks off there is a reply, whatever happens. `Gate.serve` is the same for a
handler and for lifetimes that fit the clock, and tells what the handler was given.
-/

namespace AccessGate.Gate

variable {σ τ : Type}

/-- The request that a message makes of an operation. -/
def requestOf (g : Gate) (operation message : String) : Except Error Request := do
  let header ← RequestHeader.parse operation message
  if header.scope.isEmpty && g.requiresScope operation then
    .error (.malformedRequest operation "missing scope")
  else .ok ⟨operation, header.credential, header.scope⟩

/-- The reply to a message whose request was let in or not. The callback runs only if it was. -/
def answer (c : Callback τ) (message : String) (t : τ) : Except Error Authorization → Reply × τ
  | .ok _ => c.run message t
  | .error e => (.ofError e, t)

/-! ## On a clock that ends -/

/-- Authorizes the request that a message makes, or breaks off. -/
def admit? (g : Gate) (v : Validator σ) (s : σ) (wall : WallClock) (operation message : String)
    (now : Instant) : Option (Finished σ (Except Error Authorization)) :=
  match g.requestOf operation message with
  | .error e => some ⟨.error e, g, s, now⟩
  | .ok r => g.authorize? v s wall r now

/-- Serves a message to an operation, or breaks off. -/
def serve? (g : Gate) (v : Validator σ) (s : σ) (wall : WallClock) (operation : String)
    (c : Callback τ) (message : String) (now : Instant) (t : τ) :
    Option (Finished σ (Reply × τ)) := do
  let done ← g.admit? v s wall operation message now
  some ⟨answer c message t done.result, done.gate, done.remote, done.finish⟩

/-! ## With lifetimes that fit the clock -/

/-- The reply to a message, and what was given to the handler. -/
structure Served where
  reply : Reply
  handed : List String

/-- The service of a message by a handler, whose request was let in or not. -/
def Served.ofResult (handler : Handler) (message : String)
    (result : Except Error Authorization) : Served :=
  let (reply, handed) := answer handler.noting message [] result
  ⟨reply, handed⟩

/-- A request that was let in has the message given to the handler once. -/
@[simp] theorem Served.ofResult_ok (handler : Handler) (message : String) (a : Authorization) :
    ofResult handler message (.ok a) = ⟨handler.serve message, [message]⟩ := by
  simp only [ofResult, answer, Handler.run_noting, List.nil_append]

/-- A request that was not let in has nothing given to the handler. -/
@[simp] theorem Served.ofResult_error (handler : Handler) (message : String) (e : Error) :
    ofResult handler message (.error e) = ⟨.ofError e, []⟩ := rfl

/-- Serves a message to an operation. -/
def serve (g : Gate) (v : Validator σ) (s : σ) (wall : WallClock) (operation : String)
    (handler : Handler) (message : String) (now : Instant) : Finished σ Served :=
  match g.requestOf operation message with
  | .error e => ⟨.ofResult handler message (.error e), g, s, now⟩
  | .ok r =>
    let done := g.authorize v s wall r now
    ⟨.ofResult handler message done.result, done.gate, done.remote, done.finish⟩

end AccessGate.Gate
