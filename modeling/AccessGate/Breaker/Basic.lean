import AccessGate.Breaker.State
import AccessGate.Error

/-!
# Calls through a circuit breaker

A `Breaker` is a state with its settings and two counters. A call asks to pass (`Breaker.request`):
refused, it fails at once; let through, it runs, and its result is told to the breaker
(`Breaker.record`). The caller's own errors mean that the dependency answered, so they count as
successes.
-/

namespace AccessGate

/-- A circuit breaker. Its counters have 64 bits, and runs are taken to be too short for one to
overflow. -/
structure Breaker where
  settings : Breaker.Settings
  state : Breaker.State
  /-- The calls let through. -/
  total : Nat := 0
  /-- The calls refused. -/
  rejected : Nat := 0

namespace Breaker

/-- A new breaker. -/
def create (settings : Settings) (now : Instant) : Breaker := { settings, state := .fresh now }

/-- Counts a call that was let through under a generation, or refused. -/
def count (b : Breaker) : Option Nat → Except Error Nat × Breaker
  | some generation => (.ok generation, { b with total := b.total + 1 })
  | none => (.error (.circuitOpen b.settings.name), { b with rejected := b.rejected + 1 })

/-- A call asks to pass: the generation it runs under, or the error it gets. -/
def request (b : Breaker) (now : Instant) : Except Error Nat × Breaker :=
  let (generation, state) := b.state.pass b.settings now
  { b with state }.count generation

/-- Whether a result counts as a failure of the dependency. -/
def isFailure {α : Type} : Except Error α → Bool
  | .ok _ => false
  | .error e => !e.isClient

/-- The result of a call let through under a generation. -/
def record {α : Type} (b : Breaker) (generation : Nat) (now : Instant) (result : Except Error α) :
    Breaker :=
  if isFailure result then { b with state := b.state.fail b.settings generation now }
  else { b with state := b.state.succeed generation now }

/-- A call that takes no time, from request to result. -/
def call {α : Type} (b : Breaker) (now : Instant) (result : Except Error α) :
    Except Error α × Breaker :=
  match b.request now with
  | (.error e, b) => (.error e, b)
  | (.ok generation, b) => (result, b.record generation now result)

/-- Closes the breaker and forgets the last failure. -/
def reset (b : Breaker) (now : Instant) : Breaker := { b with state := b.state.reset now }

/-- The phase a breaker shows. -/
def shown (b : Breaker) (now : Instant) : Phase := b.state.shown b.settings now

/-- The log line of the step between two states of a breaker. -/
def log (before after : Breaker) : List String :=
  ((State.change? before.state after.state).map (·.text before.settings.name)).toList

end Breaker

end AccessGate
