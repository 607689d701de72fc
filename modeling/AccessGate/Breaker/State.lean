import AccessGate.Timestamp.Basic

/-!
# The state of a circuit breaker

A breaker is closed, open, or half open. Each change of phase starts a new generation, and the
result of a call counts only while the generation lasts under which the call was let through
(`State.succeed`, `State.fail`). Closed, it opens when the failures since the last success reach the
limit; half open, the first failure opens it again and the first success closes it. An open breaker
becomes half open when a call asks to pass more than the reset timeout after the last failure.
Letting a call through has two steps, each of which sees the state as it is then: `State.glance`
reads only, `State.moveOn` may move an open breaker on.
-/

namespace AccessGate.Breaker

/-- The phases of a breaker. -/
inductive Phase
  /-- Calls pass. -/
  | closed
  /-- Calls are refused. -/
  | opened
  /-- Calls pass, to find out whether the dependency has recovered. -/
  | halfOpen
deriving DecidableEq, Repr

/-- The name of a phase. -/
def Phase.name : Phase → String
  | closed => "closed"
  | opened => "open"
  | halfOpen => "half-open"

/-- What a breaker is set up with. -/
structure Settings where
  /-- The dependency behind the breaker. -/
  name : String := "remote"
  /-- The failures in a row that open it. -/
  failureLimit : Nat := 3
  /-- How long after the last failure the next call may pass. -/
  resetTimeout : Duration := .ofSecs 30
  limit_pos : 0 < failureLimit := by decide

/-- Settings with a limit of at least one. -/
def Settings.of (name : String) (limit : Nat) (resetTimeout : Duration) : Settings :=
  { name, failureLimit := max limit 1, resetTimeout, limit_pos := by omega }

/-- The state of a breaker. Its counters have 64 bits, and runs are taken to be too short for one to
overflow. -/
structure State where
  phase : Phase
  /-- The failures counted in the phase, and those that ended the phase before an opening. -/
  failures : Nat
  lastFailure : Option Instant
  /-- When the phase began. -/
  lastChange : Instant
  /-- How many phases came before. -/
  generation : Nat
deriving DecidableEq, Repr

namespace State

/-- A new breaker: closed, without failures. -/
def fresh (now : Instant) : State := ⟨.closed, 0, none, now, 0⟩

/-- Whether the reset timeout has passed since the last failure. -/
def resetElapsed (c : Settings) (now : Instant) (s : State) : Bool :=
  match s.lastFailure with
  | some last => decide (now - last > c.resetTimeout.nanos)
  | none => true

/-- Starts a phase. -/
def enter (phase : Phase) (now : Instant) (s : State) : State :=
  { s with phase, lastChange := now, generation := s.generation + 1 }

/-- Opens the breaker. -/
def toOpened (now : Instant) (s : State) : State :=
  if s.phase = .opened then s else s.enter .opened now

/-- Makes the breaker half open, with no failures counted. -/
def toHalfOpen (now : Instant) (s : State) : State :=
  if s.phase = .halfOpen then s else { s with failures := 0 }.enter .halfOpen now

/-- Closes the breaker, with no failures counted. A closed breaker stays as it is. -/
def toClosed (now : Instant) (s : State) : State :=
  if s.phase = .closed then s else { s with failures := 0 }.enter .closed now

/-- A call that was let through under a generation has succeeded. -/
def succeed (generation : Nat) (now : Instant) (s : State) : State :=
  if generation ≠ s.generation then s
  else
    match s.phase with
    | .halfOpen => s.toClosed now
    | .closed => { s with failures := 0 }
    | .opened => s

/-- A call that was let through under a generation has failed. -/
def fail (c : Settings) (generation : Nat) (now : Instant) (s : State) : State :=
  if generation ≠ s.generation then s
  else
    let s := { s with failures := s.failures + 1, lastFailure := some now }
    match s.phase with
    | .closed => if s.failures ≥ c.failureLimit then s.toOpened now else s
    | .halfOpen => s.toOpened now
    | .opened => s

/-- Closes the breaker and forgets the last failure. -/
def reset (now : Instant) (s : State) : State := { s.toClosed now with lastFailure := none }

/-- What a call that asks to pass sees at first. -/
inductive Glance
  /-- It passes, under the current generation. -/
  | pass (generation : Nat)
  | refuse
  /-- The breaker may be moved on. -/
  | elapsed
deriving DecidableEq, Repr

/-- The first step of letting a call through: it changes nothing. -/
def glance (c : Settings) (now : Instant) (s : State) : Glance :=
  match s.phase with
  | .closed | .halfOpen => .pass s.generation
  | .opened => if s.resetElapsed c now then .elapsed else .refuse

/-- The second step, for a breaker that may be moved on: another call may have done so. -/
def moveOn (c : Settings) (now : Instant) (s : State) : Option Nat × State :=
  if s.phase = .opened then
    if s.resetElapsed c now then
      (some (s.toHalfOpen now).generation, s.toHalfOpen now)
    else (none, s)
  else (some s.generation, s)

/-- Both steps at one instant: the generation under which a call passes, if it does. -/
def pass (c : Settings) (now : Instant) (s : State) : Option Nat × State :=
  match s.glance c now with
  | .pass generation => (some generation, s)
  | .refuse => (none, s)
  | .elapsed => s.moveOn c now

/-- The phase a breaker shows: an open one that the next call will move on shows as half open. -/
def shown (c : Settings) (now : Instant) (s : State) : Phase :=
  if s.phase = .opened ∧ s.resetElapsed c now then .halfOpen else s.phase

/-! ## What is told of a change -/

/-- A change of phase. -/
inductive Change
  | opening (failures : Nat)
  | probing
  | closing
deriving DecidableEq, Repr

/-- The change between a state and the one a step later. -/
def change? (before after : State) : Option Change :=
  if before.phase = after.phase then none
  else
    match after.phase with
    | .opened => some (.opening after.failures)
    | .halfOpen => some .probing
    | .closed => some .closing

/-- The log line that tells of a change. -/
def Change.text (name : String) : Change → String
  | opening failures => s!"WARN Circuit breaker for '{name}' opening after {failures} failure(s)"
  | probing => s!"INFO Circuit breaker for '{name}' entering half-open state"
  | closing => s!"INFO Circuit breaker for '{name}' closing"

/-! ## Small laws -/

/-- A breaker shows that it is open exactly when a glance refuses the call. -/
theorem shown_eq_opened_iff {c : Settings} {now : Instant} {s : State} :
    s.shown c now = .opened ↔ s.glance c now = .refuse := by
  unfold shown glance
  cases hp : s.phase <;> cases he : s.resetElapsed c now <;> simp

/-- A success under another generation is not counted. -/
theorem succeed_of_ne {g : Nat} {now : Instant} {s : State} (h : g ≠ s.generation) :
    s.succeed g now = s := by simp [succeed, h]

/-- Nor is a failure. -/
theorem fail_of_ne {c : Settings} {g : Nat} {now : Instant} {s : State} (h : g ≠ s.generation) :
    s.fail c g now = s := by simp [fail, h]

/-- A failure under the current generation counts, whether it opens the breaker or not. -/
theorem counted_fail (c : Settings) (now : Instant) (s : State) :
    (s.fail c s.generation now).failures = s.failures + 1 ∧
      (s.fail c s.generation now).lastFailure = some now := by
  unfold fail toOpened enter
  cases s.phase <;> simp
  split <;> simp

end State

end AccessGate.Breaker
