import AccessGate.Breaker.Basic

/-!
# The whole life of calls through one breaker

A call is judged by the breaker, counted, and, if it was let through, it runs its operation and
tells the breaker how that went. Here it is cut into the steps that nothing can come between
(`Breaker.attend`): the verdict is found while the state is held still, in one look or in two, but
the counters lie beside the state and are reached later. An `Exchange` is a breaker with all calls
that were made of it, and `Exchange.run` takes their steps in any order, with resets, and with
callers who look at the breaker (`Breaker.inspect`) in between. Its records of the operations that
started and of what was seen are not part of the breaker.
-/

namespace AccessGate.Breaker

/-! ## Looking at a breaker -/

/-- What a breaker tells of itself in figures. -/
structure Stats where
  /-- The phase as it stands: an open breaker that the next call will move on is still open. -/
  phase : Phase
  failures : Nat
  failureLimit : Nat
  lastFailure : Option Instant
  lastChange : Instant
  total : Nat
  rejected : Nat
deriving DecidableEq, Repr

/-- The figures of a breaker. -/
def stats (b : Breaker) : Stats where
  phase := b.state.phase
  failures := b.state.failures
  failureLimit := b.settings.failureLimit
  lastFailure := b.state.lastFailure
  lastChange := b.state.lastChange
  total := b.total
  rejected := b.rejected

/-- What a caller can ask to see. -/
inductive Inspection
  | phase
  | stats
  | failures

/-- What a caller sees. -/
inductive Reading
  | phase (shown : Phase)
  | stats (stats : Stats)
  | failures (count : Nat)
deriving DecidableEq, Repr

/-- What a breaker shows at an instant. -/
def inspect (b : Breaker) (now : Instant) : Inspection → Reading
  | .phase => .phase (b.shown now)
  | .stats => .stats b.stats
  | .failures => .failures b.state.failures

/-! ## Calls -/

/-- How far a call has come, with an operation that gives an `α`. -/
inductive Stage (α : Type)
  /-- It has yet to ask. -/
  | made
  /-- It saw an open breaker that may be moved on, and has yet to take the second step. -/
  | elapsed
  /-- It may pass under a generation, or it may not; it has yet to be counted. -/
  | judged (verdict : Option Nat)
  /-- It is counted; its operation has yet to start. -/
  | counted (generation : Nat)
  | running (generation : Nat)
  /-- Its operation is over; the breaker has yet to be told. -/
  | returned (generation : Nat) (result : Except Error α)
  /-- The caller has the error of a call that was not let through. -/
  | refused (error : Error)
  /-- The caller has the result of the operation. -/
  | ended (result : Except Error α)

variable {α : Type}

/-- The next step of a call. One that runs waits for its operation, and after the end there is none
to take. -/
def attend (b : Breaker) (now : Instant) : Stage α → Stage α × Breaker
  | .made =>
    match b.state.glance b.settings now with
    | .pass generation => (.judged (some generation), b)
    | .refuse => (.judged none, b)
    | .elapsed => (.elapsed, b)
  | .elapsed =>
    let (verdict, state) := b.state.moveOn b.settings now
    (.judged verdict, { b with state })
  | .judged verdict =>
    match b.count verdict with
    | (.ok generation, b) => (.counted generation, b)
    | (.error e, b) => (.refused e, b)
  | .counted generation => (.running generation, b)
  | .running generation => (.running generation, b)
  | .returned generation result => (.ended result, b.record generation now result)
  | .refused e => (.refused e, b)
  | .ended result => (.ended result, b)

/-- Whether a step of a call starts its operation. -/
def Stage.isCounted : Stage α → Bool
  | .counted _ => true
  | _ => false

/-- A breaker with the calls that were made of it. -/
structure Exchange (α : Type) where
  breaker : Breaker
  /-- The calls, in the order in which they were made. -/
  calls : List (Stage α) := []
  /-- The calls whose operations were started, one entry for each start. -/
  started : List Nat := []
  /-- What callers have seen who looked at the breaker. -/
  readings : List Reading := []

namespace Exchange

/-- What can happen next. -/
inductive Event (α : Type)
  /-- A call is made. -/
  | call
  /-- The call with a number takes its next step. -/
  | step (index : Nat)
  /-- The operation of the call with a number is over. -/
  | finish (index : Nat) (result : Except Error α)
  | reset
  | inspect (inspection : Inspection)

/-- A new breaker of which no calls were made. -/
def idle (settings : Settings) (start : Instant) : Exchange α :=
  { breaker := .create settings start }

/-- A call that has come to a stage takes its next step. -/
def attend (x : Exchange α) (now : Instant) (index : Nat) (stage : Stage α) : Exchange α :=
  let (next, breaker) := x.breaker.attend now stage
  { x with
    breaker
    calls := x.calls.set index next
    started := if stage.isCounted then x.started ++ [index] else x.started }

/-- One event. Steps of calls that were not made, and the end of an operation that does not run, are
nothing. -/
def apply (x : Exchange α) (now : Instant) : Event α → Exchange α
  | .call => { x with calls := x.calls ++ [.made] }
  | .step index =>
    match x.calls[index]? with
    | some stage => x.attend now index stage
    | none => x
  | .finish index result =>
    match x.calls[index]? with
    | some (.running generation) =>
      { x with calls := x.calls.set index (.returned generation result) }
    | _ => x
  | .reset => { x with breaker := x.breaker.reset now }
  | .inspect inspection =>
    { x with readings := x.readings ++ [x.breaker.inspect now inspection] }

/-- A run: events, each at its instant. -/
def run (x : Exchange α) (events : List (Instant × Event α)) : Exchange α :=
  events.foldl (fun x e => x.apply e.1 e.2) x

/-- A call that is made and goes as far as it comes by itself, with nothing in between. -/
def ask (x : Exchange α) (now : Instant) : Exchange α :=
  x.run ((now, .call) :: List.replicate 4 (now, .step x.calls.length))

end Exchange

end AccessGate.Breaker
