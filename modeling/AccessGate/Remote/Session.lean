import AccessGate.Breaker.Basic
import AccessGate.Remote.Race

/-!
# Guarded calls one after the other

A caller makes calls through a breaker and under a deadline, each when the one before has been
answered (`Session`). What the breaker lets through becomes a race, and the answer of the race is
told to the breaker. The task of a call that missed its deadline goes on beside the calls after it.
-/

namespace AccessGate

/-- A call that was answered. -/
structure Answered (α : Type) where
  start : Instant
  course : Course α
  /-- When its caller was answered. -/
  finish : Instant
  answer : Except Error α

/-- Calls made one after the other. -/
structure Session (rt : Runtime) (α : Type) where
  breaker : Breaker
  clock : Instant
  /-- The call whose caller waits: the generation it was let through under, and its race. -/
  current : Option (Nat × Race rt α) := none
  /-- The races of the calls before it that were let through. -/
  left : List (Race rt α) := []
  /-- The calls made, and when. -/
  calls : List (Instant × Course α) := []
  /-- The calls that were answered. -/
  answered : List (Answered α) := []

namespace Session

variable {rt : Runtime} {α : Type}

/-- A call asks the breaker to pass, and runs if it may. -/
def make (course : Course α) (s : Session rt α) : Session rt α :=
  let s := { s with calls := s.calls ++ [(s.clock, course)] }
  match s.breaker.request s.clock with
  | (.error e, breaker) =>
    { s with breaker, answered := s.answered ++ [⟨s.clock, course, s.clock, .error e⟩] }
  | (.ok generation, breaker) =>
    { s with breaker, current := some (generation, .spawn rt course s.clock) }

/-- The caller of a call looks; an answer is told to the breaker. One that unwinds is not. -/
def look (i : Invoker) (generation : Nat) (r : Race rt α) (s : Session rt α) : Session rt α :=
  let left := s.left ++ [r.look i s.clock]
  match r.listen i s.clock with
  | .pending => s
  | .ready result =>
    { s with
      breaker := s.breaker.record generation s.clock result
      current := none
      left
      answered := s.answered ++ [⟨r.start, r.course, s.clock, result⟩] }
  | .unwinds _ => { s with current := none, left }

/-- The races under way. -/
def races (s : Session rt α) : List (Race rt α) := s.left ++ (s.current.map Prod.snd).toList

/-- The instants at which tasks and callers are woken. -/
def wakes (i : Invoker) (s : Session rt α) : List Instant := s.races.flatMap (·.wakes i)

/-- What can happen next. -/
inductive Step (i : Invoker) (s : Session rt α) : Session rt α → Prop
  /-- A call is made. -/
  | call (course : Course α) (h : s.current = none) : Step i s (s.make course)
  /-- The task of the call under way is polled. -/
  | poll {generation : Nat} {r : Race rt α} (h : s.current = some (generation, r)) :
    Step i s { s with current := some (generation, r.poll i s.clock) }
  /-- The task of a call before it is polled. -/
  | pollLeft (index : Nat) : Step i s { s with left := s.left.modify index (·.poll i s.clock) }
  /-- The caller looks. -/
  | look {generation : Nat} {r : Race rt α} (h : s.current = some (generation, r)) :
    Step i s (s.look i generation r)
  /-- The clock goes on. -/
  | pass {later : Instant} (h : rt.Passes (s.wakes i) s.clock later) :
    Step i s { s with clock := later }

/-- A run. -/
abbrev Run (i : Invoker) : Session rt α → Session rt α → Prop := Relation.ReflTransGen (Step i)

end Session

end AccessGate
