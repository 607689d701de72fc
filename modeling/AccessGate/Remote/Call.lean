import AccessGate.Error

/-!
# Remote calls under a deadline

A `RemoteCall` takes some time and then returns, breaks down, or never ends. An `Invoker` runs it on
a task of its own and waits no longer than the limit: `Invoker.outcome` is what the caller gets and
`Invoker.wait` how long that takes. A call that misses its deadline goes on by itself, and what it
returns is lost.
-/

namespace AccessGate

/-- How a remote call ends. -/
inductive Ending (α : Type)
  | returns (result : Except Error α)
  /-- It breaks down, perhaps with a text. -/
  | breaksDown (text : Option String)
  | hangs

/-- A remote call: how long it runs, and how it ends. -/
structure RemoteCall (α : Type) where
  delay : Duration
  ending : Ending α

namespace RemoteCall

variable {α β : Type}

/-- A call that returns at once. -/
def now (result : Except Error α) : RemoteCall α := ⟨⟨0⟩, .returns result⟩

/-- A call whose result is worked on before it is returned. -/
def andThen (c : RemoteCall α) (f : Except Error α → Except Error β) : RemoteCall β :=
  ⟨c.delay,
    match c.ending with
    | .returns r => .returns (f r)
    | .breaksDown text => .breaksDown text
    | .hangs => .hangs⟩

/-- Whether a call ends before a limit. -/
def endsWithin (c : RemoteCall α) (limit : Duration) : Bool :=
  match c.ending with
  | .hangs => false
  | _ => c.delay.nanos < limit.nanos

/-- Whether a call that started at an instant has returned at another. -/
def hasReturned (c : RemoteCall α) (start now : Instant) : Bool :=
  match c.ending with
  | .returns _ => c.delay.after start ≤ now
  | _ => false

end RemoteCall

/-- Runs the calls of one operation under a deadline. -/
structure Invoker where
  operation : String
  limit : Duration
deriving DecidableEq, Repr

namespace Invoker

variable {α : Type}

/-- The error of a call that broke down. -/
def breakdown (operation : String) (text : Option String) : Error :=
  .internal (s!"'{operation}' panicked: " ++ text.getD "unknown panic payload")

/-- What the caller of a call gets. -/
def outcome (i : Invoker) (c : RemoteCall α) : Except Error α :=
  if c.endsWithin i.limit then
    match c.ending with
    | .returns result => result
    | .breaksDown text => .error (breakdown i.operation text)
    | .hangs => .error (.timeout i.operation i.limit)
  else .error (.timeout i.operation i.limit)

/-- How long the caller waits. -/
def wait (i : Invoker) (c : RemoteCall α) : Duration :=
  if c.endsWithin i.limit then c.delay else i.limit

/-- No caller waits longer than the limit. -/
theorem wait_le_limit (i : Invoker) (c : RemoteCall α) : (i.wait c).nanos ≤ i.limit.nanos := by
  unfold wait RemoteCall.endsWithin
  cases c.ending with
  | hangs => simp
  | returns | breaksDown =>
    by_cases h : c.delay.nanos < i.limit.nanos
    · simp [h, Nat.le_of_lt h]
    · simp [h]

end Invoker

end AccessGate
