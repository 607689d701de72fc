import AccessGate.Remote.Call
import AccessGate.Remote.Runtime
import Mathlib.Logic.Relation

/-!
# The race against the deadline

What `Invoker.outcome` and `Invoker.wait` tell at once of a call happens bit by bit on a runtime. The
call runs on a task of its own. Each time the task is polled the call goes on until it suspends
again, returns or breaks down; a breakdown is caught on the task, and what comes of the call is sent
through a channel. The caller waits for the channel no longer than the limit. `Race.Step` is one of
these parts, or the clock going on as far as the runtime lets it.
-/

namespace AccessGate

/-- The course of a call: what it does once it is polled. -/
inductive Course (α : Type)
  | returns (result : Except Error α)
  | breaksDown (payload : Payload)
  /-- It suspends, and nothing wakes it. -/
  | hangs
  /-- It suspends, and goes on when it is polled after it was woken a span later. -/
  | suspends (span : Duration) (rest : Course α)
  /-- It suspends again and again, each time for some time, and never ends. -/
  | recurs (spans : Nat → { span : Duration // span.isZero = false })

/-- The task of a call. -/
inductive CallTask (α : Type)
  /-- It is woken at an instant, and the call goes on with its course. -/
  | waiting (wake : Instant) (course : Course α)
  /-- Nothing wakes it. -/
  | stuck
  | done

namespace Course

variable {α : Type}

/-- How long a call runs if it is always polled at once, and how it ends. -/
def remote : Course α → RemoteCall α
  | .returns result => ⟨⟨0⟩, .returns result⟩
  | .breaksDown payload => ⟨⟨0⟩, .breaksDown payload.text?⟩
  | .hangs | .recurs _ => ⟨⟨0⟩, .hangs⟩
  | .suspends span rest => ⟨⟨span.nanos + rest.remote.delay.nanos⟩, rest.remote.ending⟩

/-- How often a call that ends is polled. -/
def polls : Course α → Nat
  | .returns _ | .breaksDown _ | .hangs | .recurs _ => 1
  | .suspends _ rest => rest.polls + 1

/-- When a call that ends, and is woken at an instant to begin, is over at the latest. -/
def latest (maxDelay : Duration) (course : Course α) (wake : Instant) : Instant :=
  course.remote.delay.after wake + course.polls * maxDelay.nanos

/-- Polls a call. -/
def poll (now : Instant) : Course α → Poll (Except Error α) × CallTask α
  | .returns result => (.ready result, .done)
  | .breaksDown payload => (.unwinds payload, .done)
  | .hangs => (.pending, .stuck)
  | .suspends span rest => (.pending, .waiting (span.after now) rest)
  | .recurs spans =>
    (.pending, .waiting ((spans 0).val.after now) (.recurs fun n => spans (n + 1)))

end Course

/-- A call under way, on its task, and its caller. -/
structure Race (rt : Runtime) (α : Type) where
  /-- When the call began. -/
  start : Instant
  course : Course α
  task : CallTask α
  channel : rt.Channel (Except Error α)
  /-- When the task left the channel, and woke the caller. -/
  settled : Option Instant := none
  /-- Whether the caller waits. -/
  waiting : Bool := true
  /-- What the caller got, and when. -/
  heard : List (Instant × Poll (Except Error α)) := []
  /-- The results that came back from the channel. -/
  discarded : List (Except Error α) := []

namespace Race

variable {rt : Runtime} {α : Type}

/-- A call that begins: its task is woken at once. -/
def spawn (rt : Runtime) (course : Course α) (start : Instant) : Race rt α :=
  { start, course, task := .waiting start course, channel := rt.channel }

/-! ## The task -/

/-- The task sends a result. One that comes back is lost. -/
def send (now : Instant) (result : Except Error α) (r : Race rt α) : Race rt α :=
  let (returned, channel) := rt.send result r.channel
  { r with channel, settled := some now, discarded := r.discarded ++ returned.toList }

/-- The result of a call under guard: a breakdown is an error that names the operation. -/
def caught (i : Invoker) : Except Payload (Except Error α) → Except Error α
  | .ok result => result
  | .error payload => .error (Invoker.breakdown i.operation payload.text?)

/-- The task goes on with what comes of polling the call under guard. -/
def settle (i : Invoker) (now : Instant) (p : Poll (Except Payload (Except Error α)))
    (r : Race rt α) : Race rt α :=
  match p with
  | .pending => r
  | .ready out => r.send now (caught i out)
  | .unwinds _ => { r with channel := rt.dropSender r.channel, settled := some now }

/-- The task is polled; one that was not woken is still pending. -/
def poll (i : Invoker) (now : Instant) (r : Race rt α) : Race rt α :=
  match r.task with
  | .stuck | .done => r
  | .waiting wake course =>
    if now < wake then r
    else
      let (p, task) := course.poll now
      settle i now (rt.catchUnwind p) { r with task }

/-! ## The caller -/

/-- What the caller sees. -/
def listen (i : Invoker) (now : Instant) (r : Race rt α) : Poll (Except Error α) :=
  match rt.timeout r.start i.limit now (rt.receive r.channel) with
  | .pending => .pending
  | .ready (.ok (.ok result)) => .ready result
  | .ready (.ok (.error _)) =>
    .ready (.error (.internal s!"'{i.operation}' task ended without a result"))
  | .ready (.error _) => .ready (.error (.timeout i.operation i.limit))
  | .unwinds payload => .unwinds payload

/-- A caller that waits looks, and with an answer it stops listening. -/
def look (i : Invoker) (now : Instant) (r : Race rt α) : Race rt α :=
  if r.waiting then
    match r.listen i now with
    | .pending => r
    | p =>
      { r with
        waiting := false
        channel := rt.dropReceiver r.channel
        heard := r.heard ++ [(now, p)] }
  else r

/-! ## Runs -/

/-- The instants at which the task and the caller are woken: the caller when the task has left the
channel, and when the timer fires. -/
def wakes (i : Invoker) (r : Race rt α) : List Instant :=
  (match r.task with
    | .waiting wake _ => [wake]
    | .stuck | .done => []) ++
  if r.waiting then rt.fires (i.limit.after r.start) :: r.settled.toList else []

/-- What can happen next, with the time. -/
inductive Step (i : Invoker) : Instant × Race rt α → Instant × Race rt α → Prop
  /-- The task is polled. -/
  | poll (now : Instant) (r : Race rt α) : Step i (now, r) (now, r.poll i now)
  /-- The caller looks. -/
  | look (now : Instant) (r : Race rt α) : Step i (now, r) (now, r.look i now)
  /-- The clock goes on. -/
  | pass {now later : Instant} {r : Race rt α} (h : rt.Passes (r.wakes i) now later) :
    Step i (now, r) (later, r)

/-- A run. -/
abbrev Run (i : Invoker) : Instant × Race rt α → Instant × Race rt α → Prop :=
  Relation.ReflTransGen (Step i)

end Race

end AccessGate
