import AccessGate.Breaker.Basic
import AccessGate.Remote.Call
import AccessGate.Table
import AccessGate.Text.Sorted

/-!
# Polling services

A `Poller` asks named services whether they are well, each through a breaker of its own and under
one deadline. All services are polled at once, so each has the answer it would have alone; a service
whose breaker refuses the call is not asked at all. `Poller.pollUntil` is a poll that may be cut
off: a check that has not ended by then leaves no trace but that it was let through.
-/

namespace AccessGate

/-- The outcome of polling one service. -/
structure ServiceStatus where
  name : String
  /-- Whether the service answered that it is well. -/
  isReachable : Bool
  /-- What its breaker shows afterwards. -/
  phase : Breaker.Phase
  /-- What went wrong. -/
  error : Option String
deriving DecidableEq, Repr

/-- The status of a service by the result of a check and what the breaker shows afterwards. -/
def ServiceStatus.of (name : String) (result : Except Error Unit) (phase : Breaker.Phase) :
    ServiceStatus where
  name := name
  isReachable := result.isOk
  phase := phase
  error :=
    match result with
    | .ok _ => none
    | .error e => some e.message

/-- Polls services by name. -/
structure Poller where
  limit : Duration
  /-- The settings of every service's breaker, but for the name. -/
  template : Breaker.Settings
  services : Table String Breaker := .empty
  /-- The statuses of the last poll of all services. -/
  latest : List ServiceStatus := []

namespace Poller

/-- What a service says of itself: that it is well, or a chain of causes, the root first. -/
abbrev Finding := Except (List String) Unit

/-- The answers of services: what a call of the named service does. -/
abbrev Probes := String → RemoteCall Finding

/-- The call of a service as the breaker sees it: a service that is not well is a network failure.
-/
def checkCall (name : String) (probe : RemoteCall Finding) : RemoteCall Unit :=
  probe.andThen (·.bind (·.mapError fun causes => .network name (Error.chainText causes)))

/-- Runs the checks of services. -/
def invoker (p : Poller) : Invoker := ⟨"service-status", p.limit⟩

/-- Registers a service, or registers it anew, with a new breaker. -/
def register (p : Poller) (name : String) (now : Instant) : Poller :=
  { p with services := p.services.insert name (.create { p.template with name } now) }

/-- Stops polling a service. -/
def unregister (p : Poller) (name : String) : Poller :=
  { p with services := p.services.erase name }

/-- A check of one service: its breaker afterwards, and the status with how long it took. -/
structure Check where
  name : String
  breaker : Breaker
  status : ServiceStatus
  wait : Duration

/-- Checks a service from an instant on. A check that has not ended at `cutoff` does not tell the
breaker its result. -/
def check (p : Poller) (name : String) (b : Breaker) (probe : RemoteCall Finding)
    (now : Instant) (cutoff : Option Instant) : Check :=
  let call := checkCall name probe
  match b.request now with
  | (.error e, b) => ⟨name, b, .of name (.error e) (b.shown now), ⟨0⟩⟩
  | (.ok generation, b) =>
    let result := p.invoker.outcome call
    let wait := p.invoker.wait call
    let finish := wait.after now
    let b := if cutoff.all (finish < ·) then b.record generation finish result else b
    ⟨name, b, .of name result (b.shown finish), wait⟩

/-- The poller with the breaker of a checked service. -/
def put (p : Poller) (c : Check) : Poller :=
  { p with services := p.services.insert c.name c.breaker }

/-- Polls one service: its status, if it is registered, and when the check ended. -/
def pollOne (p : Poller) (name : String) (probes : Probes) (now : Instant) :
    Option ServiceStatus × Poller × Instant :=
  match p.services.get? name with
  | none => (none, p, now)
  | some b =>
    let c := p.check name b (probes name) now none
    (some c.status, p.put c, c.wait.after now)

/-- The names of the services, ascending. -/
def names (p : Poller) : List String := Text.sortedSet p.services.keys

/-- The checks of all services, by name. -/
def checks (p : Poller) (probes : Probes) (now : Instant) (cutoff : Option Instant) : List Check :=
  p.names.filterMap fun name =>
    (p.services.get? name).map fun b => p.check name b (probes name) now cutoff

/-- When the last of some checks that started at an instant ends. -/
def finish (checks : List Check) (now : Instant) : Instant :=
  checks.foldl (fun t c => max t (c.wait.after now)) now

/-- Polls all services at once, perhaps to be cut off: the poller, and the end of the poll. A poll
that was cut off is not remembered. -/
def pollUntil (p : Poller) (probes : Probes) (now : Instant) (cutoff : Option Instant) :
    Poller × Instant :=
  let cs := p.checks probes now cutoff
  let done := finish cs now
  let p := cs.foldl put p
  (if cutoff.all (done < ·) then { p with latest := cs.map Check.status } else p, done)

/-- Polls all services at once. -/
def pollAll (p : Poller) (probes : Probes) (now : Instant) : Poller × Instant :=
  p.pollUntil probes now none

/-- The rounds of a background loop, from the tick numbered `tick`, as long as they begin before
`stop`: one at each tick of the interval, or as soon as the one before is over. -/
def rounds (probes : Probes) (start : Instant) (interval : Duration) (stop : Instant) :
    Nat → Nat → Instant → Poller → Poller
  | 0, _, _, p => p
  | n + 1, tick, free, p =>
    let due := max free (start + tick * interval.nanos)
    if due < stop then
      let (p, done) := p.pollUntil probes due (some stop)
      rounds probes start interval stop n (tick + 1) done p
    else p

/-- Polls all services every `interval` in the background, for a time. A loop without an interval
breaks down before its first round. -/
def runFor (p : Poller) (probes : Probes) (now : Instant) (interval time : Duration) : Poller :=
  if interval.isZero then p
  else rounds probes now interval (time.after now) (time.nanos / interval.nanos + 1) 0 now p

end Poller

end AccessGate
