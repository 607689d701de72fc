import AccessGate.Poller

/-!
# Checks side by side

A poll of all services collects them in whatever order the map gives, and then all checks are on
their way at once. Here a check is cut into the steps that nothing can come between (`Poller.step`),
and `Polling.run` takes the steps of the checks of one poll in any order, over the one table that
holds the breakers. The poll is over when every check has ended; the statuses are then sorted by
name and remembered (`Polling.close`).
-/

namespace AccessGate

/-- The order in which statuses are reported: by name. -/
def ServiceStatus.before (s t : ServiceStatus) : Bool := s.name ≤ t.name

namespace Poller

/-- How far a check has come, by what is to be done next. -/
inductive Progress
  /-- The breaker is to be asked. -/
  | begun
  /-- The open breaker is to be moved on. -/
  | elapsed
  /-- The service is asked; the breaker is to be told how that went. -/
  | asking (generation : Nat)
  /-- The result is known since an instant; what the breaker shows is to be read. -/
  | judged (result : Except Error Unit) (instant : Instant)
  | ended (status : ServiceStatus)

/-- The status of a check that has ended. -/
def Progress.status? : Progress → Option ServiceStatus
  | .ended status => some status
  | _ => none

/-- A check that the breaker let through under a generation, or refused. -/
def counted (b : Breaker) (now : Instant) (generation : Option Nat) : Progress × Breaker :=
  match b.count generation with
  | (.ok generation, b) => (.asking generation, b)
  | (.error e, b) => (.judged (.error e) now, b)

/-- One step of a check that began at an instant. After the end there is none to take. -/
def step (p : Poller) (name : String) (probe : RemoteCall Finding) (now : Instant) :
    Progress × Breaker → Progress × Breaker
  | (.begun, b) =>
    match b.state.glance b.settings now with
    | .pass generation => counted b now (some generation)
    | .refuse => counted b now none
    | .elapsed => (.elapsed, b)
  | (.elapsed, b) =>
    let (generation, state) := b.state.moveOn b.settings now
    counted { b with state } now generation
  | (.asking generation, b) =>
    let result := p.invoker.outcome (checkCall name probe)
    let finish := (p.invoker.wait (checkCall name probe)).after now
    (.judged result finish, b.record generation finish result)
  | (.judged result instant, b) => (.ended (.of name result (b.shown instant)), b)
  | (.ended status, b) => (.ended status, b)

/-- A poll of all services under way: the poller, and how far each check has come. -/
structure Polling where
  poller : Poller
  progress : String → Progress := fun _ => .begun

namespace Polling

/-- The check of a service takes a step. -/
def step (s : Polling) (probes : Probes) (now : Instant) (name : String) : Polling :=
  match s.poller.services.get? name with
  | none => s
  | some b =>
    let (progress, b) := s.poller.step name (probes name) now (s.progress name, b)
    { poller := { s.poller with services := s.poller.services.insert name b }
      progress := fun n => if n = name then progress else s.progress n }

/-- Steps of checks, in the order of the names. -/
def run (s : Polling) (probes : Probes) (now : Instant) (schedule : List String) : Polling :=
  schedule.foldl (fun s name => s.step probes now name) s

/-- The end of a poll that collected the services in an order: the statuses of the checks, sorted by
name, and the poller that remembers them. -/
def close (s : Polling) (order : List String) : List ServiceStatus × Poller :=
  let statuses :=
    (order.filterMap fun name => (s.progress name).status?).mergeSort ServiceStatus.before
  (statuses, { s.poller with latest := statuses })

end Polling

end Poller

end AccessGate
