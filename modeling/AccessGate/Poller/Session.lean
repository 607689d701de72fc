import AccessGate.Poller

/-!
# Runs of a poller

A `Session` is a poller with the probes of its services. A probe decides what to answer from the
instants at which it was called, and it is called only when the breaker of its service lets the call
through. A run takes in commands, each at its instant, and keeps every status that was reported.
-/

namespace AccessGate.Poller

/-- The probe of a service: what its call does, from the instants of its calls, that one last. -/
abbrev Probe := List Instant → RemoteCall Finding

/-- Whether a poll at an instant asks a service: whether it is registered and its breaker lets the
call through. -/
def asks (p : Poller) (name : String) (now : Instant) : Bool :=
  match p.services.get? name with
  | none => false
  | some b => (b.request now).1.isOk

/-- What can be asked of a poller. -/
inductive Command
  | register (name : String) (probe : Probe)
  | unregister (name : String)
  | pollOne (name : String)
  | pollAll

/-- Whether a command has to do with a service. -/
def Command.concerns (name : String) : Command → Bool
  | .register n _ | .unregister n | .pollOne n => n == name
  | .pollAll => true

/-- Whether a command polls a service. -/
def Command.polls (name : String) : Command → Bool
  | .pollOne n => n == name
  | .pollAll => true
  | .register _ _ | .unregister _ => false

/-- A poller at work. -/
structure Session where
  poller : Poller
  /-- The probe that a name was last registered with. -/
  probe : String → Probe := fun _ _ => ⟨⟨0⟩, .hangs⟩
  /-- When the probe of a name was called since then. -/
  calls : String → List Instant := fun _ => []
  /-- The statuses reported, oldest first, each with the instant of its poll. -/
  reports : List (Instant × ServiceStatus) := []

namespace Session

/-- A new poller. -/
def new (limit : Duration) (template : Breaker.Settings) : Session :=
  { poller := { limit, template } }

/-- What the probes do when they are called at an instant. -/
def probes (s : Session) (now : Instant) : Probes := fun name =>
  s.probe name (s.calls name ++ [now])

/-- The calls of the probes, with those of a command at an instant. -/
def called (s : Session) (now : Instant) (c : Command) : String → List Instant := fun name =>
  if c.polls name && s.poller.asks name now then s.calls name ++ [now] else s.calls name

/-- One command. -/
def apply (s : Session) (now : Instant) : Command → Session
  | .register name probe =>
    { s with
      poller := s.poller.register name now
      probe := fun n => if n = name then probe else s.probe n
      calls := fun n => if n = name then [] else s.calls n }
  | .unregister name => { s with poller := s.poller.unregister name }
  | .pollOne name =>
    let (status, poller, _) := s.poller.pollOne name (s.probes now) now
    { s with
      poller
      calls := s.called now (.pollOne name)
      reports := s.reports ++ status.toList.map (now, ·) }
  | .pollAll =>
    let (poller, _) := s.poller.pollAll (s.probes now) now
    { s with
      poller
      calls := s.called now .pollAll
      reports := s.reports ++ poller.latest.map (now, ·) }

/-- A run: commands, each at its instant. -/
def run (s : Session) (commands : List (Instant × Command)) : Session :=
  commands.foldl (fun s c => s.apply c.1 c.2) s

end Session

end AccessGate.Poller
