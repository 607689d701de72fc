import AccessGate.Gate.Lifetime
import Mathlib.Control.Monad.Basic

/-!
# Work side by side

The gate serves many at once. Here requests and upkeep are cut into the steps that nothing can come
between: `Gate.step` is one step of a request, `Gate.tend` one of a start or of a further probe, and
`World.apply` takes in one event of a run in which they come in any order, together with changes
from outside. An answer of the validator is an event of its own and counts only for a request that
waits for it, so one that comes after the deadline changes nothing. The lifetimes of what is cached
are taken to fit the clock. For lifetimes of any length, `Gate.step?` is a step of a request, and
`World.run?` a run in which no step breaks off.
-/

namespace AccessGate

/-- How far a request has come, by what is to be done next. -/
inductive Progress
  /-- The flag that switches authorization, and the request's form, are to be looked at. -/
  | arrived
  /-- The cache is to be scanned. -/
  | accepted
  /-- What the scan found stale is to be removed; the scan was made at an instant. -/
  | scanned (found : Cache.Scan) (instant : Instant)
  /-- The breaker is to be asked. -/
  | missed
  /-- The open breaker is to be moved on. -/
  | elapsed
  /-- The validator is asked; its answer is awaited. -/
  | asking (generation : Nat)
  /-- The breaker is to be told how the call went. -/
  | answered (generation : Nat) (result : Except Error ValidationReply)
  /-- The principal is to be made out and cached. -/
  | replied (reply : ValidationReply)
  /-- Access is to be decided. -/
  | identified (principal : Principal)
  /-- The decision is to be recorded. -/
  | decided (principalId : Option String) (result : Except Error (Principal × AccessPattern))
  | ended (result : Except Error Authorization)
deriving DecidableEq

namespace Gate

/-! ## Requests -/

/-- A request that the breaker let through under a generation, or refused. -/
def counted (g : Gate) (generation : Option Nat) : Progress × Gate :=
  match g.breaker.count generation with
  | (.ok generation, breaker) => (.asking generation, { g with breaker })
  | (.error e, breaker) => (.decided none (.error e), { g with breaker })

/-- One step of a request. While the validator's answer is awaited, and after the end, there is none
to take. The lifetimes of what is cached are taken to fit the clock. -/
def step (g : Gate) (r : Request) (now : Moment) : Progress → Progress × Gate
  | .arrived =>
    if !g.enabled then
      let (result, g) := g.bypass r
      (.ended result, g)
    else
      match g.refusal? r with
      | some e => (.decided none (.error e), g)
      | none => (.accepted, g)
  | .accepted =>
    (.scanned (g.cache.scan (credentialDigest r.credential) r.scope now) now.instant, g)
  | .scanned found instant =>
    let cache := (g.cache.cleanup found.stale instant now.wall).countAnswer found.answer
    let g := { g with cache }
    match found.answer with
    | .hit p => (.identified p, g)
    | .unknown =>
      (.decided none (.error (.authentication "credential rejected by validator")), g)
    | .miss => (.missed, g)
  | .missed =>
    match g.breaker.state.glance g.breaker.settings now.instant with
    | .pass generation => g.counted (some generation)
    | .refuse => g.counted none
    | .elapsed => (.elapsed, g)
  | .elapsed =>
    let (generation, state) := g.breaker.state.moveOn g.breaker.settings now.instant
    { g with breaker := { g.breaker with state } }.counted generation
  | .answered generation result =>
    let g := g.hear generation now.instant result
    match result with
    | .error e => (.decided none (.error e), g)
    | .ok reply => (.replied reply, g)
  | .replied reply =>
    match g.identify r now reply with
    | (.error e, g) => (.decided none (.error e), g)
    | (.ok p, g) => (.identified p, g)
  | .identified p => (.decided (some p.id) (g.check r p), g)
  | .decided principalId result =>
    let (result, g) := g.close r principalId result
    (.ended result, g)
  | .asking generation => (.asking generation, g)
  | .ended result => (.ended result, g)

/-- One step of a request, or its breaking off. Only the step that takes a principal into the cache
can break off. -/
def step? (g : Gate) (r : Request) (now : Moment) : Progress → Option (Progress × Gate)
  | .replied reply => do
    match ← g.identify? r now reply with
    | (.error e, g) => some (.decided none (.error e), g)
    | (.ok p, g) => some (.identified p, g)
  | p => some (g.step r now p)

/-- Steps of a request that nothing comes between. -/
def steps (r : Request) (now : Moment) : Nat → Progress × Gate → Progress × Gate
  | 0, s => s
  | n + 1, s => steps r now n (s.2.step r now s.1)

/-! ## Upkeep -/

/-- What is done to look after the gate. -/
inductive Upkeep
  | start
  | reprobe
deriving DecidableEq, Repr

/-- How far it has come, by what is to be done next. -/
inductive Upkeep.Progress
  /-- It is to be found out whether there is anything to do. -/
  | begun (task : Upkeep)
  /-- The validator is probed; its answer is awaited. -/
  | probing (task : Upkeep)
  /-- Authorization is to be switched off. -/
  | disabling
  /-- The reason is to be noted. -/
  | degrading
  /-- The breaker is to be closed. -/
  | resetting
  /-- The reason is to be taken back. -/
  | recovering
  /-- Authorization is to be switched on. -/
  | enabling
  | ended (result : Except Error Unit)

/-- One step of upkeep. While the answer to a probe is awaited, and after the end, there is none to
take. -/
def tend (g : Gate) (now : Instant) : Upkeep.Progress → Upkeep.Progress × Gate
  | .begun .start => (if g.config.enabled then .probing .start else .ended (.ok ()), g)
  | .begun .reprobe => (if g.degraded then .probing .reprobe else .ended (.ok ()), g)
  | .disabling => (.degrading, { g with enabled := false })
  | .degrading => (.ended (.ok ()), { g with degraded := true })
  | .resetting => (.recovering, g.resetBreaker now)
  | .recovering => (.enabling, { g with degraded := false })
  | .enabling => (.ended (.ok ()), { g with enabled := true })
  | .probing task => (.probing task, g)
  | .ended result => (.ended result, g)

/-- Upkeep after the answer to its probe. -/
def probed (c : Config) : Upkeep → Except Error Unit → Upkeep.Progress
  | .start, .ok _ => .ended (.ok ())
  | .start, .error e => if c.degradeOnStartupFailure then .disabling else .ended (.error e)
  | .reprobe, .ok _ => .resetting
  | .reprobe, .error e => .ended (.error e)

end Gate

/-! ## Runs -/

/-- A gate with the requests and the upkeep under way, numbered from the first. -/
structure World where
  gate : Gate
  requests : List (Request × Progress) := []
  upkeep : List Gate.Upkeep.Progress := []

/-- What can happen next. -/
inductive Event
  | request (r : Request)
  /-- A request takes a step. -/
  | step (index : Nat)
  /-- The call of a request is over: answered, broken down, or past its deadline. -/
  | answer (index : Nat) (result : Except Error ValidationReply)
  | upkeep (task : Gate.Upkeep)
  /-- Upkeep takes a step. -/
  | tend (index : Nat)
  /-- The probe of upkeep is over. -/
  | probe (index : Nat) (result : Except Error Unit)
  | clearCache
  | invalidate (credential : String)
  | registerScope (scope service : String)
  | unregisterScope (scope : String)
  | resetBreaker

namespace World

/-- A request with the answer it waits for; one that waits for none stays as it is. -/
def hear (result : Except Error ValidationReply) : Progress → Progress
  | .asking generation => .answered generation result
  | p => p

/-- Upkeep with the answer it waits for; upkeep that waits for none stays as it is. -/
def hearProbe (c : Config) (result : Except Error Unit) : Gate.Upkeep.Progress →
    Gate.Upkeep.Progress
  | .probing task => Gate.probed c task result
  | p => p

/-- One event. -/
def apply (w : World) (now : Moment) : Event → World
  | .request r => { w with requests := w.requests ++ [(r, .arrived)] }
  | .step i =>
    match w.requests[i]? with
    | none => w
    | some (r, p) =>
      let (p, gate) := w.gate.step r now p
      { w with gate, requests := w.requests.set i (r, p) }
  | .answer i result =>
    { w with requests := w.requests.modify i fun (r, p) => (r, hear result p) }
  | .upkeep task => { w with upkeep := w.upkeep ++ [.begun task] }
  | .tend i =>
    match w.upkeep[i]? with
    | none => w
    | some u =>
      let (u, gate) := w.gate.tend now.instant u
      { w with gate, upkeep := w.upkeep.set i u }
  | .probe i result =>
    { w with upkeep := w.upkeep.modify i (hearProbe w.gate.config result) }
  | .clearCache => { w with gate := w.gate.clearCache }
  | .invalidate credential => { w with gate := w.gate.invalidate credential }
  | .registerScope scope service => { w with gate := w.gate.registerScope scope service }
  | .unregisterScope scope => { w with gate := w.gate.unregisterScope scope }
  | .resetBreaker => { w with gate := w.gate.resetBreaker now.instant }

/-- A run: events, each at its moment. -/
def run (w : World) (events : List (Moment × Event)) : World :=
  events.foldl (fun w e => w.apply e.1 e.2) w

theorem run_cons (w : World) (e : Moment × Event) (events : List (Moment × Event)) :
    w.run (e :: events) = (w.apply e.1 e.2).run events := rfl

theorem run_append (w : World) (xs ys : List (Moment × Event)) :
    w.run (xs ++ ys) = (w.run xs).run ys := List.foldl_append

/-! ### Runs on a clock that ends -/

/-- One event, or the breaking off of the request that takes a step. -/
def attempt (w : World) (now : Moment) : Event → Option World
  | .step i =>
    match w.requests[i]? with
    | none => some w
    | some (r, p) => do
      let (p, gate) ← w.gate.step? r now p
      some { w with gate, requests := w.requests.set i (r, p) }
  | e => some (w.apply now e)

/-- A run, if no request breaks off in it. -/
def run? (w : World) (events : List (Moment × Event)) : Option World :=
  events.foldlM (fun w e => w.attempt e.1 e.2) w

end World

end AccessGate
