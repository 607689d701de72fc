import AccessGate.Gate.Interleaving
import AccessGate.Gate.Upkeep

/-!
# Work that nothing comes between

A request whose steps follow each other without anything between them fares as if it were alone: up
to the validator it does what `Gate.approach` does (`Gate.steps_arrived`), and after the answer what
`Gate.conclude` does (`Gate.steps_answered`). So `Gate.authorize` is one run of many
(`Gate.authorize_eq_run`). Upkeep that nothing comes between does what `Gate.start` and
`Gate.reprobe` do (`Gate.start_eq_attended`, `Gate.reprobe_eq_attended`).
-/

namespace AccessGate.Gate

/-! ## Requests -/

/-- How far a request has come that has approached. -/
def Approach.progress : Approach → Progress
  | .asks generation => .asking generation
  | .ends result => .ended result

/-- A request that has ended takes no further step. -/
theorem steps_ended (r : Request) (now : Moment) (n : Nat) (result : Except Error Authorization)
    (g : Gate) : steps r now n (.ended result, g) = (.ended result, g) := by
  induction n with
  | zero => rfl
  | succ n ih => exact ih

/-- One step takes a decision to its end. -/
theorem steps_decided (g : Gate) (r : Request) (now : Moment) (n : Nat)
    (principalId : Option String) (result : Except Error (Principal × AccessPattern)) :
    steps r now (n + 1) (.decided principalId result, g) =
      (.ended (g.close r principalId result).1, (g.close r principalId result).2) := by
  rw [steps, step, steps_ended]

/-- Two steps take a known principal to the end. -/
theorem steps_identified (g : Gate) (r : Request) (now : Moment) (n : Nat) (p : Principal) :
    steps r now (n + 2) (.identified p, g) =
      (.ended (g.settle r p).1, (g.settle r p).2) := by
  rw [steps, step, steps_decided, settle]

/-- Asking the breaker in two steps that nothing comes between is asking it at once. -/
theorem steps_missed (g : Gate) (r : Request) (now : Moment) :
    steps r now 3 (.missed, g) =
      match g.breaker.request now.instant with
      | (.ok generation, breaker) => (.asking generation, { g with breaker })
      | (.error e, breaker) =>
        let g := { g with breaker }
        (.ended (g.close r none (.error e)).1, (g.close r none (.error e)).2) := by
  unfold Breaker.request Breaker.State.pass
  cases hg : g.breaker.state.glance g.breaker.settings now.instant with
  | pass generation => simp [steps, step, hg, counted, Breaker.count]
  | refuse => simp [steps, step, hg, counted, Breaker.count]
  | elapsed =>
    cases hc : g.breaker.state.moveOn g.breaker.settings now.instant with
    | mk generation state =>
      cases generation <;> simp [steps, step, hg, hc, counted, Breaker.count]

/-- Steps from the arrival that nothing comes between are an approach. -/
theorem steps_arrived (g : Gate) (r : Request) (now : Moment) :
    steps r now 6 (.arrived, g) = ((g.approach r now).1.progress, (g.approach r now).2) := by
  have first : steps r now 6 (.arrived, g) = steps r now 5 (g.step r now .arrived) := rfl
  rw [first, approach]
  cases he : !g.enabled with
  | true => simp only [step, he, if_true, steps_ended, Approach.ended, Approach.progress]
  | false =>
    cases hr : g.refusal? r with
    | some e =>
      simp only [step, he, hr, Bool.false_eq_true, if_false, steps_decided, Approach.ended,
        Approach.progress]
    | none =>
      simp only [step, he, hr, Bool.false_eq_true, if_false]
      rw [steps, step, steps, step]
      simp only [Cache.lookup]
      cases (g.cache.scan (credentialDigest r.credential) r.scope now).answer with
      | hit p => simp only [steps_identified, Approach.ended, Approach.progress]
      | unknown => simp only [steps_decided, Approach.ended, Approach.progress]
      | miss =>
        simp only [steps_missed]
        cases g.breaker.request now.instant with
        | mk passed breaker => cases passed <;> rfl

/-- Steps from an answer that nothing comes between conclude a request. -/
theorem steps_answered (g : Gate) (r : Request) (now : Moment) (generation : Nat)
    (result : Except Error ValidationReply) :
    steps r now 4 (.answered generation result, g) =
      (.ended (g.conclude r generation now result).1, (g.conclude r generation now result).2) := by
  unfold conclude
  cases result with
  | error e => rw [steps, step, steps_decided]
  | ok reply =>
    rw [steps, step, steps, step]
    cases hi : (g.hear generation now.instant (.ok reply)).identify r now reply with
    | mk principal g' =>
      cases principal with
      | error e => simp only [hi, steps_decided]
      | ok p => simp only [hi, steps_identified]

/-- A run of steps of the only request there is. -/
theorem run_replicate_step (g : Gate) (r : Request) (now : Moment) (n : Nat) (p : Progress) :
    World.run { gate := g, requests := [(r, p)] } (List.replicate n (now, .step 0)) =
      { gate := (steps r now n (p, g)).2, requests := [(r, (steps r now n (p, g)).1)] } := by
  induction n generalizing g p with
  | zero => rfl
  | succ n ih =>
    rw [List.replicate_succ, World.run_cons, steps]
    exact ih (g.step r now p).2 (g.step r now p).1

variable {σ : Type}

/-- The events by which a request arrives and goes as far as it comes without the validator. -/
def arriving (r : Request) (now : Moment) : List (Moment × Event) :=
  (now, .request r) :: List.replicate 6 (now, .step 0)

/-- A request that arrives goes its way to the validator in one go. -/
theorem run_arriving (g : Gate) (r : Request) (now : Moment) :
    World.run { gate := g } (arriving r now) =
      { gate := (g.approach r now).2, requests := [(r, (g.approach r now).1.progress)] } := by
  have harrived : World.apply { gate := g } now (.request r) =
      { gate := g, requests := [(r, .arrived)] } := rfl
  rw [arriving, World.run_cons, harrived, run_replicate_step, steps_arrived]

/-- The events by which a request hears the validator's answer and is concluded. -/
def concluding (now : Moment) (result : Except Error ValidationReply) : List (Moment × Event) :=
  (now, .answer 0 result) :: List.replicate 4 (now, .step 0)

/-- An answer takes its request to the end in one go. -/
theorem run_concluding (g : Gate) (r : Request) (generation : Nat) (now : Moment)
    (result : Except Error ValidationReply) :
    World.run { gate := g, requests := [(r, .asking generation)] } (concluding now result) =
      { gate := (g.conclude r generation now result).2
        requests := [(r, .ended (g.conclude r generation now result).1)] } := by
  have hanswered : World.apply { gate := g, requests := [(r, .asking generation)] } now
      (.answer 0 result) = { gate := g, requests := [(r, .answered generation result)] } := rfl
  rw [concluding, World.run_cons, hanswered, run_replicate_step, steps_answered]

/-- The events of a request on its own: if it comes to asking the validator, it is concluded when
the wait is over. -/
def courseOf (g : Gate) (v : Validator σ) (s : σ) (wall : WallClock) (r : Request)
    (now : Instant) : List (Moment × Event) :=
  match g.approach r (wall.moment now) with
  | (.ends _, _) => arriving r (wall.moment now)
  | (.asks _, g) =>
    let call := (v.validate s r.credential (wall.moment now)).1
    arriving r (wall.moment now) ++
      concluding (wall.moment ((g.validateInvoker.wait call).after now))
        (g.validateInvoker.outcome call)

/-- Authorizing a request is a run that nothing else takes part in. -/
theorem authorize_eq_run (g : Gate) (v : Validator σ) (s : σ) (wall : WallClock) (r : Request)
    (now : Instant) :
    World.run { gate := g } (g.courseOf v s wall r now) =
      { gate := (g.authorize v s wall r now).gate
        requests := [(r, .ended (g.authorize v s wall r now).result)] } := by
  have harriving := g.run_arriving r (wall.moment now)
  unfold authorize courseOf
  cases ha : g.approach r (wall.moment now) with
  | mk a g' =>
    rw [ha] at harriving
    cases a with
    | ends result => exact harriving
    | asks generation =>
      simp only [World.run_append, harriving, Approach.progress]
      rw [run_concluding]

/-! ## Upkeep -/

/-- Steps of upkeep that nothing comes between. -/
def tends (now : Instant) : Nat → Upkeep.Progress × Gate → Upkeep.Progress × Gate
  | 0, s => s
  | n + 1, s => tends now n (s.2.tend now s.1)

/-- Upkeep that nothing comes between, with an answer to its probe at an instant. -/
def attended (g : Gate) (task : Upkeep) (now finish : Instant) (answer : Except Error Unit) :
    Upkeep.Progress × Gate :=
  let (u, g) := g.tend now (.begun task)
  tends finish 3 (World.hearProbe g.config answer u, g)

/-- Starting a gate is a start that nothing comes between. -/
theorem start_eq_attended (g : Gate) (v : Validator σ) (s : σ) (wall : WallClock) (now : Instant) :
    let probed := g.probe v s wall now
    let started := g.start v s wall now
    (.ended started.result, started.gate) = g.attended .start now probed.2.2 probed.1 := by
  unfold start
  cases he : g.config.enabled with
  | false => simp [attended, tend, he, World.hearProbe, tends]
  | true =>
    obtain ⟨answer, s', finish⟩ := g.probe v s wall now
    cases answer with
    | ok => simp [attended, tend, he, World.hearProbe, tends, probed]
    | error e =>
      cases hd : g.config.degradeOnStartupFailure <;>
        simp [attended, tend, he, World.hearProbe, tends, probed, hd]

/-- Probing again is a further probe that nothing comes between. -/
theorem reprobe_eq_attended (g : Gate) (v : Validator σ) (s : σ) (wall : WallClock)
    (now : Instant) :
    let probed := g.probe v s wall now
    let tried := g.reprobe v s wall now
    (.ended tried.result, tried.gate) = g.attended .reprobe now probed.2.2 probed.1 := by
  unfold reprobe
  cases hd : g.degraded with
  | false => simp [attended, tend, hd, World.hearProbe, tends]
  | true =>
    obtain ⟨answer, s', finish⟩ := g.probe v s wall now
    cases answer with
    | ok => simp [attended, tend, hd, World.hearProbe, tends, probed, resetBreaker]
    | error e => simp [attended, tend, hd, World.hearProbe, tends, probed]

end AccessGate.Gate
