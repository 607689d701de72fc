import AccessGate.Proofs.Gate.Warrant

/-!
# The course of a request

A request goes from stage to stage and never comes back to one (`Progress.stage`), so in a run it
takes no step twice (`World.Took.unique`). What a step does to the gate is decided by the stage:
only two of them touch the cache, three the breaker and two the audit log (`Gate.cache_step`,
`Gate.breaker_step`, `Gate.audit_step`). And how far a request has come tells by which steps it did
(`World.came_run`): past the cache, it was well formed and arrived while authorization was on, and
past the scan it is known what the scan found.
-/

namespace AccessGate

/-- Whether an event is a step of a request. -/
def Event.isStepOf (i : Nat) : Event → Bool
  | .step k => k == i
  | _ => false

/-- The stages of a request, counted. -/
def Progress.stage : Progress → Nat
  | .arrived => 0
  | .accepted => 1
  | .scanned _ _ => 2
  | .missed => 3
  | .elapsed => 4
  | .asking _ => 5
  | .answered _ _ => 6
  | .replied _ => 7
  | .identified _ => 8
  | .decided _ _ => 9
  | .ended _ => 10

/-- Whether a request has no step to take: it waits for an answer, or is over. -/
def Progress.rests : Progress → Bool
  | .asking _ | .ended _ => true
  | _ => false

/-- A request rests while it waits for the validator, and at its end. -/
theorem Progress.rests_iff (q : Progress) : q.rests = true ↔ q.stage = 5 ∨ q.stage = 10 := by
  cases q <;> simp [rests, stage]

/-! ## One step -/

namespace Gate

variable (g : Gate) (r : Request) (now : Moment) (q : Progress)

/-- A request that was let through or refused has passed the breaker. -/
theorem stage_lt_counted (generation : Option Nat) : 4 < (g.counted generation).1.stage := by
  rcases g.counted_cases generation with ⟨n, h⟩ | ⟨e, h⟩ <;> simp [h, Progress.stage]

variable {q} in
/-- A step leads to a later stage. -/
theorem stage_lt_step (h : q.rests = false) : q.stage < (g.step r now q).1.stage := by
  cases q with
  | arrived =>
    simp only [step]
    split
    · exact Nat.succ_pos _
    · cases g.refusal? r <;> exact Nat.succ_pos _
  | accepted | identified | decided => exact Nat.lt_succ_self _
  | scanned found instant =>
    simp only [step]
    cases found.answer <;> simp [Progress.stage]
  | missed =>
    simp only [step]
    cases g.breaker.state.glance g.breaker.settings now.instant with
    | pass generation => exact Nat.lt_of_succ_lt (g.stage_lt_counted _)
    | refuse => exact Nat.lt_of_succ_lt (g.stage_lt_counted _)
    | elapsed => exact Nat.lt_succ_self _
  | elapsed => exact stage_lt_counted _ _
  | answered generation result => cases result <;> simp [step, Progress.stage]
  | replied reply =>
    simp only [step]
    cases g.identify r now reply with
    | mk principal g' => cases principal <;> simp [Progress.stage]
  | asking | ended => cases h

variable {q} in
/-- A request that rests takes no step. -/
theorem step_of_rests (h : q.rests = true) : g.step r now q = (q, g) := by
  cases q with
  | asking | ended => rfl
  | arrived | accepted | scanned | missed | elapsed | answered | replied | identified
  | decided => cases h

/-- A step touches the cache to remove what a scan found stale, and to take in an answer. -/
theorem cache_step :
    (g.step r now q).2.cache =
      match q with
      | .scanned found instant =>
        (g.cache.cleanup found.stale instant now.wall).countAnswer found.answer
      | .replied reply => (g.identify r now reply).2.cache
      | _ => g.cache := by
  cases q with
  | arrived =>
    simp only [step]
    split
    · rfl
    · cases g.refusal? r <;> rfl
  | scanned found instant => obtain ⟨answer, stale⟩ := found; cases answer <;> rfl
  | missed =>
    simp only [step]
    cases g.breaker.state.glance g.breaker.settings now.instant <;> rfl
  | elapsed =>
    simp only [step]
    cases (g.breaker.state.moveOn g.breaker.settings now.instant).1 <;> rfl
  | answered generation result => cases result <;> rfl
  | replied reply =>
    simp only [step]
    cases g.identify r now reply with
    | mk principal g' => cases principal <;> rfl
  | accepted | asking | identified | decided | ended => rfl

/-- A step touches the breaker to ask it, to move it on, and to tell it how a call went. -/
theorem breaker_step :
    (g.step r now q).2.breaker =
      match q with
      | .missed =>
        match g.breaker.state.glance g.breaker.settings now.instant with
        | .pass generation => (g.breaker.count (some generation)).2
        | .refuse => (g.breaker.count none).2
        | .elapsed => g.breaker
      | .elapsed =>
        let (generation, state) := g.breaker.state.moveOn g.breaker.settings now.instant
        ({ g.breaker with state }.count generation).2
      | .answered generation result => g.breaker.record generation now.instant result
      | _ => g.breaker := by
  cases q with
  | arrived =>
    simp only [step]
    split
    · rfl
    · cases g.refusal? r <;> rfl
  | scanned found instant => obtain ⟨answer, stale⟩ := found; cases answer <;> rfl
  | missed =>
    simp only [step]
    cases g.breaker.state.glance g.breaker.settings now.instant <;> rfl
  | elapsed =>
    simp only [step]
    cases (g.breaker.state.moveOn g.breaker.settings now.instant).1 <;> rfl
  | answered generation result => cases result <;> rfl
  | replied reply =>
    simp only [step, identify]
    cases g.principalOf reply now.wall <;> rfl
  | accepted | asking | identified | decided | ended => rfl

/-- A step writes to the audit log when a request is let in unchecked, and when it was decided. -/
theorem audit_step :
    (g.step r now q).2.audit =
      match q with
      | .arrived => if g.enabled then g.audit else (g.bypass r).2.audit
      | .decided principalId result => g.audit.record (auditEntry r principalId result)
      | _ => g.audit := by
  cases q with
  | arrived =>
    simp only [step]
    cases g.enabled with
    | false => rfl
    | true => cases g.refusal? r <;> rfl
  | scanned found instant => obtain ⟨answer, stale⟩ := found; cases answer <;> rfl
  | missed =>
    simp only [step]
    cases g.breaker.state.glance g.breaker.settings now.instant <;> rfl
  | elapsed =>
    simp only [step]
    cases (g.breaker.state.moveOn g.breaker.settings now.instant).1 <;> rfl
  | answered generation result => cases result <;> rfl
  | replied reply =>
    simp only [step, identify]
    cases g.principalOf reply now.wall <;> rfl
  | accepted | asking | identified | decided | ended => rfl

end Gate

namespace World

variable {w : World} {events past past' more : List (Moment × Event)} {now now' : Moment}
  {e : Event} {i : Nat} {r r' : Request} {q q' : Progress}

/-! ## Stage after stage -/

/-- How far a request that has come to `q` is after an event. -/
def advance (w : World) (now : Moment) (i : Nat) (r : Request) (q : Progress) : Event → Progress
  | .step k => if k = i then (w.gate.step r now q).1 else q
  | .answer k result => if k = i then hear result q else q
  | _ => q

/-- An event takes every request on to where it advances it. -/
theorem getElem?_apply (h : w.requests[i]? = some (r, q)) (now : Moment) (e : Event) :
    (w.apply now e).requests[i]? = some (r, w.advance now i r q e) := by
  cases e with
  | request r' =>
    obtain ⟨hlt, -⟩ := List.getElem?_eq_some_iff.1 h
    simp only [apply, List.getElem?_append_left hlt]
    exact h
  | step k =>
    by_cases hk : k = i
    · subst hk
      obtain ⟨hlt, -⟩ := List.getElem?_eq_some_iff.1 h
      simp only [apply, h, advance, if_true, List.getElem?_set_self hlt]
    · simp only [apply, advance, if_neg hk]
      cases hget : w.requests[k]? with
      | none => exact h
      | some request => exact (List.getElem?_set_ne hk).trans h
  | answer k result =>
    simp only [apply, advance, List.getElem?_modify, h]
    by_cases hk : k = i <;> simp [hk]
  | tend k =>
    simp only [apply]
    cases w.upkeep[k]? <;> exact h
  | upkeep | probe | clearCache | invalidate | registerScope | unregisterScope | resetBreaker =>
    exact h

/-- A request stays where it is, or comes to a later stage. -/
theorem advance_cases (w : World) (now : Moment) (i : Nat) (r : Request) (q : Progress)
    (e : Event) : w.advance now i r q e = q ∨ q.stage < (w.advance now i r q e).stage := by
  cases e with
  | step k =>
    by_cases hk : k = i
    · simp only [advance, if_pos hk]
      cases hq : q.rests with
      | true => exact .inl (by rw [Gate.step_of_rests _ _ _ hq])
      | false => exact .inr (Gate.stage_lt_step _ _ _ hq)
    · exact .inl (if_neg hk)
  | answer k result =>
    by_cases hk : k = i
    · simp only [advance, if_pos hk]
      rcases hear_cases result q with h | ⟨generation, rfl, h⟩
      · exact .inl h
      · exact .inr (h ▸ Nat.lt_succ_self _)
    · exact .inl (if_neg hk)
  | request | upkeep | tend | probe | clearCache | invalidate | registerScope | unregisterScope
  | resetBreaker => exact .inl rfl

/-- A request is at one place only. -/
theorem stood_unique (h : w.requests[i]? = some (r, q)) (h' : w.requests[i]? = some (r', q')) :
    r = r' ∧ q = q' := Prod.mk.inj (Option.some.inj (h.symm.trans h'))

/-- Where a step leads. -/
theorem getElem?_run_step (h : (w.run past).requests[i]? = some (r, q)) (now : Moment) :
    (w.run (past ++ [(now, .step i)])).requests[i]? =
      some (r, ((w.run past).gate.step r now q).1) := by
  rw [run_concat, getElem?_apply h, advance, if_pos rfl]

theorem prefix_concat (past more : List (Moment × Event)) (x : Moment × Event) :
    past ++ more <+: past ++ (more ++ [x]) := by
  rw [← List.append_assoc]
  exact List.prefix_append _ _

/-- The last event of a run, when it is a step. -/
theorem took_concat (h : (w.run (past ++ more)).requests[i]? = some (r, q)) (now : Moment) :
    Took w (past ++ (more ++ [(now, .step i)])) (past ++ more) now i r q := by
  have hsame : past ++ more ++ [(now, .step i)] = past ++ (more ++ [(now, .step i)]) :=
    List.append_assoc _ _ _
  exact ⟨hsame ▸ List.prefix_refl _, h⟩

/-- A step comes after what it follows. -/
theorem Took.past_prefix (h : Took w events past now i r q) : past <+: events :=
  (List.prefix_append _ _).trans h.happened

/-- What holds of a request when it has come to `q`, and is kept by every event from then on, holds
of it while the run goes on. -/
theorem follow {P : List (Moment × Event) → Progress → Prop}
    (hget : (w.run past).requests[i]? = some (r, q)) (hstart : P [] q)
    (hnext : ∀ more q now e, (w.run (past ++ more)).requests[i]? = some (r, q) → P more q →
      P (more ++ [(now, e)]) ((w.run (past ++ more)).advance now i r q e))
    (more : List (Moment × Event)) :
    ∃ q', (w.run (past ++ more)).requests[i]? = some (r, q') ∧ P more q' := by
  induction more using List.reverseRecOn with
  | nil => exact ⟨q, by rwa [List.append_nil], hstart⟩
  | append_singleton more x ih =>
    obtain ⟨q', hq', hP⟩ := ih
    refine ⟨_, ?_, hnext more q' x.1 x.2 hq' hP⟩
    rw [← List.append_assoc, run_concat]
    exact getElem?_apply hq' x.1 x.2

/-- The number of steps that a request takes in the course of events. -/
def ownSteps (i : Nat) (events : List (Moment × Event)) : Nat :=
  events.countP fun e => e.2.isStepOf i

/-- One more event is one more own step if it is a step of the request. -/
theorem ownSteps_concat (i : Nat) (more : List (Moment × Event)) (now : Moment) (e : Event) :
    ownSteps i (more ++ [(now, e)]) = ownSteps i more + if e.isStepOf i then 1 else 0 := by
  rw [ownSteps, List.countP_append, List.countP_singleton]
  rfl

/-- A request that waits for no answer is moved by its own steps only. -/
theorem advance_of_not_step (hq : ∀ generation, q ≠ .asking generation)
    (he : e.isStepOf i = false) : w.advance now i r q e = q := by
  cases e with
  | step k =>
    refine if_neg ?_
    rintro rfl
    simp [Event.isStepOf] at he
  | answer k result =>
    rcases hear_cases result q with h | ⟨generation, rfl, -⟩
    · simp [advance, h]
    · exact absurd rfl (hq generation)
  | request | upkeep | tend | probe | clearCache | invalidate | registerScope | unregisterScope
  | resetBreaker => rfl

/-- What holds of a request that waits for no answer after each number of its own steps, whatever
comes between them, holds of it while the run goes on. -/
theorem follow_steps {P : List (Moment × Event) → Nat → Progress → Prop}
    (hget : (w.run past).requests[i]? = some (r, q)) (hstart : P [] 0 q)
    (hquiet : ∀ more n q generation, P more n q → q ≠ .asking generation)
    (hother : ∀ more n q e, P more n q → P (more ++ [e]) n q)
    (hstep : ∀ more n q now, (w.run (past ++ more)).requests[i]? = some (r, q) → P more n q →
      P (more ++ [(now, .step i)]) (n + 1) ((w.run (past ++ more)).gate.step r now q).1)
    (more : List (Moment × Event)) :
    ∃ q', (w.run (past ++ more)).requests[i]? = some (r, q') ∧ P more (ownSteps i more) q' := by
  refine follow (P := fun more q => P more (ownSteps i more) q) hget hstart ?_ more
  intro more q now e hq hP
  rw [ownSteps_concat]
  cases he : e.isStepOf i with
  | false =>
    rw [advance_of_not_step (hquiet _ _ _ · hP) he]
    exact hother _ _ _ _ hP
  | true =>
    cases e with
    | step k =>
      obtain rfl : k = i := by simpa [Event.isStepOf] using he
      rw [advance, if_pos rfl, if_pos rfl]
      exact hstep _ _ _ _ hq hP
    | request | answer | upkeep | tend | probe | clearCache | invalidate | registerScope
    | unregisterScope | resetBreaker => cases he

/-- While a run goes on, a request stays where it is, or comes to a later stage. -/
theorem stage_run (hget : (w.run past).requests[i]? = some (r, q)) (more : List (Moment × Event)) :
    ∃ q', (w.run (past ++ more)).requests[i]? = some (r, q') ∧ (q' = q ∨ q.stage < q'.stage) := by
  refine follow (P := fun _ q' => q' = q ∨ q.stage < q'.stage) hget (.inl rfl) ?_ more
  intro more q' now e _ hstage
  rcases advance_cases (w.run (past ++ more)) now i r q' e with h | h
  · rwa [h]
  · rcases hstage with rfl | hlt
    · exact .inr h
    · exact .inr (Nat.lt_trans hlt h)

/-- A request that is over stays as it ended. -/
theorem ended_run {result : Except Error Authorization}
    (hget : (w.run past).requests[i]? = some (r, .ended result)) (more : List (Moment × Event)) :
    (w.run (past ++ more)).requests[i]? = some (r, .ended result) := by
  obtain ⟨q, hget', hstage⟩ := stage_run hget more
  have hlast : q.stage ≤ 10 := by cases q <;> simp [Progress.stage]
  rcases hstage with rfl | hlt
  · exact hget'
  · exact absurd hlt (Nat.not_lt_of_le hlast)

/-- What a request ends with that was decided. -/
def authorization (result : Except Error (Principal × AccessPattern)) :
    Except Error Authorization :=
  result.map fun (principal, pattern) => ⟨principal, some pattern⟩

/-- A request that was decided ends with the decision by its next step. -/
theorem decided_run {id : Option String} {result : Except Error (Principal × AccessPattern)}
    (hget : (w.run past).requests[i]? = some (r, .decided id result))
    (more : List (Moment × Event)) :
    (w.run (past ++ more)).requests[i]? =
      some (r, if ownSteps i more = 0 then .decided id result
        else .ended (authorization result)) := by
  obtain ⟨q, hget', rfl⟩ := follow_steps
    (P := fun _ n q => q = if n = 0 then .decided id result else .ended (authorization result))
    hget rfl
    (fun _ n q generation hq => by subst hq; split <;> simp)
    (fun _ _ _ _ hq => hq)
    (fun _ n q now _ hq => by subst hq; cases n <;> rfl) more
  exact hget'

/-! ## The steps of a run -/

/-- No step was taken in a run without events. -/
theorem not_took_nil : ¬ Took w [] past now i r q := by
  intro took
  have hnil := List.prefix_nil.1 took.happened
  simp at hnil

/-- The steps of a run with one more event are the steps before, and the event, if it is one. -/
theorem took_concat_iff {event : Moment × Event} :
    Took w (events ++ [event]) past now i r q ↔
      Took w events past now i r q ∨
        past = events ∧ event = (now, .step i) ∧ (w.run events).requests[i]? = some (r, q) := by
  constructor
  · intro took
    rcases List.prefix_concat_iff.1 took.happened with hlast | hbefore
    · obtain ⟨rfl, hsame⟩ := List.append_inj' hlast rfl
      exact .inr ⟨rfl, (List.cons.inj hsame).1.symm, took.stood⟩
    · exact .inl ⟨hbefore, took.stood⟩
  · rintro (took | ⟨rfl, rfl, hstood⟩)
    · exact took.mono (List.prefix_append _ _)
    · exact ⟨List.prefix_refl _, hstood⟩

/-- A request that took a step is what it is at the end. -/
theorem Took.request_eq (h : Took w events past now i r q)
    (hget : (w.run events).requests[i]? = some (r', q')) : r' = r := by
  obtain ⟨more, rfl⟩ := h.past_prefix
  obtain ⟨q'', hget', -⟩ := stage_run h.stood more
  exact (stood_unique hget hget').1

/-- A step that was taken has left the gate as the step leaves it. -/
theorem Took.gate_eq (h : Took w events past now i r q) :
    (w.run (past ++ [(now, .step i)])).gate = ((w.run past).gate.step r now q).2 := by
  rw [run_concat]
  simp only [apply, h.stood]

/-- That something holds of the gate before and after each step that a request takes in a run. -/
def EachStep (w : World) (events : List (Moment × Event)) (i : Nat) (r : Request)
    (P : Moment → Progress → Gate → Gate → Prop) : Prop :=
  ∀ past now q, Took w events past now i r q →
    P now q (w.run past).gate (w.run (past ++ [(now, .step i)])).gate

/-- Of two steps of a request, the one that was taken first led to where the other was taken from,
or to an earlier stage. -/
theorem Took.stage_le (h : Took w events past now i r q) (h' : Took w events past' now' i r' q')
    (hlt : past.length < past'.length) :
    ((w.run past).gate.step r now q).1.stage ≤ q'.stage := by
  have hprefix : past ++ [(now, .step i)] <+: past' :=
    List.prefix_of_prefix_length_le h.happened h'.past_prefix
      (by rw [List.length_append]; exact hlt)
  obtain ⟨more, rfl⟩ := hprefix
  obtain ⟨q'', hget, hstage⟩ := stage_run (getElem?_run_step h.stood now) more
  obtain ⟨-, rfl⟩ := stood_unique hget h'.stood
  rcases hstage with rfl | hlt
  · exact Nat.le_refl _
  · exact Nat.le_of_lt hlt

/-- A request takes no step twice. -/
theorem Took.unique (h : Took w events past now i r q) (h' : Took w events past' now' i r' q')
    (hstage : q.stage = q'.stage) (hmoves : q.rests = false) :
    past = past' ∧ now = now' ∧ q = q' := by
  have hmoves' : q'.rests = false := by
    rw [← Bool.not_eq_true, Progress.rests_iff] at hmoves ⊢
    rwa [← hstage]
  rcases Nat.lt_trichotomy past.length past'.length with hlt | heq | hgt
  · have hle := h.stage_le h' hlt
    have hstep := (w.run past).gate.stage_lt_step r now hmoves
    omega
  · have hsame := List.append_inj'
      ((List.prefix_of_prefix_length_le h.happened h'.happened (by simp [heq])).eq_of_length
        (by simp [heq])) rfl
    obtain ⟨rfl, hsame⟩ := hsame
    obtain ⟨-, rfl⟩ := stood_unique h.stood h'.stood
    obtain ⟨rfl, -⟩ := Prod.mk.inj (List.cons.inj hsame).1
    exact ⟨rfl, rfl, rfl⟩
  · have hle := h'.stage_le h hgt
    have hstep := (w.run past').gate.stage_lt_step r' now' hmoves'
    omega

/-- Of two steps of a request, the one from the earlier stage was taken first. -/
theorem Took.follows (h : Took w events past now i r q) (h' : Took w events past' now' i r' q')
    (hstage : q.stage < q'.stage) : past ++ [(now, .step i)] <+: past' := by
  rcases Nat.lt_trichotomy past.length past'.length with hlt | heq | hgt
  · refine List.prefix_of_prefix_length_le h.happened h'.past_prefix ?_
    rw [List.length_append]
    exact hlt
  · have hsame : past = past' :=
      (List.prefix_of_prefix_length_le h.past_prefix h'.past_prefix (Nat.le_of_eq heq)).eq_of_length
        heq
    subst hsame
    obtain ⟨-, rfl⟩ := stood_unique h.stood h'.stood
    exact absurd hstage (Nat.lt_irrefl _)
  · have hle := h'.stage_le h hgt
    cases hq : q'.rests with
    | true =>
      rw [Gate.step_of_rests _ _ _ hq] at hle
      exact absurd hstage (Nat.not_lt_of_le hle)
    | false =>
      have hstep := (w.run past').gate.stage_lt_step r' now' hq
      omega

/-! ## What a request has been through -/

/-- In a run, a request arrived while authorization was off. -/
def Unchecked (w : World) (events : List (Moment × Event)) (i : Nat) (r : Request) : Prop :=
  ∃ past now, Took w events past now i r .arrived ∧ (w.run past).gate.enabled = false

/-- In a run, a request arrived while authorization was on, and was well formed. -/
def Accepted (w : World) (events : List (Moment × Event)) (i : Nat) (r : Request) : Prop :=
  ∃ past now, Took w events past now i r .arrived ∧ (w.run past).gate.enabled = true ∧
    Gate.WellFormed (w.run past).gate.operations r

/-- In a run, a request scanned the cache at an instant, and this is what it found. -/
def Scanned (w : World) (events : List (Moment × Event)) (i : Nat) (r : Request)
    (found : Cache.Scan) (instant : Instant) : Prop :=
  ∃ past now, Took w events past now i r .accepted ∧ now.instant = instant ∧
    (w.run past).gate.cache.scan (credentialDigest r.credential) r.scope now = found

/-- In a run, a request got an answer from the cache. -/
def Found (w : World) (events : List (Moment × Event)) (i : Nat) (r : Request)
    (answer : Cache.Answer) : Prop :=
  ∃ found instant, Scanned w events i r found instant ∧ found.answer = answer

theorem Unchecked.mono {events' : List (Moment × Event)} (hp : events <+: events')
    (h : Unchecked w events i r) : Unchecked w events' i r := by
  obtain ⟨past, now, took, hoff⟩ := h
  exact ⟨past, now, took.mono hp, hoff⟩

theorem Accepted.mono {events' : List (Moment × Event)} (hp : events <+: events')
    (h : Accepted w events i r) : Accepted w events' i r := by
  obtain ⟨past, now, took, rest⟩ := h
  exact ⟨past, now, took.mono hp, rest⟩

theorem Scanned.mono {events' : List (Moment × Event)} {found : Cache.Scan} {instant : Instant}
    (hp : events <+: events') (h : Scanned w events i r found instant) :
    Scanned w events' i r found instant := by
  obtain ⟨past, now, took, rest⟩ := h
  exact ⟨past, now, took.mono hp, rest⟩

theorem Found.mono {events' : List (Moment × Event)} {answer : Cache.Answer}
    (hp : events <+: events') (h : Found w events i r answer) : Found w events' i r answer := by
  obtain ⟨found, instant, hscanned, hanswer⟩ := h
  exact ⟨found, instant, hscanned.mono hp, hanswer⟩

/-- The steps by which a request has come so far. -/
def Came (w : World) (events : List (Moment × Event)) (i : Nat) (r : Request) : Progress → Prop
  | .arrived | .decided _ _ => True
  | .accepted => Accepted w events i r
  | .scanned found instant => Accepted w events i r ∧ Scanned w events i r found instant
  | .missed | .elapsed | .asking _ | .answered _ _ | .replied _ =>
    Accepted w events i r ∧ Found w events i r .miss
  | .identified p => Accepted w events i r ∧ (Found w events i r (.hit p) ∨ Found w events i r .miss)
  | .ended result => ∀ a, result = .ok a → a.pattern = none → Unchecked w events i r

theorem Came.mono {events' : List (Moment × Event)} (hp : events <+: events')
    (h : Came w events i r q) : Came w events' i r q := by
  cases q with
  | arrived | decided => trivial
  | accepted => exact Accepted.mono hp h
  | scanned found instant => exact ⟨h.1.mono hp, h.2.mono hp⟩
  | missed | elapsed | asking | answered | replied => exact ⟨h.1.mono hp, h.2.mono hp⟩
  | identified p => exact ⟨h.1.mono hp, h.2.imp (Found.mono hp) (Found.mono hp)⟩
  | ended result => exact fun a ha hpattern => (h a ha hpattern).mono hp

/-- A request that the breaker has counted asks the validator or is refused. -/
theorem came_counted (g : Gate) (generation : Option Nat)
    (h : Accepted w events i r ∧ Found w events i r .miss) :
    Came w events i r (g.counted generation).1 := by
  cases generation with
  | some generation => exact h
  | none => trivial

/-- A step tells of the steps before. -/
theorem came_step (hstood : (w.run events).requests[i]? = some (r, q))
    (hcame : Came w events i r q) :
    Came w (events ++ [(now, .step i)]) i r ((w.run events).gate.step r now q).1 := by
  have hinit : events <+: events ++ [(now, Event.step i)] := List.prefix_append _ _
  have took : Took w (events ++ [(now, .step i)]) events now i r q :=
    ⟨List.prefix_refl _, hstood⟩
  cases q with
  | arrived =>
    simp only [Gate.step]
    cases hon : (w.run events).gate.enabled with
    | false => exact fun a _ _ => ⟨events, now, took, hon⟩
    | true =>
      cases hr : (w.run events).gate.refusal? r with
      | some e => trivial
      | none => exact ⟨events, now, took, hon, Gate.wellFormed_of_refusal? hr⟩
  | accepted => exact ⟨Accepted.mono hinit hcame, events, now, took, rfl, rfl⟩
  | scanned found instant =>
    obtain ⟨haccepted, hscanned⟩ := hcame
    have hfound : Found w (events ++ [(now, .step i)]) i r found.answer :=
      ⟨found, instant, hscanned.mono hinit, rfl⟩
    simp only [Gate.step]
    cases ha : found.answer with
    | hit p => exact ⟨haccepted.mono hinit, .inl (ha ▸ hfound)⟩
    | unknown => trivial
    | miss => exact ⟨haccepted.mono hinit, ha ▸ hfound⟩
  | missed =>
    have hmiss := And.imp (Accepted.mono hinit) (Found.mono hinit) hcame
    simp only [Gate.step]
    cases (w.run events).gate.breaker.state.glance (w.run events).gate.breaker.settings
      now.instant with
    | pass generation => exact came_counted _ _ hmiss
    | refuse => exact came_counted _ _ hmiss
    | elapsed => exact hmiss
  | elapsed => exact came_counted _ _ (And.imp (Accepted.mono hinit) (Found.mono hinit) hcame)
  | asking generation => exact Came.mono hinit hcame
  | answered generation result =>
    cases result with
    | error e => trivial
    | ok reply => exact Came.mono (q := .replied reply) hinit hcame
  | replied reply =>
    simp only [Gate.step, Gate.identify]
    cases (w.run events).gate.principalOf reply now.wall with
    | error e => trivial
    | ok p => exact ⟨hcame.1.mono hinit, .inr (hcame.2.mono hinit)⟩
  | identified p => trivial
  | decided id result =>
    intro a ha hpattern
    cases result with
    | error e => cases ha
    | ok decided =>
      obtain rfl := Except.ok.inj ha
      cases hpattern
  | ended result => exact Came.mono hinit hcame

/-- In every run that a request arrives in, how far it has come tells by which steps it did. -/
theorem came_run (hnew : w.requests.length ≤ i) (events : List (Moment × Event))
    (hget : (w.run events).requests[i]? = some (r, q)) : Came w events i r q := by
  refine stood_induction (P := fun events => Came w events i r) ?_ (fun _ => trivial)
    (fun _ _ _ => Came.mono (List.prefix_append _ _)) (fun _ _ _ => came_step)
    (fun _ _ _ hcame => hcame) events hget
  intro q hstood
  rw [List.getElem?_eq_none hnew] at hstood
  cases hstood

end World

end AccessGate
