import AccessGate.Proofs.Gate.Contact
import AccessGate.Proofs.Gate.Upkeep

/-!
# Authorization is never silently off

A start that cannot reach the validator switches authorization off and then notes it; a further
probe that reaches it takes the note back and then switches on. Both wait for the validator first,
so other upkeep may come in between.

With authorization disabled by the settings, upkeep never comes to a write (`World.off_run`). Else,
whatever the order of the writes, authorization is on, or noted as off, or some upkeep is between
its two writes (`World.covered_run`); and when upkeep does not overlap, the flags are opposite but
for then (`World.balanced_run`). The main statement is `World.never_silently_off`.
-/

namespace AccessGate

namespace Gate

/-- What the flags are like when this is the only upkeep under way: opposite, but for what a first
write has done. -/
def Upkeep.Progress.Agrees : Upkeep.Progress → Bool × Bool → Prop
  | .degrading, f => f.1 = false
  | .enabling, f => f.2 = false
  | _, f => f.1 = !f.2

/-- Upkeep that is not midway agrees with flags that are opposite. -/
theorem Upkeep.Progress.agrees_iff {u : Upkeep.Progress} {f : Bool × Bool}
    (h : u.isMidway = false) : u.Agrees f ↔ f.1 = !f.2 := by
  cases u with
  | degrading | enabling => cases h
  | begun | probing | disabling | resetting | recovering | ended => exact Iff.rfl

variable (g : Gate) (now : Instant) (u : Upkeep.Progress)

/-- A step of the only upkeep under way keeps what the flags are like. -/
theorem agrees_tend (h : u.Agrees g.flags) : (g.tend now u).1.Agrees (g.tend now u).2.flags := by
  rw [flags_tend]
  cases u with
  | begun task =>
    cases task with
    | start =>
      simp only [tend]
      split <;> exact h
    | reprobe =>
      simp only [tend]
      split <;> exact h
  | disabling | recovering => rfl
  | enabling =>
    have hnoted : g.flags.2 = false := h
    simp [tend, Upkeep.Progress.write, Upkeep.Progress.Agrees, hnoted]
  | probing | degrading | resetting | ended => exact h

/-- The answer to its probe does not bring upkeep between its two writes. -/
theorem agrees_probed {f : Bool × Bool} (c : Config) (task : Upkeep) (result : Except Error Unit)
    (h : f.1 = !f.2) : (probed c task result).Agrees f := by
  cases task with
  | start =>
    cases result with
    | ok => exact h
    | error e =>
      simp only [probed]
      split <;> exact h
  | reprobe => cases result <;> exact h

end Gate

namespace World

variable {w : World} {events past more : List (Moment × Event)} {now : Moment} {e : Event}
  {i : Nat} {u : Gate.Upkeep.Progress} {task : Gate.Upkeep}

/-! ## Authorization disabled by the settings -/

/-- With authorization disabled by the settings, no flag is ever set, and upkeep is over as soon as
it looks whether there is anything to do. -/
theorem off_run (hoff : w.gate.config.enabled = false) (hflags : w.gate.flags = (false, false))
    (hnew : w.upkeep = []) (events : List (Moment × Event)) :
    (w.run events).gate.flags = (false, false) ∧
      ∀ (i : Nat) (u : Gate.Upkeep.Progress), (w.run events).upkeep[i]? = some u →
        (∃ task, u = .begun task) ∨ u.isOver = true := by
  induction events using List.reverseRecOn with
  | nil =>
    refine ⟨hflags, ?_⟩
    intro i u hget
    rw [run, List.foldl_nil, hnew] at hget
    cases hget
  | append_singleton events e ih =>
    obtain ⟨hflags', hidle⟩ := ih
    rw [run_concat]
    constructor
    · rw [flags_apply, hflags']
      cases he : e.2 with
      | tend i =>
        simp only
        cases hget : (w.run events).upkeep[i]? with
        | none => rfl
        | some u =>
          rcases hidle i u hget with ⟨task, rfl⟩ | hover
          · rfl
          · cases u with
            | ended => rfl
            | begun | probing | disabling | degrading | resetting | recovering | enabling =>
              cases hover
      | request | step | answer | upkeep | probe | clearCache | invalidate | registerScope
      | unregisterScope | resetBreaker => rfl
    · intro i u hget
      rcases of_getElem?_upkeep_apply hget with ⟨u', hget', rfl⟩ | ⟨task, -, -, rfl⟩
      · rcases hidle i u' hget' with ⟨task, rfl⟩ | hover
        · rcases (w.run events).tended_cases e.1 i (.begun task) e.2 with
            hsame | ⟨-, hstep⟩ | ⟨task', -, -, hu, -⟩
          · exact .inl ⟨task, hsame⟩
          · right
            rw [hstep]
            cases task with
            | start => simp [Gate.tend, config_run, hoff, Gate.Upkeep.Progress.isOver]
            | reprobe =>
              have hnoted : (w.run events).gate.degraded = false := congrArg Prod.snd hflags'
              simp [Gate.tend, hnoted, Gate.Upkeep.Progress.isOver]
          · cases hu
        · rw [tended_of_isOver hover]
          exact .inr hover
      · exact .inl ⟨task, rfl⟩

/-! ## Upkeep in any order -/

/-- Authorization is on, or noted as off, or some upkeep is between its two writes. -/
inductive Covered (w : World) : Prop
  | on : w.gate.flags.1 = true → Covered w
  | noted : w.gate.flags.2 = true → Covered w
  | midway {i : Nat} {u : Gate.Upkeep.Progress} : w.upkeep[i]? = some u → u.isMidway = true →
    Covered w

/-- Whatever upkeep writes, the gate stays covered: who switches off or takes the note back is
between two writes then, and the second one covers the gate. -/
theorem Covered.apply (h : Covered w) (now : Moment) (e : Event) : Covered (w.apply now e) := by
  -- An event that writes nothing leaves who is between two writes there.
  have hquiet (hflags : (w.apply now e).gate.flags = w.gate.flags)
      (hstays : ∀ (i : Nat) (u : Gate.Upkeep.Progress), w.upkeep[i]? = some u →
        u.isMidway = true → w.tended now i u e = u) : Covered (w.apply now e) := by
    cases h with
    | on hon => exact .on (by rw [hflags, hon])
    | noted hnoted => exact .noted (by rw [hflags, hnoted])
    | @midway i u hget hmidway =>
      have hnext := getElem?_upkeep_apply hget now e
      rw [hstays i u hget hmidway] at hnext
      exact .midway hnext hmidway
  have hflags := w.flags_apply now e
  cases e with
  | tend k =>
    simp only at hflags
    cases hget : w.upkeep[k]? with
    | none =>
      rw [hget] at hflags
      refine hquiet hflags ?_
      intro i u hget' _
      refine if_neg ?_
      rintro rfl
      rw [hget] at hget'
      cases hget'
    | some u =>
      rw [hget, Option.elim_some] at hflags
      have hnext : (w.apply now (.tend k)).upkeep[k]? =
          some (w.gate.tend now.instant u).1 := by
        rw [getElem?_upkeep_apply hget, tended, if_pos rfl]
      cases u with
      | disabling | recovering => exact .midway hnext rfl
      | degrading => exact .noted (by rw [hflags]; rfl)
      | enabling => exact .on (by rw [hflags]; rfl)
      | begun | probing | resetting | ended =>
        refine hquiet hflags ?_
        intro i u hget' hmidway
        refine if_neg ?_
        rintro rfl
        obtain rfl := Option.some.inj (hget.symm.trans hget')
        cases hmidway
  | probe k result =>
    refine hquiet hflags ?_
    intro i u _ hmidway
    rcases w.tended_cases now i u (.probe k result) with hsame | ⟨he, -⟩ | ⟨task, _, -, rfl, -⟩
    · exact hsame
    · cases he
    · cases hmidway
  | request | step | answer | upkeep | clearCache | invalidate | registerScope | unregisterScope
  | resetBreaker => exact hquiet hflags fun _ _ _ _ => rfl

/-- A run keeps every off switch covered by a failed start. -/
theorem covered_run (h : Covered w) (events : List (Moment × Event)) : Covered (w.run events) := by
  induction events using List.reverseRecOn with
  | nil => exact h
  | append_singleton events e ih =>
    rw [run_concat]
    exact ih.apply e.1 e.2

/-- When no upkeep is between its two writes, authorization that is off is noted as off. -/
theorem Covered.noted_of_off (h : Covered w) (hsettled : ∀ u ∈ w.upkeep, u.isMidway = false)
    (hoff : w.gate.enabled = false) : w.gate.degraded = true := by
  cases h with
  | on hon =>
    rw [Gate.flags, hoff] at hon
    cases hon
  | noted hnoted => exact hnoted
  | midway hget hmidway =>
    rw [hsettled _ (List.mem_of_getElem? hget)] at hmidway
    cases hmidway

/-! ## Upkeep that does not overlap -/

/-- In a run, upkeep begins only when what began before is over. -/
def Sequential (w : World) (events : List (Moment × Event)) : Prop :=
  ∀ past now task, past ++ [(now, .upkeep task)] <+: events →
    ∀ u ∈ (w.run past).upkeep, u.isOver = true

theorem Sequential.of_prefix {events' : List (Moment × Event)} (hp : events <+: events')
    (h : Sequential w events') : Sequential w events :=
  fun past now task hpast => h past now task (hpast.trans hp)

/-- One upkeep at most is under way, and the flags are as it says; with none under way they are
opposite. -/
structure Balanced (w : World) : Prop where
  alone : ∀ (i j : Nat) (u u' : Gate.Upkeep.Progress), w.upkeep[i]? = some u →
    w.upkeep[j]? = some u' → u.isOver = false → u'.isOver = false → i = j
  agrees : ∀ (i : Nat) (u : Gate.Upkeep.Progress), w.upkeep[i]? = some u → u.isOver = false →
    u.Agrees w.gate.flags
  quiet : (∀ u ∈ w.upkeep, u.isOver = true) → w.gate.flags.1 = !w.gate.flags.2

/-- The only upkeep under way says what the flags are like, before an event and after. -/
theorem Balanced.agrees_tended (h : Balanced w) (hget : w.upkeep[i]? = some u)
    (hu : u.isOver = false) (now : Moment) (e : Event) :
    (w.tended now i u e).Agrees (w.apply now e).gate.flags := by
  have hagrees := h.agrees i u hget hu
  by_cases he : e = .tend i
  · subst he
    rw [flags_apply_tend hget, tended, if_pos rfl, ← Gate.flags_tend _ now.instant]
    exact Gate.agrees_tend _ _ _ hagrees
  · rw [flags_apply_of_over]
    · rcases w.tended_cases now i u e with hsame | ⟨htend, -⟩ | ⟨task, result, -, rfl, hprobed⟩
      · rwa [hsame]
      · exact absurd htend he
      · rw [hprobed]
        exact Gate.agrees_probed _ _ _ hagrees
    · rintro k u' rfl hget'
      by_contra hover
      refine he ?_
      rw [h.alone i k u u' hget hget' hu (by simpa using hover)]

/-- An event keeps the balance, if no upkeep begins by it while another is under way. -/
theorem Balanced.apply (h : Balanced w) (now : Moment) (e : Event)
    (hseq : ∀ task, e = .upkeep task → ∀ u ∈ w.upkeep, u.isOver = true) :
    Balanced (w.apply now e) := by
  -- Upkeep that is under way after the event was so before, or has begun by it.
  have hbefore (i : Nat) (u : Gate.Upkeep.Progress)
      (hget : (w.apply now e).upkeep[i]? = some u) (hu : u.isOver = false) :
      (∃ u', w.upkeep[i]? = some u' ∧ u'.isOver = false ∧ u = w.tended now i u' e) ∨
        ∃ task, e = .upkeep task ∧ i = w.upkeep.length ∧ u = .begun task := by
    rcases of_getElem?_upkeep_apply hget with ⟨u', hget', rfl⟩ | hbegun
    · refine .inl ⟨u', hget', ?_, rfl⟩
      by_contra hover
      have hover : u'.isOver = true := by simpa using hover
      rw [tended_of_isOver hover, hover] at hu
      cases hu
    · exact .inr hbegun
  have hnone (task : Gate.Upkeep) (he : e = .upkeep task) (i : Nat) (u : Gate.Upkeep.Progress)
      (hget : w.upkeep[i]? = some u) (hu : u.isOver = false) : False := by
    rw [hseq task he u (List.mem_of_getElem? hget)] at hu
    cases hu
  refine ⟨?_, ?_, ?_⟩
  · intro i j u u' hi hj hu hu'
    rcases hbefore i u hi hu with ⟨v, hv, hvu, -⟩ | ⟨task, he, rfl, -⟩
    · rcases hbefore j u' hj hu' with ⟨v', hv', hvu', -⟩ | ⟨task, he, -, -⟩
      · exact h.alone i j v v' hv hv' hvu hvu'
      · exact (hnone task he i v hv hvu).elim
    · rcases hbefore j u' hj hu' with ⟨v', hv', hvu', -⟩ | ⟨-, -, rfl, -⟩
      · exact (hnone task he j v' hv' hvu').elim
      · rfl
  · intro i u hget hu
    rcases hbefore i u hget hu with ⟨v, hv, hvu, rfl⟩ | ⟨task, rfl, -, rfl⟩
    · exact h.agrees_tended hv hvu now e
    · exact h.quiet (hseq task rfl)
  · intro hover
    by_cases hall : ∀ u ∈ w.upkeep, u.isOver = true
    · rw [flags_apply_of_over fun k u _ hget => hall u (List.mem_of_getElem? hget)]
      exact h.quiet hall
    · -- The one that was under way is over by the event, and says so.
      push Not at hall
      obtain ⟨u, hmem, hu⟩ := hall
      obtain ⟨i, hget⟩ := List.getElem?_of_mem hmem
      have hnext := getElem?_upkeep_apply hget now e
      have hdone := hover _ (List.mem_of_getElem? hnext)
      exact (Gate.Upkeep.Progress.agrees_iff
        (Gate.Upkeep.Progress.isMidway_of_isOver hdone)).1
        (h.agrees_tended hget (by simpa using hu) now e)

/-- A run in which upkeep does not overlap keeps the flags balanced. -/
theorem balanced_run (h : Balanced w) (hseq : Sequential w events) : Balanced (w.run events) := by
  induction events using List.reverseRecOn with
  | nil => exact h
  | append_singleton events e ih =>
    rw [run_concat]
    refine (ih (hseq.of_prefix (List.prefix_append _ _))).apply e.1 e.2 ?_
    intro task he
    obtain ⟨now, event⟩ := e
    obtain rfl : event = .upkeep task := he
    exact hseq events now task (List.prefix_refl _)

/-- When no upkeep is between its two writes, the flags are opposite. -/
theorem Balanced.opposite (h : Balanced w) (hsettled : ∀ u ∈ w.upkeep, u.isMidway = false) :
    w.gate.flags.1 = !w.gate.flags.2 := by
  by_cases hall : ∀ u ∈ w.upkeep, u.isOver = true
  · exact h.quiet hall
  · push Not at hall
    obtain ⟨u, hmem, hu⟩ := hall
    obtain ⟨i, hget⟩ := List.getElem?_of_mem hmem
    exact (Gate.Upkeep.Progress.agrees_iff (hsettled u hmem)).1
      (h.agrees i u hget (by simpa using hu))

/-! ## Upkeep that fails -/

/-- Upkeep that fails without overlapping other upkeep leaves the flags as they were: from when it
begins, until other upkeep does. -/
theorem flags_run_of_failed {e : Error} (hseq : Sequential w events)
    (happened : past ++ [(now, .upkeep task)] ++ more <+: events)
    (hmore : ∀ x ∈ more, ∀ task, x.2 ≠ .upkeep task)
    (hfailed : (w.run events).upkeep[(w.run past).upkeep.length]? = some (.ended (.error e))) :
    (w.run (past ++ [(now, .upkeep task)] ++ more)).gate.flags = (w.run past).gate.flags ∧
      ∀ (j : Nat) (u : Gate.Upkeep.Progress),
        (w.run (past ++ [(now, .upkeep task)] ++ more)).upkeep[j]? = some u →
          j ≠ (w.run past).upkeep.length → u.isOver = true := by
  induction more using List.reverseRecOn with
  | nil =>
    rw [List.append_nil, run_concat]
    refine ⟨(flags_apply _ _ _), ?_⟩
    intro j u hget hne
    have hover := hseq past now task ((List.prefix_append _ _).trans happened)
    rcases of_getElem?_upkeep_apply hget with ⟨u', hget', hu⟩ | ⟨task', -, hlast, -⟩
    · rw [hu]
      exact hover u' (List.mem_of_getElem? hget')
    · exact absurd hlast hne
  | append_singleton more x ih =>
    rw [← List.append_assoc] at happened
    obtain ⟨hflags, hover⟩ := ih ((List.prefix_append _ _).trans happened)
      fun x hx => hmore x (List.mem_append_left _ hx)
    have hnone := hmore x (List.mem_append_right _ (List.mem_singleton_self x))
    rw [← List.append_assoc, run_concat, flags_apply]
    constructor
    · cases he : x.2 with
      | tend k =>
        simp only
        cases hget : (w.run (past ++ [(now, .upkeep task)] ++ more)).upkeep[k]? with
        | none => exact hflags
        | some u =>
          refine Eq.trans ?_ hflags
          by_cases hk : k = (w.run past).upkeep.length
          · subst hk
            exact write_of_failed ((List.prefix_append _ _).trans happened) hfailed hget _
          · exact Gate.Upkeep.Progress.write_of_isOver (hover k u hget hk) _
      | request | step | answer | upkeep | probe | clearCache | invalidate | registerScope
      | unregisterScope | resetBreaker => exact hflags
    · intro j u hget hne
      rcases of_getElem?_upkeep_apply hget with ⟨u', hget', rfl⟩ | ⟨task', he, -, -⟩
      · rw [tended_of_isOver (hover j u' hget' hne)]
        exact hover j u' hget' hne
      · exact absurd he (hnone task')

/-! ## Who writes -/

/-- Authorization is switched off, or noted as off, by a start that has failed only. -/
theorem startFailed_of_written {now : Moment} {e : Event} (hnew : w.upkeep = [])
    (h : (w.run past).gate.enabled = true ∧ (w.run (past ++ [(now, e)])).gate.enabled = false ∨
      (w.run past).gate.degraded = false ∧ (w.run (past ++ [(now, e)])).gate.degraded = true) :
    w.gate.config.degradeOnStartupFailure = true ∧
      ∃ i err, e = .tend i ∧ StartFailed w past i err := by
  have hwritten := written hnew past now e
  simp only [Gate.flags, Prod.mk.injEq] at hwritten
  rcases hwritten with ⟨he, hd⟩ | ⟨hdegrade, hfailed, -⟩ | ⟨-, hto⟩
  · rw [he, hd] at h
    rcases h with ⟨hon, hoff⟩ | ⟨hoff, hon⟩ <;> simp [hon] at hoff
  · exact ⟨hdegrade, hfailed⟩
  · rcases hto with ⟨he, hd⟩ | ⟨he, hd⟩ <;> simp_all

/-- Authorization is switched on, or no longer noted as off, by a further probe that has reached the
validator only. -/
theorem recovered_of_written {now : Moment} {e : Event} (hnew : w.upkeep = [])
    (h : (w.run past).gate.enabled = false ∧ (w.run (past ++ [(now, e)])).gate.enabled = true ∨
      (w.run past).gate.degraded = true ∧ (w.run (past ++ [(now, e)])).gate.degraded = false) :
    ∃ i, e = .tend i ∧ Recovered w past i := by
  have hwritten := written hnew past now e
  simp only [Gate.flags, Prod.mk.injEq] at hwritten
  rcases hwritten with ⟨he, hd⟩ | ⟨-, -, hto⟩ | ⟨hrecovered, -⟩
  · rw [he, hd] at h
    rcases h with ⟨hoff, hon⟩ | ⟨hon, hoff⟩ <;> simp [hon] at hoff
  · rcases hto with ⟨he, hd⟩ | ⟨he, hd⟩ <;> simp_all
  · exact hrecovered

/-! ## Requests -/

/-- Only a request that was accepted asks the validator. -/
theorem accepted_of_mem_asked {r : Request} {q : Progress} (hnew : w.requests.length ≤ i)
    (hget : (w.run events).requests[i]? = some (r, q)) (h : i ∈ w.asked events) :
    Accepted w events i r := by
  obtain ⟨past, now, r', q', n, took, hflight, hasking⟩ := mem_asked_iff.1 h
  obtain rfl := took.request_eq hget
  have hcame := came_run hnew past took.stood
  rcases (Gate.asking_step_iff hflight).1 hasking with ⟨rfl, -⟩ | ⟨rfl, -⟩
  · exact hcame.1.mono took.past_prefix
  · exact hcame.1.mono took.past_prefix

/-- A request that arrives while authorization is off is over at once. -/
theorem ended_of_unchecked {r : Request} (took : Took w events past now i r .arrived)
    (hoff : (w.run past).gate.enabled = false) :
    (w.run events).requests[i]? = some (r, .ended (.ok ⟨.anonymous, none⟩)) := by
  have hstep : ((w.run past).gate.step r now .arrived).1 = .ended (.ok ⟨.anonymous, none⟩) := by
    simp [Gate.step, hoff, Gate.bypass]
  have hget := getElem?_run_step took.stood now
  rw [hstep] at hget
  obtain ⟨more, rfl⟩ := took.happened
  exact ended_run hget more

/-- A request that arrives while authorization is off asks nobody and touches nothing. -/
theorem untouched_of_unchecked {r : Request} (hnew : w.requests.length ≤ i)
    (took : Took w events past now i r .arrived) (hoff : (w.run past).gate.enabled = false) :
    i ∉ w.asked events ∧
      EachStep w events i r fun _ _ g g' => g'.cache = g.cache ∧ g'.breaker = g.breaker := by
  have hout : ¬ Accepted w events i r := by
    intro haccepted
    rw [(haccepted.of_took took).1] at hoff
    cases hoff
  exact ⟨fun h => hout (accepted_of_mem_asked hnew (ended_of_unchecked took hoff) h),
    kept_of_not_accepted hnew hout⟩

/-- A request that arrives while authorization is on is not let in unchecked. -/
theorem isBypassed_of_enabled {r : Request} {a : Authorization} (hnew : w.requests.length ≤ i)
    (took : Took w events past now i r .arrived) (hon : (w.run past).gate.enabled = true)
    (hget : (w.run events).requests[i]? = some (r, .ended (.ok a))) : a.isBypassed = false := by
  have hcame := came_run hnew events hget a rfl
  cases hp : a.pattern with
  | none =>
    obtain ⟨past', now', took', hoff⟩ := hcame hp
    obtain ⟨rfl, -⟩ := took.unique took' rfl rfl
    rw [hon] at hoff
    cases hoff
  | some pattern => simp [Authorization.isBypassed, hp]

/-- **Authorization is never silently off.** Take any run of a new gate, in which requests and
upkeep come in any order, step by step. With authorization disabled by the settings, it is never on
and never noted as off. Else it is noted as off whenever it is off and no upkeep is between its two
writes; and if upkeep does not overlap, the flags are opposite then, and upkeep that fails leaves
them as it found them. What switches off, or notes that, is a start that could not reach the
validator, under settings that ask for it; what takes that back is a further probe that did reach
it. A request that arrives while authorization is on is not let in unchecked. One that arrives
while it is off is let in at once, as nobody, and leaves the cache, the breaker and the validator
alone. -/
theorem never_silently_off {c : Config} {parts : Gate.Parts} {start : Instant} {g : Gate}
    (hbuild : Gate.build c parts start = .ok g) (events : List (Moment × Event)) :
    let w : World := { gate := g }
    (c.enabled = false → (w.run events).gate.flags = (false, false)) ∧
    (c.enabled = true →
      ((∀ u ∈ (w.run events).upkeep, u.isMidway = false) →
        (w.run events).gate.enabled = false → (w.run events).gate.degraded = true) ∧
      (Sequential w events →
        ((∀ u ∈ (w.run events).upkeep, u.isMidway = false) →
          (w.run events).gate.enabled = !(w.run events).gate.degraded) ∧
        ∀ past now task more e, past ++ [(now, .upkeep task)] ++ more <+: events →
          (∀ x ∈ more, ∀ task, x.2 ≠ .upkeep task) →
          (w.run events).upkeep[(w.run past).upkeep.length]? = some (.ended (.error e)) →
          (w.run (past ++ [(now, .upkeep task)] ++ more)).gate.flags = (w.run past).gate.flags)) ∧
    (∀ past now event, past ++ [(now, event)] <+: events →
      (((w.run past).gate.enabled = true ∧
            (w.run (past ++ [(now, event)])).gate.enabled = false ∨
          (w.run past).gate.degraded = false ∧
            (w.run (past ++ [(now, event)])).gate.degraded = true) →
        c.degradeOnStartupFailure = true ∧ ∃ i e, event = .tend i ∧ StartFailed w past i e) ∧
      (((w.run past).gate.enabled = false ∧
            (w.run (past ++ [(now, event)])).gate.enabled = true ∨
          (w.run past).gate.degraded = true ∧
            (w.run (past ++ [(now, event)])).gate.degraded = false) →
        ∃ i, event = .tend i ∧ Recovered w past i)) ∧
    ∀ i r past now, Took w events past now i r .arrived →
      ((w.run past).gate.enabled = true →
        ∀ a, (w.run events).requests[i]? = some (r, .ended (.ok a)) → a.isBypassed = false) ∧
      ((w.run past).gate.enabled = false →
        (w.run events).requests[i]? = some (r, .ended (.ok ⟨.anonymous, none⟩)) ∧
        i ∉ w.asked events ∧
        EachStep w events i r fun _ _ g g' => g'.cache = g.cache ∧ g'.breaker = g.breaker) := by
  intro w
  have hflags : w.gate.flags = (c.enabled, false) := Gate.flags_build hbuild
  have hconfig : w.gate.config = c := congrArg Gate.Setup.config (Gate.build_eq_ok hbuild).1
  refine ⟨?_, ?_, ?_, ?_⟩
  · intro hoff
    refine (off_run ?_ ?_ rfl events).1
    · rw [hconfig, hoff]
    · rw [hflags, hoff]
  · intro hon
    have hstart : w.gate.flags = (true, false) := by rw [hflags, hon]
    refine ⟨?_, ?_⟩
    · have hcovered : Covered w := .on (by rw [hstart])
      exact (covered_run hcovered events).noted_of_off
    · intro hseq
      refine ⟨?_, ?_⟩
      · intro hsettled
        have hbalanced : Balanced w :=
          ⟨by rintro i j u u' ⟨⟩, by rintro i u ⟨⟩, fun _ => by rw [hstart, Bool.not_false]⟩
        exact (balanced_run hbalanced hseq).opposite hsettled
      · intro past now task more e happened hmore hfailed
        exact (flags_run_of_failed hseq happened hmore hfailed).1
  · intro past now event _
    rw [← hconfig]
    exact ⟨startFailed_of_written rfl, recovered_of_written rfl⟩
  · intro i r past now took
    have hnew : w.requests.length ≤ i := Nat.zero_le i
    exact ⟨fun hon a hget => isBypassed_of_enabled hnew took hon hget,
      fun hoff => ⟨ended_of_unchecked took hoff, untouched_of_unchecked hnew took hoff⟩⟩

/-- A validator that cannot be reached at the start switches authorization off, and that is noted; a
request that comes then is let in unchecked. A further probe switches it on again. -/
theorem never_silently_off_recovered :
    let r : Request := ⟨"get", "t", "main"⟩
    let now : Moment := ⟨1, ⟨0, 0⟩⟩
    let down : List (Moment × Event) :=
      [(now, .upkeep .start), (now, .tend 0),
        (now, .probe 0 (.error (.timeout "ping" (.ofMillis 500)))), (now, .tend 0), (now, .tend 0),
        (now, .request r)]
    let passed := down ++ [(now, .step 0)]
    let up := passed ++
      [(now, .upkeep .reprobe), (now, .tend 1), (now, .probe 1 (.ok ())), (now, .tend 1),
        (now, .tend 1)]
    ∃ g, Gate.build {} {} 0 = .ok g ∧
      let w : World := { gate := g }
      (w.run passed).gate.enabled = false ∧ (w.run passed).gate.degraded = true ∧
      (w.run passed).requests[0]? = some (r, .ended (.ok ⟨.anonymous, none⟩)) ∧
      0 ∉ w.asked passed ∧
      (w.run (up ++ [(now, .tend 1)])).gate.enabled = true ∧ ∃ i, Recovered w up i := by
  intro r now down passed up
  obtain ⟨g, hbuild, hoff, hsettled, hstood, hunchecked, hbefore, hafter⟩ :
      ∃ g, Gate.build {} {} 0 = .ok g ∧ (run { gate := g } passed).gate.enabled = false ∧
        (∀ u ∈ (run { gate := g } passed).upkeep, u.isMidway = false) ∧
        (run { gate := g } down).requests[0]? = some (r, .arrived) ∧
        (run { gate := g } down).gate.enabled = false ∧
        (run { gate := g } up).gate.enabled = false ∧
        (run { gate := g } (up ++ [(now, .tend 1)])).gate.enabled = true :=
    ⟨_, rfl, by decide +kernel, by decide +kernel, by decide +kernel, by decide +kernel,
      by decide +kernel, by decide +kernel⟩
  obtain ⟨-, hon, -, hrequests⟩ := never_silently_off hbuild passed
  obtain ⟨-, -, hwritten, -⟩ := never_silently_off hbuild (up ++ [(now, .tend 1)])
  obtain ⟨hended, hasked, -⟩ :=
    (hrequests 0 r down now ⟨List.prefix_refl _, hstood⟩).2 hunchecked
  obtain ⟨i, -, hrecovered⟩ :=
    (hwritten up now (.tend 1) (List.prefix_refl _)).2 (.inl ⟨hbefore, hafter⟩)
  exact ⟨g, hbuild, hoff, (hon rfl).1 hsettled hoff, hended, hasked, hafter, i, hrecovered⟩

end World

end AccessGate
