import AccessGate.Proofs.Gate.Course

/-!
# The course of upkeep

A start and a further probe go through their own stages beside the requests. Two flags say whether
requests are authorized: the switch itself, and the note that it was switched off because the
validator could not be reached. Each step of upkeep writes one of them at most (`Gate.flags_tend`),
and nothing else writes any (`World.flags_apply`). How far upkeep has come tells what has happened
(`World.grounds_run`), so what stands behind a write is known (`World.written`).
-/

namespace AccessGate

namespace Gate

/-! ## The flags -/

/-- Whether requests are authorized, and whether it is noted that they are not because the validator
could not be reached. -/
def flags (g : Gate) : Bool × Bool := (g.enabled, g.degraded)

namespace Upkeep.Progress

/-- Whether upkeep is between its two writes to the flags. -/
def isMidway : Upkeep.Progress → Bool
  | .degrading | .enabling => true
  | _ => false

def isOver : Upkeep.Progress → Bool
  | .ended _ => true
  | _ => false

/-- Whether upkeep has found that there is something to change. It does not fail from there on. -/
def isCommitted : Upkeep.Progress → Bool
  | .begun _ | .probing _ | .ended (.error _) => false
  | _ => true

/-- What the next step of upkeep writes. -/
def write : Upkeep.Progress → Bool × Bool → Bool × Bool
  | .disabling, f => (false, f.2)
  | .degrading, f => (f.1, true)
  | .recovering, f => (f.1, false)
  | .enabling, f => (true, f.2)
  | _, f => f

/-- What is over is not midway. -/
theorem isMidway_of_isOver {u : Upkeep.Progress} (h : u.isOver = true) : u.isMidway = false := by
  cases u with
  | ended => rfl
  | begun | probing | disabling | degrading | resetting | recovering | enabling => cases h

/-- What is over writes no flag. -/
theorem write_of_isOver {u : Upkeep.Progress} (h : u.isOver = true) (f : Bool × Bool) :
    u.write f = f := by
  cases u with
  | ended => rfl
  | begun | probing | disabling | degrading | resetting | recovering | enabling => cases h

/-- What is not committed writes no flag. -/
theorem write_of_not_isCommitted {u : Upkeep.Progress} (h : u.isCommitted = false)
    (f : Bool × Bool) : u.write f = f := by
  cases u with
  | begun | probing | ended => rfl
  | disabling | degrading | resetting | recovering | enabling => cases h

end Upkeep.Progress

variable (g : Gate) (now : Instant) (u : Upkeep.Progress)

/-- A step of upkeep writes the flags as it should. -/
theorem flags_tend : (g.tend now u).2.flags = u.write g.flags := by
  cases u with
  | begun task => cases task <;> rfl
  | probing | disabling | degrading | resetting | recovering | enabling | ended => rfl

/-- Being let through or refused leaves the flags alone. -/
theorem flags_counted (generation : Option Nat) : (g.counted generation).2.flags = g.flags := by
  cases generation <;> rfl

/-- No step of a request writes a flag. -/
theorem flags_step (r : Request) (now : Moment) (q : Progress) :
    (g.step r now q).2.flags = g.flags := by
  cases q with
  | arrived =>
    simp only [step]
    split
    · rfl
    · cases g.refusal? r <;> rfl
  | scanned found instant => obtain ⟨answer, stale⟩ := found; cases answer <;> rfl
  | missed =>
    simp only [step]
    cases g.breaker.state.glance g.breaker.settings now.instant with
    | pass generation => exact g.flags_counted _
    | refuse => exact g.flags_counted _
    | elapsed => rfl
  | elapsed => exact flags_counted _ _
  | answered generation result => cases result <;> rfl
  | replied reply =>
    simp only [step, identify]
    cases g.principalOf reply now.wall <;> rfl
  | accepted | asking | identified | decided | ended => rfl

/-- What is committed stays committed. -/
theorem isCommitted_tend (h : u.isCommitted = true) : (g.tend now u).1.isCommitted = true := by
  cases u with
  | begun | probing => cases h
  | ended result => exact h
  | disabling | degrading | resetting | recovering | enabling => rfl

/-- A new gate authorizes requests if the settings say so, and nothing is noted. -/
theorem flags_build {c : Config} {parts : Parts} {now : Instant} {g : Gate}
    (h : build c parts now = .ok g) : g.flags = (c.enabled, false) := by
  unfold build at h
  cases hv : c.validate with
  | error e => rw [hv] at h; cases h
  | ok u =>
    rw [hv] at h
    obtain rfl := Except.ok.inj h
    rfl

end Gate

namespace World

variable {w : World} {events past more : List (Moment × Event)} {now : Moment} {e : Event}
  {i : Nat} {u : Gate.Upkeep.Progress} {task : Gate.Upkeep}

/-! ## One event -/

/-- How far upkeep that has come to `u` is after an event. -/
def tended (w : World) (now : Moment) (i : Nat) (u : Gate.Upkeep.Progress) :
    Event → Gate.Upkeep.Progress
  | .tend k => if k = i then (w.gate.tend now.instant u).1 else u
  | .probe k result => if k = i then hearProbe w.gate.config result u else u
  | _ => u

/-- An event takes every upkeep on to where it tends it. -/
theorem getElem?_upkeep_apply (h : w.upkeep[i]? = some u) (now : Moment) (e : Event) :
    (w.apply now e).upkeep[i]? = some (w.tended now i u e) := by
  cases e with
  | upkeep task =>
    obtain ⟨hlt, -⟩ := List.getElem?_eq_some_iff.1 h
    simp only [apply, List.getElem?_append_left hlt]
    exact h
  | tend k =>
    by_cases hk : k = i
    · subst hk
      obtain ⟨hlt, -⟩ := List.getElem?_eq_some_iff.1 h
      simp only [apply, h, tended, if_true, List.getElem?_set_self hlt]
    · simp only [apply, tended, if_neg hk]
      cases hget : w.upkeep[k]? with
      | none => exact h
      | some u' => exact (List.getElem?_set_ne hk).trans h
  | probe k result =>
    simp only [apply, tended, List.getElem?_modify, h]
    by_cases hk : k = i <;> simp [hk]
  | step k =>
    simp only [apply]
    cases w.requests[k]? <;> exact h
  | request | answer | clearCache | invalidate | registerScope | unregisterScope | resetBreaker =>
    exact h

/-- Only an event that begins upkeep adds one. -/
theorem length_upkeep_apply (he : ∀ task, e ≠ .upkeep task) (now : Moment) :
    (w.apply now e).upkeep.length = w.upkeep.length := by
  cases e with
  | upkeep task => exact absurd rfl (he task)
  | tend k =>
    simp only [apply]
    cases w.upkeep[k]? with
    | none => rfl
    | some u => exact List.length_set
  | probe k result => exact List.length_modify _ _ _
  | step k =>
    simp only [apply]
    cases w.requests[k]? <;> rfl
  | request | answer | clearCache | invalidate | registerScope | unregisterScope | resetBreaker =>
    rfl

/-- How far upkeep has come after an event: it was there before, or has begun by the event. -/
theorem of_getElem?_upkeep_apply (h : (w.apply now e).upkeep[i]? = some u) :
    (∃ u', w.upkeep[i]? = some u' ∧ u = w.tended now i u' e) ∨
      ∃ task, e = .upkeep task ∧ i = w.upkeep.length ∧ u = .begun task := by
  cases hget : w.upkeep[i]? with
  | some u' =>
    rw [getElem?_upkeep_apply hget] at h
    exact .inl ⟨u', rfl, (Option.some.inj h).symm⟩
  | none =>
    have hle : w.upkeep.length ≤ i := List.getElem?_eq_none_iff.1 hget
    obtain ⟨hlt, -⟩ := List.getElem?_eq_some_iff.1 h
    by_cases he : ∃ task, e = .upkeep task
    · obtain ⟨task, rfl⟩ := he
      simp only [apply, List.length_append, List.length_singleton] at hlt
      obtain rfl : i = w.upkeep.length := by omega
      simp only [apply, List.getElem?_concat_length] at h
      exact .inr ⟨task, rfl, rfl, (Option.some.inj h).symm⟩
    · rw [length_upkeep_apply (by simpa using he)] at hlt
      omega

/-- The flags are written by steps of upkeep only. -/
theorem flags_apply (w : World) (now : Moment) (e : Event) :
    (w.apply now e).gate.flags =
      match e with
      | .tend i => (w.upkeep[i]?).elim w.gate.flags fun u => u.write w.gate.flags
      | _ => w.gate.flags := by
  cases e with
  | tend i =>
    simp only [apply]
    cases w.upkeep[i]? with
    | none => rfl
    | some u => exact Gate.flags_tend _ _ _
  | step i =>
    simp only [apply]
    cases w.requests[i]? with
    | none => rfl
    | some request => exact Gate.flags_step _ _ _ _
  | request | answer | upkeep | probe | clearCache | invalidate | registerScope | unregisterScope
  | resetBreaker => rfl

/-- A run leaves the settings alone. -/
theorem config_run (w : World) (events : List (Moment × Event)) :
    (w.run events).gate.config = w.gate.config :=
  congrArg Gate.Setup.config (setup_run w events)

/-- Only upkeep that waits for the answer to its probe hears one. -/
theorem hearProbe_cases (c : Config) (result : Except Error Unit) (u : Gate.Upkeep.Progress) :
    hearProbe c result u = u ∨
      ∃ task, u = .probing task ∧ hearProbe c result u = Gate.probed c task result := by
  cases u with
  | probing task => exact .inr ⟨task, rfl, rfl⟩
  | begun | disabling | degrading | resetting | recovering | enabling | ended => exact .inl rfl

/-- Upkeep stays where it is, or takes a step, or hears the answer to its probe. -/
theorem tended_cases (w : World) (now : Moment) (i : Nat) (u : Gate.Upkeep.Progress) (e : Event) :
    w.tended now i u e = u ∨
      (e = .tend i ∧ w.tended now i u e = (w.gate.tend now.instant u).1) ∨
      ∃ task result, e = .probe i result ∧ u = .probing task ∧
        w.tended now i u e = Gate.probed w.gate.config task result := by
  cases e with
  | tend k =>
    by_cases hk : k = i
    · exact .inr (.inl ⟨by rw [hk], if_pos hk⟩)
    · exact .inl (if_neg hk)
  | probe k result =>
    by_cases hk : k = i
    · rw [tended, if_pos hk]
      rcases hearProbe_cases w.gate.config result u with hsame | ⟨task, hu, hprobed⟩
      · exact .inl hsame
      · exact .inr (.inr ⟨task, result, by rw [hk], hu, hprobed⟩)
    · exact .inl (if_neg hk)
  | request | step | answer | upkeep | clearCache | invalidate | registerScope | unregisterScope
  | resetBreaker => exact .inl rfl

/-- What is over stays where it is. -/
theorem tended_of_isOver (h : u.isOver = true) (w : World) (now : Moment) (i : Nat) (e : Event) :
    w.tended now i u e = u := by
  cases u with
  | ended result =>
    rcases w.tended_cases now i (.ended result) e with hsame | ⟨-, hstep⟩ | ⟨task, -, -, hu, -⟩
    · exact hsame
    · exact hstep
    · cases hu
  | begun | probing | disabling | degrading | resetting | recovering | enabling => cases h

/-- A step writes nothing when the upkeep that takes it is over, or is not there. -/
theorem flags_apply_of_over
    (h : ∀ k u, e = .tend k → w.upkeep[k]? = some u → u.isOver = true) (now : Moment) :
    (w.apply now e).gate.flags = w.gate.flags := by
  rw [flags_apply]
  cases e with
  | tend k =>
    simp only
    cases hget : w.upkeep[k]? with
    | none => rfl
    | some u => exact Gate.Upkeep.Progress.write_of_isOver (h k u rfl hget) _
  | request | step | answer | upkeep | probe | clearCache | invalidate | registerScope
  | unregisterScope | resetBreaker => rfl

/-- A step of upkeep writes the flags as it stands. -/
theorem flags_apply_tend (h : w.upkeep[i]? = some u) (now : Moment) :
    (w.apply now (.tend i)).gate.flags = u.write w.gate.flags := by
  rw [flags_apply]
  simp only [h, Option.elim_some]

/-! ## What stands behind a write -/

/-- In a run, upkeep began. -/
def Began (w : World) (events : List (Moment × Event)) (i : Nat) (task : Gate.Upkeep) : Prop :=
  ∃ past now, past ++ [(now, .upkeep task)] <+: events ∧ (w.run past).upkeep.length = i

/-- In a run, upkeep heard the answer to its probe. -/
def Probed (w : World) (events : List (Moment × Event)) (i : Nat) (task : Gate.Upkeep)
    (result : Except Error Unit) : Prop :=
  ∃ past now, past ++ [(now, .probe i result)] <+: events ∧
    (w.run past).upkeep[i]? = some (.probing task)

/-- In a run, a start has failed to reach the validator. -/
def StartFailed (w : World) (events : List (Moment × Event)) (i : Nat) (e : Error) : Prop :=
  Began w events i .start ∧ Probed w events i .start (.error e)

/-- In a run, a further probe has reached the validator. -/
def Recovered (w : World) (events : List (Moment × Event)) (i : Nat) : Prop :=
  Began w events i .reprobe ∧ Probed w events i .reprobe (.ok ())

/-- What must have happened in a run for upkeep to have come so far. -/
def Grounds (w : World) (events : List (Moment × Event)) (i : Nat) : Gate.Upkeep.Progress → Prop
  | .begun task | .probing task => Began w events i task
  | .disabling | .degrading =>
    w.gate.config.degradeOnStartupFailure = true ∧ ∃ e, StartFailed w events i e
  | .resetting | .recovering | .enabling => Recovered w events i
  | .ended _ => True

theorem Began.mono {events' : List (Moment × Event)} (hp : events <+: events')
    (h : Began w events i task) : Began w events' i task := by
  obtain ⟨past, now, happened, hlength⟩ := h
  exact ⟨past, now, happened.trans hp, hlength⟩

theorem Probed.mono {events' : List (Moment × Event)} {result : Except Error Unit}
    (hp : events <+: events') (h : Probed w events i task result) :
    Probed w events' i task result := by
  obtain ⟨past, now, happened, hget⟩ := h
  exact ⟨past, now, happened.trans hp, hget⟩

theorem Grounds.mono {events' : List (Moment × Event)} (hp : events <+: events')
    (h : Grounds w events i u) : Grounds w events' i u := by
  cases u with
  | begun | probing => exact Began.mono hp h
  | disabling | degrading =>
    obtain ⟨hdegrade, e, hbegan, hprobed⟩ := h
    exact ⟨hdegrade, e, hbegan.mono hp, hprobed.mono hp⟩
  | resetting | recovering | enabling => exact ⟨h.1.mono hp, h.2.mono hp⟩
  | ended => trivial

/-- A step of upkeep has the same grounds. -/
theorem grounds_tend (h : Grounds w events i u) (g : Gate) (now : Instant) :
    Grounds w events i (g.tend now u).1 := by
  cases u with
  | begun task =>
    cases task with
    | start =>
      simp only [Gate.tend]
      split
      · exact h
      · trivial
    | reprobe =>
      simp only [Gate.tend]
      split
      · exact h
      · trivial
  | degrading | enabling | ended => trivial
  | probing | disabling | resetting | recovering => exact h

/-- Upkeep whose probe has ended has it as its ground. -/
theorem grounds_probed {result : Except Error Unit} (hbegan : Began w events i task)
    (hprobed : Probed w events i task result) :
    Grounds w events i (Gate.probed w.gate.config task result) := by
  cases task with
  | start =>
    cases result with
    | ok => trivial
    | error e =>
      simp only [Gate.probed]
      split
      · next hdegrade => exact ⟨hdegrade, e, hbegan, hprobed⟩
      · trivial
  | reprobe =>
    cases result with
    | ok => exact ⟨hbegan, hprobed⟩
    | error e => trivial

/-- In every run that upkeep begins in, how far it has come tells what has happened. -/
theorem grounds_run (hnew : w.upkeep = []) (events : List (Moment × Event))
    (hget : (w.run events).upkeep[i]? = some u) : Grounds w events i u := by
  induction events using List.reverseRecOn generalizing u with
  | nil =>
    rw [run, List.foldl_nil, hnew] at hget
    cases hget
  | append_singleton events e ih =>
    have hinit : events <+: events ++ [e] := List.prefix_append _ _
    obtain ⟨now, event⟩ := e
    rw [run_concat] at hget
    rcases of_getElem?_upkeep_apply hget with ⟨u', hget', rfl⟩ | ⟨task, rfl, rfl, rfl⟩
    · have hgrounds := (ih hget').mono hinit
      rcases (w.run events).tended_cases now i u' event with
        hsame | ⟨-, htend⟩ | ⟨task, result, rfl, rfl, hprobed⟩
      · rwa [hsame]
      · rw [htend]
        exact grounds_tend hgrounds _ _
      · rw [hprobed, config_run]
        exact grounds_probed hgrounds ⟨events, now, List.prefix_refl _, hget'⟩
    · exact ⟨events, now, List.prefix_refl _, rfl⟩

/-- Who writes a flag, with what stands behind it: a start that has failed sets the flags to off and
noted, a further probe that has reached the validator sets them to on and not noted. -/
theorem written (hnew : w.upkeep = []) (past : List (Moment × Event)) (now : Moment) (e : Event) :
    ((w.run (past ++ [(now, e)])).gate.flags = (w.run past).gate.flags) ∨
      (w.gate.config.degradeOnStartupFailure = true ∧
        (∃ i err, e = .tend i ∧ StartFailed w past i err) ∧
        ((w.run (past ++ [(now, e)])).gate.flags = (false, (w.run past).gate.degraded) ∨
          (w.run (past ++ [(now, e)])).gate.flags = ((w.run past).gate.enabled, true))) ∨
      (∃ i, e = .tend i ∧ Recovered w past i) ∧
        ((w.run (past ++ [(now, e)])).gate.flags = (true, (w.run past).gate.degraded) ∨
          (w.run (past ++ [(now, e)])).gate.flags = ((w.run past).gate.enabled, false)) := by
  rw [run_concat]
  by_cases he : ∃ i u, e = .tend i ∧ (w.run past).upkeep[i]? = some u
  · obtain ⟨i, u, rfl, hget⟩ := he
    have hgrounds := grounds_run hnew past hget
    rw [flags_apply_tend hget]
    cases u with
    | begun | probing | resetting | ended => exact .inl rfl
    | disabling =>
      obtain ⟨hdegrade, err, hfailed⟩ := hgrounds
      exact .inr (.inl ⟨hdegrade, ⟨i, err, rfl, hfailed⟩, .inl rfl⟩)
    | degrading =>
      obtain ⟨hdegrade, err, hfailed⟩ := hgrounds
      exact .inr (.inl ⟨hdegrade, ⟨i, err, rfl, hfailed⟩, .inr rfl⟩)
    | recovering => exact .inr (.inr ⟨⟨i, rfl, hgrounds⟩, .inr rfl⟩)
    | enabling => exact .inr (.inr ⟨⟨i, rfl, hgrounds⟩, .inl rfl⟩)
  · refine .inl (flags_apply_of_over ?_ now)
    intro k u hk hget
    exact absurd ⟨k, u, hk, hget⟩ he

/-! ## Upkeep that fails -/

/-- While a run goes on, upkeep is there, and if it has found that there is something to change, it
does not forget. -/
theorem committed_run (hget : (w.run past).upkeep[i]? = some u) (more : List (Moment × Event)) :
    ∃ u', (w.run (past ++ more)).upkeep[i]? = some u' ∧
      (u.isCommitted = true → u'.isCommitted = true) := by
  induction more using List.reverseRecOn with
  | nil => exact ⟨u, by rwa [List.append_nil], id⟩
  | append_singleton more e ih =>
    obtain ⟨u', hget', hcommitted⟩ := ih
    rw [← List.append_assoc, run_concat]
    refine ⟨_, getElem?_upkeep_apply hget' e.1 e.2, ?_⟩
    intro hu
    rcases (w.run (past ++ more)).tended_cases e.1 i u' e.2 with
      hsame | ⟨-, htend⟩ | ⟨task, result, -, rfl, -⟩
    · rw [hsame]
      exact hcommitted hu
    · rw [htend]
      exact Gate.isCommitted_tend _ _ _ (hcommitted hu)
    · cases hcommitted hu

/-- No step of upkeep that fails writes a flag. -/
theorem write_of_failed {e : Error} (happened : past <+: events)
    (hfailed : (w.run events).upkeep[i]? = some (.ended (.error e)))
    (hget : (w.run past).upkeep[i]? = some u) (f : Bool × Bool) : u.write f = f := by
  obtain ⟨more, rfl⟩ := happened
  obtain ⟨u', hget', hcommitted⟩ := committed_run hget more
  obtain rfl := Option.some.inj (hfailed.symm.trans hget')
  refine Gate.Upkeep.Progress.write_of_not_isCommitted ?_ f
  by_contra hu
  cases hcommitted (by simpa using hu)

end World

end AccessGate
