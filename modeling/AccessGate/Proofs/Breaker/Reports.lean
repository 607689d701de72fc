import AccessGate.Proofs.Breaker.Counters

/-!
# What a breaker reports is what it does

A breaker is looked at along one path and asked along another, which may take two looks of its own.
Whatever calls are under way, the two agree (`Exchange.Truthful`): the breaker shows as open exactly
when a call is refused.

That a refused call leaves no trace but in the count of refusals, and that looking leaves none at
all, are statements about two runs: one with the steps in question and one without them
(`Exchange.Beside`, `Exchange.unread_run`). The main statement, with the account of the counters, is
`Exchange.reports_what_it_does`.
-/

namespace AccessGate.Breaker

variable {α : Type} {b : Breaker} {now : Instant}

/-! ## A call that is refused -/

/-- Whether a call was let through. -/
def Stage.isAdmitted : Stage α → Bool
  | .judged (some _) | .counted _ | .running _ | .returned _ _ | .ended _ => true
  | _ => false

/-- The refusals so far play no part in a step. -/
theorem attend_refusing (n : Nat) (b : Breaker) (now : Instant) (stage : Stage α) :
    (b.refusing n).attend now stage =
      ((b.attend now stage).1, (b.attend now stage).2.refusing n) := by
  cases stage with
  | made =>
    have hglance : (b.refusing n).state.glance (b.refusing n).settings now =
        b.state.glance b.settings now := rfl
    simp only [attend, hglance]
    cases b.state.glance b.settings now <;> rfl
  | judged verdict =>
    cases verdict with
    | none => simp [attend, count, refusing, Nat.add_right_comm]
    | some generation => rfl
  | returned generation result =>
    simp only [attend, record]
    split <;> rfl
  | elapsed | counted | running | refused | ended => rfl

namespace Attends

variable {stage next : Stage α} {b' : Breaker}

/-- A call that was let through stays let through. -/
theorem admitted (h : Attends b now stage next b') (ha : stage.isAdmitted = true) :
    next.isAdmitted = true := by
  cases h with
  | admits | counts | starts | waits | tells | ended => rfl
  | refuses undecided => cases stage <;> contradiction
  | looks | rejects | refused => cases ha

/-- Up to its error, a call that is refused changes nothing of the breaker. -/
theorem not_admitted (h : Attends (b.refusing stage.isRefused.toNat) now stage next b')
    (hn : next.isAdmitted = false) :
    b' = b.refusing next.isRefused.toNat ∧ stage.isCounted = false := by
  cases h with
  | admits | counts | starts | waits | tells | ended => cases hn
  | refuses undecided => cases stage <;> first | exact ⟨rfl, rfl⟩ | cases undecided
  | looks | rejects | refused => exact ⟨rfl, rfl⟩

end Attends

namespace Exchange

variable {x y : Exchange α} {events : List (Instant × Event α)} {e : Event α} {i : Nat}
  {stage : Stage α}

/-! ## A call on its own -/

/-- A step of the last call. -/
theorem apply_step_last (b : Breaker) (calls : List (Stage α)) (stage : Stage α)
    (started : List Nat) (readings : List Reading) (now : Instant) :
    (⟨b, calls ++ [stage], started, readings⟩ : Exchange α).apply now (.step calls.length) =
      ⟨(b.attend now stage).2, calls ++ [(b.attend now stage).1],
        if stage.isCounted then started ++ [calls.length] else started, readings⟩ := by
  have hlast : (calls ++ [stage])[calls.length]? = some stage := List.getElem?_concat_length
  rw [apply_step hlast, attend]
  simp

/-- Asking with nothing in between is asking at once. -/
theorem ask_eq (x : Exchange α) (now : Instant) :
    x.ask now =
      match x.breaker.request now with
      | (.ok generation, breaker) =>
        { x with
          breaker
          calls := x.calls ++ [.running generation]
          started := x.started ++ [x.calls.length] }
      | (.error e, breaker) => { x with breaker, calls := x.calls ++ [.refused e] } := by
  obtain ⟨b, calls, started, readings⟩ := x
  have hmade : (⟨b, calls, started, readings⟩ : Exchange α).apply now .call =
      ⟨b, calls ++ [.made], started, readings⟩ := rfl
  unfold request State.pass
  rw [ask, run_cons, hmade]
  simp only [List.replicate, run_cons, apply_step_last]
  cases hg : b.state.glance b.settings now with
  | pass generation => simp [run, Breaker.attend, hg, count, Stage.isCounted]
  | refuse => simp [run, Breaker.attend, hg, count, Stage.isCounted]
  | elapsed =>
    cases hm : b.state.moveOn b.settings now with
    | mk verdict state =>
      cases verdict <;> simp [run, Breaker.attend, hg, hm, count, Stage.isCounted]

/-- A breaker that shows as open refuses a call, and only the count of refusals changes. -/
theorem ask_of_shown (h : x.breaker.shown now = .opened) :
    x.ask now =
      { x with
        breaker := x.breaker.refusing 1
        calls := x.calls ++ [.refused (.circuitOpen x.breaker.settings.name)] } := by
  rw [ask_eq, request_of_shown h]
  rfl

/-- Any other lets it through, counts it, and the operation starts. -/
theorem ask_of_not_shown (h : x.breaker.shown now ≠ .opened) :
    ∃ generation state,
      x.ask now =
        { x with
          breaker := { x.breaker with state, total := x.breaker.total + 1 }
          calls := x.calls ++ [.running generation]
          started := x.started ++ [x.calls.length] } := by
  obtain ⟨generation, state, hrequest⟩ := exists_request_of_not_shown h
  refine ⟨generation, state, ?_⟩
  rw [ask_eq, hrequest]

/-- The step of a call under way that gives the verdict refuses it exactly if the breaker shows as
open at that instant. -/
theorem judged_none_iff (hi : x.calls[i]? = some stage) (hu : stage.isUndecided = true) :
    (x.apply now (.step i)).calls[i]? = some (.judged none) ↔ x.breaker.shown now = .opened := by
  obtain ⟨next, b, hb, hx⟩ := x.exists_attends now i stage
  rw [apply_step hi, hx, List.getElem?_set_self (List.getElem?_eq_some_iff.1 hi).1]
  cases hb with
  | looks shown | admits _ shown => simp [shown]
  | refuses _ shown => simp [shown]
  | _ => cases hu

/-- More than the reset timeout after the last failure, a breaker does not show as open. -/
theorem shown_ne_opened {last : Instant} (hlast : b.state.lastFailure = some last)
    (hlate : last + b.settings.resetTimeout.nanos < now) : b.shown now ≠ .opened := by
  intro hshown
  have hwaits := (shown_eq_opened_iff_waits.1 hshown).2
  rw [State.resetElapsed, hlast] at hwaits
  exact absurd (Nat.lt_sub_of_add_lt (Nat.add_comm last _ ▸ hlate)) (of_decide_eq_false hwaits)

/-- What a breaker shows at an instant, and what becomes of calls at that instant. -/
structure Truthful (x : Exchange α) (now : Instant) : Prop where
  /-- It shows as open exactly when a call that is made is refused. -/
  shown_iff : x.breaker.inspect now .phase = .phase .opened ↔
    (x.ask now).calls = x.calls ++ [.refused (.circuitOpen x.breaker.settings.name)]
  /-- A refused call does not run, and nothing but the count of refusals changes. -/
  refused : x.breaker.shown now = .opened →
    x.ask now =
      { x with
        breaker := x.breaker.refusing 1
        calls := x.calls ++ [.refused (.circuitOpen x.breaker.settings.name)] }
  /-- Any other is counted as let through, and runs its operation. -/
  admitted : x.breaker.shown now ≠ .opened →
    ∃ generation state,
      x.ask now =
        { x with
          breaker := { x.breaker with state, total := x.breaker.total + 1 }
          calls := x.calls ++ [.running generation]
          started := x.started ++ [x.calls.length] }
  /-- A call that is under way is refused by the step that gives its verdict exactly if the breaker
  shows as open then. -/
  verdict : ∀ (i : Nat) (stage : Stage α), x.calls[i]? = some stage → stage.isUndecided = true →
    ((x.apply now (.step i)).calls[i]? = some (.judged none) ↔ x.breaker.shown now = .opened)
  /-- More than the reset timeout after the last failure, calls are let through. -/
  elapsed : ∀ last, x.breaker.state.lastFailure = some last →
    last + x.breaker.settings.resetTimeout.nanos < now →
    x.breaker.shown now ≠ .opened ∧
      ∃ generation, (x.ask now).calls = x.calls ++ [.running generation]

/-- Whatever has happened, what is reported is the case. -/
theorem truthful (x : Exchange α) (now : Instant) : x.Truthful now where
  shown_iff := by
    constructor
    · intro h
      rw [ask_of_shown (Reading.phase.inj h)]
    · intro h
      by_cases hshown : x.breaker.shown now = .opened
      · exact congrArg Reading.phase hshown
      · obtain ⟨generation, state, hask⟩ := ask_of_not_shown hshown
        rw [hask] at h
        cases List.append_cancel_left h
  refused := ask_of_shown
  admitted := ask_of_not_shown
  verdict i stage := judged_none_iff
  elapsed last hlast hlate := by
    have hshown := shown_ne_opened hlast hlate
    obtain ⟨generation, state, hask⟩ := ask_of_not_shown hshown
    exact ⟨hshown, generation, congrArg Exchange.calls hask⟩

/-! ## Looking at a breaker -/

/-- Whether an event is a look at the breaker. -/
def Event.isInspection : Event α → Bool
  | .inspect _ => true
  | _ => false

/-- The exchange without what callers have seen. -/
def unread (x : Exchange α) : Exchange α := { x with readings := [] }

/-- Exchanges that differ in what was read only. -/
theorem eq_of_unread (h : x.unread = y.unread) : x = { y with readings := x.readings } := by
  obtain ⟨b, calls, started, readings⟩ := x
  obtain ⟨b', calls', started', readings'⟩ := y
  cases h
  rfl

/-- What was read is no matter to the calls. -/
theorem calls_of_unread (h : x.unread = y.unread) : x.calls = y.calls := by
  rw [eq_of_unread h]

/-- A look leaves no trace but in what was seen. -/
theorem unread_inspect (x : Exchange α) (now : Instant) (inspection : Inspection) :
    (x.apply now (.inspect inspection)).unread = x.unread := rfl

/-- What was seen plays no part in any other event. -/
theorem unread_apply (h : e.isInspection = false) (x : Exchange α) (now : Instant) :
    (x.apply now e).unread = x.unread.apply now e := by
  cases e with
  | inspect => cases h
  | call | reset => rfl
  | step i =>
    cases hi : x.calls[i]? with
    | none => rw [apply_step_of_none hi, apply_step_of_none (x := x.unread) hi]
    | some stage =>
      rw [apply_step hi, apply_step (x := x.unread) hi]
      rfl
  | finish i result =>
    simp only [apply, unread]
    split <;> rfl

/-- A run is the same without the looks that callers take. -/
theorem unread_run (x : Exchange α) (events : List (Instant × Event α)) :
    (x.run events).unread =
      (x.run (events.filter fun e => !e.2.isInspection)).unread := by
  induction events using List.reverseRecOn with
  | nil => rfl
  | append_singleton events e ih =>
    obtain ⟨now, e⟩ := e
    rw [run_concat, List.filter_append]
    cases he : e.isInspection with
    | false =>
      rw [unread_apply he, ih, ← unread_apply he]
      simp [he, run_concat]
    | true =>
      cases e with
      | inspect inspection =>
        rw [unread_inspect]
        simpa [he] using ih
      | _ => cases he

/-! ## Calls that are refused -/

/-- Whether an event is a step of the call with a number. -/
def Event.isStepOf (i : Nat) : Event α → Bool
  | .step j => j == i
  | _ => false

/-- The exchange in which a call that has yet to ask has come to a stage, by itself. -/
def overlay (i : Nat) (stage : Stage α) (y : Exchange α) : Exchange α :=
  { y with
    breaker := y.breaker.refusing stage.isRefused.toNat
    calls := y.calls.set i stage }

/-- A call that has yet to ask, or has yet to be made. -/
def Untouched (i : Nat) (stage : Stage α) (y : Exchange α) : Prop :=
  y.calls[i]? = some .made ∨ y.calls.length ≤ i ∧ stage = .made

/-- A step that is none of a call is one of another call. -/
theorem Event.ne_of_isStepOf {j : Nat} (h : (Event.step j : Event α).isStepOf i = false) :
    j ≠ i := by
  simpa [isStepOf] using h

/-- Laying the stage of one call over leaves the other calls alone. -/
theorem getElem?_overlay_ne {j : Nat} (h : j ≠ i) :
    (y.overlay i stage).calls[j]? = y.calls[j]? := List.getElem?_set_ne h.symm

/-- A call that was never let through does not run. -/
theorem Untouched.ne_running (hy : y.Untouched i stage) (generation : Nat) :
    y.calls[i]? ≠ some (.running generation) := by
  rcases hy with hmade | ⟨hlength, -⟩
  · simp [hmade]
  · simp [List.getElem?_eq_none hlength]

/-- A call that was not let through does not run. -/
theorem overlay_ne_running (ha : stage.isAdmitted = false) (generation : Nat) :
    (y.overlay i stage).calls[i]? ≠ some (.running generation) := by
  intro h
  obtain ⟨hi, hrunning⟩ := List.getElem?_eq_some_iff.1 h
  have hstage : stage = .running generation := (List.getElem_set_self hi).symm.trans hrunning
  rw [hstage] at ha
  cases ha

/-- What others do leaves a call untouched. -/
theorem Untouched.apply (now : Instant) (hy : y.Untouched i stage) (hs : e.isStepOf i = false) :
    (y.apply now e).Untouched i stage := by
  have hset {j : Nat} {next : Stage α} (hj : j ≠ i) :
      Untouched i stage { y with calls := y.calls.set j next } := by
    unfold Untouched
    rwa [List.getElem?_set_ne hj, List.length_set]
  cases e with
  | call =>
    rcases hy with hmade | ⟨hlength, hstage⟩
    · exact .inl ((List.getElem?_append_left (List.getElem?_eq_some_iff.1 hmade).1).trans hmade)
    · rcases Nat.eq_or_lt_of_le hlength with rfl | hlt
      · exact .inl List.getElem?_concat_length
      · exact .inr ⟨by simpa [Exchange.apply] using Nat.succ_le_of_lt hlt, hstage⟩
  | step j =>
    have hj := Event.ne_of_isStepOf hs
    cases hat : y.calls[j]? with
    | none => rwa [apply_step_of_none hat]
    | some old =>
      rw [apply_step hat]
      exact hset hj
  | finish j result =>
    rcases finish_cases y now j result with hsame | ⟨generation, hat, hx⟩
    · rwa [hsame]
    · rw [hx]
      refine hset ?_
      rintro rfl
      exact hy.ne_running generation hat
  | reset | inspect => exact hy

/-- Whatever is no step of the call does the same whether the call has come to the stage or not. -/
theorem apply_overlay (now : Instant) (hy : y.Untouched i stage)
    (ha : stage.isAdmitted = false) (he : e.isInspection = false) (hs : e.isStepOf i = false) :
    (y.overlay i stage).apply now e = (y.apply now e).overlay i stage := by
  cases e with
  | inspect => cases he
  | reset => rfl
  | call =>
    have hcalls : y.calls.set i stage ++ [.made] = (y.calls ++ [Stage.made]).set i stage := by
      rcases hy with hmade | ⟨hlength, rfl⟩
      · rw [List.set_append_left _ _ (List.getElem?_eq_some_iff.1 hmade).1]
      · rw [List.set_append_right _ _ hlength, List.set_eq_of_length_le hlength]
        cases i - y.calls.length <;> rfl
    simp only [Exchange.apply, overlay, hcalls]
  | step j =>
    have hj := Event.ne_of_isStepOf hs
    cases hat : y.calls[j]? with
    | none =>
      rw [apply_step_of_none hat, apply_step_of_none ((getElem?_overlay_ne hj).trans hat)]
    | some old =>
      rw [apply_step hat, apply_step ((getElem?_overlay_ne hj).trans hat)]
      simp only [attend, overlay, attend_refusing, List.set_comm _ _ hj]
  | finish j result =>
    by_cases hj : j = i
    · subst hj
      rw [apply_finish_of_ne (overlay_ne_running ha), apply_finish_of_ne hy.ne_running]
    · by_cases hrunning : ∃ generation, y.calls[j]? = some (.running generation)
      · obtain ⟨generation, hat⟩ := hrunning
        rw [apply_finish hat, apply_finish ((getElem?_overlay_ne hj).trans hat)]
        simp only [overlay, List.set_comm _ _ hj]
      · have hne (generation : Nat) : y.calls[j]? ≠ some (.running generation) :=
          fun hat => hrunning ⟨generation, hat⟩
        have hne' (generation : Nat) :
            (y.overlay i stage).calls[j]? ≠ some (.running generation) := by
          rw [getElem?_overlay_ne hj]
          exact hne generation
        rw [apply_finish_of_ne hne, apply_finish_of_ne hne']

/-- A step of a call that was not let through, beside the rest. -/
theorem step_overlay (now : Instant) (hy : y.Untouched i stage) (ha : stage.isAdmitted = false) :
    ∃ next : Stage α,
      ((y.overlay i stage).apply now (.step i)).calls[i]? = some next ∧ next.isAdmitted = true ∨
        (y.overlay i stage).apply now (.step i) = y.overlay i next ∧
          y.Untouched i next ∧ next.isAdmitted = false := by
  rcases hy with hmade | ⟨hlength, rfl⟩
  · have hlt : i < y.calls.length := (List.getElem?_eq_some_iff.1 hmade).1
    have hat : (y.overlay i stage).calls[i]? = some stage := List.getElem?_set_self hlt
    obtain ⟨next, b, hb, hx⟩ := (y.overlay i stage).exists_attends now i stage
    rw [apply_step hat, hx]
    refine ⟨next, ?_⟩
    -- A look may also let the call through, and what it does from then on is not laid beside.
    cases hn : next.isAdmitted with
    | true => exact .inl ⟨List.getElem?_set_self (by simpa [overlay] using hlt), rfl⟩
    | false =>
      obtain ⟨rfl, hcounted⟩ := hb.not_admitted hn
      exact .inr ⟨by simp [overlay, hcounted], .inl hmade, rfl⟩
  · refine ⟨.made, .inr ⟨?_, .inr ⟨hlength, rfl⟩, rfl⟩⟩
    exact apply_step_of_none (List.getElem?_eq_none (by simpa [overlay] using hlength))

/-- What an event does to one call: nothing, a step of its own, or the end of its operation. -/
theorem calls_apply_cases (hi : x.calls[i]? = some stage) (now : Instant) (e : Event α) :
    ∃ next, (x.apply now e).calls[i]? = some next ∧
      (next = stage ∨ (∃ b, Attends x.breaker now stage next b) ∨
        ∃ generation result, stage = .running generation ∧ next = .returned generation result) := by
  have hlt : i < x.calls.length := (List.getElem?_eq_some_iff.1 hi).1
  cases e with
  | call => exact ⟨stage, (List.getElem?_append_left hlt).trans hi, .inl rfl⟩
  | step j =>
    by_cases hj : j = i
    · subst hj
      obtain ⟨next, b, hb, hx⟩ := x.exists_attends now j stage
      refine ⟨next, ?_, .inr (.inl ⟨b, hb⟩)⟩
      rw [apply_step hi, hx]
      exact List.getElem?_set_self hlt
    · refine ⟨stage, ?_, .inl rfl⟩
      cases hat : x.calls[j]? with
      | none => rwa [apply_step_of_none hat]
      | some old =>
        rw [apply_step hat]
        exact (List.getElem?_set_ne hj).trans hi
  | finish j result =>
    rcases finish_cases x now j result with hsame | ⟨generation, hat, hx⟩
    · exact ⟨stage, by rwa [hsame], .inl rfl⟩
    · rw [hx]
      by_cases hj : j = i
      · subst hj
        refine ⟨_, List.getElem?_set_self hlt, .inr (.inr ⟨generation, result, ?_, rfl⟩)⟩
        exact Option.some.inj (hi.symm.trans hat)
      · exact ⟨stage, (List.getElem?_set_ne hj).trans hi, .inl rfl⟩
  | reset | inspect => exact ⟨stage, hi, .inl rfl⟩

/-- A call that was let through stays let through. -/
theorem admitted_apply (now : Instant) (e : Event α)
    (h : x.calls[i]?.any Stage.isAdmitted = true) :
    (x.apply now e).calls[i]?.any Stage.isAdmitted = true := by
  obtain ⟨stage, hi, ha⟩ := (Option.any_eq_true _ _).1 h
  obtain ⟨next, hnext, rfl | ⟨b, hb⟩ | ⟨generation, result, -, rfl⟩⟩ := calls_apply_cases hi now e
  · rw [hnext]
    exact ha
  · rw [hnext]
    exact hb.admitted ha
  · rw [hnext]
    rfl

/-- A run that stands beside one without the steps of a call: either the call was let through, or
it is all that they differ in. -/
def Beside (i : Nat) (x y : Exchange α) : Prop :=
  x.calls[i]?.any Stage.isAdmitted = true ∨
    ∃ stage : Stage α, x.unread = (y.overlay i stage).unread ∧ y.Untouched i stage ∧
      stage.isAdmitted = false

/-- A step of a refused call keeps an exchange beside the one without it. -/
theorem Beside.step (now : Instant) (h : x.Beside i y) : (x.apply now (.step i)).Beside i y := by
  rcases h with hadmitted | ⟨stage, hsame, hy, ha⟩
  · exact .inl (admitted_apply now _ hadmitted)
  · have hx : (x.apply now (.step i)).unread =
        ((y.overlay i stage).apply now (.step i)).unread := by
      rw [unread_apply rfl, hsame, unread_apply rfl]
    obtain ⟨next, ⟨hnext, hadmitted⟩ | ⟨hstep, hy, ha⟩⟩ := step_overlay now hy ha
    · refine .inl ?_
      rw [calls_of_unread hx, hnext]
      exact hadmitted
    · exact .inr ⟨next, hstep ▸ hx, hy, ha⟩

/-- What others do happens on both sides. -/
theorem Beside.apply (now : Instant) (h : x.Beside i y) (hs : e.isStepOf i = false) :
    (x.apply now e).Beside i (y.apply now e) := by
  rcases h with hadmitted | ⟨stage, hsame, hy, ha⟩
  · exact .inl (admitted_apply now e hadmitted)
  · refine .inr ⟨stage, ?_, hy.apply now hs, ha⟩
    cases he : e.isInspection with
    | false => rw [unread_apply he, hsame, ← unread_apply he, apply_overlay now hy ha he hs]
    | true =>
      cases e with
      | inspect inspection => exact hsame
      | _ => cases he

/-- A run from a new breaker stands beside the one without the steps of a call. -/
theorem beside_run (c : Settings) (start : Instant) (events : List (Instant × Event α)) (i : Nat) :
    ((idle c start).run events).Beside i
      ((idle c start).run (events.filter fun e => !e.2.isStepOf i)) := by
  induction events using List.reverseRecOn with
  | nil => exact .inr ⟨.made, rfl, .inr ⟨Nat.zero_le _, rfl⟩, rfl⟩
  | append_singleton events e ih =>
    obtain ⟨now, e⟩ := e
    rw [run_concat, List.filter_append]
    -- The two runs take the event alike, unless it is a step of the call: then one stands still.
    cases hs : e.isStepOf i with
    | true =>
      obtain rfl : e = .step i := by
        cases e with
        | step j => rw [eq_of_beq hs]
        | _ => cases hs
      simpa [hs] using ih.step now
    | false => simpa [hs, run_concat] using ih.apply now hs

/-- A refused call leaves no trace but that it was refused. -/
theorem eq_overlay_of_refused {c : Settings} {start : Instant} {e : Error}
    (h : ((idle c start).run events).calls[i]? = some (.refused e)) :
    let y := (idle c start).run (events.filter fun e => !e.2.isStepOf i)
    (idle c start).run events =
      { y with
        breaker := y.breaker.refusing 1
        calls := y.calls.set i (.refused e)
        readings := ((idle c start).run events).readings } := by
  intro y
  rcases beside_run c start events i with hadmitted | ⟨stage, hsame, hy, ha⟩
  · rw [h] at hadmitted
    cases hadmitted
  · obtain ⟨hi, hstage⟩ := List.getElem?_eq_some_iff.1 ((calls_of_unread hsame) ▸ h)
    obtain rfl : stage = .refused e := (List.getElem_set_self hi).symm.trans hstage
    exact eq_of_unread hsame

/-! ## Every run -/

/-- Whatever calls, late results and resets there were: the breaker shows as open at an instant
exactly if a call made then is refused; such a call does not run, has the error that names the
dependency, and nothing but the count of refusals changes; any other is counted once and runs its
operation once. The counters agree with what has happened, exactly so when no call is between two of
its steps. A look at the breaker changes nothing, and neither do the steps of a call that is
refused, but for the one that counts it. -/
theorem reports_what_it_does (c : Settings) (start : Instant)
    (events : List (Instant × Event α)) :
    let x := (idle c start).run events
    (∀ now, x.Truthful now) ∧ x.Accounted ∧
      ((∀ stage ∈ x.calls, stage.isPending = false ∧ stage.isCounted = false) →
        x.breaker.total = x.started.length ∧
          x.breaker.total + x.breaker.rejected = x.calls.length) ∧
      x = { (idle c start).run (events.filter fun e => !e.2.isInspection) with
            readings := x.readings } ∧
      ∀ (i : Nat) (e : Error), x.calls[i]? = some (.refused e) →
        i ∉ x.started ∧
          let y := (idle c start).run (events.filter fun e => !e.2.isStepOf i)
          x = { y with
                breaker := y.breaker.refusing 1
                calls := y.calls.set i (.refused e)
                readings := x.readings } := by
  intro x
  have haccount : x.Accounted := accounted_run c start events
  refine ⟨x.truthful, haccount, haccount.exact, ?_, fun i e hi => ⟨?_, eq_overlay_of_refused hi⟩⟩
  · exact eq_of_unread (unread_run (idle c start) events)
  · have hnone := haccount.started i
    rw [hi] at hnone
    exact List.count_eq_zero.1 hnone

/-- A call fails and opens the breaker, someone looks, and a second call is refused. The counters
are exact, and a call made more than the reset timeout after the failure runs. -/
theorem reports_what_it_does_refusal :
    let c : Settings := { failureLimit := 1 }
    let failing : List (Instant × Event Unit) :=
      [(1, .call), (1, .step 0), (1, .step 0), (1, .step 0),
        (5, .finish 0 (.error (.timeout "validate" ⟨3⟩))), (5, .step 0)]
    let refusing : List (Instant × Event Unit) :=
      [(6, .inspect .phase), (7, .call), (7, .step 1), (8, .step 1)]
    let x := (idle c 0).run (failing ++ refusing)
    x.readings = [.phase .opened] ∧
      x.calls = [.ended (.error (.timeout "validate" ⟨3⟩)), .refused (.circuitOpen "remote")] ∧
      1 ∉ x.started ∧ x.breaker.total = x.started.length ∧
      x.breaker.total + x.breaker.rejected = x.calls.length ∧
      ∃ generation, (x.ask 30000000006).calls = x.calls ++ [.running generation] := by
  intro c failing refusing x
  have hfailing : (idle c 0).run failing =
      { breaker := ⟨c, ⟨.opened, 1, some 5, 5, 1⟩, 1, 0⟩
        calls := [.ended (.error (.timeout "validate" ⟨3⟩))]
        started := [0] } := rfl
  have hx : (idle c 0).run (failing ++ refusing) =
      { breaker := ⟨c, ⟨.opened, 1, some 5, 5, 1⟩, 1, 1⟩
        calls := [.ended (.error (.timeout "validate" ⟨3⟩)), .refused (.circuitOpen "remote")]
        started := [0]
        readings := [.phase .opened] } := by
    rw [run_append, hfailing]
    rfl
  obtain ⟨htruthful, -, hexact, -, hrefused⟩ := reports_what_it_does c 0 (failing ++ refusing)
  have hnot := (hrefused 1 (.circuitOpen "remote") (by rw [hx]; rfl)).1
  have htruthful := htruthful 30000000006
  rw [hx] at htruthful hexact hnot
  obtain ⟨htotal, hrejected⟩ := hexact (by simp [Stage.isPending, Stage.isCounted])
  rw [show x = _ from hx]
  exact ⟨rfl, rfl, hnot, htotal, hrejected, (htruthful.elapsed 5 rfl (by decide)).2⟩

end Exchange

end AccessGate.Breaker
