import AccessGate.Breaker.Exchange
import AccessGate.Proofs.Breaker.Traffic

/-!
# The counters of a breaker

The counters of a breaker are not under the lock that guards its state, and a call that is judged is
counted a step later. `Attends` lists what a step of a call can do, and all else is read off it. The
account of a run (`Exchange.Accounted`) is kept by each event: every operation that was started is
counted, and every call is in one counter or has yet to be counted (`Exchange.accounted_run`). So
the counters are exact whenever no call is between two of its steps (`Exchange.Accounted.exact`).
-/

namespace AccessGate.Breaker

variable {α : Type} {b : Breaker} {now : Instant}

/-! ## One step of a call -/

namespace Stage

/-- Whether a call has yet to be judged. -/
def isUndecided : Stage α → Bool
  | .made | .elapsed => true
  | _ => false

/-- Whether a call is in neither counter yet. -/
def isPending : Stage α → Bool
  | .made | .elapsed | .judged _ => true
  | _ => false

/-- Whether the operation of a call has started. -/
def hasStarted : Stage α → Bool
  | .running _ | .returned _ _ | .ended _ => true
  | _ => false

def isRefused : Stage α → Bool
  | .refused _ => true
  | _ => false

end Stage

/-- The breaker after as many more refusals. -/
def refusing (n : Nat) (b : Breaker) : Breaker := { b with rejected := b.rejected + n }

/-- What the next step of a call can do to the call and to the breaker. -/
inductive Attends (b : Breaker) (now : Instant) : Stage α → Stage α → Breaker → Prop
  /-- An open breaker whose reset timeout has passed is to be looked at again. -/
  | looks (shown : b.shown now ≠ .opened) : Attends b now .made .elapsed b
  /-- A breaker that shows as open refuses. -/
  | refuses {stage : Stage α} (undecided : stage.isUndecided = true)
      (shown : b.shown now = .opened) : Attends b now stage (.judged none) b
  /-- A breaker that does not show as open lets a call through, and may move on. -/
  | admits {stage : Stage α} (undecided : stage.isUndecided = true)
      (shown : b.shown now ≠ .opened) (generation : Nat) (state : State) :
      Attends b now stage (.judged (some generation)) { b with state }
  | counts (generation : Nat) :
      Attends b now (.judged (some generation)) (.counted generation)
        { b with total := b.total + 1 }
  | rejects :
      Attends b now (.judged none) (.refused (.circuitOpen b.settings.name)) (b.refusing 1)
  | starts (generation : Nat) : Attends b now (.counted generation) (.running generation) b
  | waits (generation : Nat) : Attends b now (.running generation) (.running generation) b
  | tells (generation : Nat) (result : Except Error α) :
      Attends b now (.returned generation result) (.ended result)
        (b.record generation now result)
  | refused (e : Error) : Attends b now (.refused e) (.refused e) b
  | ended (result : Except Error α) : Attends b now (.ended result) (.ended result) b

/-- A step of a call does one of the listed things. -/
theorem attend_attends (b : Breaker) (now : Instant) (stage : Stage α) :
    Attends b now stage (b.attend now stage).1 (b.attend now stage).2 := by
  cases stage with
  | made =>
    rw [attend]
    by_cases hshown : b.shown now = .opened
    · rw [shown_eq_opened_iff.1 hshown]
      exact .refuses rfl hshown
    · cases hg : b.state.glance b.settings now with
      | pass generation => exact .admits rfl hshown generation b.state
      | refuse => exact absurd (shown_eq_opened_iff.2 hg) hshown
      | elapsed => exact .looks hshown
  | elapsed =>
    rw [attend]
    rcases State.moveOn_cases b.settings now b.state with
      ⟨hp, h⟩ | ⟨hp, he, h⟩ | ⟨hp, he, h⟩ <;> rw [h]
    · exact .admits rfl (fun hs => hp (shown_eq_opened_iff_waits.1 hs).1) _ _
    · exact .refuses rfl (shown_eq_opened_iff_waits.2 ⟨hp, he⟩)
    · refine .admits rfl (fun hs => ?_) _ _
      rw [(shown_eq_opened_iff_waits.1 hs).2] at he
      cases he
  | judged verdict =>
    cases verdict with
    | none => exact .rejects
    | some generation => exact .counts generation
  | counted generation => exact .starts generation
  | running generation => exact .waits generation
  | returned generation result => exact .tells generation result
  | refused e => exact .refused e
  | ended result => exact .ended result

namespace Attends

variable {stage next : Stage α} {b' : Breaker}

/-- What a caller does at its turn leaves the settings alone. -/
theorem settings (h : Attends b now stage next b') : b'.settings = b.settings := by
  cases h with
  | tells => exact settings_record _ _ _ _
  | _ => rfl

/-- A call is counted as let through when it is about to start its operation. -/
theorem total (h : Attends b now stage next b') :
    b'.total = b.total + next.isCounted.toNat := by
  cases h with
  | tells => exact total_record _ _ _ _
  | _ => rfl

/-- A call is counted as refused when it gets its error. -/
theorem rejected (h : Attends b now stage next b') :
    b'.rejected + stage.isRefused.toNat = b.rejected + next.isRefused.toNat := by
  cases h with
  | tells => exact rejected_record _ _ _ _
  | refuses undecided | admits undecided => cases stage <;> first | rfl | cases undecided
  | _ => rfl

/-- A call that was not counted before is either counted by a step or still is not. -/
theorem pending (h : Attends b now stage next b') :
    b'.total + b'.rejected + next.isPending.toNat =
      b.total + b.rejected + stage.isPending.toNat := by
  cases h with
  | tells => rw [total_record, rejected_record]; rfl
  | refuses undecided | admits undecided => cases stage <;> first | rfl | cases undecided
  | counts =>
    show b.total + 1 + b.rejected + 0 = b.total + b.rejected + 1
    omega
  | _ => rfl

/-- A step starts the operation of a call that is counted, and no other. -/
theorem hasStarted (h : Attends b now stage next b') :
    next.hasStarted.toNat = stage.hasStarted.toNat + stage.isCounted.toNat := by
  cases h with
  | refuses undecided | admits undecided => cases stage <;> first | rfl | cases undecided
  | _ => rfl

/-- A call is refused because the breaker is open. -/
theorem error {e : Error} (h : Attends b now stage (.refused e) b') :
    stage = .refused e ∨ e = .circuitOpen b.settings.name := by
  cases h with
  | rejects => exact .inr rfl
  | refused => exact .inl rfl

end Attends

namespace Exchange

variable {x y : Exchange α} {events : List (Instant × Event α)} {e : Event α} {i : Nat}
  {stage : Stage α}

theorem run_cons (x : Exchange α) (e : Instant × Event α) (events : List (Instant × Event α)) :
    x.run (e :: events) = (x.apply e.1 e.2).run events := rfl

theorem run_append (x : Exchange α) (first second : List (Instant × Event α)) :
    x.run (first ++ second) = (x.run first).run second := List.foldl_append

theorem run_concat (x : Exchange α) (events : List (Instant × Event α))
    (e : Instant × Event α) : x.run (events ++ [e]) = (x.run events).apply e.1 e.2 :=
  x.run_append events [e]

/-- A step of a call that was made is its turn. -/
theorem apply_step (h : x.calls[i]? = some stage) :
    x.apply now (.step i) = x.attend now i stage := by rw [apply, h]

/-- A step of a call that was never made does nothing. -/
theorem apply_step_of_none (h : x.calls[i]? = none) : x.apply now (.step i) = x := by
  rw [apply, h]

/-- The end of an operation is nothing unless it runs. -/
theorem finish_cases (x : Exchange α) (now : Instant) (i : Nat) (result : Except Error α) :
    x.apply now (.finish i result) = x ∨
      ∃ generation, x.calls[i]? = some (.running generation) ∧
        x.apply now (.finish i result) =
          { x with calls := x.calls.set i (.returned generation result) } := by
  simp only [apply]
  split
  · next generation hi => exact .inr ⟨generation, hi, rfl⟩
  · exact .inl rfl

/-- A call that runs can finish, and its result waits to be told. -/
theorem apply_finish {generation : Nat} (h : x.calls[i]? = some (.running generation))
    (result : Except Error α) :
    x.apply now (.finish i result) =
      { x with calls := x.calls.set i (.returned generation result) } := by
  rw [apply, h]

/-- A call that does not run cannot finish. -/
theorem apply_finish_of_ne (h : ∀ generation, x.calls[i]? ≠ some (.running generation))
    (result : Except Error α) : x.apply now (.finish i result) = x := by
  rcases finish_cases x now i result with hsame | ⟨generation, hi, -⟩
  · exact hsame
  · exact absurd hi (h generation)

/-- What the next step of a call does to an exchange. -/
theorem exists_attends (x : Exchange α) (now : Instant) (i : Nat) (stage : Stage α) :
    ∃ next b, Attends x.breaker now stage next b ∧
      x.attend now i stage =
        { x with
          breaker := b
          calls := x.calls.set i next
          started := if stage.isCounted then x.started ++ [i] else x.started } :=
  ⟨_, _, attend_attends x.breaker now stage, rfl⟩

/-! ## The account of a run -/

/-- A list in which one element was exchanged counts one less for the old, one more for the new. -/
theorem countP_set_add {β : Type} (p : β → Bool) {l : List β} {i : Nat} {old : β} (new : β)
    (h : l[i]? = some old) :
    (l.set i new).countP p + (p old).toNat =
      l.countP p + (p new).toNat := by
  obtain ⟨hi, rfl⟩ := List.getElem?_eq_some_iff.1 h
  rw [List.countP_set hi]
  cases hold : p l[i] with
  | false => cases p new <;> simp
  | true =>
    have hpos : 0 < l.countP p := List.countP_pos_iff.2 ⟨l[i], List.getElem_mem hi, hold⟩
    cases p new <;> simp <;> omega

/-- A call that starts is one more of those started. -/
theorem length_starting (p : Bool) (l : List Nat) (i : Nat) :
    (if p then l ++ [i] else l).length = l.length + p.toNat := by
  cases p <;> simp

/-- A call that starts is counted for itself only. -/
theorem count_starting (p : Bool) (l : List Nat) (i j : Nat) :
    (if p then l ++ [i] else l).count j = l.count j + if i = j then p.toNat else 0 := by
  cases p <;> simp [List.count_singleton]

/-- How the counters of an exchange stand to what has happened. -/
structure Accounted (x : Exchange α) : Prop where
  /-- The calls let through are those whose operation was started, or is about to be. -/
  total : x.breaker.total = x.started.length + x.calls.countP Stage.isCounted
  /-- Every call is in one of the counters, or has yet to be counted. -/
  calls : x.breaker.total + x.breaker.rejected + x.calls.countP Stage.isPending = x.calls.length
  rejected : x.breaker.rejected = x.calls.countP Stage.isRefused
  /-- An operation is started once for a call that was let through, and for no other. -/
  started : ∀ i, x.started.count i = (x.calls[i]?.any Stage.hasStarted).toNat
  /-- A refused call has the error that names the dependency. -/
  refused : ∀ (i : Nat) (e : Error), x.calls[i]? = some (.refused e) →
    e = .circuitOpen x.breaker.settings.name

/-- Before the first call everything is accounted for. -/
theorem accounted_idle (c : Settings) (start : Instant) :
    (idle c start : Exchange α).Accounted where
  total := rfl
  calls := rfl
  rejected := rfl
  started _ := rfl
  refused _ _ h := nomatch h

/-- A step of a call keeps the account. -/
theorem Accounted.attend (h : x.Accounted) (now : Instant) (hi : x.calls[i]? = some stage) :
    (x.attend now i stage).Accounted := by
  obtain ⟨next, b, hb, hx⟩ := x.exists_attends now i stage
  have hcount (p : Stage α → Bool) := countP_set_add p next hi
  rw [hx]
  refine ⟨?_, ?_, ?_, fun j => ?_, fun j e hj => ?_⟩
  · have hcounted := hcount Stage.isCounted
    have htotal := h.total
    have hstep := hb.total
    rw [length_starting]
    dsimp only
    omega
  · have hpending := hcount Stage.isPending
    have hcalls := h.calls
    have hstep := hb.pending
    rw [List.length_set]
    dsimp only
    omega
  · have hrefused := hcount Stage.isRefused
    have hrejected := h.rejected
    have hstep := hb.rejected
    dsimp only
    omega
  · rw [count_starting, h.started j]
    by_cases hij : i = j
    · subst hij
      rw [if_pos rfl, hi, List.getElem?_set_self (List.getElem?_eq_some_iff.1 hi).1]
      exact hb.hasStarted.symm
    · rw [if_neg hij, List.getElem?_set_ne hij]
      rfl
  · dsimp only at hj ⊢
    rw [hb.settings]
    by_cases hij : i = j
    · subst hij
      rw [List.getElem?_set_self (List.getElem?_eq_some_iff.1 hi).1] at hj
      cases hj
      rcases hb.error with hsame | herror
      · exact h.refused i e (hsame ▸ hi)
      · exact herror
    · rw [List.getElem?_set_ne hij] at hj
      exact h.refused j e hj

/-- Every event keeps the account. -/
theorem Accounted.apply (h : x.Accounted) (now : Instant) (e : Event α) :
    (x.apply now e).Accounted := by
  cases e with
  | call =>
    have hold (j : Nat) : (x.calls ++ [Stage.made])[j]? = x.calls[j]? ∨
        x.calls[j]? = none ∧ (x.calls ++ [Stage.made])[j]? = some .made := by
      rcases Nat.lt_trichotomy j x.calls.length with hj | rfl | hj
      · exact .inl (List.getElem?_append_left hj)
      · exact .inr (by simp)
      · refine .inl ?_
        rw [List.getElem?_eq_none (by simp; omega), List.getElem?_eq_none (by omega)]
    refine ⟨?_, ?_, ?_, fun j => ?_, fun j e hj => ?_⟩
    · simpa [Exchange.apply, Stage.isCounted] using h.total
    · simpa [Exchange.apply, Stage.isPending, ← Nat.add_assoc] using h.calls
    · simpa [Exchange.apply, Stage.isRefused] using h.rejected
    · rw [Exchange.apply, h.started j]
      rcases hold j with hj | ⟨hnone, hj⟩
      · rw [hj]
      · rw [hj, hnone]
        rfl
    · rw [Exchange.apply] at hj
      rcases hold j with hsame | ⟨-, hmade⟩
      · exact h.refused j e (hsame ▸ hj)
      · rw [hmade] at hj
        cases hj
  | step i =>
    cases hi : x.calls[i]? with
    | none => rwa [apply_step_of_none hi]
    | some stage =>
      rw [apply_step hi]
      exact h.attend now hi
  | finish i result =>
    rcases finish_cases x now i result with hsame | ⟨generation, hi, hx⟩
    · rwa [hsame]
    · rw [hx]
      have hcount (p : Stage α → Bool) := countP_set_add p (.returned generation result) hi
      refine ⟨?_, ?_, ?_, fun j => ?_, fun j e hj => ?_⟩
      · rw [h.total, Nat.add_right_cancel (hcount Stage.isCounted)]
      · rw [List.length_set, ← h.calls, Nat.add_right_cancel (hcount Stage.isPending)]
      · rw [h.rejected, Nat.add_right_cancel (hcount Stage.isRefused)]
      · rw [h.started j]
        by_cases hij : i = j
        · subst hij
          rw [hi, List.getElem?_set_self (List.getElem?_eq_some_iff.1 hi).1]
          rfl
        · rw [List.getElem?_set_ne hij]
      · by_cases hij : i = j
        · subst hij
          rw [List.getElem?_set_self (List.getElem?_eq_some_iff.1 hi).1] at hj
          cases hj
        · rw [List.getElem?_set_ne hij] at hj
          exact h.refused j e hj
  | reset => exact ⟨h.total, h.calls, h.rejected, h.started, h.refused⟩
  | inspect inspection => exact ⟨h.total, h.calls, h.rejected, h.started, h.refused⟩

/-- The account of a run from a new breaker. -/
theorem accounted_run (c : Settings) (start : Instant) (events : List (Instant × Event α)) :
    ((idle c start).run events).Accounted := by
  induction events using List.reverseRecOn with
  | nil => exact accounted_idle c start
  | append_singleton events e ih =>
    rw [run_concat]
    exact ih.apply e.1 e.2

/-- When no call is between two of its steps, the counters are exact. -/
theorem Accounted.exact (h : x.Accounted)
    (hsettled : ∀ stage ∈ x.calls, stage.isPending = false ∧ stage.isCounted = false) :
    x.breaker.total = x.started.length ∧
      x.breaker.total + x.breaker.rejected = x.calls.length := by
  have hcounted : x.calls.countP Stage.isCounted = 0 :=
    List.countP_eq_zero.2 fun stage hs => by simp [hsettled stage hs]
  have hpending : x.calls.countP Stage.isPending = 0 :=
    List.countP_eq_zero.2 fun stage hs => by simp [hsettled stage hs]
  have htotal := h.total
  have hcalls := h.calls
  omega

end Exchange

end AccessGate.Breaker
