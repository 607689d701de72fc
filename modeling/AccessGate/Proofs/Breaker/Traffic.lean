import AccessGate.Proofs.Breaker.Admission
import Mathlib.Data.List.Induction

/-!
# Calls side by side through one breaker

A `Traffic` is a breaker with the calls that are on their way through it: those that are between the
two steps of letting a call through, and those that run, each with the generation it was let through
under. Its events are the steps that nothing can come between, and a run (`Traffic.run`) takes them
in any order. `Traffic.Moves` lists what an event can do to the state and to the generations under
way, and `Traffic.apply_moves` says that an event does one of these.
-/

namespace AccessGate.Breaker

/-- A breaker with the calls that are on their way through it. -/
structure Traffic where
  breaker : Breaker
  /-- The callers that saw a breaker that may be moved on and have yet to take the second step. -/
  waiting : Nat := 0
  /-- The generations of the calls that run. -/
  calls : List Nat := []

namespace Traffic

/-- What can happen next. -/
inductive Event
  /-- A caller takes the first step. -/
  | glance
  /-- One of the callers that wait takes the second step. -/
  | moveOn
  /-- A call that runs is over, and its result is told to the breaker. -/
  | finish (index : Nat) (result : Except Error Unit)
  | reset

/-- A new breaker without calls. -/
def idle (settings : Settings) (start : Instant) : Traffic := { breaker := .create settings start }

/-- A caller is let through under a generation, or refused. -/
def counted (t : Traffic) (generation : Option Nat) : Traffic :=
  match t.breaker.count generation with
  | (.ok generation, breaker) => { t with breaker, calls := t.calls ++ [generation] }
  | (.error _, breaker) => { t with breaker }

/-- One event. A second step that no caller waits for, and the end of a call that does not run, are
nothing. -/
def apply (t : Traffic) (now : Instant) : Event → Traffic
  | .glance =>
    match t.breaker.state.glance t.breaker.settings now with
    | .pass generation => t.counted (some generation)
    | .refuse => t.counted none
    | .elapsed => { t with waiting := t.waiting + 1 }
  | .moveOn =>
    if t.waiting = 0 then t
    else
      let (generation, state) := t.breaker.state.moveOn t.breaker.settings now
      { t with breaker := { t.breaker with state }, waiting := t.waiting - 1 }.counted generation
  | .finish index result =>
    match t.calls[index]? with
    | none => t
    | some generation =>
      { t with
        breaker := t.breaker.record generation now result
        calls := t.calls.eraseIdx index }
  | .reset => { t with breaker := t.breaker.reset now }

/-- A run: events, each at its instant. -/
def run (t : Traffic) (events : List (Instant × Event)) : Traffic :=
  events.foldl (fun t e => t.apply e.1 e.2) t

/-- The state of the breaker. -/
def state (t : Traffic) : State := t.breaker.state

variable {t : Traffic} {now : Instant} {e : Event} {events : List (Instant × Event)}

theorem run_cons (t : Traffic) (e : Instant × Event) (events : List (Instant × Event)) :
    t.run (e :: events) = (t.apply e.1 e.2).run events := rfl

theorem run_concat (t : Traffic) (events : List (Instant × Event)) (e : Instant × Event) :
    t.run (events ++ [e]) = (t.run events).apply e.1 e.2 := by
  rw [run, List.foldl_append]
  rfl

@[simp] theorem settings_counted (t : Traffic) (generation : Option Nat) :
    (t.counted generation).breaker.settings = t.breaker.settings := by
  cases generation <;> rfl

/-- Counting a call leaves the state alone. -/
@[simp] theorem state_counted (t : Traffic) (generation : Option Nat) :
    (t.counted generation).state = t.state := by
  cases generation <;> rfl

/-- A call that is let through is noted with its generation. -/
@[simp] theorem calls_counted (t : Traffic) (generation : Option Nat) :
    (t.counted generation).calls = t.calls ++ generation.toList := by
  cases generation
  · exact (List.append_nil _).symm
  · rfl

/-- The end of a call leaves all of the breaker but its state alone. -/
theorem breaker_finish (t : Traffic) (now : Instant) (index : Nat) (result : Except Error Unit) :
    (t.apply now (.finish index result)).breaker =
      { t.breaker with state := (t.apply now (.finish index result)).state } := by
  simp only [apply, state]
  cases t.calls[index]? with
  | none => rfl
  | some generation =>
    simp only [record]
    split <;> rfl

/-- What the end of a call does. -/
theorem apply_finish {index generation : Nat} (h : t.calls[index]? = some generation)
    (result : Except Error Unit) :
    t.apply now (.finish index result) =
      { t with
        breaker := t.breaker.record generation now result
        calls := t.calls.eraseIdx index } := by
  rw [apply, h]

/-- The result of a call of another generation is not counted. -/
theorem state_record_of_ne {b : Breaker} {generation : Nat} (h : generation ≠ b.state.generation)
    (result : Except Error Unit) : (b.record generation now result).state = b.state := by
  unfold record
  split
  · exact State.fail_of_ne h
  · exact State.succeed_of_ne h

/-- A second step that no caller waits for is nothing. -/
theorem apply_moveOn_of_waiting_eq_zero (h : t.waiting = 0) : t.apply now .moveOn = t := by
  rw [apply, if_pos h]

/-- What the second step of a caller does. -/
theorem apply_moveOn {generation : Option Nat} {s : State} (h : t.waiting ≠ 0)
    (hmoved : t.state.moveOn t.breaker.settings now = (generation, s)) :
    t.apply now .moveOn =
      { t with breaker := { t.breaker with state := s }, waiting := t.waiting - 1 }.counted
        generation := by
  rw [state] at hmoved
  rw [apply, if_neg h, hmoved]

/-- No event changes the settings. -/
theorem settings_apply (t : Traffic) (now : Instant) (e : Event) :
    (t.apply now e).breaker.settings = t.breaker.settings := by
  cases e with
  | glance =>
    simp only [apply]
    split
    · exact settings_counted _ _
    · exact settings_counted _ _
    · rfl
  | moveOn =>
    simp only [apply]
    split
    · rfl
    · exact settings_counted _ _
  | finish index result => rw [breaker_finish]
  | reset => rfl

/-- A breaker runs under the settings it was made with. -/
theorem settings_run (t : Traffic) (events : List (Instant × Event)) :
    (t.run events).breaker.settings = t.breaker.settings := by
  induction events using List.reverseRecOn with
  | nil => rfl
  | append_singleton events e ih => rw [run_concat, settings_apply, ih]

/-! ## What an event can do -/

/-- What an event at an instant can do to the state of the breaker and to the generations of the
calls that run. -/
inductive Moves (c : Settings) (now : Instant) (s : State) (calls : List Nat) :
    Event → State → List Nat → Prop
  /-- Nothing changes, but a call of another generation may end. -/
  | stays {e : Event} {calls' : List Nat} (ends : calls' ⊆ calls) : Moves c now s calls e s calls'
  /-- A breaker that is not open lets a call through. -/
  | admits {e : Event} (phase : s.phase ≠ .opened) :
      Moves c now s calls e s (calls ++ [s.generation])
  /-- An open breaker whose reset timeout has passed lets a call through and is half open. -/
  | probes (phase : s.phase = .opened) (elapsed : s.resetElapsed c now = true) :
      Moves c now s calls .moveOn ⟨.halfOpen, 0, s.lastFailure, now, s.generation + 1⟩
        (calls ++ [s.generation + 1])
  /-- A success makes a closed breaker forget its failures. -/
  | clears {i : Nat} {r : Except Error Unit} (call : calls[i]? = some s.generation)
      (succeeded : isFailure r = false) (phase : s.phase = .closed) :
      Moves c now s calls (.finish i r) { s with failures := 0 } (calls.eraseIdx i)
  /-- A success closes a breaker that is half open. -/
  | closes {i : Nat} {r : Except Error Unit} (call : calls[i]? = some s.generation)
      (succeeded : isFailure r = false) (phase : s.phase = .halfOpen) :
      Moves c now s calls (.finish i r) ⟨.closed, 0, s.lastFailure, now, s.generation + 1⟩
        (calls.eraseIdx i)
  /-- A failure below the limit counts. -/
  | counts {i : Nat} {r : Except Error Unit} (call : calls[i]? = some s.generation)
      (failed : isFailure r = true) (phase : s.phase = .closed)
      (below : s.failures + 1 < c.failureLimit) :
      Moves c now s calls (.finish i r)
        { s with failures := s.failures + 1, lastFailure := some now } (calls.eraseIdx i)
  /-- A failure that reaches the limit, or comes while the breaker is half open, opens it. -/
  | opens {i : Nat} {r : Except Error Unit} (call : calls[i]? = some s.generation)
      (failed : isFailure r = true)
      (phase : s.phase = .closed ∧ c.failureLimit ≤ s.failures + 1 ∨ s.phase = .halfOpen) :
      Moves c now s calls (.finish i r)
        ⟨.opened, s.failures + 1, some now, now, s.generation + 1⟩ (calls.eraseIdx i)
  /-- A failure of a call that was let through under the generation of an open breaker counts. -/
  | strays {i : Nat} {r : Except Error Unit} (call : calls[i]? = some s.generation)
      (failed : isFailure r = true) (phase : s.phase = .opened) :
      Moves c now s calls (.finish i r)
        { s with failures := s.failures + 1, lastFailure := some now } (calls.eraseIdx i)
  /-- A reset closes the breaker. -/
  | resets : Moves c now s calls .reset (s.reset now) calls

end Traffic

namespace State

variable {c : Settings} {now : Instant} {s : State}

/-- What the first step sees: a call passes under the current generation, unless the breaker is
open. -/
theorem glance_cases (c : Settings) (now : Instant) (s : State) :
    s.phase ≠ .opened ∧ s.glance c now = .pass s.generation ∨
      s.phase = .opened ∧ (s.glance c now = .refuse ∨ s.glance c now = .elapsed) := by
  unfold glance
  cases s.phase with
  | closed => exact .inl ⟨Phase.noConfusion, rfl⟩
  | halfOpen => exact .inl ⟨Phase.noConfusion, rfl⟩
  | opened =>
    refine .inr ⟨rfl, ?_⟩
    cases s.resetElapsed c now with
    | true => exact .inr rfl
    | false => exact .inl rfl

/-- What the second step does. -/
theorem moveOn_cases (c : Settings) (now : Instant) (s : State) :
    s.phase ≠ .opened ∧ s.moveOn c now = (some s.generation, s) ∨
      s.phase = .opened ∧ s.resetElapsed c now = false ∧ s.moveOn c now = (none, s) ∨
      s.phase = .opened ∧ s.resetElapsed c now = true ∧
        s.moveOn c now =
          (some (s.generation + 1), ⟨.halfOpen, 0, s.lastFailure, now, s.generation + 1⟩) := by
  by_cases hp : s.phase = .opened
  · cases he : s.resetElapsed c now with
    | true => exact .inr (.inr ⟨hp, rfl, by simp [moveOn, toHalfOpen, enter, hp, he]⟩)
    | false => exact .inr (.inl ⟨hp, rfl, by simp [moveOn, hp, he]⟩)
  · exact .inl ⟨hp, by rw [moveOn, if_neg hp]⟩

end State

namespace Traffic

variable {t : Traffic} {now : Instant}

/-- The end of a call does one of the listed things. -/
theorem finish_moves (t : Traffic) (now : Instant) (i : Nat) (r : Except Error Unit) :
    Moves t.breaker.settings now t.state t.calls (.finish i r)
      (t.apply now (.finish i r)).state (t.apply now (.finish i r)).calls := by
  simp only [apply]
  cases hi : t.calls[i]? with
  | none => exact .stays (List.Subset.refl _)
  | some g =>
    by_cases hg : g = t.state.generation
    · rw [hg] at hi
      simp only [state, record] at hg hi ⊢
      cases hr : isFailure r with
      | true =>
        simp only [State.fail, hg, ne_eq, not_true_eq_false, if_false, if_true]
        cases hp : t.breaker.state.phase with
        | closed =>
          by_cases hl : t.breaker.state.failures + 1 ≥ t.breaker.settings.failureLimit
          · simpa [State.toOpened, State.enter, hp, hl] using Moves.opens hi hr (.inl ⟨hp, hl⟩)
          · simpa [hp, hl] using Moves.counts hi hr hp (Nat.lt_of_not_le hl)
        | halfOpen => simpa [State.toOpened, State.enter, hp] using Moves.opens hi hr (.inr hp)
        | opened => simpa [hp] using Moves.strays hi hr hp
      | false =>
        simp only [State.succeed, hg, ne_eq, not_true_eq_false, if_false, Bool.false_eq_true]
        cases hp : t.breaker.state.phase with
        | closed => simpa [hp] using Moves.clears hi hr hp
        | halfOpen => simpa [State.toClosed, State.enter, hp] using Moves.closes hi hr hp
        | opened => exact .stays (List.eraseIdx_sublist _ _).subset
    · simp only [state, state_record_of_ne hg]
      exact .stays (List.eraseIdx_sublist _ _).subset

/-- An event does one of the listed things. -/
theorem apply_moves (t : Traffic) (now : Instant) (e : Event) :
    Moves t.breaker.settings now t.state t.calls e (t.apply now e).state
      (t.apply now e).calls := by
  cases e with
  | glance =>
    simp only [apply]
    rcases State.glance_cases t.breaker.settings now t.breaker.state with
      ⟨hp, h⟩ | ⟨-, h | h⟩ <;> rw [h]
    · rw [state_counted, calls_counted]
      exact .admits hp
    · rw [state_counted, calls_counted, Option.toList_none, List.append_nil]
      exact .stays (List.Subset.refl _)
    · exact .stays (List.Subset.refl _)
  | moveOn =>
    simp only [apply]
    split
    · exact .stays (List.Subset.refl _)
    · rw [state_counted, calls_counted]
      rcases State.moveOn_cases t.breaker.settings now t.breaker.state with
        ⟨hp, h⟩ | ⟨-, -, h⟩ | ⟨hp, he, h⟩ <;> rw [h]
      · exact .admits hp
      · rw [Option.toList_none, List.append_nil]
        exact .stays (List.Subset.refl _)
      · exact .probes hp he
  | finish i r => exact finish_moves t now i r
  | reset => exact .resets

end Traffic

end AccessGate.Breaker
