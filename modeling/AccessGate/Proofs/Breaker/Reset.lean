import AccessGate.Gate.Upkeep
import AccessGate.Proofs.Breaker.Safety
import Mathlib.Data.List.InsertIdx

/-!
# A breaker that was reset

A reset is meant to leave a breaker that is like a new one to the calls that start afterwards. A
breaker that is open or half open it does close, without failures and under a new generation, so no
result of an older call counts any more. A closed one it leaves as it is but for the last failure:
what was counted still is, and the calls that run are still of its generation.

The comparison with a new breaker is a simulation. A breaker with `n` older calls that is `k`
generations ahead does whatever the new one does (`Traffic.Follows.apply`), and the end of an older
call does nothing (`Traffic.Follows.apply_old`), so whole runs agree (`Traffic.Follows.run`). The
main statement is `Traffic.reset_exactly`: when the two can be told apart, and how many failures it
takes to open the breaker again.
-/

namespace AccessGate

/-- A probe that makes a gate authorize again resets its breaker. -/
theorem Gate.breaker_reprobe {σ : Type} {g : Gate} {v : Validator σ} {s : σ} {wall : WallClock}
    {began : Instant} (hdegraded : g.degraded = true)
    (hok : (g.reprobe v s wall began).result = .ok ()) :
    (g.reprobe v s wall began).gate.breaker =
      g.breaker.reset (g.reprobe v s wall began).finish := by
  unfold reprobe at hok ⊢
  rw [hdegraded] at hok ⊢
  rcases hprobe : g.probe v s wall began with ⟨_ | answer, s', finish⟩
  · rw [hprobe] at hok
    cases hok
  · rfl

namespace Breaker

variable {c : Settings} {now : Instant} {k : Nat}

namespace State

variable {s s' : State}

/-- What calls can tell of a breaker: the phase, the count and the last failure are the same, and so
a call that asks to pass is let through by both or refused by both. -/
structure Alike (c : Settings) (s s' : State) : Prop where
  phase : s.phase = s'.phase
  failures : s.failures = s'.failures
  lastFailure : s.lastFailure = s'.lastFailure
  admits : ∀ now, (s.pass c now).1.isSome = (s'.pass c now).1.isSome

/-- A state that is another one but for its generation, which is `k` ahead, and for when its phase
began. -/
structure Ahead (k : Nat) (s s' : State) : Prop where
  phase : s.phase = s'.phase
  failures : s.failures = s'.failures
  lastFailure : s.lastFailure = s'.lastFailure
  generation : s.generation = s'.generation + k

/-- What the first step sees of a breaker that is `k` generations ahead. -/
def Glance.ahead (k : Nat) : Glance → Glance
  | pass generation => pass (generation + k)
  | refuse => refuse
  | elapsed => elapsed

/-- A closed breaker that is reset only forgets when the last failure was. -/
theorem reset_of_closed (h : s.phase = .closed) : s.reset now = { s with lastFailure := none } := by
  rw [State.reset, State.toClosed, if_pos h]

/-- A breaker that is not closed is closed by a reset, without failures and under the next
generation. -/
theorem reset_of_not_closed (h : s.phase ≠ .closed) :
    s.reset now = ⟨.closed, 0, none, now, s.generation + 1⟩ := by
  rw [State.reset, State.toClosed, if_neg h]
  rfl

/-- The state without the failures. -/
def cleared (s : State) : State := { s with failures := 0 }

/-- The state with one failure more. -/
def failed (now : Instant) (s : State) : State :=
  { s with failures := s.failures + 1, lastFailure := some now }

/-- What a success of a call of the current generation does. -/
theorem succeed_self (now : Instant) (s : State) :
    s.succeed s.generation now =
      match s.phase with
      | .halfOpen => s.toClosed now
      | .closed => s.cleared
      | .opened => s := by
  rw [State.succeed, if_neg (not_not_intro rfl)]
  rfl

/-- What a failure of a call of the current generation does. -/
theorem fail_self (c : Settings) (now : Instant) (s : State) :
    s.fail c s.generation now =
      match s.phase with
      | .closed =>
        if s.failures + 1 ≥ c.failureLimit then (s.failed now).toOpened now else s.failed now
      | .halfOpen => (s.failed now).toOpened now
      | .opened => s.failed now := by
  rw [State.fail, if_neg (not_not_intro rfl)]
  rfl

namespace Ahead

/-- States apart by generations only have waited alike. -/
theorem resetElapsed (h : Ahead k s s') : s.resetElapsed c now = s'.resetElapsed c now := by
  rw [State.resetElapsed, State.resetElapsed, h.lastFailure]

/-- A glance comes to the same at states apart by generations only. -/
theorem glance (h : Ahead k s s') : s.glance c now = (s'.glance c now).ahead k := by
  simp only [State.glance, h.phase, h.resetElapsed, h.generation]
  cases s'.phase with
  | closed | halfOpen => rfl
  | opened => cases s'.resetElapsed c now <;> rfl

/-- Entering a phase keeps two states apart by their generations only. -/
theorem enter (h : Ahead k s s') (phase : Phase) :
    Ahead k (s.enter phase now) (s'.enter phase now) where
  phase := rfl
  failures := h.failures
  lastFailure := h.lastFailure
  generation := by
    simp only [State.enter, h.generation]
    omega

/-- Clearing the failures keeps two states apart by their generations only. -/
theorem cleared (h : Ahead k s s') : Ahead k s.cleared s'.cleared := { h with failures := rfl }

/-- So does opening. -/
theorem toOpened (h : Ahead k s s') : Ahead k (s.toOpened now) (s'.toOpened now) := by
  unfold State.toOpened
  rw [h.phase]
  split
  · exact h
  · exact h.enter .opened

/-- So does letting a trial through. -/
theorem toHalfOpen (h : Ahead k s s') : Ahead k (s.toHalfOpen now) (s'.toHalfOpen now) := by
  unfold State.toHalfOpen
  rw [h.phase]
  split
  · exact h
  · exact h.cleared.enter .halfOpen

/-- So does closing. -/
theorem toClosed (h : Ahead k s s') : Ahead k (s.toClosed now) (s'.toClosed now) := by
  unfold State.toClosed
  rw [h.phase]
  split
  · exact h
  · exact h.cleared.enter .closed

/-- So does a reset. -/
theorem reset (h : Ahead k s s') : Ahead k (s.reset now) (s'.reset now) :=
  { h.toClosed with lastFailure := rfl }

/-- Moving on lets the same calls through, under generations as far apart. -/
theorem moveOn (c : Settings) (now : Instant) (h : Ahead k s s') :
    (s.moveOn c now).1 = (s'.moveOn c now).1.map (· + k) ∧
      Ahead k (s.moveOn c now).2 (s'.moveOn c now).2 := by
  unfold State.moveOn
  rw [h.phase, h.resetElapsed]
  split
  · split
    · exact ⟨congrArg some h.toHalfOpen.generation, h.toHalfOpen⟩
    · exact ⟨rfl, h⟩
  · exact ⟨congrArg some h.generation, h⟩

/-- Counting a failure keeps two states apart by their generations only. -/
theorem failed (h : Ahead k s s') : Ahead k (s.failed now) (s'.failed now) :=
  { h with failures := congrArg (· + 1) h.failures, lastFailure := rfl }

/-- A success under generations as far apart is counted on both sides or on neither. -/
theorem succeed (h : Ahead k s s') (generation : Nat) :
    Ahead k (s.succeed (generation + k) now) (s'.succeed generation now) := by
  by_cases hg : generation = s'.generation
  · rw [hg, ← h.generation, succeed_self, succeed_self, h.phase]
    cases s'.phase with
    | closed => exact h.cleared
    | opened => exact h
    | halfOpen => exact h.toClosed
  · have hg' : generation + k ≠ s.generation := by
      rw [h.generation]
      omega
    rw [succeed_of_ne hg, succeed_of_ne hg']
    exact h

/-- A failure under generations as far apart is counted on both sides or on neither. -/
theorem fail (h : Ahead k s s') (generation : Nat) :
    Ahead k (s.fail c (generation + k) now) (s'.fail c generation now) := by
  by_cases hg : generation = s'.generation
  · rw [hg, ← h.generation, fail_self, fail_self, h.phase, h.failures]
    cases s'.phase with
    | closed =>
      show Ahead k (ite _ _ _) (ite _ _ _)
      split
      · exact h.failed.toOpened
      · exact h.failed
    | opened => exact h.failed
    | halfOpen => exact h.failed.toOpened
  · have hg' : generation + k ≠ s.generation := by
      rw [h.generation]
      omega
    rw [fail_of_ne hg, fail_of_ne hg']
    exact h

/-- A state that is ahead cannot be told apart. -/
theorem alike (h : Ahead k s s') (c : Settings) : Alike c s s' where
  phase := h.phase
  failures := h.failures
  lastFailure := h.lastFailure
  admits now := by
    rw [pass, pass, h.glance]
    cases s'.glance c now with
    | pass generation => rfl
    | refuse => rfl
    | elapsed =>
      have hmoved : (s.moveOn c now).1 = (s'.moveOn c now).1.map (· + k) := (h.moveOn c now).1
      simp only [Glance.ahead, hmoved, Option.isSome_map]

end Ahead

end State

namespace Traffic

variable {t f : Traffic} {n : Nat} {e : Event} {events : List (Instant × Event)}

/-! ## A breaker with older calls -/

/-- A breaker that is another one, some generations ahead, with `n` calls of older generations. -/
structure Follows (n k : Nat) (t f : Traffic) : Prop where
  settings : t.breaker.settings = f.breaker.settings
  state : State.Ahead k t.state f.state
  waiting : t.waiting = f.waiting
  calls : ∃ old, old.length = n ∧ (∀ g ∈ old, g < k) ∧ t.calls = old ++ f.calls.map (· + k)

/-- An event of a breaker with `n` older calls, for one without them. -/
def Event.since (n : Nat) : Event → Event
  | finish i r => finish (i - n) r
  | e => e

/-- The events of a run that are not the end of one of the first `n` calls, for a breaker without
these calls. -/
def since : Nat → List (Instant × Event) → List (Instant × Event)
  | _, [] => []
  | n, (now, .finish i r) :: events =>
    if i < n then since (n - 1) events else (now, .finish (i - n) r) :: since n events
  | n, e :: events => e :: since n events

/-- Callers are let through, or refused, alike. -/
theorem Follows.counted (h : Follows n k t f) (generation : Option Nat) :
    Follows n k (t.counted (generation.map (· + k))) (f.counted generation) := by
  obtain ⟨old, hlength, hold, hcalls⟩ := h.calls
  refine ⟨?_, ?_, ?_, old, hlength, hold, ?_⟩
  · rw [settings_counted, settings_counted, h.settings]
  · rw [state_counted, state_counted]
    exact h.state
  · cases generation <;> exact h.waiting
  · rw [calls_counted, calls_counted, hcalls, List.map_append, List.append_assoc]
    cases generation <;> rfl

/-- The result of a call that is `k` generations ahead counts alike. -/
theorem Follows.record (h : Follows n k t f) (generation : Nat) (r : Except Error Unit) :
    State.Ahead k (t.breaker.record (generation + k) now r).state
      (f.breaker.record generation now r).state := by
  unfold Breaker.record
  split
  · show State.Ahead k (t.state.fail _ _ _) (f.state.fail _ _ _)
    rw [h.settings]
    exact h.state.fail generation
  · exact h.state.succeed generation

/-- The end of a call that is not among the older ones happens alike. -/
theorem Follows.apply_newer (h : Follows n k t f) (now : Instant) {i : Nat} (hi : n ≤ i)
    (r : Except Error Unit) :
    Follows n k (t.apply now (.finish i r)) (f.apply now (.finish (i - n) r)) := by
  obtain ⟨old, hlength, hold, hcalls⟩ := h.calls
  -- The older calls stand first, and the ones of the new breaker after them, in their order.
  have hcall : t.calls[i]? = (f.calls[i - n]?).map (· + k) := by
    rw [hcalls, List.getElem?_append_right (by omega), List.getElem?_map, hlength]
  cases hf : f.calls[i - n]? with
  | none =>
    simp only [Traffic.apply, hcall, hf]
    exact h
  | some g =>
    rw [hf] at hcall
    rw [apply_finish hcall, apply_finish hf]
    refine ⟨?_, h.record g r, h.waiting, old, hlength, hold, ?_⟩
    · rw [settings_record, settings_record, h.settings]
    · have herase : t.calls.eraseIdx i = old ++ (f.calls.eraseIdx (i - n)).map (· + k) := by
        rw [hcalls, List.eraseIdx_append_of_length_le (by omega), List.eraseIdx_map, hlength]
      exact herase

/-- Whatever happens, but for the end of an older call, happens alike. -/
theorem Follows.apply (h : Follows n k t f) (now : Instant) (e : Event)
    (he : ∀ i r, e = .finish i r → n ≤ i) :
    Follows n k (t.apply now e) (f.apply now (e.since n)) := by
  cases e with
  | glance =>
    have hglance : t.breaker.state.glance t.breaker.settings now =
        (f.breaker.state.glance f.breaker.settings now).ahead k := by
      rw [h.settings]
      exact h.state.glance
    simp only [Traffic.apply, Event.since, hglance]
    cases f.breaker.state.glance f.breaker.settings now with
    | pass generation => exact h.counted (some generation)
    | refuse => exact h.counted none
    | elapsed => exact { h with waiting := congrArg (· + 1) h.waiting }
  | moveOn =>
    show Follows n k _ (f.apply now .moveOn)
    by_cases hwaiting : f.waiting = 0
    · rw [apply_moveOn_of_waiting_eq_zero hwaiting,
        apply_moveOn_of_waiting_eq_zero (h.waiting.trans hwaiting)]
      exact h
    · have hwaiting' : t.waiting ≠ 0 := by rwa [h.waiting]
      obtain ⟨hpassed, hmoved⟩ := h.state.moveOn f.breaker.settings now
      rcases hf : f.state.moveOn f.breaker.settings now with ⟨g, s⟩
      rcases ht : t.state.moveOn f.breaker.settings now with ⟨g', s'⟩
      rw [hf, ht] at hpassed hmoved
      rw [← h.settings] at ht
      rw [apply_moveOn hwaiting hf, apply_moveOn hwaiting' ht]
      obtain rfl : g' = g.map (· + k) := hpassed
      refine Follows.counted ?_ g
      exact ⟨h.settings, hmoved, congrArg (· - 1) h.waiting, h.calls⟩
  | finish i r => exact h.apply_newer now (he i r rfl) r
  | reset => exact { h with state := h.state.reset }

/-- The end of an older call changes nothing but the calls that run. -/
theorem Follows.apply_old (h : Follows n k t f) (now : Instant) {i : Nat} (hi : i < n)
    (r : Except Error Unit) : Follows (n - 1) k (t.apply now (.finish i r)) f := by
  obtain ⟨old, hlength, hold, hcalls⟩ := h.calls
  have hcall : t.calls[i]? = some old[i] := by
    rw [hcalls, List.getElem?_append_left (by omega), List.getElem?_eq_getElem]
  -- The generation has only grown since the older calls were let through.
  have holder : old[i] ≠ t.breaker.state.generation := by
    have hlt : old[i] < k := hold _ (List.getElem_mem _)
    have hgeneration : t.breaker.state.generation = f.state.generation + k := h.state.generation
    omega
  have hstate : (t.breaker.record old[i] now r).state = t.state := state_record_of_ne holder r
  rw [apply_finish hcall]
  refine ⟨?_, ?_, h.waiting, old.eraseIdx i, ?_, ?_, ?_⟩
  · rw [settings_record, h.settings]
  · show State.Ahead k (t.breaker.record old[i] now r).state f.state
    rw [hstate]
    exact h.state
  · rw [List.length_eraseIdx_of_lt (by omega), hlength]
  · exact fun g hg => hold g (List.mem_of_mem_eraseIdx hg)
  · have herase : t.calls.eraseIdx i = old.eraseIdx i ++ f.calls.map (· + k) := by
      rw [hcalls, List.eraseIdx_append_of_lt_length (by omega)]
    exact herase

/-- A breaker with older calls does what it would do without them. -/
theorem Follows.run (h : Follows n k t f) (events : List (Instant × Event)) :
    ∃ m, Follows m k (t.run events) (f.run (since n events)) := by
  induction events generalizing n t f with
  | nil => exact ⟨n, h⟩
  | cons e events ih =>
    obtain ⟨now, e⟩ := e
    cases e with
    | glance => exact ih (h.apply now .glance fun _ _ he => nomatch he)
    | moveOn => exact ih (h.apply now .moveOn fun _ _ he => nomatch he)
    | reset => exact ih (h.apply now .reset fun _ _ he => nomatch he)
    | finish i r =>
      rw [run_cons, since]
      split
      next hi => exact ih (h.apply_old now hi r)
      next hi =>
        refine ih (h.apply now (.finish i r) fun j _ he => ?_)
        obtain ⟨rfl, -⟩ := Event.finish.inj he
        exact Nat.le_of_not_lt hi

/-! ## Failures on the way to an opening -/

/-- Whether an event is the end of a call that failed. -/
def Event.isFailing : Event → Bool
  | finish _ r => isFailure r
  | _ => false

/-- The ends of calls that failed. -/
def failing (events : List (Instant × Event)) : Nat := events.countP (·.2.isFailing)

variable {s s' : State} {calls calls' : List Nat}

/-- Below the limit, an event leaves a closed breaker closed, and only the failure it is counts. -/
theorem Moves.closed (h : Moves c now s calls e s' calls') (hp : s.phase = .closed)
    (hlimit : s.failures + e.isFailing.toNat < c.failureLimit) :
    s'.phase = .closed ∧ s'.failures ≤ s.failures + e.isFailing.toNat := by
  cases h with
  | stays | admits => exact ⟨hp, Nat.le_add_right _ _⟩
  | clears => exact ⟨hp, Nat.zero_le _⟩
  | counts call failed phase below =>
    rw [Event.isFailing, failed]
    exact ⟨hp, Nat.le_refl _⟩
  | opens call failed phase =>
    rw [Event.isFailing, failed] at hlimit
    rcases phase with ⟨-, hreached⟩ | phase
    · exact absurd hreached (Nat.not_le_of_lt hlimit)
    · rw [hp] at phase
      cases phase
  | resets =>
    rw [State.reset_of_closed hp]
    exact ⟨hp, Nat.le_add_right _ _⟩
  | probes phase | closes _ _ phase | strays _ _ phase =>
    rw [hp] at phase
    cases phase

/-- As long as the failures do not reach the limit, a closed breaker stays closed. -/
theorem closed_run (t : Traffic) (hp : t.state.phase = .closed) (events : List (Instant × Event))
    (hlimit : t.state.failures + failing events < t.breaker.settings.failureLimit) :
    (t.run events).state.phase = .closed ∧
      (t.run events).state.failures ≤ t.state.failures + failing events := by
  induction events using List.reverseRecOn with
  | nil => exact ⟨hp, Nat.le_refl _⟩
  | append_singleton events e ih =>
    have hcount : failing (events ++ [e]) = failing events + e.2.isFailing.toNat := by
      rw [failing, failing, List.countP_append, List.countP_singleton]
      cases e.2.isFailing <;> rfl
    rw [hcount] at hlimit ⊢
    obtain ⟨hclosed, hle⟩ := ih (by omega)
    have hmoves := apply_moves (t.run events) e.1 e.2
    rw [settings_run] at hmoves
    obtain ⟨hclosed', hle'⟩ := hmoves.closed hclosed (by omega)
    rw [run_concat]
    exact ⟨hclosed', by omega⟩

/-- Calls that fail one after the other while `n` others run: each asks to pass at its first instant
and fails with its error at the second. -/
def failingCalls (n : Nat) (errors : List (Instant × Instant × Error)) : List (Instant × Event) :=
  errors.flatMap fun (start, finish, e) => [(start, .glance), (finish, .finish n (.error e))]

/-- A failure of a call that runs under the generation of a closed breaker is one failure more. -/
theorem finish_failing (t : Traffic) (hp : t.state.phase = .closed) (now : Instant) {i : Nat}
    (hi : t.calls[i]? = some t.state.generation) {e : Error} (he : e.isClient = false) :
    let u := t.apply now (.finish i (.error e))
    u.state.failures = t.state.failures + 1 ∧
      u.state.phase =
        if t.state.failures + 1 ≥ t.breaker.settings.failureLimit then .opened else .closed := by
  have hfailed : isFailure (Except.error e : Except Error Unit) = true := by
    rw [isFailure, he]
    rfl
  have hfail := State.fail_self t.breaker.settings now t.state
  rw [hp] at hfail
  intro u
  have hstate : u.state =
      if t.state.failures + 1 ≥ t.breaker.settings.failureLimit then
        (t.state.failed now).toOpened now
      else t.state.failed now := by
    show (t.apply now _).state = _
    rw [apply_finish hi, record, if_pos hfailed]
    exact hfail
  rw [hstate]
  split
  · rw [State.toOpened, if_neg (by rw [State.failed, hp]; exact Phase.noConfusion)]
    exact ⟨rfl, rfl⟩
  · exact ⟨rfl, hp⟩

/-- A call that fails on its own through a closed breaker is one failure more. -/
theorem run_failingCall (t : Traffic) (hp : t.state.phase = .closed) (start finish : Instant)
    {e : Error} (he : e.isClient = false) :
    let u := t.run (failingCalls t.calls.length [(start, finish, e)])
    u.calls = t.calls ∧ u.state.failures = t.state.failures + 1 ∧
      u.state.phase =
        if t.state.failures + 1 ≥ t.breaker.settings.failureLimit then .opened else .closed := by
  intro u
  have hadmitted : t.apply start .glance = t.counted (some t.state.generation) := by
    rcases State.glance_cases t.breaker.settings start t.breaker.state with
      ⟨-, hpass⟩ | ⟨hopened, -⟩
    · rw [Traffic.apply, hpass, state]
    · rw [← state, hp] at hopened
      cases hopened
  have hcall : (t.counted (some t.state.generation)).calls[t.calls.length]? =
      some t.state.generation := by
    rw [calls_counted, Option.toList_some, List.getElem?_concat_length]
  have hu : u = (t.counted (some t.state.generation)).apply finish
      (.finish t.calls.length (.error e)) := by
    rw [← hadmitted]
    rfl
  have hcalls : u.calls = t.calls := by
    rw [hu, apply_finish hcall]
    show (t.counted _).calls.eraseIdx _ = _
    rw [calls_counted, Option.toList_some, List.eraseIdx_append_of_length_le (Nat.le_refl _),
      Nat.sub_self]
    exact List.append_nil _
  rw [hu] at hcalls ⊢
  have hp' : (t.counted (some t.state.generation)).state.phase = .closed := by
    rw [state_counted, hp]
  exact ⟨hcalls, finish_failing _ hp' finish hcall he⟩

/-- Calls that fail one after the other through a closed breaker open it when they reach the limit,
and not before. -/
theorem run_failingCalls (t : Traffic) (hp : t.state.phase = .closed)
    (hbelow : t.state.failures < t.breaker.settings.failureLimit)
    (errors : List (Instant × Instant × Error)) (he : ∀ e ∈ errors, e.2.2.isClient = false)
    (hlimit : t.state.failures + errors.length ≤ t.breaker.settings.failureLimit) :
    let u := t.run (failingCalls t.calls.length errors)
    u.calls = t.calls ∧ u.state.failures = t.state.failures + errors.length ∧
      u.state.phase =
        if t.state.failures + errors.length ≥ t.breaker.settings.failureLimit then .opened
        else .closed := by
  induction errors using List.reverseRecOn with
  | nil =>
    rw [List.length_nil, Nat.add_zero, if_neg (Nat.not_le_of_lt hbelow)]
    exact ⟨rfl, rfl, hp⟩
  | append_singleton errors x ih =>
    rw [List.length_append, List.length_singleton, ← Nat.add_assoc] at hlimit ⊢
    obtain ⟨hcalls, hfailures, hphase⟩ :=
      ih (fun e h => he e (List.mem_append_left _ h)) (by omega)
    rw [if_neg (by omega)] at hphase
    have hsplit : t.run (failingCalls t.calls.length (errors ++ [x])) =
        (t.run (failingCalls t.calls.length errors)).run (failingCalls t.calls.length [x]) := by
      rw [failingCalls, List.flatMap_append, run, List.foldl_append]
      rfl
    have hlast := run_failingCall _ hphase x.1 x.2.1
      (he x (List.mem_append_right _ (List.mem_singleton_self x)))
    rw [hcalls, settings_run, hfailures, ← hsplit] at hlast
    exact hlast

/-! ## After a reset -/

/-- A breaker that was not closed, or has counted no failures and runs no call of its generation,
follows a new one from a reset on. -/
theorem Safe.follows_reset (h : Safe c t.state t.calls) (hsettings : t.breaker.settings = c)
    (hforgets : t.state.phase ≠ .closed ∨ t.state.failures = 0 ∧ t.state.generation ∉ t.calls)
    (now : Instant) :
    Follows t.calls.length (t.apply now .reset).state.generation (t.apply now .reset)
      { idle c now with waiting := t.waiting } := by
  have hstate : (t.apply now .reset).state = t.state.reset now := rfl
  have hcalls : t.calls = t.calls ++ List.map (· + (t.state.reset now).generation) [] :=
    (List.append_nil _).symm
  rw [hstate]
  by_cases hp : t.state.phase = .closed
  · rcases hforgets with hnot | ⟨hzero, hnone⟩
    · exact absurd hp hnot
    rw [State.reset_of_closed hp] at hstate hcalls ⊢
    refine ⟨hsettings, ?_, rfl, t.calls, rfl, fun g hg => ?_, hcalls⟩
    · rw [hstate]
      exact ⟨hp, hzero, rfl, (Nat.zero_add _).symm⟩
    · exact Nat.lt_of_le_of_ne (h.calls_le g hg) fun hsame => hnone (hsame ▸ hg)
  · rw [State.reset_of_not_closed hp] at hstate hcalls ⊢
    refine ⟨hsettings, ?_, rfl, t.calls, rfl, fun g hg => ?_, hcalls⟩
    · rw [hstate]
      exact ⟨rfl, rfl, rfl, (Nat.zero_add _).symm⟩
    · exact Nat.lt_succ_of_le (h.calls_le g hg)

/-- A breaker that was closed, and has counted failures or runs calls of its generation, can be told
from a new one after a reset. -/
theorem exists_failures_ne (c : Settings) (t : Traffic) (hp : t.state.phase = .closed)
    (hkeeps : t.state.failures = 0 → t.state.generation ∈ t.calls) (now : Instant) :
    let new : Traffic := { idle c now with waiting := t.waiting }
    ∃ more, ((t.apply now .reset).run more).state.failures ≠
      (new.run (since t.calls.length more)).state.failures := by
  intro new
  have hstate : (t.apply now .reset).state = { t.state with lastFailure := none } :=
    State.reset_of_closed hp
  by_cases hzero : t.state.failures = 0
  · obtain ⟨i, hi, hgeneration⟩ := List.mem_iff_getElem.1 (hkeeps hzero)
    let e : Error := .timeout "" ⟨0⟩
    refine ⟨[(now, .finish i (.error e))], ?_⟩
    -- A call that ran before the reset fails, which a new breaker does not learn of.
    have hcall : (t.apply now .reset).calls[i]? = some (t.apply now .reset).state.generation := by
      rw [hstate]
      exact (List.getElem?_eq_getElem hi).trans (congrArg some hgeneration)
    have hclosed : (t.apply now .reset).state.phase = .closed := by rw [hstate, hp]
    have hone := (finish_failing (t.apply now .reset) hclosed now hcall (e := e) rfl).1
    rw [run_cons, since, if_pos hi]
    exact ne_of_eq_of_ne hone (Nat.succ_ne_zero _)
  · refine ⟨[], ?_⟩
    rw [run, List.foldl_nil, hstate]
    exact hzero

/-- After a reset a breaker is closed and has no last failure, but a breaker that was closed keeps
its count. What happens from there on is what happens to a new breaker, calls that began before the
reset aside, exactly if the breaker was not closed, or had counted no failures and runs no call of
its generation. It takes as many failures as the limit is above the count that is left, and not
fewer, to open the breaker. A probe that makes a gate authorize again does to the breaker what a
reset does. -/
theorem reset_exactly (c : Settings) (start : Instant) (events : List (Instant × Event))
    (now : Instant) :
    let t := (idle c start).run events
    let reset := t.apply now .reset
    let new : Traffic := { idle c now with waiting := t.waiting }
    let left := if t.state.phase = .closed then t.state.failures else 0
    (reset.state.phase = .closed ∧ reset.state.failures = left ∧
      reset.state.lastFailure = none) ∧
    ((∀ more : List (Instant × Event),
        State.Alike c (reset.run more).state (new.run (since t.calls.length more)).state) ↔
      t.state.phase ≠ .closed ∨ t.state.failures = 0 ∧ t.state.generation ∉ t.calls) ∧
    (∀ more : List (Instant × Event), left + failing more < c.failureLimit →
      (reset.run more).state.phase = .closed) ∧
    (∀ errors : List (Instant × Instant × Error), (∀ e ∈ errors, e.2.2.isClient = false) →
      left + errors.length ≤ c.failureLimit →
      let u := reset.run (failingCalls t.calls.length errors)
      u.state.failures = left + errors.length ∧
        u.state.phase = if left + errors.length ≥ c.failureLimit then .opened else .closed) ∧
    ∀ (σ : Type) (g : Gate) (v : Validator σ) (s : σ) (wall : WallClock) (began : Instant),
      let probed := g.reprobe v s wall began
      g.breaker = t.breaker → g.degraded = true → probed.result = .ok () →
        probed.gate.breaker = (t.apply probed.finish .reset).breaker := by
  intro t reset new left
  have hsettings : t.breaker.settings = c := settings_run _ _
  have hsafe : Safe c t.state t.calls := safe_run c start events
  have hreset : reset.state.phase = .closed ∧ reset.state.failures = left := by
    show (t.state.reset now).phase = _ ∧ (t.state.reset now).failures = _
    by_cases hp : t.state.phase = .closed
    · rw [State.reset_of_closed hp]
      exact ⟨hp, (if_pos hp).symm⟩
    · rw [State.reset_of_not_closed hp]
      exact ⟨rfl, (if_neg hp).symm⟩
  obtain ⟨hclosed, hfailures⟩ := hreset
  have hlimit : c.failureLimit = reset.breaker.settings.failureLimit :=
    congrArg Settings.failureLimit hsettings.symm
  have hbelow : left < c.failureLimit := by
    show ite _ _ _ < _
    split
    next hp => exact hsafe.closed_lt hp
    next => exact c.limit_pos
  refine ⟨⟨hclosed, hfailures, rfl⟩, ⟨fun halike => ?_, fun hforgets more => ?_⟩, fun more h => ?_,
    fun errors he h => ?_, ?_⟩
  · by_contra hkeeps
    obtain ⟨hp, hkeeps⟩ := not_or.1 hkeeps
    obtain ⟨more, hdiffer⟩ := exists_failures_ne c t (not_not.1 hp)
      (fun hzero => by_contra fun hnone => hkeeps ⟨hzero, hnone⟩) now
    exact hdiffer (halike more).failures
  · obtain ⟨m, hfollows⟩ := (hsafe.follows_reset hsettings hforgets now).run more
    exact hfollows.state.alike c
  · rw [hlimit, ← hfailures] at h
    exact (closed_run reset hclosed more h).1
  · rw [← hfailures, hlimit] at h hbelow ⊢
    exact (run_failingCalls reset hclosed hbelow errors he h).2
  · intro σ g v s wall began probed hbreaker hdegraded hok
    show _ = t.breaker.reset probed.finish
    rw [← hbreaker]
    exact Gate.breaker_reprobe hdegraded hok

/-- Three calls pass and two of them fail, which opens the breaker. Once a probe has reset it, the
failure of the third one does not count, and two more calls have to fail to open it again. -/
theorem reset_exactly_opened :
    let c : Settings := { failureLimit := 2 }
    let e : Error := .timeout "validate" ⟨3⟩
    let t := (idle c 0).run [(1, .glance), (2, .glance), (3, .glance),
      (5, .finish 0 (.error e)), (6, .finish 0 (.error e))]
    let late : List (Instant × Event) := [(21, .finish 0 (.error e)), (22, .glance)]
    let g : Gate := {
      config := {}, domain := .state, operations := .standard .state, ownership := {}
      breaker := t.breaker, cache := { settings := Config.cacheSettings {} }
      enabled := false, degraded := true, audit := { sinks := [.events] } }
    let v : Validator Unit := {
      endpoint := "idp", validate := fun s _ _ => (.now (.error e), s)
      ping := fun s _ => (⟨⟨20⟩, .returns (.ok ())⟩, s) }
    t.state.phase = .opened ∧ t.calls = [0] ∧
      State.Alike c ((t.apply 20 .reset).run late).state
        ({ idle c 20 with waiting := 0 }.run [(22, .glance)]).state ∧
      ((t.apply 20 .reset).run late).state.phase = .closed ∧
      ((t.apply 20 .reset).run
        (failingCalls 1 [(30, 31, e), (32, 33, e)])).state.phase = .opened ∧
      (g.reprobe v () (fun _ => .never) 0).gate.breaker = (t.apply 20 .reset).breaker := by
  intro c e t late g v
  have hopened : t.state.phase = .opened := rfl
  obtain ⟨-, halike, hfewer, hlimit, hprobed⟩ := reset_exactly c 0
    [(1, .glance), (2, .glance), (3, .glance), (5, .finish 0 (.error e)),
      (6, .finish 0 (.error e))] 20
  refine ⟨hopened, rfl, ?_, ?_, ?_, ?_⟩
  · exact halike.2 (.inl (by rw [hopened]; exact Phase.noConfusion)) late
  · exact hfewer late (by decide)
  · exact (hlimit [(30, 31, e), (32, 33, e)] (by decide) (by decide)).2
  · exact hprobed Unit g v () (fun _ => .never) 0 rfl rfl rfl

/-- A closed breaker that has counted one failure of two has counted it still after a reset: one
more failure opens it, and a new breaker stays closed. -/
theorem reset_keeps_failures :
    let c : Settings := { failureLimit := 2 }
    let e : Error := .timeout "validate" ⟨3⟩
    let t := (idle c 0).run (failingCalls 0 [(1, 2, e)])
    t.calls = [] ∧ (t.apply 3 .reset).state.failures = 1 ∧
      ((t.apply 3 .reset).run (failingCalls 0 [(4, 5, e)])).state.phase = .opened ∧
      ((idle c 3).run (failingCalls 0 [(4, 5, e)])).state.phase = .closed := by
  exact ⟨rfl, rfl, rfl, rfl⟩

end Traffic

end Breaker

end AccessGate
