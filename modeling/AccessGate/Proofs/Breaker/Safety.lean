import AccessGate.Proofs.Breaker.Traffic

/-!
# What a breaker keeps under any traffic

Whatever comes first, the failures counted fit the phase, and the calls that run were let through
under the current generation or an older one, never under that of an open breaker
(`Traffic.Safe`, kept by each of `Traffic.Moves`). The generations do the work: an opening starts a
new one, and an open breaker lets no call through. So a call that ends while the breaker is open has
an older generation, and is not counted.

The main statement is `Traffic.run_safe`. Its parts for an open breaker say since when it has been
open (`Traffic.OpenedAt`), that calls that end leave it alone, how it is left, and that it does not
close without having been half open or reset.
-/

namespace AccessGate.Breaker.Traffic

variable {c : Settings} {now : Instant} {s s' : State} {calls calls' : List Nat} {e : Event}
  {i : Nat} {r : Except Error Unit} {t : Traffic}

/-! ## What is kept -/

/-- What holds of the state of a breaker and of the generations of the calls that run. -/
structure Safe (c : Settings) (s : State) (calls : List Nat) : Prop where
  closed_lt : s.phase = .closed → s.failures < c.failureLimit
  halfOpen_eq : s.phase = .halfOpen → s.failures = 0
  opened_pos : s.phase = .opened → 1 ≤ s.failures
  opened_le : s.phase = .opened → s.failures ≤ c.failureLimit
  /-- The failure that opened the breaker is the last one counted. -/
  opened_last : s.phase = .opened → s.lastFailure = some s.lastChange
  calls_le : ∀ g ∈ calls, g ≤ s.generation
  /-- No call runs under the generation of an open breaker. -/
  calls_lt : s.phase = .opened → ∀ g ∈ calls, g < s.generation

/-- A new breaker is safe. -/
theorem safe_idle (c : Settings) (start : Instant) :
    Safe c (idle c start).state (idle c start).calls where
  closed_lt _ := c.limit_pos
  halfOpen_eq h := nomatch h
  opened_pos h := nomatch h
  opened_le h := nomatch h
  opened_last h := nomatch h
  calls_le _ h := nomatch h
  calls_lt h := nomatch h

/-- A phase that is not open begins with a count below the limit, and with every call that runs of
its own generation or an older one. -/
theorem Safe.begins (phase : s'.phase ≠ .opened) (zero : s'.failures = 0)
    (hcalls : ∀ g ∈ calls', g ≤ s'.generation) : Safe c s' calls' where
  closed_lt _ := zero ▸ c.limit_pos
  halfOpen_eq _ := zero
  opened_pos h := absurd h phase
  opened_le h := absurd h phase
  opened_last h := absurd h phase
  calls_le := hcalls
  calls_lt h := absurd h phase

/-- A closed breaker stays safe while its count stays below the limit. -/
theorem Safe.counting (phase : s'.phase = .closed) (below : s'.failures < c.failureLimit)
    (hcalls : ∀ g ∈ calls', g ≤ s'.generation) : Safe c s' calls' where
  closed_lt _ := below
  halfOpen_eq h := by rw [phase] at h; cases h
  opened_pos h := by rw [phase] at h; cases h
  opened_le h := by rw [phase] at h; cases h
  opened_last h := by rw [phase] at h; cases h
  calls_le := hcalls
  calls_lt h := by rw [phase] at h; cases h

/-- No call runs under the generation of an open breaker that is safe. -/
theorem Safe.getElem?_ne (hs : Safe c s calls) (phase : s.phase = .opened) (i : Nat) :
    calls[i]? ≠ some s.generation := fun hi =>
  Nat.lt_irrefl _ (hs.calls_lt phase _ (List.mem_of_getElem? hi))

/-- Each thing an event can do keeps a breaker safe. -/
theorem Moves.safe (h : Moves c now s calls e s' calls') (hs : Safe c s calls) :
    Safe c s' calls' := by
  have hold (g : Nat) (hg : g ∈ calls) : g ≤ s.generation + 1 :=
    Nat.le_succ_of_le (hs.calls_le g hg)
  have hends (i : Nat) : calls.eraseIdx i ⊆ calls := (List.eraseIdx_sublist _ _).subset
  cases h with
  | stays ends =>
    exact { hs with
      calls_le := fun g hg => hs.calls_le g (ends hg)
      calls_lt := fun hp g hg => hs.calls_lt hp g (ends hg) }
  | admits phase =>
    refine { hs with calls_le := fun g hg => ?_, calls_lt := fun hp => absurd hp phase }
    rcases List.mem_append.1 hg with hg | hg
    · exact hs.calls_le g hg
    · exact Nat.le_of_eq (List.mem_singleton.1 hg)
  | probes phase elapsed =>
    refine .begins Phase.noConfusion rfl fun g hg => ?_
    rcases List.mem_append.1 hg with hg | hg
    · exact hold g hg
    · exact Nat.le_of_eq (List.mem_singleton.1 hg)
  | clears call succeeded phase =>
    exact .counting phase c.limit_pos fun g hg => hs.calls_le g (hends _ hg)
  | closes call succeeded phase =>
    exact .begins Phase.noConfusion rfl fun g hg => hold g (hends _ hg)
  | counts call failed phase below =>
    exact .counting phase below fun g hg => hs.calls_le g (hends _ hg)
  | opens call failed phase =>
    have hlimit : s.failures + 1 ≤ c.failureLimit := by
      rcases phase with ⟨phase, -⟩ | phase
      · exact hs.closed_lt phase
      · rw [hs.halfOpen_eq phase]
        exact c.limit_pos
    exact {
      closed_lt := Phase.noConfusion
      halfOpen_eq := Phase.noConfusion
      opened_pos := fun _ => Nat.succ_le_succ (Nat.zero_le _)
      opened_le := fun _ => hlimit
      opened_last := fun _ => rfl
      calls_le := fun g hg => hold g (hends _ hg)
      calls_lt := fun _ g hg => Nat.lt_succ_of_le (hs.calls_le g (hends _ hg)) }
  | strays call failed phase => exact absurd call (hs.getElem?_ne phase _)
  | resets =>
    by_cases hp : s.phase = .closed
    · rw [State.reset, State.toClosed, if_pos hp]
      exact .counting hp (hs.closed_lt hp) hs.calls_le
    · rw [State.reset, State.toClosed, if_neg hp]
      exact .begins Phase.noConfusion rfl hold

/-- Every event keeps a breaker safe. -/
theorem Safe.apply (h : Safe t.breaker.settings t.state t.calls) (now : Instant) (e : Event) :
    Safe t.breaker.settings (t.apply now e).state (t.apply now e).calls :=
  (apply_moves t now e).safe h

/-- A run from a new breaker is safe throughout. -/
theorem safe_run (c : Settings) (start : Instant) (events : List (Instant × Event)) :
    Safe c ((idle c start).run events).state ((idle c start).run events).calls := by
  induction events using List.reverseRecOn with
  | nil => exact safe_idle c start
  | append_singleton events e ih =>
    have hmoves := apply_moves ((idle c start).run events) e.1 e.2
    rw [settings_run] at hmoves
    rw [run_concat]
    exact hmoves.safe ih

/-! ## An open breaker -/

/-- A call that ends leaves the state of an open breaker alone. -/
theorem Moves.finish_opened (h : Moves c now s calls (.finish i r) s' calls')
    (hs : Safe c s calls) (hp : s.phase = .opened) : s' = s := by
  cases h with
  | stays => rfl
  | admits => rfl
  | clears call | closes call | counts call | opens call | strays call =>
    exact absurd call (hs.getElem?_ne hp _)

/-- An open breaker is left by a reset, or by a call that asks to pass after the reset timeout. -/
theorem Moves.leaves_opened (h : Moves c now s calls e s' calls') (hp : s.phase = .opened)
    (hp' : s'.phase ≠ .opened) :
    e = .reset ∨ e = .moveOn ∧ s.resetElapsed c now = true ∧ s'.phase = .halfOpen ∧
      calls' = calls ++ [s'.generation] := by
  cases h with
  | stays => exact absurd hp hp'
  | admits phase => exact absurd hp phase
  | probes phase elapsed => exact .inr ⟨rfl, elapsed, rfl, rfl⟩
  | clears _ _ phase | closes _ _ phase | counts _ _ phase =>
    rw [hp] at phase
    cases phase
  | opens => exact absurd rfl hp'
  | strays _ _ phase => exact absurd phase hp'
  | resets => exact .inl rfl

/-- A breaker is open after an event when it was so before, in the same state, or when the failure
of the call that ends has just opened it. -/
theorem Moves.to_opened (h : Moves c now s calls e s' calls') (hs : Safe c s calls)
    (hp' : s'.phase = .opened) :
    s.phase = .opened ∧ s' = s ∨
      s.phase ≠ .opened ∧ s'.lastChange = now ∧ ∃ i r, e = .finish i r ∧ isFailure r = true := by
  cases h with
  | stays => exact .inl ⟨hp', rfl⟩
  | admits phase => exact absurd hp' phase
  | probes => cases hp'
  | clears _ _ phase | counts _ _ phase =>
    rw [phase] at hp'
    cases hp'
  | closes => cases hp'
  | opens call failed phase =>
    refine .inr ⟨fun hp => ?_, rfl, _, _, rfl, failed⟩
    exact absurd call (hs.getElem?_ne hp _)
  | strays call failed phase => exact absurd call (hs.getElem?_ne phase _)
  | resets =>
    by_cases hp : s.phase = .closed
    · rw [State.reset, State.toClosed, if_pos hp] at hp'
      rw [hp] at hp'
      cases hp'
    · rw [State.reset, State.toClosed, if_neg hp] at hp'
      cases hp'

/-- The breaker of a run opened at an instant, when a call failed, and its state has been the same
ever since. -/
def OpenedAt (c : Settings) (start : Instant) (events : List (Instant × Event))
    (opening : Instant) : Prop :=
  ∃ past i r since, events = past ++ (opening, .finish i r) :: since ∧ isFailure r = true ∧
    ((idle c start).run past).state.phase ≠ .opened ∧
    ∀ seen, seen <+: since →
      ((idle c start).run (past ++ (opening, .finish i r) :: seen)).state =
        ((idle c start).run events).state

/-- The last change of an open breaker is its opening. -/
theorem openedAt_lastChange (c : Settings) (start : Instant) (events : List (Instant × Event))
    (hp : ((idle c start).run events).state.phase = .opened) :
    OpenedAt c start events ((idle c start).run events).state.lastChange := by
  induction events using List.reverseRecOn with
  | nil => cases hp
  | append_singleton events e ih =>
    have hmoves := apply_moves ((idle c start).run events) e.1 e.2
    rw [settings_run] at hmoves
    rw [run_concat] at hp ⊢
    rcases hmoves.to_opened (safe_run c start events) hp with
      ⟨hbefore, hsame⟩ | ⟨hbefore, hchange, i, r, he, hfailed⟩
    · obtain ⟨past, i, r, since, hevents, hfailed, hpast, hsince⟩ := ih hbefore
      rw [hsame]
      refine ⟨past, i, r, since ++ [e], (congrArg (· ++ [e]) hevents).trans (by simp), hfailed,
        hpast, fun seen hseen => ?_⟩
      rw [run_concat, hsame]
      rcases List.prefix_concat_iff.1 hseen with rfl | hseen
      · rw [← List.cons_append, ← List.append_assoc, ← hevents, run_concat, hsame]
      · exact hsince seen hseen
    · rw [hchange]
      refine ⟨events, i, r, [], by rw [← he], hfailed, hbefore, fun seen hseen => ?_⟩
      rw [List.prefix_nil.1 hseen, ← he]

/-- Whether an event is the end of a call. -/
def Event.isFinish : Event → Bool
  | finish _ _ => true
  | _ => false

/-- Calls that end, however many and in whatever order, leave an open breaker alone. -/
theorem breaker_run_finishes (hs : Safe t.breaker.settings t.state t.calls)
    (hp : t.state.phase = .opened) (finishes : List (Instant × Event))
    (hf : ∀ f ∈ finishes, f.2.isFinish = true) : (t.run finishes).breaker = t.breaker := by
  induction finishes generalizing t with
  | nil => rfl
  | cons f finishes ih =>
    obtain ⟨now, e⟩ := f
    have hfinish := hf _ List.mem_cons_self
    cases e with
    | finish i r =>
      have hmoves := apply_moves t now (.finish i r)
      have hstate := hmoves.finish_opened hs hp
      have hbreaker : (t.apply now (.finish i r)).breaker = t.breaker := by
        rw [breaker_finish, hstate]
        rfl
      have hsafe := hmoves.safe hs
      rw [← hbreaker]
      refine ih ?_ (by rw [hstate, hp]) fun f hf' => hf f (List.mem_cons_of_mem _ hf')
      rw [settings_apply]
      exact hsafe
    | glance => cases hfinish
    | moveOn => cases hfinish
    | reset => cases hfinish

/-- An open breaker that has closed in the course of a run was half open on the way, or it was
reset. -/
theorem halfOpen_or_reset_of_closed (t : Traffic) (hp : t.state.phase = .opened)
    (later : List (Instant × Event)) (hc : (t.run later).state.phase = .closed) :
    (∃ now, (now, Event.reset) ∈ later) ∨
      ∃ seen, seen <+: later ∧ (t.run seen).state.phase = .halfOpen := by
  induction later using List.reverseRecOn with
  | nil => rw [run, List.foldl_nil, hp] at hc; cases hc
  | append_singleton later e ih =>
    have hinit : later <+: later ++ [e] := List.prefix_append _ _
    cases hlater : (t.run later).state.phase with
    | closed =>
      rcases ih hlater with ⟨now, hmem⟩ | ⟨seen, hseen, hhalf⟩
      · exact .inl ⟨now, List.mem_append_left _ hmem⟩
      · exact .inr ⟨seen, hseen.trans hinit, hhalf⟩
    | halfOpen => exact .inr ⟨later, hinit, hlater⟩
    | opened =>
      rw [run_concat] at hc
      have hleft : ((t.run later).apply e.1 e.2).state.phase ≠ .opened := by
        rw [hc]
        exact Phase.noConfusion
      rcases (apply_moves (t.run later) e.1 e.2).leaves_opened hlater hleft with
        hreset | ⟨-, -, hhalf, -⟩
      · refine .inl ⟨e.1, List.mem_append_right _ ?_⟩
        rw [← hreset]
        exact List.mem_singleton_self _
      · rw [hc] at hhalf; cases hhalf

/-! ## Every run -/

/-- Whatever comes, the count of failures fits the phase, and the calls that run are of the current
generation or an older one, and of an older one while the breaker is open. An open breaker has been
open, in the same state, since the instant of its last failure. Calls that end leave it alone in
whatever order they do. It is left by a reset, or half open by the second step of a caller that
comes more than the reset timeout after the last failure and is let through. It closes only
through half open or a reset. -/
theorem run_safe (c : Settings) (start : Instant) (events : List (Instant × Event)) :
    let t := (idle c start).run events
    Safe c t.state t.calls ∧
      (t.state.phase = .opened →
        OpenedAt c start events t.state.lastChange ∧
        (∀ finishes : List (Instant × Event), (∀ f ∈ finishes, f.2.isFinish = true) →
          (t.run finishes).breaker = t.breaker) ∧
        (∀ (now : Instant) (e : Event), (t.apply now e).state.phase ≠ .opened →
          e = .reset ∨
            e = .moveOn ∧ 0 < t.waiting ∧
            (∃ last, t.state.lastFailure = some last ∧ last + c.resetTimeout.nanos < now) ∧
            (t.apply now e).state.phase = .halfOpen ∧
            (t.apply now e).calls = t.calls ++ [(t.apply now e).state.generation]) ∧
        ∀ later : List (Instant × Event), (t.run later).state.phase = .closed →
          (∃ now, (now, Event.reset) ∈ later) ∨
            ∃ seen, seen <+: later ∧ (t.run seen).state.phase = .halfOpen) := by
  intro t
  have hsettings : t.breaker.settings = c := settings_run _ _
  have hsafe : Safe c t.state t.calls := safe_run c start events
  refine ⟨hsafe, fun hp => ⟨openedAt_lastChange c start events hp, ?_, ?_, ?_⟩⟩
  · exact breaker_run_finishes (by rw [hsettings]; exact hsafe) hp
  · intro now e hleft
    rcases (apply_moves t now e).leaves_opened hp hleft with
      rfl | ⟨rfl, helapsed, hhalf, hcalls⟩
    · exact .inl rfl
    · refine .inr ⟨rfl, ?_, ⟨t.state.lastChange, hsafe.opened_last hp, ?_⟩, hhalf, hcalls⟩
      · rcases Nat.eq_zero_or_pos t.waiting with hzero | hpos
        · rw [apply_moveOn_of_waiting_eq_zero hzero] at hleft
          exact absurd hp hleft
        · exact hpos
      · rw [hsettings, State.resetElapsed, hsafe.opened_last hp] at helapsed
        exact Nat.add_lt_of_lt_sub' (of_decide_eq_true helapsed)
  · exact halfOpen_or_reset_of_closed t hp

/-- Two calls pass and the first of them fails, which opens the breaker. The second, however late it
ends, changes nothing. A caller that comes after the reset timeout makes the breaker half open, and
its success closes it. -/
theorem run_safe_two_calls :
    let c : Settings := { failureLimit := 1 }
    let events : List (Instant × Event) :=
      [(1, .glance), (2, .glance), (5, .finish 0 (.error (.timeout "validate" ⟨3⟩))),
        (30000000006, .glance)]
    let later : List (Instant × Event) :=
      [(30000000007, .moveOn), (30000000009, .finish 1 (.ok ()))]
    let t := (idle c 0).run events
    t.state.phase = .opened ∧ OpenedAt c 0 events 5 ∧
      (t.run [(30000000006, .finish 0 (.ok ()))]).breaker = t.breaker ∧
      (t.apply 30000000007 .moveOn).calls = [0, 2] ∧
      (t.run later).state.phase = .closed ∧
      ∃ seen, seen <+: later ∧ (t.run seen).state.phase = .halfOpen := by
  intro c events later t
  have hopened : t.state.phase = .opened := rfl
  have hclosed : (t.run later).state.phase = .closed := rfl
  obtain ⟨hat, hfinishes, hleaves, hcloses⟩ := (run_safe c 0 events).2 hopened
  refine ⟨hopened, hat, hfinishes _ ?_, ?_, hclosed, ?_⟩
  · intro f hf
    rw [List.mem_singleton.1 hf]
    rfl
  · rcases hleaves 30000000007 .moveOn Phase.noConfusion with h | ⟨-, -, -, -, hcalls⟩
    · cases h
    · exact hcalls
  · rcases hcloses later hclosed with ⟨now, hmem⟩ | h
    · simp [later] at hmem
    · exact h

end AccessGate.Breaker.Traffic
