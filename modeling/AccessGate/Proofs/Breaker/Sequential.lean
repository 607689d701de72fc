import AccessGate.Proofs.Breaker.Safety

/-!
# Calls one after the other

When each call through a breaker is over before the next one begins, generations are of no use: the
breaker does what a plain machine does that has none (`Machine`). Closed, it counts the failures in
a row and opens at the limit; open, it refuses calls until more than the reset timeout has passed
since the last failure, and then lets one through, half open; half open, it closes after a success
and opens after a failure.

A `Series` is such a sequence of calls, made through anything that can be entered and left
(`Door`). One call keeps what the breaker and the machine have in common (`Agrees.turn`), so whole
series do. The main statement is `Series.breaker_eq_machine`.
-/

namespace AccessGate.Breaker

/-! ## The machine -/

/-- A breaker without generations: its phase, with what the phase needs to know. -/
inductive Machine
  /-- Calls pass; the failures since the last success are counted. -/
  | closed (failures : Nat) (last : Option Instant)
  /-- Calls are refused; the count is that of the failures that led here. -/
  | opened (failures : Nat) (last : Instant)
  /-- A call is let through to find out whether the dependency has recovered. -/
  | halfOpen (last : Instant)
deriving DecidableEq, Repr

namespace Machine

def phase : Machine → Phase
  | closed _ _ => .closed
  | opened _ _ => .opened
  | halfOpen _ => .halfOpen

def failures : Machine → Nat
  | closed failures _ | opened failures _ => failures
  | halfOpen _ => 0

def lastFailure : Machine → Option Instant
  | closed _ last => last
  | opened _ last | halfOpen last => some last

/-- The machine that lets a call in. An open one refuses it until more than the reset timeout has
passed since the last failure, and is then half open. -/
def pass? (reset : Duration) (now : Instant) : Machine → Option Machine
  | opened _ last => if now - last ≤ reset.nanos then none else some (halfOpen last)
  | m => some m

/-- A call has succeeded: the machine is closed, without failures. An open one runs no calls. -/
def succeed : Machine → Machine
  | closed _ last => closed 0 last
  | halfOpen last => closed 0 (some last)
  | opened failures last => opened failures last

/-- A call has failed: a closed machine counts it and opens at the limit, a half-open one opens. An
open one runs no calls. -/
def fail (limit : Nat) (now : Instant) : Machine → Machine
  | closed failures _ =>
    if failures + 1 = limit then opened (failures + 1) now else closed (failures + 1) (some now)
  | halfOpen _ => opened 1 now
  | opened failures last => opened failures last

/-- A call is over. A client's own error counts as a success. -/
def settle (limit : Nat) (now : Instant) (m : Machine) : Except Error Unit → Machine
  | .ok _ => m.succeed
  | .error e => if e.isClient then m.succeed else m.fail limit now

end Machine

/-! ## Series of calls -/

/-- A call made on its own: how long it waits between the two steps of being let through, how long
it runs, and how it ends. -/
structure Call where
  pause : Nat
  takes : Nat
  result : Except Error Unit

/-- What can come next when calls do not overlap. -/
inductive Turn
  /-- Time passes. -/
  | advance (time : Nat)
  | call (c : Call)

/-- Something that calls go through. -/
structure Door (σ : Type) where
  /-- A call asks to pass at an instant; the pause is that before a second step. The answer is
  whether it runs. -/
  enter : Instant → Nat → σ → Bool × σ
  /-- The call that runs is over. -/
  leave : Instant → Except Error Unit → σ → σ

/-- A series of calls so far: the time, what they go through, and for each call whether it ran. -/
structure Series (σ : Type) where
  clock : Instant
  state : σ
  ran : List Bool := []

namespace Series

variable {σ : Type}

/-- One turn. A refused call is over at once. -/
def turn (door : Door σ) (s : Series σ) : Turn → Series σ
  | .advance time => { s with clock := s.clock + time }
  | .call c =>
    match door.enter s.clock c.pause s.state with
    | (false, state) => { s with state, ran := s.ran ++ [false] }
    | (true, state) =>
      let finish := s.clock + c.pause + c.takes
      ⟨finish, door.leave finish c.result state, s.ran ++ [true]⟩

/-- The turns of a series, one after the other. -/
def run (door : Door σ) (s : Series σ) (turns : List Turn) : Series σ := turns.foldl (turn door) s

variable {door : Door σ} {s : Series σ} {call : Call} {state : σ}

/-- A refused call takes no time. -/
theorem turn_refused (h : door.enter s.clock call.pause s.state = (false, state)) :
    s.turn door (.call call) = { s with state, ran := s.ran ++ [false] } := by
  rw [turn, h]

/-- A call that is let through takes its time, and its result is told at the end. -/
theorem turn_admitted (h : door.enter s.clock call.pause s.state = (true, state)) :
    s.turn door (.call call) =
      ⟨s.clock + call.pause + call.takes,
        door.leave (s.clock + call.pause + call.takes) call.result state, s.ran ++ [true]⟩ := by
  rw [turn, h]

end Series

/-- The door of a machine. -/
def Machine.door (c : Settings) : Door Machine where
  enter now _ m :=
    match m.pass? c.resetTimeout now with
    | none => (false, m)
    | some m => (true, m)
  leave now result m := m.settle c.failureLimit now result

/-- A caller takes the first step of being let through and, after a pause, the second one. -/
def Traffic.enter (now : Instant) (pause : Nat) (t : Traffic) : Traffic :=
  (t.apply now .glance).apply (now + pause) .moveOn

/-- The door of a breaker: a call runs if it is among those that run after it has asked to pass. -/
def Traffic.door : Door Traffic where
  enter now pause t := (!(t.enter now pause).calls.isEmpty, t.enter now pause)
  leave now result t := t.apply now (.finish 0 result)

/-! ## The state that a machine shows -/

/-- A state that differs from a machine only by its generation and by when its phase began. -/
structure Shows (s : State) (m : Machine) : Prop where
  phase : s.phase = m.phase
  failures : s.failures = m.failures
  lastFailure : s.lastFailure = m.lastFailure

variable {c : Settings} {s : State} {m m' : Machine} {now : Instant}

/-- A call that a machine refuses is refused at the first step. -/
theorem Shows.glance_of_refused (h : Shows s m) (hm : m.pass? c.resetTimeout now = none) :
    s.glance c now = .refuse := by
  cases m with
  | closed | halfOpen => cases hm
  | opened failures last =>
    have hwithin : now - last ≤ c.resetTimeout.nanos := by
      by_contra hover
      rw [Machine.pass?, if_neg hover] at hm
      cases hm
    have helapsed : s.resetElapsed c now = false := by
      rw [State.resetElapsed, h.lastFailure]
      exact decide_eq_false (Nat.not_lt_of_le hwithin)
    rw [State.glance, h.phase, Machine.phase, helapsed]
    rfl

/-- A call that a machine lets in passes at the first step, or the machine is open and its second
step makes it half open, under a new generation. -/
theorem Shows.glance_of_admitted (pause : Nat) (h : Shows s m)
    (hm : m.pass? c.resetTimeout now = some m') :
    m' = m ∧ m.phase ≠ .opened ∧ s.glance c now = .pass s.generation ∨
      s.glance c now = .elapsed ∧ m'.phase = .halfOpen ∧
        ∃ s', s.moveOn c (now + pause) = (some s'.generation, s') ∧ Shows s' m' := by
  cases m with
  | closed | halfOpen =>
    obtain rfl := Option.some.inj hm
    refine .inl ⟨rfl, Phase.noConfusion, ?_⟩
    rw [State.glance, h.phase]
    rfl
  | opened failures last =>
    by_cases hwithin : now - last ≤ c.resetTimeout.nanos
    · rw [Machine.pass?, if_pos hwithin] at hm
      cases hm
    · rw [Machine.pass?, if_neg hwithin] at hm
      obtain rfl := Option.some.inj hm
      -- What has passed at the first step has passed at the second.
      have helapsed (later : Instant) (hle : now ≤ later) : s.resetElapsed c later = true := by
        have hover : c.resetTimeout.nanos < later - last :=
          Nat.lt_of_lt_of_le (Nat.lt_of_not_le hwithin) (Nat.sub_le_sub_right hle last)
        rw [State.resetElapsed, h.lastFailure]
        exact decide_eq_true hover
      have hmoved : s.moveOn c (now + pause) = (some (s.generation + 1),
          ⟨.halfOpen, 0, s.lastFailure, now + pause, s.generation + 1⟩) := by
        rcases State.moveOn_cases c (now + pause) s with
          ⟨hphase, -⟩ | ⟨-, hnot, -⟩ | ⟨-, -, hmoved⟩
        · exact absurd h.phase hphase
        · rw [helapsed _ (Nat.le_add_right _ _)] at hnot
          cases hnot
        · exact hmoved
      refine .inr ⟨?_, rfl, ⟨.halfOpen, 0, s.lastFailure, now + pause, s.generation + 1⟩, hmoved,
        rfl, rfl, h.lastFailure⟩
      rw [State.glance, h.phase, Machine.phase, helapsed now (Nat.le_refl _)]
      rfl

/-- A success under the current generation is one of the machine. -/
theorem Shows.succeed (h : Shows s m) (hphase : m.phase ≠ .opened) :
    Shows (s.succeed s.generation now) m.succeed := by
  cases m with
  | closed failures last =>
    have hsucceed : s.succeed s.generation now = { s with failures := 0 } := by
      simp [State.succeed, h.phase, Machine.phase]
    rw [hsucceed]
    exact ⟨h.phase, rfl, h.lastFailure⟩
  | halfOpen last =>
    have hsucceed : s.succeed s.generation now =
        ⟨.closed, 0, s.lastFailure, now, s.generation + 1⟩ := by
      simp [State.succeed, State.toClosed, State.enter, h.phase, Machine.phase]
    rw [hsucceed]
    exact ⟨rfl, rfl, h.lastFailure⟩
  | opened => exact absurd rfl hphase

/-- A failure under the current generation is one of the machine. -/
theorem Shows.fail (h : Shows s m) (hphase : m.phase ≠ .opened)
    (hbelow : s.phase = .closed → s.failures < c.failureLimit) :
    Shows (s.fail c s.generation now) (m.fail c.failureLimit now) := by
  cases m with
  | closed failures last =>
    have hfailures : s.failures = failures := h.failures
    have hlt : failures < c.failureLimit := hfailures ▸ hbelow h.phase
    by_cases hlimit : failures + 1 = c.failureLimit
    · have hfail : s.fail c s.generation now =
          ⟨.opened, s.failures + 1, some now, now, s.generation + 1⟩ := by
        simp [State.fail, State.toOpened, State.enter, h.phase, Machine.phase, hfailures, hlimit]
      rw [hfail, Machine.fail, if_pos hlimit]
      exact ⟨rfl, by rw [hfailures]; rfl, rfl⟩
    · have hmore : ¬ c.failureLimit ≤ failures + 1 := by omega
      have hfail : s.fail c s.generation now =
          { s with failures := s.failures + 1, lastFailure := some now } := by
        simp [State.fail, h.phase, Machine.phase, hfailures, hmore]
      rw [hfail, Machine.fail, if_neg hlimit]
      exact ⟨h.phase, by rw [hfailures]; rfl, rfl⟩
  | halfOpen last =>
    have hfail : s.fail c s.generation now =
        ⟨.opened, s.failures + 1, some now, now, s.generation + 1⟩ := by
      simp [State.fail, State.toOpened, State.enter, h.phase, Machine.phase]
    rw [hfail]
    exact ⟨rfl, by rw [h.failures]; rfl, rfl⟩
  | opened => exact absurd rfl hphase

/-- The end of a call under the current generation is one of the machine. -/
theorem Shows.settle {b : Breaker} (now : Instant) (h : Shows b.state m)
    (hphase : m.phase ≠ .opened)
    (hbelow : b.state.phase = .closed → b.state.failures < b.settings.failureLimit)
    (result : Except Error Unit) :
    Shows (b.record b.state.generation now result).state
      (m.settle b.settings.failureLimit now result) := by
  cases result with
  | ok => exact h.succeed hphase
  | error e =>
    cases hclient : e.isClient with
    | true =>
      rw [record, isFailure, hclient, Machine.settle, if_pos hclient]
      exact h.succeed hphase
    | false =>
      rw [record, isFailure, hclient, Machine.settle, hclient]
      exact h.fail hphase hbelow

/-! ## Calls through the breaker -/

/-- A breaker that shows a machine, with no caller between the two steps. -/
structure Stands (c : Settings) (t : Traffic) (m : Machine) : Prop where
  settings : t.breaker.settings = c
  waiting : t.waiting = 0
  shows : Shows t.state m
  safe : Traffic.Safe c t.state t.calls

variable {t : Traffic}

/-- A call that asks to pass leaves the breaker safe. -/
theorem Stands.safe_enter (now : Instant) (pause : Nat) (h : Stands c t m) :
    Traffic.Safe c (t.enter now pause).state (t.enter now pause).calls := by
  obtain ⟨rfl, -, -, hsafe⟩ := h
  have hfirst := hsafe.apply now .glance
  rw [← Traffic.settings_apply t now .glance] at hfirst ⊢
  exact hfirst.apply (now + pause) .moveOn

/-- A call that a machine refuses is counted as refused, and that is all. -/
theorem Stands.enter_of_refused (pause : Nat) (h : Stands c t m)
    (hm : m.pass? c.resetTimeout now = none) : t.enter now pause = t.counted none := by
  have hglance : t.breaker.state.glance t.breaker.settings now = .refuse := by
    rw [h.settings]
    exact h.shows.glance_of_refused hm
  have hfirst : t.apply now .glance = t.counted none := by rw [Traffic.apply, hglance]
  rw [Traffic.enter, hfirst]
  exact Traffic.apply_moveOn_of_waiting_eq_zero h.waiting

/-- A call that a machine lets in is counted, and runs under the generation that is current then. -/
theorem Stands.enter_of_admitted (pause : Nat) (h : Stands c t m) (hcalls : t.calls = [])
    (hm : m.pass? c.resetTimeout now = some m') :
    ∃ s', Shows s' m' ∧ m'.phase ≠ .opened ∧
      t.enter now pause =
        { t with
          breaker := { t.breaker with state := s', total := t.breaker.total + 1 }
          calls := [s'.generation] } := by
  rcases h.shows.glance_of_admitted pause hm with
    ⟨rfl, hphase, hglance⟩ | ⟨hglance, hphase, s', hmoved, hshows⟩
  · refine ⟨t.state, h.shows, hphase, ?_⟩
    have hfirst : t.apply now .glance = t.counted (some t.state.generation) := by
      rw [← h.settings] at hglance
      rw [Traffic.apply, ← Traffic.state, hglance]
    have hsecond : (t.counted (some t.state.generation)).apply (now + pause) .moveOn =
        t.counted (some t.state.generation) :=
      Traffic.apply_moveOn_of_waiting_eq_zero h.waiting
    rw [Traffic.enter, hfirst, hsecond, Traffic.counted, count, hcalls]
    rfl
  · -- One caller waits, and its second step is the next thing to happen.
    refine ⟨s', hshows, ?_, ?_⟩
    · rw [hphase]
      exact Phase.noConfusion
    have hfirst : t.apply now .glance = { t with waiting := t.waiting + 1 } := by
      rw [← h.settings] at hglance
      rw [Traffic.apply, ← Traffic.state, hglance]
    rw [← h.settings] at hmoved
    have hsecond : { t with waiting := t.waiting + 1 }.apply (now + pause) .moveOn =
        { t with breaker := { t.breaker with state := s' } }.counted (some s'.generation) :=
      Traffic.apply_moveOn (t := { t with waiting := t.waiting + 1 }) (Nat.succ_ne_zero _) hmoved
    rw [Traffic.enter, hfirst, hsecond, Traffic.counted, count, hcalls]
    rfl

/-- A call runs alone through a breaker that shows a machine, under the current generation. -/
structure Runs (c : Settings) (t : Traffic) (m : Machine) : Prop extends Stands c t m where
  phase : m.phase ≠ .opened
  calls : t.calls = [t.state.generation]

/-- A call that a machine lets in runs alone. -/
theorem Stands.runs_of_admitted (pause : Nat) (h : Stands c t m) (hcalls : t.calls = [])
    (hm : m.pass? c.resetTimeout now = some m') :
    Runs c (t.enter now pause) m' ∧
      (t.enter now pause).breaker.total = t.breaker.total + 1 ∧
      (t.enter now pause).breaker.rejected = t.breaker.rejected := by
  have hsafe := h.safe_enter now pause
  obtain ⟨s', hshows, hphase, henter⟩ := h.enter_of_admitted pause hcalls hm
  rw [henter] at hsafe ⊢
  exact ⟨⟨⟨h.settings, h.waiting, hshows, hsafe⟩, hphase, rfl⟩, rfl, rfl⟩

/-- The end of the call that runs alone is one of the machine. -/
theorem Runs.leave (now : Instant) (h : Runs c t m) (result : Except Error Unit) :
    Stands c (t.apply now (.finish 0 result)) (m.settle c.failureLimit now result) ∧
      (t.apply now (.finish 0 result)).calls = [] ∧
      (t.apply now (.finish 0 result)).breaker.total = t.breaker.total ∧
      (t.apply now (.finish 0 result)).breaker.rejected = t.breaker.rejected := by
  obtain ⟨⟨rfl, hwaiting, hshows, hsafe⟩, hphase, hcalls⟩ := h
  have hfinish : t.apply now (.finish 0 result) =
      { t with breaker := t.breaker.record t.state.generation now result, calls := [] } := by
    rw [Traffic.apply, hcalls]
    rfl
  have hsettle := hshows.settle now hphase hsafe.closed_lt result
  refine ⟨?_, ?_, ?_, ?_⟩
  · exact {
      settings := Traffic.settings_apply _ _ _
      waiting := by rw [hfinish]; exact hwaiting
      shows := by rw [hfinish]; exact hsettle
      safe := hsafe.apply now _ }
  · rw [hfinish]
  · rw [Traffic.breaker_finish]
  · rw [Traffic.breaker_finish]

/-! ## Series of calls through both -/

/-- What a series through a breaker and one through a machine have in common. -/
structure Agrees (c : Settings) (b : Series Traffic) (m : Series Machine) : Prop where
  stands : Stands c b.state m.state
  calls : b.state.calls = []
  clock : b.clock = m.clock
  ran : b.ran = m.ran
  total : b.state.breaker.total = m.ran.count true
  rejected : b.state.breaker.rejected = m.ran.count false

variable {b : Series Traffic} {n : Series Machine} {call : Call}

/-- A call that is refused after a series is refused through both. -/
theorem Agrees.turn_of_refused (h : Agrees c b n)
    (hm : n.state.pass? c.resetTimeout n.clock = none) :
    Agrees c (b.turn Traffic.door (.call call)) (n.turn (Machine.door c) (.call call)) := by
  have henter : b.state.enter b.clock call.pause = b.state.counted none := by
    rw [h.clock]
    exact h.stands.enter_of_refused call.pause hm
  have hcalls : (b.state.counted none).calls = [] := by
    rw [Traffic.calls_counted, h.calls]
    rfl
  have hbreaker : Traffic.door.enter b.clock call.pause b.state =
      (false, b.state.counted none) := by
    simp only [Traffic.door, henter, hcalls, List.isEmpty_nil, Bool.not_true]
  have hmachine : (Machine.door c).enter n.clock call.pause n.state = (false, n.state) := by
    simp only [Machine.door, hm]
  rw [Series.turn_refused hbreaker, Series.turn_refused hmachine]
  exact {
    stands := ⟨h.stands.settings, h.stands.waiting, h.stands.shows, h.stands.safe⟩
    calls := hcalls
    clock := h.clock
    ran := congrArg (· ++ [false]) h.ran
    total := by rw [List.count_append]; exact h.total
    rejected := by rw [List.count_append, ← h.rejected]; rfl }

/-- A call that is let in after a series runs through both. -/
theorem Agrees.turn_of_admitted (h : Agrees c b n)
    (hm : n.state.pass? c.resetTimeout n.clock = some m) :
    Agrees c (b.turn Traffic.door (.call call)) (n.turn (Machine.door c) (.call call)) := by
  obtain ⟨clock, t, ran⟩ := b
  obtain rfl : clock = n.clock := h.clock
  obtain ⟨hruns, hcounted, hkept⟩ := h.stands.runs_of_admitted call.pause h.calls hm
  obtain ⟨hstands, hcalls, htotal, hrejected⟩ :=
    hruns.leave (n.clock + call.pause + call.takes) call.result
  have hbreaker : Traffic.door.enter n.clock call.pause t =
      (true, t.enter n.clock call.pause) := by
    simp only [Traffic.door, hruns.calls, List.isEmpty_cons, Bool.not_false]
  have hmachine : (Machine.door c).enter n.clock call.pause n.state = (true, m) := by
    simp only [Machine.door, hm]
  rw [Series.turn_admitted hbreaker, Series.turn_admitted hmachine]
  exact {
    stands := hstands
    calls := hcalls
    clock := rfl
    ran := congrArg (· ++ [true]) h.ran
    total := by rw [List.count_append, ← h.total]; exact htotal.trans hcounted
    rejected := by rw [List.count_append, ← h.rejected]; exact hrejected.trans hkept }

/-- A turn is the same through a breaker and through a machine. -/
theorem Agrees.turn (h : Agrees c b n) (next : Turn) :
    Agrees c (b.turn Traffic.door next) (n.turn (Machine.door c) next) := by
  cases next with
  | advance time => exact { h with clock := congrArg (· + time) h.clock }
  | call call =>
    cases hm : n.state.pass? c.resetTimeout n.clock with
    | none => exact h.turn_of_refused hm
    | some m => exact h.turn_of_admitted hm

/-- After a series, the call that asks to pass next runs alone if it runs, and under the current
generation. -/
theorem Agrees.calls_enter (h : Agrees c b n) (now : Instant) (pause : Nat) :
    (b.state.enter now pause).calls = [] ∨
      (b.state.enter now pause).calls = [(b.state.enter now pause).state.generation] := by
  cases hm : n.state.pass? c.resetTimeout now with
  | none =>
    left
    rw [h.stands.enter_of_refused pause hm, Traffic.calls_counted, h.calls]
    rfl
  | some m => exact .inr (h.stands.runs_of_admitted pause h.calls hm).1.calls

/-- A series through a new breaker and the same series through a new machine agree. -/
theorem agrees_run (c : Settings) (start : Instant) (turns : List Turn) :
    Agrees c (Series.run Traffic.door ⟨start, .idle c start, []⟩ turns)
      (Series.run (Machine.door c) ⟨start, .closed 0 none, []⟩ turns) := by
  induction turns using List.reverseRecOn with
  | nil =>
    exact {
      stands := ⟨rfl, rfl, ⟨rfl, rfl, rfl⟩, Traffic.safe_idle c start⟩
      calls := rfl
      clock := rfl
      ran := rfl
      total := rfl
      rejected := rfl }
  | append_singleton turns next ih =>
    simp only [Series.run, List.foldl_append, List.foldl_cons, List.foldl_nil] at ih ⊢
    exact ih.turn next

/-- Through a new breaker, calls that do not overlap run and are refused exactly as through the
machine, and leave the same phase, count of failures and last failure behind. No result is ever
discarded: a call that runs does so alone and under the generation that is current until its
end. -/
theorem Series.breaker_eq_machine (c : Settings) (start : Instant) (turns : List Turn) :
    let b := run Traffic.door ⟨start, .idle c start, []⟩ turns
    let m := run (Machine.door c) ⟨start, .closed 0 none, []⟩ turns
    b.clock = m.clock ∧ b.ran = m.ran ∧
      b.state.state.phase = m.state.phase ∧ b.state.state.failures = m.state.failures ∧
      b.state.state.lastFailure = m.state.lastFailure ∧
      b.state.breaker.total = m.ran.count true ∧ b.state.breaker.rejected = m.ran.count false ∧
      ∀ pause, let t := b.state.enter b.clock pause
        t.calls = [] ∨ t.calls = [t.state.generation] := by
  intro b m
  have h : Agrees c b m := agrees_run c start turns
  exact ⟨h.clock, h.ran, h.stands.shows.phase, h.stands.shows.failures, h.stands.shows.lastFailure,
    h.total, h.rejected, h.calls_enter b.clock⟩

end AccessGate.Breaker
