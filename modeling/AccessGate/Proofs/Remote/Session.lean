import AccessGate.Proofs.Remote.Race
import AccessGate.Remote.Session

/-!
# Each guarded call is answered once and recorded once

A session of calls under a deadline and through a breaker, on any runtime that does what is
documented. Its calls are answered in their order, each as its race should be (`Invoker.Answers`),
and its breaker is as if it were told of each call that it let through at the time of the answer, and
of nothing else (`Recorded`), although the tasks of calls that missed their deadline still run. Every
part of a session keeps this (`Session.Sound.step`), and the answer that is waited for comes
(`Session.Sound.exists_run_current_eq_none`). The main statement is `Invoker.always_answers_once`.
-/

namespace AccessGate

variable {rt : Runtime} {α : Type} {i : Invoker}

/-! ## What is recorded -/

/-- The call that was answered, and when it was made. -/
def Answered.call (x : Answered α) : Instant × Course α := (x.start, x.course)

/-- What a breaker comes to when calls are made through it and answered as they should be, one after
the other: one that is let through is recorded once, with its answer. -/
inductive Recorded (rt : Runtime) (i : Invoker) (b : Breaker) :
    List (Answered α) → Breaker → Prop
  | nil : Recorded rt i b [] b
  | refused {earlier : List (Answered α)} {before after : Breaker} {start : Instant} {e : Error}
      (h : Recorded rt i b earlier before) (course : Course α)
      (refuses : before.request start = (.error e, after)) :
      Recorded rt i b (earlier ++ [⟨start, course, start, .error e⟩]) after
  | answered {earlier : List (Answered α)} {before after : Breaker} {generation : Nat}
      {start finish : Instant} {course : Course α} {answer : Except Error α}
      (h : Recorded rt i b earlier before)
      (admits : before.request start = (.ok generation, after))
      (answers : i.Answers rt course start finish answer) :
      Recorded rt i b (earlier ++ [⟨start, course, finish, answer⟩])
        (after.record generation finish answer)

namespace Session

/-! ## Sound sessions -/

/-- A session that began with a breaker, as it should be. -/
structure Sound (i : Invoker) (b : Breaker) (s : Session rt α) : Prop where
  /-- The callers of the races that are left have their answers. -/
  left : ∀ r ∈ s.left, r.Sound i s.clock ∧ r.waiting = false
  /-- Without a call under way, all calls have been answered and recorded. -/
  idle : s.current = none →
    s.calls = s.answered.map Answered.call ∧ Recorded rt i b s.answered s.breaker
  /-- The call under way is the last one, and has been let through by the breaker that the calls
  before it left behind. -/
  busy : ∀ generation r, s.current = some (generation, r) → r.Sound i s.clock ∧
    r.waiting = true ∧ s.calls = s.answered.map Answered.call ++ [(r.start, r.course)] ∧
    ∃ before, Recorded rt i b s.answered before ∧
      before.request r.start = (.ok generation, s.breaker)

variable {b : Breaker} {s s' : Session rt α}

/-- A session is as it should be before the first call. -/
theorem sound_new (i : Invoker) (b : Breaker) (clock : Instant) :
    Sound i b ({ breaker := b, clock } : Session rt α) where
  left := nofun
  idle _ := ⟨rfl, .nil⟩
  busy := nofun

/-- A call that is refused is answered at once. -/
theorem make_of_error {e : Error} {breaker : Breaker}
    (h : s.breaker.request s.clock = (.error e, breaker)) (course : Course α) :
    s.make course =
      { s with
        breaker
        calls := s.calls ++ [(s.clock, course)]
        answered := s.answered ++ [⟨s.clock, course, s.clock, .error e⟩] } := by
  simp only [make, h]

/-- A call that is let through begins. -/
theorem make_of_ok {generation : Nat} {breaker : Breaker}
    (h : s.breaker.request s.clock = (.ok generation, breaker)) (course : Course α) :
    s.make course =
      { s with
        breaker
        current := some (generation, .spawn rt course s.clock)
        calls := s.calls ++ [(s.clock, course)] } := by
  simp only [make, h]

/-- A caller that sees its answer has the breaker told of it. -/
theorem look_of_ready {generation : Nat} {r : Race rt α} {answer : Except Error α}
    (h : r.listen i s.clock = .ready answer) :
    s.look i generation r =
      { s with
        breaker := s.breaker.record generation s.clock answer
        current := none
        left := s.left ++ [r.look i s.clock]
        answered := s.answered ++ [⟨r.start, r.course, s.clock, answer⟩] } := by
  simp only [Session.look, h]

/-- Making a call keeps a session sound. -/
theorem Sound.make (hrt : rt.Documented) (h : s.Sound i b) (course : Course α)
    (hidle : s.current = none) : (s.make course).Sound i b := by
  obtain ⟨hcalls, hrecorded⟩ := h.idle hidle
  rcases hrequest : s.breaker.request s.clock with ⟨e | generation, breaker⟩
  · rw [make_of_error hrequest]
    refine ⟨h.left, fun _ => ⟨?_, hrecorded.refused course hrequest⟩, fun generation r hcurrent => ?_⟩
    · rw [hcalls, List.map_append]
      rfl
    · exact nomatch hidle.symm.trans hcurrent
  · rw [make_of_ok hrequest]
    refine ⟨h.left, nofun, fun generation' r hcurrent => ?_⟩
    obtain ⟨rfl, rfl⟩ := Prod.mk.inj (Option.some.inj hcurrent)
    exact ⟨Race.sound_spawn hrt i course s.clock, rfl, congrArg (· ++ _) hcalls, s.breaker,
      hrecorded, hrequest⟩

/-- A look keeps a session sound: an answer is recorded. -/
theorem Sound.look (hrt : rt.Documented) (h : s.Sound i b) {generation : Nat} {r : Race rt α}
    (hcurrent : s.current = some (generation, r)) : (s.look i generation r).Sound i b := by
  obtain ⟨hsound, hwaiting, hcalls, before, hrecorded, hrequest⟩ := h.busy generation r hcurrent
  rcases hsound.listen_cases hrt hwaiting with hsees | ⟨answer, hsees, hanswers⟩
  · rw [Session.look, hsees]
    exact h
  rw [look_of_ready hsees]
  have hleft : (r.look i s.clock).waiting = false := by rw [Race.look_of_ready hwaiting hsees]
  refine ⟨?_, fun _ => ⟨?_, hrecorded.answered hrequest hanswers⟩, nofun⟩
  · exact List.forall_mem_append.2
      ⟨h.left, List.forall_mem_singleton.2 ⟨hsound.look hrt, hleft⟩⟩
  · rw [hcalls, List.map_append]
    rfl

/-- Every part of a session keeps it sound. -/
theorem Sound.step (hrt : rt.Documented) (h : s.Sound i b) (hstep : Step i s s') :
    s'.Sound i b := by
  cases hstep with
  | call course hidle => exact h.make hrt course hidle
  | look hcurrent => exact h.look hrt hcurrent
  | @poll generation r hcurrent =>
    obtain ⟨hsound, hwaiting, hcalls, before, hrecorded, hrequest⟩ := h.busy generation r hcurrent
    obtain ⟨hstart, hcourse, hwaiting', -⟩ := r.poll_fixed i s.clock
    refine ⟨h.left, nofun, fun generation' r' hcurrent' => ?_⟩
    obtain ⟨rfl, rfl⟩ := Prod.mk.inj (Option.some.inj hcurrent')
    rw [hstart, hcourse, hwaiting']
    exact ⟨hsound.poll hrt, hwaiting, hcalls, before, hrecorded, hrequest⟩
  | pollLeft index =>
    refine ⟨fun r' hr' => ?_, h.idle, h.busy⟩
    obtain ⟨k, hk⟩ := List.mem_iff_getElem?.1 hr'
    obtain ⟨r, hr, hsame⟩ := Option.map_eq_some_iff.1 ((List.getElem?_modify ..).symm.trans hk)
    obtain ⟨hsound, hdone⟩ := h.left r (List.mem_of_getElem? hr)
    by_cases hindex : index = k
    · obtain ⟨-, -, hwaiting, -⟩ := r.poll_fixed i s.clock
      rw [← hsame, if_pos hindex]
      exact ⟨hsound.poll hrt, hwaiting.trans hdone⟩
    · rw [← hsame, if_neg hindex]
      exact ⟨hsound, hdone⟩
  | pass hpass =>
    have hle := hrt.le_of_passes hpass
    have hprompt {r : Race rt α} (hr : r ∈ s.races) (wake : Instant) (hwake : wake ∈ r.wakes i) :=
      hrt.prompt hpass wake (List.mem_flatMap.2 ⟨r, hr, hwake⟩)
    refine ⟨fun r hr => ?_, h.idle, fun generation r hcurrent => ?_⟩
    · obtain ⟨hsound, hdone⟩ := h.left r hr
      exact ⟨hsound.pass hle (hprompt (List.mem_append_left _ hr)), hdone⟩
    · obtain ⟨hsound, hrest⟩ := h.busy generation r hcurrent
      replace hcurrent : s.current = some (generation, r) := hcurrent
      exact ⟨hsound.pass hle (hprompt (by simp [races, hcurrent])), hrest⟩

/-- A run keeps a session sound. -/
theorem Sound.run (hrt : rt.Documented) (h : s.Sound i b) (hrun : Run i s s') : s'.Sound i b := by
  induction hrun with
  | refl => exact h
  | tail _ hstep ih => exact ih.step hrt hstep

/-! ## The answer comes -/

/-- What there is to do at most, in all races, before the clock goes on. -/
def load (s : Session rt α) : Nat := s.races.foldr (fun r n => r.load s.clock + n) 0

/-- With less to do in one race there is less to do. -/
theorem load_lt {before after : List (Race rt α)} {r r' : Race rt α}
    (hclock : s'.clock = s.clock) (hraces : s.races = before ++ r :: after)
    (hraces' : s'.races = before ++ r' :: after) (hlt : r'.load s.clock < r.load s.clock) :
    s'.load < s.load := by
  rw [load, load, hclock, hraces, hraces']
  clear hraces hraces'
  induction before with
  | nil => exact Nat.add_lt_add_right hlt _
  | cons first rest ih => exact Nat.add_lt_add_left ih _

/-- The call under way is the last of the races. -/
theorem races_of_current {generation : Nat} {r : Race rt α}
    (hcurrent : s.current = some (generation, r)) : s.races = s.left ++ [r] := by
  rw [races, hcurrent]
  rfl

/-- A task of a call before that goes on leaves less to do. -/
theorem load_pollLeft_lt {r : Race rt α} {k : Nat} (hr : s.left[k]? = some r)
    (hlt : (r.poll i s.clock).load s.clock < r.load s.clock) :
    ({ s with left := s.left.modify k (·.poll i s.clock) } : Session rt α).load < s.load := by
  obtain ⟨hk, hr⟩ := List.getElem?_eq_some_iff.1 hr
  obtain ⟨before, r', after, hleft, hlength, hmodified⟩ :=
    List.exists_of_modify (·.poll i s.clock) hk
  obtain rfl : r' = r := by
    simp only [hleft, ← hlength, List.getElem_append_right (Nat.le_refl _)] at hr
    simpa using hr
  let last := (s.current.map Prod.snd).toList
  have hraces : s.races = before ++ r' :: (after ++ last) := by
    rw [races, hleft, List.append_assoc, List.cons_append]
  refine load_lt rfl hraces ?_ hlt
  rw [races, hmodified, List.append_assoc, List.cons_append]

/-- Without a further call the clock can go on, or something is left to do. -/
theorem Sound.exists_progress (hrt : rt.Documented) (h : s.Sound i b) :
    ∃ s', Step i s s' ∧ s'.calls = s.calls ∧
      (s.clock < s'.clock ∨ s'.clock = s.clock ∧ s'.load < s.load) := by
  by_cases hidle : ∀ r ∈ s.races, ∀ wake ∈ r.wakes i, s.clock < wake
  · have hpass : rt.Passes (s.wakes i) s.clock (s.clock + 1) :=
      hrt.passes_of_idle (Nat.le_succ _) (List.forall_mem_flatMap.2 hidle)
    exact ⟨_, .pass hpass, rfl, .inl (Nat.lt_succ_self _)⟩
  obtain ⟨r, hr, hwoken⟩ : ∃ r ∈ s.races, ¬ ∀ wake ∈ r.wakes i, s.clock < wake := by
    simpa using hidle
  rcases List.mem_append.1 hr with hleft | hmine
  · obtain ⟨hsound, hdone⟩ := h.left r hleft
    obtain ⟨k, hk⟩ := List.mem_iff_getElem?.1 hleft
    rcases (hsound.idle_or_useful hrt).resolve_left hwoken with hpoll | ⟨hwaits, -⟩
    · exact ⟨_, .pollLeft k, rfl, .inr ⟨rfl, load_pollLeft_lt hk hpoll⟩⟩
    · exact nomatch hdone.symm.trans hwaits
  · obtain ⟨⟨generation, _⟩, hcurrent, rfl⟩ := Option.map_eq_some_iff.1 (Option.mem_toList.1 hmine)
    obtain ⟨hsound, -⟩ := h.busy _ _ hcurrent
    rcases (hsound.idle_or_useful hrt).resolve_left hwoken with hpoll | ⟨hwaiting, answer, hsees⟩
    · exact ⟨_, .poll hcurrent, rfl, .inr ⟨rfl, load_lt rfl (races_of_current hcurrent) rfl hpoll⟩⟩
    · refine ⟨_, .look hcurrent, ?_⟩
      rw [look_of_ready hsees]
      exact ⟨rfl, .inr ⟨rfl, load_lt rfl (races_of_current hcurrent) (List.append_nil _)
        (Race.load_look_lt hwaiting hsees)⟩⟩

/-- Every session can be brought to where its calls are answered, without a further call. -/
theorem Sound.exists_run_current_eq_none (hrt : rt.Documented) (h : s.Sound i b) :
    ∃ s', Run i s s' ∧ s'.calls = s.calls ∧ s'.current = none := by
  cases hcurrent : s.current with
  | none => exact ⟨s, .refl, rfl, hcurrent⟩
  | some current =>
    obtain ⟨-, -, hcalls, -⟩ := h.busy _ _ hcurrent
    -- Later than it may wait, the caller of the call under way, which is the last one, has its answer.
    obtain ⟨s', hrun, ⟨hsound, hsame⟩, hlate⟩ := exists_run_of_progress
      (fun s' : Session rt α => s'.Sound i b ∧ s'.calls = s.calls) clock load
      (i.last rt current.2.start + 1) (fun x ⟨hx, hsame⟩ _ => by
        obtain ⟨x', hstep, hcalls', hprogress⟩ := hx.exists_progress hrt
        exact ⟨x', hstep, ⟨hx.step hrt hstep, hcalls'.trans hsame⟩, hprogress⟩) s ⟨h, rfl⟩
    refine ⟨s', hrun, hsame, ?_⟩
    cases hlast : s'.current with
    | none => rfl
    | some x =>
      obtain ⟨hrace, hwaiting, hcalls', -⟩ := hsound.busy _ _ hlast
      obtain ⟨-, heq⟩ := List.append_inj' (hcalls'.symm.trans (hsame.trans hcalls)) rfl
      obtain ⟨hstart, -⟩ := Prod.mk.inj (List.cons.inj heq).1
      exact absurd (hstart ▸ hrace.le_last hwaiting) (Nat.not_le_of_lt hlate)

/-! ## What a session has come to -/

/-- What a session that began with a breaker has come to, as it should. -/
structure Conforms (i : Invoker) (b : Breaker) (s : Session rt α) : Prop where
  /-- Every call that was let through is as it should be, also when its caller has been answered. -/
  races : ∀ r ∈ s.races, r.Conforms i s.clock
  /-- Without a call under way, all calls have been answered, and recorded once. -/
  idle : s.current = none →
    s.calls = s.answered.map Answered.call ∧ Recorded rt i b s.answered s.breaker
  /-- The call under way is the last one. It has been let through, and the breaker has been told
  nothing of it. -/
  busy : ∀ generation r, s.current = some (generation, r) → s.clock ≤ i.last rt r.start ∧
    s.calls = s.answered.map Answered.call ++ [(r.start, r.course)] ∧
    ∃ before, Recorded rt i b s.answered before ∧
      before.request r.start = (.ok generation, s.breaker)

/-- A sound session has come to what it should. -/
theorem Sound.conforms (h : s.Sound i b) : s.Conforms i b where
  races r hr := by
    rcases List.mem_append.1 hr with hleft | hmine
    · exact (h.left r hleft).1.conforms
    · obtain ⟨_, hcurrent, rfl⟩ := Option.map_eq_some_iff.1 (Option.mem_toList.1 hmine)
      exact (h.busy _ _ hcurrent).1.conforms
  idle := h.idle
  busy generation r hcurrent := by
    obtain ⟨hsound, hwaiting, hrest⟩ := h.busy generation r hcurrent
    exact ⟨hsound.le_last hwaiting, hrest⟩

end Session

namespace Invoker

variable {course : Course α} {start now : Instant} {answer : Except Error α}

/-- A call that breaks down and is over before its deadline fails with the text of the breakdown. -/
theorem Answers.of_breaksDown {text : Option String} (h : i.Answers rt course start now answer)
    (hending : course.remote.ending = .breaksDown text)
    (hlt : course.latest rt.maxDelay start < i.limit.after start) :
    answer = .error (breakdown i.operation text) := by
  have hsettled := h.settled (hending ▸ nofun) hlt
  rw [settled?, hending] at hsettled
  exact (Option.some.inj hsettled).symm

/-- A call that breaks down fails, whether its caller hears of the breakdown or gives it up. -/
theorem Answers.isFailure_of_breaksDown {text : Option String}
    (h : i.Answers rt course start now answer)
    (hending : course.remote.ending = .breaksDown text) : Breaker.isFailure answer = true := by
  cases h with
  | own hhears =>
    have hsettled := hhears.settled
    rw [settled?, hending] at hsettled
    rw [← Option.some.inj hsettled]
    rfl
  | timeout => rfl

/-- A call that returns and is over before its deadline is answered by its result. -/
theorem Answers.of_returns {result : Except Error α} (h : i.Answers rt course start now answer)
    (hending : course.remote.ending = .returns result)
    (hlt : course.latest rt.maxDelay start < i.limit.after start) : answer = result := by
  have hsettled := h.settled (hending ▸ nofun) hlt
  rw [settled?, hending] at hsettled
  exact (Option.some.inj hsettled).symm

/-- **A call under a deadline is answered once, and recorded once.** On every runtime that does what
is documented, however the parts of a race fall:

* The caller of a call gets one answer, which stays and never unwinds, and the call is brought to its
  end. If the call was over before its deadline, the answer is what came of it; if the call was not
  over yet, the answer is the timeout, and what comes of it later is lost. No race is ever stuck.
* An answer comes within the limit, up to the granularity of timers and the delay of tasks. A call
  that is over in time, with all delays, is answered by its own result, or by an error with the
  operation and the text of its breakdown. One that hangs, or is not over when the answer is due at
  the latest, is answered by the timeout, not before the limit. Timeouts are failures, and so is
  every answer to a call that breaks down. Where timers are exact and tasks are polled at once, the
  answer comes within the limit, and is the outcome of the call at the instant when the wait for it
  is over.
* In a session of such calls through a breaker, every call is answered like that and recorded once.
  The last call may wait for its answer yet, and it comes. -/
theorem always_answers_once (rt : Runtime) (hrt : rt.Documented) (i : Invoker) :
    (∀ (course : Course α) (start now : Instant) (r : Race rt α),
      Race.Run i (start, .spawn rt course start) (now, r) →
      r.start = start ∧ r.course = course ∧ r.Conforms i now ∧
      (∀ later r', Race.Run i (now, r) (later, r') → r.heard <+: r'.heard) ∧
      ∀ bound, ∃ later r', Race.Run i (now, r) (later, r') ∧ bound ≤ later) ∧
    (∀ (course : Course α) (start now : Instant) (answer : Except Error α),
      i.Answers rt course start now answer →
      now ≤ rt.maxDelay.after (rt.granularity.after (i.limit.after start)) ∧
      (course.latest rt.maxDelay start < i.limit.after start →
        (∀ result, course.remote.ending = .returns result → answer = result) ∧
        ∀ text, course.remote.ending = .breaksDown text →
          answer = .error (.internal
            (s!"'{i.operation}' panicked: " ++ text.getD "unknown panic payload"))) ∧
      (∀ text, course.remote.ending = .breaksDown text → Breaker.isFailure answer = true) ∧
      (course.remote.ending = .hangs ∨ i.last rt start < course.remote.delay.after start →
        answer = .error (.timeout i.operation i.limit) ∧ Breaker.isFailure answer = true ∧
        i.limit.after start ≤ now) ∧
      (rt.maxDelay = ⟨0⟩ → rt.fires (i.limit.after start) = i.limit.after start →
        i.Decides course.remote →
        now = (i.wait course.remote).after start ∧ now ≤ i.limit.after start ∧
        answer = i.outcome course.remote)) ∧
    ∀ (b : Breaker) (start : Instant) (s : Session rt α),
      Session.Run i { breaker := b, clock := start } s →
      s.Conforms i b ∧ ∃ s', Session.Run i s s' ∧ s'.calls = s.calls ∧ s'.current = none := by
  refine ⟨fun course start now r hrun => ?_, fun course start now answer h => ⟨?_, fun hlt =>
    ⟨fun _ hending => h.of_returns hending hlt, fun _ hending => h.of_breaksDown hending hlt⟩,
    fun _ hending => h.isFailure_of_breaksDown hending, fun hlate => ?_,
    fun hdelay hfires hdecides => ?_⟩, fun b start s hrun => ?_⟩
  · obtain ⟨hsound, hstart, hcourse⟩ := (Race.sound_spawn hrt i course start).run hrt hrun
    exact ⟨hstart, hcourse, hsound.conforms, fun _ _ hmore => Race.heard_prefix_of_run hmore,
      hsound.exists_run hrt⟩
  · exact Nat.le_trans h.le_last (last_le hrt i start)
  · obtain ⟨rfl, hlimit⟩ := h.eq_timeout hlate
    exact ⟨rfl, rfl, hlimit⟩
  · obtain ⟨hnow, hanswer⟩ := h.exact hdelay hfires hdecides
    exact ⟨hnow, hnow ▸ Nat.add_le_add_left (wait_le_limit i course.remote) start, hanswer⟩
  · have hsound : s.Sound i b := (Session.sound_new i b start).run hrt hrun
    exact ⟨hsound.conforms, hsound.exists_run_current_eq_none hrt⟩

/-- Validation with a limit of 50 ms. -/
def validation : Invoker := ⟨"validate", .ofMillis 50⟩

/-- A call that breaks down after 60 ms. -/
def lateBreakdown : Course Nat :=
  .suspends (.ofMillis 60) (.breaksDown (.str "decoder blew up"))

/-- Timers of whole milliseconds. A call breaks down when its caller has given it up. The caller was
told so at the deadline, and what came of the call later is lost. Made through a breaker after a call
that succeeds, it is counted as one failure. -/
theorem always_answers_once_late :
    Runtime.ticking.Documented ∧
      (∃ r : Race .ticking Nat,
        Race.Run validation (0, .spawn .ticking lateBreakdown 0) (60000000, r) ∧
        r.Conforms validation 60000000 ∧
        r.heard = [(50000000, .ready (.error (.timeout "validate" (.ofMillis 50))))] ∧
        r.discarded = [.error (.internal "'validate' panicked: decoder blew up")]) ∧
      ∃ s : Session .ticking Nat,
        Session.Run validation
          { breaker := .create (.of "idp" 3 (.ofMillis 100)) 0, clock := 0 } s ∧
        s.Conforms validation (.create (.of "idp" 3 (.ofMillis 100)) 0) ∧
        s.answered.map Answered.answer = [.ok 1, .error (.timeout "validate" (.ofMillis 50))] ∧
        s.breaker.state.failures = 1 := by
  obtain ⟨hraces, -, hsessions⟩ :=
    always_answers_once (α := Nat) .ticking Runtime.documented_ticking validation
  refine ⟨Runtime.documented_ticking, ?_, ?_⟩
  · have hrun : Race.Run validation (0, .spawn .ticking lateBreakdown 0)
        (60000000, (((Race.spawn .ticking lateBreakdown 0).poll validation 0).look validation
          50000000).poll validation 60000000) := by
      refine .head (.poll ..) (.head (.pass ?_) (.head (.look ..) (.head (.pass ?_)
        (.head (.poll ..) .refl))))
      · exact ⟨by decide, by decide⟩
      · exact ⟨by decide, by decide⟩
    exact ⟨_, hrun, (hraces _ 0 _ _ hrun).2.2.1, rfl, rfl⟩
  · have wait {s : Session .ticking Nat} (later : Instant)
        (h : Runtime.ticking.Passes (s.wakes validation) s.clock later) :
        Session.Step validation s { s with clock := later } := .pass h
    have hrun : ∃ s : Session .ticking Nat,
        Session.Run validation
          { breaker := .create (.of "idp" 3 (.ofMillis 100)) 0, clock := 0 } s ∧
        s.answered.map Answered.answer = [.ok 1, .error (.timeout "validate" (.ofMillis 50))] ∧
        s.breaker.state.failures = 1 := by
      refine ⟨_, .head (.call (.returns (.ok 1)) rfl) (.head (.poll rfl) (.head (.look rfl)
        (.head (.call lateBreakdown rfl) (.head (.poll rfl) (.head (wait 50000000 ?_)
        (.head (.look rfl) .refl)))))), rfl, rfl⟩
      exact ⟨by decide, by decide⟩
    obtain ⟨s, hrun, hanswers, hfailures⟩ := hrun
    exact ⟨s, hrun, (hsessions _ 0 s hrun).1, hanswers, hfailures⟩

end Invoker

end AccessGate
