import AccessGate.Remote.Race

/-!
# A race ends as the deadline has it

However the parts of a race fall, its caller gets one answer, the call's own result or the timeout
(`Invoker.Answers`). A race goes through stages (`Race.Stage`): the call runs and the caller waits;
the result is in the channel; the caller has it; or the caller has given up while the call runs, and
then the result comes and is lost. Each part of a race keeps it in one of them (`Race.Sound.poll`,
`Race.Sound.look`, `Race.Sound.pass`), and so does a run (`Race.Sound.run`). Of what is woken only
so much can be done before the clock goes on (`Race.load`), so every race can be brought to any time
(`Race.Sound.exists_run`).
-/

namespace AccessGate

variable {rt : Runtime} {α : Type} {i : Invoker} {c : RemoteCall α} {course : Course α}
  {start now later finish : Instant} {result answer : Except Error α}

/-! ## What a call comes to -/

namespace Invoker

/-- The result of a call however long it takes: a breakdown is an error that names the operation. -/
def settled? (i : Invoker) (c : RemoteCall α) : Option (Except Error α) :=
  match c.ending with
  | .returns result => some result
  | .breaksDown text => some (.error (breakdown i.operation text))
  | .hangs => none

/-- A call that ends does not do so just at its deadline. -/
def Decides (i : Invoker) (c : RemoteCall α) : Prop := c.delay = i.limit → c.ending = .hangs

/-- What a call comes to depends on its ending only. -/
theorem settled?_congr {c' : RemoteCall α} (h : c'.ending = c.ending) :
    i.settled? c' = i.settled? c := by
  rw [settled?, settled?, h]

/-- A call comes to nothing exactly if it hangs. -/
theorem settled?_eq_none_iff : i.settled? c = none ↔ c.ending = .hangs := by
  unfold settled?
  cases c.ending <;> simp

/-- A call that comes to something does not hang. -/
theorem ends_of_settled (h : i.settled? c = some result) : c.ending ≠ .hangs := fun hhangs => by
  rw [settled?_eq_none_iff.2 hhangs] at h
  cases h

/-- A call that is over before its deadline gives its result. -/
theorem outcome_of_settled (h : i.settled? c = some result) (hlt : c.delay.nanos < i.limit.nanos) :
    i.outcome c = result ∧ i.wait c = c.delay := by
  unfold settled? at h
  unfold outcome wait RemoteCall.endsWithin
  cases hending : c.ending with
  | hangs => rw [hending] at h; cases h
  | returns r =>
    rw [hending] at h
    simp [hlt, Option.some.inj h]
  | breaksDown text =>
    rw [hending] at h
    simp [hlt, Option.some.inj h]

/-- A call that is not over at its deadline has missed it. -/
theorem outcome_of_late (h : c.ending = .hangs ∨ i.limit.nanos ≤ c.delay.nanos) :
    i.outcome c = .error (.timeout i.operation i.limit) ∧ i.wait c = i.limit := by
  have hlate : c.endsWithin i.limit = false := by
    unfold RemoteCall.endsWithin
    cases hending : c.ending with
    | hangs => rfl
    | returns | breaksDown =>
      rcases h with h | h
      · rw [hending] at h; cases h
      · simpa using h
  simp [outcome, wait, hlate]

/-! ## What a caller hears -/

/-- When the caller of a call that began at an instant is answered at the latest. -/
def last (rt : Runtime) (i : Invoker) (start : Instant) : Instant :=
  rt.maxDelay.after (rt.fires (i.limit.after start))

/-- A call that began at an instant may be over at another, with a result. -/
structure OverAt (rt : Runtime) (i : Invoker) (course : Course α) (start finish : Instant)
    (result : Except Error α) : Prop where
  settled : i.settled? course.remote = some result
  after_delay : course.remote.delay.after start ≤ finish
  le_latest : finish ≤ course.latest rt.maxDelay start

/-- The caller of a call that was over may hear of it at an instant. -/
structure HearsAt (rt : Runtime) (i : Invoker) (course : Course α) (start finish now : Instant)
    (result : Except Error α) : Prop extends OverAt rt i course start finish result where
  after_finish : finish ≤ now
  soon : now ≤ rt.maxDelay.after finish
  le_last : now ≤ i.last rt start

/-- The caller of a call that is not over may give it up at an instant. -/
structure GivesUpAt (rt : Runtime) (i : Invoker) (course : Course α) (start now : Instant) :
    Prop where
  after_limit : i.limit.after start ≤ now
  le_last : now ≤ i.last rt start
  running : course.remote.ending = .hangs ∨ now ≤ course.latest rt.maxDelay start

/-- What the caller of a call that began at an instant may be answered, and when. -/
inductive Answers (rt : Runtime) (i : Invoker) (course : Course α) (start now : Instant) :
    Except Error α → Prop
  | own {finish : Instant} {result : Except Error α}
      (hears : HearsAt rt i course start finish now result) : Answers rt i course start now result
  | timeout (gives : GivesUpAt rt i course start now) :
      Answers rt i course start now (.error (.timeout i.operation i.limit))

end Invoker

/-! ## The task -/

/-- Every call is polled once at least. -/
theorem Course.polls_pos (course : Course α) : 0 < course.polls := by
  cases course <;> exact Nat.succ_pos _

/-- A call that waits to be polled within the bound after it was woken is not over later than it may
be. -/
theorem Course.after_maxDelay_le_latest (maxDelay : Duration) (course : Course α) (wake : Instant) :
    maxDelay.after wake ≤ course.latest maxDelay wake := by
  have hpolls : 1 * maxDelay.nanos ≤ course.polls * maxDelay.nanos :=
    Nat.mul_le_mul_right _ course.polls_pos
  rw [Nat.one_mul] at hpolls
  exact Nat.add_le_add (Nat.le_add_right ..) hpolls

/-- A call that suspends again when it is polled within the bound is over no later than it might have
been, for the rest is polled once less. -/
theorem Course.latest_le_of_prompt {maxDelay : Duration} {rest rest' : Course α}
    {wake wake' : Instant} (hprompt : now ≤ maxDelay.after wake)
    (hsame : rest'.remote.delay.after wake' = rest.remote.delay.after now)
    (hpolls : rest.polls = rest'.polls + 1) :
    rest'.latest maxDelay wake' ≤ rest.latest maxDelay wake := by
  rw [latest, latest, hsame, hpolls, Nat.succ_mul]
  calc rest.remote.delay.after now + rest'.polls * maxDelay.nanos
      ≤ rest.remote.delay.after (maxDelay.after wake) + rest'.polls * maxDelay.nanos :=
        Nat.add_le_add_right (Nat.add_le_add_right hprompt _) _
    _ = rest.remote.delay.after wake + (rest'.polls * maxDelay.nanos + maxDelay.nanos) := by
        simp only [Duration.after]
        ac_rfl

/-- What polling a call comes to under guard: its result, a suspension for good, or one after which
the rest ends as the whole, if that ends. -/
theorem Course.poll_cases (hrt : rt.Documented) (i : Invoker) (now : Instant) (course : Course α) :
    (∃ out, rt.catchUnwind (course.poll now).1 = .ready out ∧ (course.poll now).2 = .done ∧
      i.settled? course.remote = some (Race.caught i out) ∧ course.remote.delay = ⟨0⟩) ∨
    (rt.catchUnwind (course.poll now).1 = .pending ∧ (course.poll now).2 = .stuck ∧
      course.remote.ending = .hangs) ∨
    ∃ wake rest, rt.catchUnwind (course.poll now).1 = .pending ∧
      (course.poll now).2 = .waiting wake rest ∧ now ≤ wake ∧
      rest.remote.ending = course.remote.ending ∧
      (course.remote.ending = .hangs ∨
        rest.remote.delay.after wake = course.remote.delay.after now ∧
          course.polls = rest.polls + 1) := by
  cases course with
  | returns result =>
    exact .inl ⟨.ok result, hrt.catchUnwind_ready _, rfl, rfl, rfl⟩
  | breaksDown payload =>
    exact .inl ⟨.error payload, hrt.catchUnwind_unwinds _, rfl, rfl, rfl⟩
  | hangs => exact .inr (.inl ⟨hrt.catchUnwind_pending, rfl, rfl⟩)
  | suspends span rest =>
    exact .inr (.inr ⟨span.after now, rest, hrt.catchUnwind_pending, rfl, Nat.le_add_right ..,
      rfl, .inr ⟨Nat.add_assoc .., rfl⟩⟩)
  | recurs spans =>
    exact .inr (.inr ⟨_, _, hrt.catchUnwind_pending, rfl, Nat.le_add_right .., rfl, .inl rfl⟩)

/-- Where the task of a call stands that began at an instant. -/
inductive Stands (rt : Runtime) (course : Course α) (start now : Instant) : CallTask α → Prop
  /-- The rest ends no sooner than the call should, and no later than it may. -/
  | waiting {wake : Instant} {rest : Course α} (prompt : now ≤ rt.maxDelay.after wake)
      (ending : rest.remote.ending = course.remote.ending)
      (span : course.remote.ending = .hangs ∨
        course.remote.delay.after start ≤ rest.remote.delay.after wake ∧
          rest.latest rt.maxDelay wake ≤ course.latest rt.maxDelay start) :
      Stands rt course start now (.waiting wake rest)
  | stuck (hangs : course.remote.ending = .hangs) : Stands rt course start now .stuck
  | done : Stands rt course start now .done

/-- A call that still runs never ends, or may still be over in time. -/
theorem Stands.hangs_or_le {task : CallTask α} (h : Stands rt course start now task)
    (hrunning : task ≠ .done) :
    course.remote.ending = .hangs ∨ now ≤ course.latest rt.maxDelay start := by
  cases h with
  | stuck hhangs => exact .inl hhangs
  | done => exact absurd rfl hrunning
  | @waiting wake rest hprompt _ hspan =>
    refine hspan.imp_right fun ⟨_, hlatest⟩ => Nat.le_trans hprompt ?_
    exact Nat.le_trans (rest.after_maxDelay_le_latest rt.maxDelay wake) hlatest

/-- A task stays where it stands while the clock goes on no further than it is polled. -/
theorem Stands.pass {task : CallTask α} (h : Stands rt course start now task)
    (hprompt : ∀ wake rest, task = .waiting wake rest → later ≤ rt.maxDelay.after wake) :
    Stands rt course start later task := by
  cases h with
  | waiting _ hending hspan => exact .waiting (hprompt _ _ rfl) hending hspan
  | stuck hhangs => exact .stuck hhangs
  | done => exact .done

/-- How often a task can go on at an instant, at most. -/
def CallTask.load (now : Instant) : CallTask α → Nat
  | .waiting wake course => if wake ≤ now then course.polls else 0
  | .stuck | .done => 0

/-- A task that has gone on can do so less often at this instant. -/
theorem Course.load_poll_lt (now : Instant) (course : Course α) :
    (course.poll now).2.load now < course.polls := by
  cases course with
  | returns | breaksDown | hangs => exact Nat.succ_pos _
  | suspends span rest =>
    by_cases h : span.after now ≤ now
    · exact Nat.lt_succ_of_le (Nat.le_of_eq (if_pos h))
    · exact Nat.lt_of_le_of_lt (Nat.le_of_eq (if_neg h)) (Nat.succ_pos _)
  | recurs spans =>
    have hlater : ¬ (spans 0).val.after now ≤ now :=
      Nat.not_le_of_lt (Nat.lt_add_of_pos_right (Duration.nanos_pos (spans 0).property))
    exact Nat.lt_of_le_of_lt (Nat.le_of_eq (if_neg hlater)) (Nat.succ_pos _)

/-- What can always do a step that lets the clock go on, or leaves less to do at the same time, can
be brought to any time. -/
theorem exists_run_of_progress {σ : Type} {step : σ → σ → Prop} (good : σ → Prop)
    (clock : σ → Instant) (load : σ → Nat) (bound : Instant)
    (progress : ∀ s, good s → clock s < bound → ∃ s', step s s' ∧ good s' ∧
      (clock s < clock s' ∨ clock s' = clock s ∧ load s' < load s)) (s : σ) (h : good s) :
    ∃ s', Relation.ReflTransGen step s s' ∧ good s' ∧ bound ≤ clock s' := by
  by_cases hthere : bound ≤ clock s
  · exact ⟨s, .refl, h, hthere⟩
  have hearly : clock s < bound := Nat.lt_of_not_le hthere
  obtain ⟨s', hstep, hgood, hless⟩ := progress s h hearly
  obtain ⟨s'', hrun, hend⟩ := exists_run_of_progress good clock load bound progress s' hgood
  exact ⟨s'', .head hstep hrun, hend⟩
termination_by (bound - clock s, load s)
decreasing_by
  rcases hless with hlater | ⟨hsame, hless⟩
  · exact .left _ _ (Nat.sub_lt_sub_left hearly hlater)
  · rw [hsame]
    exact .right _ hless

namespace Race

variable {r : Race rt α}

/-! ## What the parts of a race do -/

/-- A task that was woken is polled. -/
theorem poll_of_due {wake : Instant} {rest : Course α} (htask : r.task = .waiting wake rest)
    (hdue : wake ≤ now) :
    r.poll i now =
      settle i now (rt.catchUnwind (rest.poll now).1) { r with task := (rest.poll now).2 } := by
  rw [poll, htask]
  exact if_neg (Nat.not_lt_of_le hdue)

/-- A task that was not woken, or never will, stays as it is. -/
theorem poll_of_not_due (h : ∀ wake rest, r.task = .waiting wake rest → now < wake) :
    r.poll i now = r := by
  unfold poll
  split
  · rfl
  · rfl
  · next wake rest htask => exact if_pos (h wake rest htask)

/-- What the task does with what comes of polling leaves alone which call it is, and the caller. -/
theorem settle_fixed (i : Invoker) (now : Instant) (p : Poll (Except Payload (Except Error α)))
    (r : Race rt α) :
    (settle i now p r).start = r.start ∧ (settle i now p r).course = r.course ∧
      (settle i now p r).waiting = r.waiting ∧ (settle i now p r).heard = r.heard ∧
      (settle i now p r).task = r.task := by
  cases p <;> exact ⟨rfl, rfl, rfl, rfl, rfl⟩

/-- Polling the task leaves alone which call it is, and the caller. -/
theorem poll_fixed (i : Invoker) (now : Instant) (r : Race rt α) :
    (r.poll i now).start = r.start ∧ (r.poll i now).course = r.course ∧
      (r.poll i now).waiting = r.waiting ∧ (r.poll i now).heard = r.heard := by
  by_cases hdue : ∃ wake rest, r.task = .waiting wake rest ∧ wake ≤ now
  · obtain ⟨wake, rest, htask, hle⟩ := hdue
    rw [poll_of_due htask hle]
    obtain ⟨hstart, hcourse, hwaiting, hheard, -⟩ :=
      settle_fixed i now (rt.catchUnwind (rest.poll now).1) { r with task := (rest.poll now).2 }
    exact ⟨hstart, hcourse, hwaiting, hheard⟩
  · rw [poll_of_not_due fun wake rest htask =>
      Nat.lt_of_not_le fun hle => hdue ⟨wake, rest, htask, hle⟩]
    exact ⟨rfl, rfl, rfl, rfl⟩

/-- A look leaves alone which call it is, and the task. -/
theorem look_fixed (i : Invoker) (now : Instant) (r : Race rt α) :
    (r.look i now).start = r.start ∧ (r.look i now).course = r.course ∧
      (r.look i now).task = r.task := by
  unfold look
  split
  · split <;> exact ⟨rfl, rfl, rfl⟩
  · exact ⟨rfl, rfl, rfl⟩

/-- A caller that sees something stops waiting. -/
theorem look_of_ready (hwaiting : r.waiting = true) (hsees : r.listen i now = .ready answer) :
    r.look i now =
      { r with
        waiting := false
        channel := rt.dropReceiver r.channel
        heard := r.heard ++ [(now, .ready answer)] } := by
  rw [look, if_pos hwaiting, hsees]

/-- A caller that sees nothing goes on waiting. -/
theorem look_of_pending (hsees : r.listen i now = .pending) : r.look i now = r := by
  rw [look, hsees]
  exact ite_self _

/-- A caller that has its answer does not look again. -/
theorem look_of_not_waiting (h : r.waiting = false) : r.look i now = r := by
  rw [look, h]
  rfl

/-- What a caller sees while the channel is as it was: nothing, or the timeout when the time is
over. -/
theorem listen_of_empty (hrt : rt.Documented) (i : Invoker) (now : Instant)
    (hchannel : r.channel = rt.channel) :
    (r.listen i now = .pending ∧ now < rt.fires (i.limit.after r.start)) ∨
      r.listen i now = .ready (.error (.timeout i.operation i.limit)) ∧
        i.limit.after r.start ≤ now := by
  have hreceive : rt.receive r.channel = .pending := by rw [hchannel, hrt.receive_channel]
  rw [listen, hreceive]
  rcases hrt.timeout_pending (β := Except RecvError (Except Error α)) r.start i.limit now with
    hpending | hover
  · refine .inl ⟨by rw [hpending], Nat.lt_of_not_le fun hfired => ?_⟩
    cases hpending.symm.trans (hrt.timeout_fired hfired)
  · refine .inr ⟨by rw [hover], Nat.le_of_not_lt fun hearly => ?_⟩
    cases (hrt.timeout_early hearly).symm.trans hover

/-- What a caller sees when the result was sent, at any time. -/
theorem listen_of_sent (hrt : rt.Documented)
    (hchannel : r.channel = (rt.send result rt.channel).2) : r.listen i now = .ready result := by
  obtain ⟨-, hreceive⟩ := hrt.send_channel result
  rw [listen, hchannel, hreceive, hrt.timeout_ready]

/-! ## Stages -/

/-- How far a race is. -/
inductive Stage (i : Invoker) (now : Instant) (r : Race rt α) : Prop
  /-- The call runs and the caller waits. -/
  | runs (task : r.task ≠ .done) (waiting : r.waiting = true) (channel : r.channel = rt.channel)
      (settled : r.settled = none) (heard : r.heard = []) (discarded : r.discarded = [])
      (le_last : now ≤ i.last rt r.start)
  /-- The call is over, and its result is in the channel. -/
  | sent {finish : Instant} {result : Except Error α} (task : r.task = .done)
      (waiting : r.waiting = true) (channel : r.channel = (rt.send result rt.channel).2)
      (settled : r.settled = some finish) (heard : r.heard = []) (discarded : r.discarded = [])
      (hears : i.HearsAt rt r.course r.start finish now result)
  /-- The caller has the result. -/
  | told {finish seen : Instant} {result : Except Error α} (task : r.task = .done)
      (waiting : r.waiting = false) (settled : r.settled = some finish)
      (heard : r.heard = [(seen, .ready result)]) (discarded : r.discarded = [])
      (hears : i.HearsAt rt r.course r.start finish seen result)
  /-- The caller has given up, and the call runs. -/
  | missed {seen : Instant} (task : r.task ≠ .done) (waiting : r.waiting = false)
      (channel : r.channel = rt.dropReceiver rt.channel) (settled : r.settled = none)
      (heard : r.heard = [(seen, .ready (.error (.timeout i.operation i.limit)))])
      (discarded : r.discarded = []) (gives : i.GivesUpAt rt r.course r.start seen)
      (le_now : seen ≤ now)
  /-- The caller has given up, and the result is lost. -/
  | lost {seen finish : Instant} {result : Except Error α} (task : r.task = .done)
      (waiting : r.waiting = false) (settled : r.settled = some finish)
      (heard : r.heard = [(seen, .ready (.error (.timeout i.operation i.limit)))])
      (discarded : r.discarded = [result]) (gives : i.GivesUpAt rt r.course r.start seen)
      (le_finish : seen ≤ finish) (ended : i.OverAt rt r.course r.start finish result)

/-- A race as it should be at an instant. -/
structure Sound (i : Invoker) (now : Instant) (r : Race rt α) : Prop where
  task : Stands rt r.course r.start now r.task
  stage : r.Stage i now

/-- A call that begins is as it should be. -/
theorem sound_spawn (hrt : rt.Documented) (i : Invoker) (course : Course α) (start : Instant) :
    (spawn rt course start).Sound i start where
  task := .waiting (Nat.le_add_right ..) rfl (.inr ⟨Nat.le_refl _, Nat.le_refl _⟩)
  stage := by
    refine .runs nofun rfl rfl rfl rfl rfl ?_
    calc start ≤ i.limit.after start := Nat.le_add_right ..
      _ ≤ rt.fires (i.limit.after start) := hrt.le_fires _
      _ ≤ i.last rt start := Nat.le_add_right ..

/-- A caller waits no longer than it may. -/
theorem Sound.le_last (h : r.Sound i now) (hwaiting : r.waiting = true) :
    now ≤ i.last rt r.start := by
  cases h.stage with
  | runs _ _ _ _ _ _ hlast => exact hlast
  | sent _ _ _ _ _ _ hhears => exact hhears.le_last
  | told _ hdone | missed _ hdone | lost _ hdone => cases hwaiting.symm.trans hdone

/-- A caller that waits sees nothing, or an answer that it should get. -/
theorem Sound.listen_cases (hrt : rt.Documented) (h : r.Sound i now) (hwaiting : r.waiting = true) :
    r.listen i now = .pending ∨
      ∃ answer, r.listen i now = .ready answer ∧ i.Answers rt r.course r.start now answer := by
  cases h.stage with
  | runs htask _ hchannel _ _ _ hlast =>
    rcases listen_of_empty hrt i now hchannel with ⟨hsees, -⟩ | ⟨hsees, hlimit⟩
    · exact .inl hsees
    · exact .inr ⟨_, hsees, .timeout ⟨hlimit, hlast, h.task.hangs_or_le htask⟩⟩
  | sent _ _ hchannel _ _ _ hhears => exact .inr ⟨_, listen_of_sent hrt hchannel, .own hhears⟩
  | told _ hdone | missed _ hdone | lost _ hdone => cases hwaiting.symm.trans hdone

/-! ### The task is polled -/

/-- A task that goes on, and is not over by that, keeps a race at its stage. -/
theorem Sound.goesOn (h : r.Sound i now) {task : CallTask α} (hbefore : r.task ≠ .done)
    (hstands : Stands rt r.course r.start now task) (hafter : task ≠ .done) :
    Sound i now { r with task } where
  task := hstands
  stage := by
    cases h.stage with
    | runs _ hwaiting hchannel hsettled hheard hdiscarded hlast =>
      exact .runs hafter hwaiting hchannel hsettled hheard hdiscarded hlast
    | missed _ hwaiting hchannel hsettled hheard hdiscarded hgives hnow =>
      exact .missed hafter hwaiting hchannel hsettled hheard hdiscarded hgives hnow
    | sent hdone | told hdone | lost hdone => exact absurd hdone hbefore

/-- A task that is over now sends its result: to the caller that waits, or in vain. -/
theorem Sound.send (hrt : rt.Documented) (h : r.Sound i now) (hbefore : r.task ≠ .done)
    (hover : i.OverAt rt r.course r.start now result) :
    (Race.send now result { r with task := .done }).Sound i now where
  task := .done
  stage := by
    cases h.stage with
    | runs _ hwaiting hchannel _ hheard hdiscarded hlast =>
      obtain ⟨hkept, -⟩ := hrt.send_channel result
      refine .sent rfl hwaiting ?_ rfl hheard ?_
        ⟨hover, Nat.le_refl _, Nat.le_add_right .., hlast⟩
      · simp only [Race.send, hchannel]
      · simp only [Race.send, hchannel, hkept, hdiscarded, Option.toList_none, List.append_nil]
    | missed _ hwaiting hchannel _ hheard hdiscarded hgives hnow =>
      refine .lost rfl hwaiting rfl hheard ?_ hgives hnow hover
      simp only [Race.send, hchannel, hrt.send_dropReceiver, hdiscarded, Option.toList_some,
        List.nil_append]
    | sent hdone | told hdone | lost hdone => exact absurd hdone hbefore

/-- Polling the task keeps a race sound. -/
theorem Sound.poll (hrt : rt.Documented) (h : r.Sound i now) : (r.poll i now).Sound i now := by
  by_cases hdue : ∃ wake rest, r.task = .waiting wake rest ∧ wake ≤ now
  case neg =>
    rw [poll_of_not_due fun wake rest htask =>
      Nat.lt_of_not_le fun hle => hdue ⟨wake, rest, htask, hle⟩]
    exact h
  obtain ⟨wake, rest, htask, hle⟩ := hdue
  have hbefore : r.task ≠ .done := by
    rw [htask]
    nofun
  have hstands := h.task
  rw [htask] at hstands
  obtain ⟨hprompt, hending, hspan⟩ := hstands
  rw [poll_of_due htask hle]
  rcases rest.poll_cases hrt i now with ⟨out, hcaught, htask', hsettled, hdelay⟩ |
    ⟨hcaught, htask', hhangs⟩ | ⟨wake', rest', hcaught, htask', hle', hending', hspan'⟩
  · rw [hcaught, htask']
    rw [Invoker.settled?_congr hending] at hsettled
    obtain ⟨hafter, hlatest⟩ := hspan.resolve_left (Invoker.ends_of_settled hsettled)
    refine h.send hrt hbefore ⟨hsettled, ?_, ?_⟩
    · refine Nat.le_trans hafter ?_
      rw [hdelay]
      exact hle
    · refine Nat.le_trans hprompt (Nat.le_trans ?_ hlatest)
      exact rest.after_maxDelay_le_latest rt.maxDelay wake
  · rw [hcaught, htask']
    exact h.goesOn hbefore (.stuck (hending.symm.trans hhangs)) nofun
  · rw [hcaught, htask']
    refine h.goesOn hbefore (.waiting (Nat.le_trans hle' (Nat.le_add_right ..))
      (hending'.trans hending) ?_) nofun
    rcases hspan, hspan' with ⟨hhangs | ⟨hafter, hlatest⟩, hhangs' | ⟨hsame, hpolls⟩⟩
    · exact .inl hhangs
    · exact .inl hhangs
    · exact .inl (hending.symm.trans hhangs')
    · refine .inr ⟨?_, Nat.le_trans ?_ hlatest⟩
      · rw [hsame]
        exact Nat.le_trans hafter (Nat.add_le_add_right hle _)
      · -- The poll came within the bound after the waking, so the rest has one bound less to go.
        exact Course.latest_le_of_prompt hprompt hsame hpolls

/-! ### The caller looks -/

/-- A look keeps a race sound. -/
theorem Sound.look (hrt : rt.Documented) (h : r.Sound i now) : (r.look i now).Sound i now := by
  cases h.stage with
  | told _ hdone | missed _ hdone | lost _ hdone =>
    rw [look_of_not_waiting hdone]
    exact h
  | sent htask hwaiting hchannel hsettled hheard hdiscarded hhears =>
    rw [look_of_ready hwaiting (listen_of_sent hrt hchannel)]
    refine ⟨h.task, .told htask rfl hsettled ?_ hdiscarded hhears⟩
    rw [hheard, List.nil_append]
  | runs htask hwaiting hchannel hsettled hheard hdiscarded hlast =>
    rcases listen_of_empty hrt i now hchannel with ⟨hsees, -⟩ | ⟨hsees, hlimit⟩
    · rw [look_of_pending hsees]
      exact h
    · rw [look_of_ready hwaiting hsees]
      refine ⟨h.task, .missed htask rfl ?_ hsettled ?_ hdiscarded
        ⟨hlimit, hlast, h.task.hangs_or_le htask⟩ (Nat.le_refl _)⟩
      · rw [hchannel]
      · rw [hheard, List.nil_append]

/-! ### The clock goes on -/

/-- The instant at which a task is woken that waits. -/
theorem mem_wakes_of_task {wake : Instant} {rest : Course α} (h : r.task = .waiting wake rest) :
    wake ∈ r.wakes i := by
  rw [wakes, h]
  exact List.mem_cons_self

/-- A caller that waits is woken when the timer fires, and when the task has left the channel. -/
theorem mem_wakes_of_waiting (h : r.waiting = true) :
    rt.fires (i.limit.after r.start) ∈ r.wakes i ∧ ∀ finish ∈ r.settled, finish ∈ r.wakes i := by
  rw [wakes, if_pos h]
  refine ⟨List.mem_append_right _ List.mem_cons_self, fun finish hsettled => ?_⟩
  exact List.mem_append_right _ (List.mem_cons_of_mem _ (Option.mem_toList.2 hsettled))

/-- A race stays sound while the clock goes on, if what is woken is polled within the bound. -/
theorem Sound.pass (h : r.Sound i now) (hle : now ≤ later)
    (hprompt : ∀ wake ∈ r.wakes i, later ≤ rt.maxDelay.after wake) : r.Sound i later where
  task := h.task.pass fun _ _ htask => hprompt _ (mem_wakes_of_task htask)
  stage := by
    cases h.stage with
    | runs htask hwaiting hchannel hsettled hheard hdiscarded =>
      obtain ⟨hfires, -⟩ := mem_wakes_of_waiting (i := i) hwaiting
      exact .runs htask hwaiting hchannel hsettled hheard hdiscarded (hprompt _ hfires)
    | sent htask hwaiting hchannel hsettled hheard hdiscarded hhears =>
      obtain ⟨hfires, hwoken⟩ := mem_wakes_of_waiting (i := i) hwaiting
      exact .sent htask hwaiting hchannel hsettled hheard hdiscarded
        ⟨hhears.toOverAt, Nat.le_trans hhears.after_finish hle,
          hprompt _ (hwoken _ hsettled), hprompt _ hfires⟩
    | told htask hwaiting hsettled hheard hdiscarded hhears =>
      exact .told htask hwaiting hsettled hheard hdiscarded hhears
    | missed htask hwaiting hchannel hsettled hheard hdiscarded hgives hnow =>
      exact .missed htask hwaiting hchannel hsettled hheard hdiscarded hgives
        (Nat.le_trans hnow hle)
    | lost htask hwaiting hsettled hheard hdiscarded hgives hfinish hover =>
      exact .lost htask hwaiting hsettled hheard hdiscarded hgives hfinish hover

/-- A step keeps a race sound, and which call it is. -/
theorem Sound.step (hrt : rt.Documented) {s s' : Instant × Race rt α} (h : s.2.Sound i s.1)
    (hstep : Step i s s') :
    s'.2.Sound i s'.1 ∧ s'.2.start = s.2.start ∧ s'.2.course = s.2.course := by
  cases hstep with
  | poll now r =>
    obtain ⟨hstart, hcourse, -⟩ := r.poll_fixed i now
    exact ⟨h.poll hrt, hstart, hcourse⟩
  | look now r =>
    obtain ⟨hstart, hcourse, -⟩ := r.look_fixed i now
    exact ⟨h.look hrt, hstart, hcourse⟩
  | pass hpass => exact ⟨h.pass (hrt.le_of_passes hpass) (hrt.prompt hpass), rfl, rfl⟩

/-- A run keeps a race sound, and which call it is. -/
theorem Sound.run (hrt : rt.Documented) {s s' : Instant × Race rt α} (h : s.2.Sound i s.1)
    (hrun : Run i s s') :
    s'.2.Sound i s'.1 ∧ s'.2.start = s.2.start ∧ s'.2.course = s.2.course := by
  induction hrun with
  | refl => exact ⟨h, rfl, rfl⟩
  | tail _ hstep ih =>
    obtain ⟨hsound, hstart, hcourse⟩ := ih
    obtain ⟨hsound', hstart', hcourse'⟩ := hsound.step hrt hstep
    exact ⟨hsound', hstart'.trans hstart, hcourse'.trans hcourse⟩

/-- What a caller got stays. -/
theorem heard_prefix_of_run {s s' : Instant × Race rt α} (hrun : Run i s s') :
    s.2.heard <+: s'.2.heard := by
  induction hrun with
  | refl => exact List.prefix_rfl
  | tail _ hstep ih =>
    refine ih.trans ?_
    cases hstep with
    | poll now r =>
      obtain ⟨-, -, -, hheard⟩ := r.poll_fixed i now
      exact hheard ▸ List.prefix_rfl
    | look now r =>
      change r.heard <+: (r.look i now).heard
      unfold look
      split
      · split
        · exact List.prefix_rfl
        · exact List.prefix_append ..
      · exact List.prefix_rfl
    | pass => exact List.prefix_rfl

/-! ## What a race has come to -/

/-- What a race has come to at an instant, as it should. -/
structure Conforms (i : Invoker) (now : Instant) (r : Race rt α) : Prop where
  /-- The caller has no answer yet, and time for it, or it has one. -/
  heard : r.heard = [] ∧ now ≤ i.last rt r.start ∨
    ∃ seen answer, r.heard = [(seen, .ready answer)] ∧ i.Answers rt r.course r.start seen answer
  /-- If the call was over before its deadline, what came of it is the answer. If it was over after
  its caller was answered, what came of it is lost. -/
  ended : ∀ finish ∈ r.settled, ∃ result, i.OverAt rt r.course r.start finish result ∧
    (finish < i.limit.after r.start → r.discarded = [] ∧ ∀ x ∈ r.heard, x.2 = .ready result) ∧
    ∀ x ∈ r.heard, x.1 < finish → r.discarded = [result]
  /-- A caller that was answered when the call was not over has got the timeout. -/
  timeout : ∀ x ∈ r.heard, (∀ finish ∈ r.settled, x.1 < finish) →
    x.2 = .ready (.error (.timeout i.operation i.limit))
  /-- A call that ends is over in time, whether anyone waits for it or not. -/
  ends : r.course.remote.ending ≠ .hangs → r.course.latest rt.maxDelay r.start < now →
    r.settled.isSome

/-- A sound race has come to what it should. -/
theorem Sound.conforms (h : r.Sound i now) : r.Conforms i now := by
  have hends (htask : r.task ≠ .done) (hends : r.course.remote.ending ≠ .hangs)
      (hlate : r.course.latest rt.maxDelay r.start < now) : r.settled.isSome :=
    absurd ((h.task.hangs_or_le htask).resolve_left hends) (Nat.not_le_of_lt hlate)
  cases h.stage with
  | runs htask hwaiting hchannel hsettled hheard hdiscarded hlast =>
    refine ⟨.inl ⟨hheard, hlast⟩, ?_, ?_, hends htask⟩
    · simp [hsettled]
    · simp [hheard]
  | @sent finish result htask hwaiting hchannel hsettled hheard hdiscarded hhears =>
    refine ⟨.inl ⟨hheard, hhears.le_last⟩, fun finish' hfinish' => ?_, ?_, fun _ _ => ?_⟩
    · obtain rfl := Option.some.inj (hsettled.symm.trans hfinish')
      exact ⟨result, hhears.toOverAt, fun _ => ⟨hdiscarded, by simp [hheard]⟩, by simp [hheard]⟩
    · simp [hheard]
    · simp [hsettled]
  | @told finish seen result htask hwaiting hsettled hheard hdiscarded hhears =>
    have hseen : ¬ seen < finish := Nat.not_lt_of_le hhears.after_finish
    refine ⟨.inr ⟨seen, result, hheard, .own hhears⟩, fun finish' hfinish' => ?_,
      fun x hx hlate => ?_, fun _ _ => ?_⟩
    · obtain rfl := Option.some.inj (hsettled.symm.trans hfinish')
      refine ⟨result, hhears.toOverAt, fun _ => ⟨hdiscarded, by simp [hheard]⟩, fun x hx hlt => ?_⟩
      obtain rfl := List.mem_singleton.1 (hheard ▸ hx)
      exact absurd hlt hseen
    · obtain rfl := List.mem_singleton.1 (hheard ▸ hx)
      exact absurd (hlate finish hsettled) hseen
    · simp [hsettled]
  | missed htask hwaiting hchannel hsettled hheard hdiscarded hgives =>
    refine ⟨.inr ⟨_, _, hheard, .timeout hgives⟩, ?_, fun x hx _ => ?_, hends htask⟩
    · simp [hsettled]
    · rw [hheard, List.mem_singleton] at hx
      rw [hx]
  | @lost seen finish result htask hwaiting hsettled hheard hdiscarded hgives hfinish hover =>
    refine ⟨.inr ⟨_, _, hheard, .timeout hgives⟩, fun finish' hfinish' => ?_, fun x hx _ => ?_,
      fun _ _ => ?_⟩
    · obtain rfl := Option.some.inj (hsettled.symm.trans hfinish')
      have hlate : ¬ finish < i.limit.after r.start :=
        Nat.not_lt_of_le (Nat.le_trans hgives.after_limit hfinish)
      exact ⟨result, hover, fun hlt => absurd hlt hlate, fun _ _ _ => hdiscarded⟩
    · rw [hheard, List.mem_singleton] at hx
      rw [hx]
    · simp [hsettled]

/-! ## The end of a race -/

/-- What there is to do at an instant, at most. -/
def load (now : Instant) (r : Race rt α) : Nat := r.task.load now + r.waiting.toNat

/-- A task that was woken has less to do when it was polled. -/
theorem load_poll_lt {wake : Instant} {rest : Course α} (htask : r.task = .waiting wake rest)
    (hdue : wake ≤ now) : (r.poll i now).load now < r.load now := by
  have hload : r.task.load now = rest.polls := by
    rw [htask]
    exact if_pos hdue
  rw [poll_of_due htask hdue]
  obtain ⟨-, -, hwaiting, -, htask'⟩ :=
    settle_fixed i now (rt.catchUnwind (rest.poll now).1) { r with task := (rest.poll now).2 }
  rw [load, load, htask', hwaiting, hload]
  exact Nat.add_lt_add_right (rest.load_poll_lt now) _

/-- A caller that sees its answer has nothing more to do. -/
theorem load_look_lt (hwaiting : r.waiting = true) (hsees : r.listen i now = .ready answer) :
    (r.look i now).load now < r.load now := by
  rw [look_of_ready hwaiting hsees, load, load, hwaiting]
  exact Nat.lt_succ_self _

/-- Either nothing is woken yet, or the task goes on when it is polled, or the caller that looks gets
its answer. -/
theorem Sound.idle_or_useful (hrt : rt.Documented) (h : r.Sound i now) :
    (∀ wake ∈ r.wakes i, now < wake) ∨ (r.poll i now).load now < r.load now ∨
      r.waiting = true ∧ ∃ answer, r.listen i now = .ready answer := by
  by_cases hidle : ∀ wake ∈ r.wakes i, now < wake
  · exact .inl hidle
  obtain ⟨wake, hwake, hle⟩ : ∃ wake ∈ r.wakes i, wake ≤ now := by simpa using hidle
  rcases List.mem_append.1 hwake with htask | hcaller
  · cases hr : r.task with
    | waiting wake' rest =>
      rw [hr, List.mem_singleton] at htask
      exact .inr (.inl (load_poll_lt hr (htask ▸ hle)))
    | stuck | done =>
      rw [hr] at htask
      cases htask
  have hwaiting : r.waiting = true := Bool.of_not_eq_false fun hdone => by
    rw [hdone] at hcaller
    cases hcaller
  refine .inr (.inr ⟨hwaiting, ?_⟩)
  cases h.stage with
  | told _ hdone | missed _ hdone | lost _ hdone => cases hwaiting.symm.trans hdone
  | sent _ _ hchannel => exact ⟨_, listen_of_sent hrt hchannel⟩
  | runs _ _ hchannel hsettled =>
    rw [if_pos hwaiting, hsettled, Option.toList_none, List.mem_singleton] at hcaller
    rcases listen_of_empty hrt i now hchannel with ⟨-, hearly⟩ | ⟨hsees, -⟩
    · exact absurd (hcaller ▸ hle) (Nat.not_le_of_lt hearly)
    · exact ⟨_, hsees⟩

/-- The clock can go on, or something is left to do. -/
theorem Sound.exists_progress (hrt : rt.Documented) {s : Instant × Race rt α}
    (h : s.2.Sound i s.1) :
    ∃ s', Step i s s' ∧ s'.2.Sound i s'.1 ∧
      (s.1 < s'.1 ∨ s'.1 = s.1 ∧ s'.2.load s'.1 < s.2.load s.1) := by
  obtain ⟨now, r⟩ := s
  rcases h.idle_or_useful hrt with hidle | hpoll | ⟨hwaiting, answer, hsees⟩
  · have hpass : Step i (now, r) (now + 1, r) := .pass (hrt.passes_of_idle (Nat.le_succ now) hidle)
    exact ⟨_, hpass, (h.step hrt hpass).1, .inl (Nat.lt_succ_self now)⟩
  · exact ⟨_, .poll now r, h.poll hrt, .inr ⟨rfl, hpoll⟩⟩
  · exact ⟨_, .look now r, h.look hrt, .inr ⟨rfl, load_look_lt hwaiting hsees⟩⟩

/-- Every race can be brought to any time. -/
theorem Sound.exists_run (hrt : rt.Documented) (h : r.Sound i now) (bound : Instant) :
    ∃ later r', Run i (now, r) (later, r') ∧ bound ≤ later := by
  obtain ⟨⟨later, r'⟩, hrun, -, hle⟩ :=
    exists_run_of_progress (fun s : Instant × Race rt α => s.2.Sound i s.1) Prod.fst
      (fun s => s.2.load s.1) bound (fun _ hs _ => hs.exists_progress hrt) (now, r) h
  exact ⟨later, r', hrun, hle⟩

end Race

/-! ## Answers -/

namespace Invoker

/-- An answer comes within the limit, up to the bounds of the runtime. -/
theorem last_le (hrt : rt.Documented) (i : Invoker) (start : Instant) :
    i.last rt start ≤ rt.maxDelay.after (rt.granularity.after (i.limit.after start)) :=
  Nat.add_le_add_right (hrt.fires_le _) _

/-- No answer comes later than it may. -/
theorem Answers.le_last (h : i.Answers rt course start now answer) : now ≤ i.last rt start := by
  cases h with
  | own hhears => exact hhears.le_last
  | timeout hgives => exact hgives.le_last

/-- A call that is over before its deadline, however late it is polled, is answered by what came of
it. -/
theorem Answers.settled (h : i.Answers rt course start now answer)
    (hends : course.remote.ending ≠ .hangs)
    (hlt : course.latest rt.maxDelay start < i.limit.after start) :
    i.settled? course.remote = some answer := by
  cases h with
  | own hhears => exact hhears.settled
  | timeout hgives =>
    exact absurd (Nat.le_trans hgives.after_limit (hgives.running.resolve_left hends))
      (Nat.not_le_of_lt hlt)

/-- A call that never ends, or ends when its caller must have its answer, is answered by the
timeout. -/
theorem Answers.eq_timeout (h : i.Answers rt course start now answer)
    (hlate : course.remote.ending = .hangs ∨
      i.last rt start < course.remote.delay.after start) :
    answer = .error (.timeout i.operation i.limit) ∧ i.limit.after start ≤ now := by
  cases h with
  | timeout hgives => exact ⟨rfl, hgives.after_limit⟩
  | own hhears =>
    rcases hlate with hhangs | hlt
    · exact absurd hhangs (ends_of_settled hhears.settled)
    · exact absurd (Nat.le_trans hhears.after_delay
        (Nat.le_trans hhears.after_finish hhears.le_last)) (Nat.not_le_of_lt hlt)

/-- Where timers are exact and tasks are polled at once, a call is answered by its outcome when the
wait for it is over. -/
theorem Answers.exact (h : i.Answers rt course start now answer) (hdelay : rt.maxDelay = ⟨0⟩)
    (hfires : rt.fires (i.limit.after start) = i.limit.after start)
    (hdecides : i.Decides course.remote) :
    now = (i.wait course.remote).after start ∧ answer = i.outcome course.remote := by
  have hlast : i.last rt start = i.limit.after start := by
    rw [last, hfires, hdelay]
    rfl
  have hlatest : course.latest rt.maxDelay start = course.remote.delay.after start := by
    rw [Course.latest, hdelay, Nat.mul_zero]
    rfl
  cases h with
  | @own finish _ hhears =>
    have hfinish : finish = course.remote.delay.after start :=
      Nat.le_antisymm (hlatest ▸ hhears.le_latest) hhears.after_delay
    have hnow : now = finish := by
      have hsoon := hhears.soon
      rw [hdelay] at hsoon
      exact Nat.le_antisymm hsoon hhears.after_finish
    have hle : course.remote.delay.nanos ≤ i.limit.nanos := by
      have hwithin := hhears.le_last
      rw [hlast, hnow, hfinish] at hwithin
      exact Nat.le_of_add_le_add_left hwithin
    have hlt : course.remote.delay.nanos < i.limit.nanos :=
      Nat.lt_of_le_of_ne hle fun hsame =>
        ends_of_settled hhears.settled (hdecides (congrArg Duration.mk hsame))
    obtain ⟨houtcome, hwait⟩ := outcome_of_settled hhears.settled hlt
    rw [houtcome, hwait, hnow, hfinish]
    exact ⟨rfl, rfl⟩
  | timeout hgives =>
    have hnow : now = i.limit.after start :=
      Nat.le_antisymm (hlast ▸ hgives.le_last) hgives.after_limit
    have hlate : course.remote.ending = .hangs ∨ i.limit.nanos ≤ course.remote.delay.nanos := by
      refine hgives.running.imp_right fun hle => ?_
      rw [hlatest, hnow] at hle
      exact Nat.le_of_add_le_add_left hle
    obtain ⟨houtcome, hwait⟩ := outcome_of_late hlate
    rw [houtcome, hwait, hnow]
    exact ⟨rfl, rfl⟩

end Invoker

end AccessGate
