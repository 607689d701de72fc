import AccessGate.Proofs.Gate.Course
import AccessGate.Proofs.Gate.Revocation

/-!
# When the validator is asked

A request asks the validator at most once, and it does so exactly when it arrives well formed while
authorization is on, its scan of the cache is a miss, and the breaker lets it through
(`World.asked_exactly`). What it asks about is its credential (`Gate.remote_authorize_logged`). What
it does not need it does not touch: a request that goes no further than its arrival leaves the cache
and the breaker alone, one that the cache answers leaves the breaker alone, and so its principal is
decided on whatever state the breaker is in.
-/

namespace AccessGate

/-! ## One step -/

namespace Gate

variable {g : Gate} {r : Request} {now : Moment} {q : Progress} {n : Nat}

/-- A request asks the validator when the breaker lets it through, at once or after it was moved
on. -/
theorem asking_step_iff (hq : q.inFlight = false) :
    (g.step r now q).1 = .asking n ↔
      (q = .missed ∧ g.breaker.state.glance g.breaker.settings now.instant = .pass n) ∨
        (q = .elapsed ∧ (g.breaker.state.moveOn g.breaker.settings now.instant).1 = some n) := by
  have hcounted (g : Gate) (generation : Option Nat) :
      (g.counted generation).1 = .asking n ↔ generation = some n := by
    cases generation <;> simp [counted, Breaker.count]
  cases q with
  | asking | answered | replied => cases hq
  | arrived =>
    simp only [step]
    split
    · simp
    · cases g.refusal? r <;> simp
  | scanned found instant =>
    simp only [step]
    cases found.answer <;> simp
  | missed =>
    simp only [step]
    cases g.breaker.state.glance g.breaker.settings now.instant <;> simp [hcounted]
  | elapsed => simp [step, hcounted]
  | accepted | identified | decided | ended => simp [step]

end Gate

namespace World

variable {w : World} {events past past' more : List (Moment × Event)} {now now' : Moment}
  {e : Event} {i : Nat} {r : Request} {q : Progress} {p : Principal}

/-! ## Asking the validator -/

/-- In a run, the breaker let a request through. -/
def LetThrough (w : World) (events : List (Moment × Event)) (i : Nat) (r : Request) : Prop :=
  ∃ past now n,
    (Took w events past now i r .missed ∧
      (w.run past).gate.breaker.state.glance (w.run past).gate.breaker.settings now.instant =
        .pass n) ∨
    (Took w events past now i r .elapsed ∧
      ((w.run past).gate.breaker.state.moveOn (w.run past).gate.breaker.settings
        now.instant).1 = some n)

/-- An event asks the validator exactly if it is the step of a request that comes to asking by it.
-/
theorem asks?_eq_some_iff :
    w.asks? now e = some i ↔
      e = .step i ∧ ∃ r q n, w.requests[i]? = some (r, q) ∧ q.inFlight = false ∧
        (w.gate.step r now q).1 = .asking n := by
  cases e with
  | step k =>
    simp only [asks?]
    constructor
    · intro h
      cases hk : w.requests[k]? with
      | none => rw [hk] at h; cases h
      | some request =>
        obtain ⟨r, q⟩ := request
        rw [hk] at h
        simp only at h
        split at h
        · cases h
        · next hq =>
          split at h
          · next n hn =>
            obtain rfl := Option.some.inj h
            exact ⟨rfl, r, q, n, hk, by simpa using hq, hn⟩
          · cases h
    · rintro ⟨hk, r, q, n, hget, hq, hn⟩
      obtain rfl := Event.step.inj hk
      simp [hget, hq, hn]
  | request | answer | upkeep | tend | probe | clearCache | invalidate | registerScope
  | unregisterScope | resetBreaker => simp [asks?]

/-- The requests that ask the validator are those that take a step which leads there. -/
theorem mem_asked_iff :
    i ∈ w.asked events ↔ ∃ past now r q n, Took w events past now i r q ∧ q.inFlight = false ∧
      ((w.run past).gate.step r now q).1 = .asking n := by
  induction events using List.reverseRecOn with
  | nil => simp [asked, not_took_nil]
  | append_singleton events e ih =>
    rw [asked_concat, List.mem_append, ih, Option.mem_toList, asks?_eq_some_iff]
    simp only [took_concat_iff, or_and_right, exists_or]
    refine or_congr_right ⟨?_, ?_⟩
    · rintro ⟨he, r, q, n, hstood, hasks⟩
      exact ⟨events, e.1, r, q, n, ⟨rfl, Prod.ext rfl he, hstood⟩, hasks⟩
    · rintro ⟨past, now, r, q, n, ⟨rfl, rfl, hstood⟩, hasks⟩
      exact ⟨rfl, r, q, n, hstood, hasks⟩

/-- A request that asks the validator has not asked before. -/
theorem not_mem_asked (h : (w.run events).asks? now e = some i) : i ∉ w.asked events := by
  intro hmem
  obtain ⟨past, now', r', q', n', took', hq', hn'⟩ := mem_asked_iff.1 hmem
  obtain ⟨rfl, r, q, n, hget, hq, hn⟩ := asks?_eq_some_iff.1 h
  have took : Took w (events ++ [(now, .step i)]) events now i r q :=
    ⟨List.prefix_refl _, hget⟩
  have hlt : past.length < events.length := by
    have hle := took'.happened.length_le
    rwa [List.length_append] at hle
  have hstage := (took'.mono (List.prefix_append events [(now, .step i)])).stage_le took hlt
  rw [hn'] at hstage
  rcases (Gate.asking_step_iff hq).1 hn with ⟨rfl, -⟩ | ⟨rfl, -⟩ <;>
  exact absurd hstage (by simp [Progress.stage])

/-- No request asks the validator twice. -/
theorem count_asked_le_one (w : World) (events : List (Moment × Event)) (i : Nat) :
    (w.asked events).count i ≤ 1 := by
  induction events using List.reverseRecOn with
  | nil => exact Nat.zero_le _
  | append_singleton events e ih =>
    rw [asked_concat, List.count_append]
    cases ha : (w.run events).asks? e.1 e.2 with
    | none => simpa using ih
    | some k =>
      by_cases hk : k = i
      · subst hk
        rw [List.count_eq_zero.2 (not_mem_asked ha)]
        simp
      · simpa [hk] using ih

/-! ## What is not touched -/

/-- A request has one arrival. -/
theorem Accepted.of_took (h : Accepted w events i r) (took : Took w events past now i r .arrived) :
    (w.run past).gate.enabled = true ∧ Gate.WellFormed (w.run past).gate.operations r := by
  obtain ⟨past', now', took', hon⟩ := h
  obtain ⟨rfl, -⟩ := took.unique took' rfl rfl
  exact hon

/-- A request gets one answer from the cache. -/
theorem Found.unique {answer answer' : Cache.Answer} (h : Found w events i r answer)
    (h' : Found w events i r answer') : answer = answer' := by
  obtain ⟨found, instant, ⟨past, now, took, -, hfound⟩, hanswer⟩ := h
  obtain ⟨found', instant', ⟨past', now', took', -, hfound'⟩, hanswer'⟩ := h'
  obtain ⟨rfl, rfl, -⟩ := took.unique took' rfl rfl
  rw [← hanswer, ← hanswer', ← hfound, ← hfound']

/-- Only a request that was accepted touches the cache or the breaker. -/
theorem kept_of_not_accepted (hnew : w.requests.length ≤ i) (hout : ¬ Accepted w events i r) :
    EachStep w events i r fun _ _ g g' => g'.cache = g.cache ∧ g'.breaker = g.breaker := by
  intro past now q took
  have hinit := took.past_prefix
  have hcame := came_run hnew past took.stood
  rw [took.gate_eq, Gate.cache_step, Gate.breaker_step]
  cases q with
  | scanned | missed | elapsed | answered | replied => exact absurd (hcame.1.mono hinit) hout
  | arrived | accepted | asking | identified | decided | ended => exact ⟨rfl, rfl⟩

/-- Only a request that missed the cache touches the breaker. -/
theorem breaker_kept_of_not_missed (hnew : w.requests.length ≤ i)
    (hout : ¬ Found w events i r .miss) :
    EachStep w events i r fun _ _ g g' => g'.breaker = g.breaker := by
  intro past now q took
  have hinit := took.past_prefix
  have hcame := came_run hnew past took.stood
  rw [took.gate_eq, Gate.breaker_step]
  cases q with
  | missed | elapsed | answered => exact absurd (hcame.2.mono hinit) hout
  | arrived | accepted | scanned | asking | replied | identified | decided | ended => rfl

/-! ## Requests that the cache answers -/

/-- In a run, this is what was decided of the principal of a request. -/
def Checked (w : World) (events : List (Moment × Event)) (i : Nat) (r : Request) (p : Principal)
    (result : Except Error (Principal × AccessPattern)) : Prop :=
  ∃ past now, Took w events past now i r (.identified p) ∧ (w.run past).gate.check r p = result

/-- What was checked in a run has been checked in a longer one. -/
theorem Checked.mono {events' : List (Moment × Event)}
    {result : Except Error (Principal × AccessPattern)} (hp : events <+: events')
    (h : Checked w events i r p result) : Checked w events' i r p result := by
  obtain ⟨past, now, took, hresult⟩ := h
  exact ⟨past, now, took.mono hp, hresult⟩

/-- How far a request has come so many steps after it found its principal in the cache. -/
inductive Decides (w : World) (i : Nat) (r : Request) (p : Principal) :
    List (Moment × Event) → Nat → Progress → Prop
  | scanned {events : List (Moment × Event)} {found : Cache.Scan} {instant : Instant} :
    found.answer = .hit p → Decides w i r p events 0 (.scanned found instant)
  | identified {events : List (Moment × Event)} : Decides w i r p events 1 (.identified p)
  | decided {events : List (Moment × Event)} {result : Except Error (Principal × AccessPattern)} :
    Checked w events i r p result → Decides w i r p events 2 (.decided (some p.id) result)
  | ended {events : List (Moment × Event)} {n : Nat}
      {result : Except Error (Principal × AccessPattern)} :
    Checked w events i r p result → 3 ≤ n →
    Decides w i r p events n (.ended (authorization result))

/-- A request that found its principal is decided by its next steps, the third at the latest. -/
theorem decides_run {k : Nat} (hget : (w.run past).requests[i]? = some (r, q))
    (hdecides : Decides w i r p past k q) (more : List (Moment × Event)) :
    ∃ q', (w.run (past ++ more)).requests[i]? = some (r, q') ∧
      Decides w i r p (past ++ more) (k + ownSteps i more) q' := by
  refine follow_steps (P := fun more n q => Decides w i r p (past ++ more) (k + n) q) hget
    (by rwa [List.append_nil]) ?_ ?_ ?_ more
  · rintro more n q generation h rfl
    generalize k + n = m at h
    cases h
  · intro more n q e h
    have hinit := prefix_concat past more e
    generalize k + n = m at h ⊢
    cases h with
    | scanned hhit => exact .scanned hhit
    | identified => exact .identified
    | decided hchecked => exact .decided (hchecked.mono hinit)
    | ended hchecked hm => exact .ended (hchecked.mono hinit) hm
  · intro more n q now hstood h
    rw [← Nat.add_assoc]
    have hinit := prefix_concat past more (now, .step i)
    generalize k + n = m at h ⊢
    cases h with
    | scanned hhit =>
      simp only [Gate.step, hhit]
      exact .identified
    | identified =>
      exact .decided ⟨past ++ more, now, took_concat hstood now, rfl⟩
    | decided hchecked => exact .ended (hchecked.mono hinit) (Nat.le_refl _)
    | ended hchecked hm => exact .ended (hchecked.mono hinit) (Nat.le_succ_of_le hm)

/-- A request has one principal, and its access is checked once. -/
theorem Checked.unique {p' : Principal}
    {decision decision' : Except Error (Principal × AccessPattern)}
    (h : Checked w events i r p decision) (h' : Checked w events i r p' decision') :
    p = p' ∧ decision = decision' := by
  obtain ⟨past, now, took, rfl⟩ := h
  obtain ⟨past', now', took', rfl⟩ := h'
  obtain ⟨rfl, -, hq⟩ := took.unique took' rfl rfl
  obtain rfl := Progress.identified.inj hq
  exact ⟨rfl, rfl⟩

/-- A request whose access was checked ends as the check came out. -/
theorem Checked.result_eq {decision : Except Error (Principal × AccessPattern)}
    {result : Except Error Authorization} (h : Checked w events i r p decision)
    (hget : (w.run events).requests[i]? = some (r, .ended result)) :
    result = authorization decision := by
  obtain ⟨past, now, took, hcheck⟩ := h
  obtain ⟨more, rfl⟩ := took.past_prefix
  obtain ⟨q', hget', hdecides⟩ := decides_run took.stood .identified more
  obtain ⟨-, rfl⟩ := stood_unique hget hget'
  generalize 1 + ownSteps i more = n at hdecides
  cases hdecides with
  | ended hchecked =>
    obtain ⟨-, rfl⟩ := hchecked.unique ⟨past, now, took, hcheck⟩
    rfl

end World

/-! ## A request on its own -/

/-- A validator that keeps the credentials that it is asked about. -/
def Validator.logged {σ : Type} (v : Validator σ) : Validator (σ × List String) where
  endpoint := v.endpoint
  validate s credential now :=
    let (call, next) := v.validate s.1 credential now
    (call, next, s.2 ++ [credential])
  ping s now :=
    let (call, next) := v.ping s.1 now
    (call, next, s.2)

namespace Gate

/-- That a request at a moment needs the validator, and may ask it. -/
structure Contacts (g : Gate) (r : Request) (now : Moment) : Prop where
  enabled : g.enabled = true
  wellFormed : WellFormed g.operations r
  missed : (g.cache.lookup r.credential r.scope now).1 = .miss
  admitted : ∃ n, (g.breaker.request now.instant).1 = .ok n

/-- A request that nothing comes between asks the validator exactly when it needs to and may. -/
theorem approach_asks_iff (g : Gate) (r : Request) (now : Moment) :
    (∃ n, (g.approach r now).1 = .asks n) ↔ g.Contacts r now := by
  unfold approach
  constructor
  · rintro ⟨n, h⟩
    split at h
    · cases h
    · next hon =>
      cases hr : g.refusal? r with
      | some e => rw [hr] at h; cases h
      | none =>
        rw [hr] at h
        simp only at h
        cases hmiss : (g.cache.lookup r.credential r.scope now).1 with
        | hit p => rw [hmiss] at h; cases h
        | unknown => rw [hmiss] at h; cases h
        | miss =>
          rw [hmiss] at h
          simp only at h
          cases hb : g.breaker.request now.instant with
          | mk passed breaker =>
            rw [hb] at h
            cases passed with
            | error e => cases h
            | ok n => exact ⟨by simpa using hon, refusal?_eq_none_iff.1 hr, hmiss, n, by rw [hb]⟩
  · rintro ⟨hon, hform, hmiss, n, hpass⟩
    refine ⟨n, ?_⟩
    cases hb : g.breaker.request now.instant with
    | mk passed breaker =>
      rw [hb] at hpass
      obtain rfl : passed = .ok n := hpass
      simp only [hon, Bool.not_true, Bool.false_eq_true, if_false, refusal?_eq_none_iff.2 hform,
        hmiss, hb]

/-- A request on its own asks the validator about its credential once, or not at all. -/
theorem remote_authorize_logged {σ : Type} (g : Gate) (v : Validator σ) (s : σ)
    (asked : List String) (wall : WallClock) (r : Request) (now : Instant) :
    (g.Contacts r (wall.moment now) →
      (g.authorize v.logged (s, asked) wall r now).remote.2 = asked ++ [r.credential]) ∧
    (¬ g.Contacts r (wall.moment now) →
      (g.authorize v.logged (s, asked) wall r now).remote = (s, asked)) := by
  rw [← approach_asks_iff]
  unfold authorize
  cases g.approach r (wall.moment now) with
  | mk a g' =>
    cases a with
    | asks n => exact ⟨fun _ => rfl, fun h => absurd ⟨n, rfl⟩ h⟩
    | ends result =>
      refine ⟨?_, fun _ => rfl⟩
      rintro ⟨n, h⟩
      cases h

end Gate

/-! ## The whole of it -/

namespace World

variable {w : World} {events : List (Moment × Event)} {i : Nat} {r : Request} {q : Progress}

/-- **The validator is asked only when it is needed.** Take any run of a world, and a request that
arrives in it. The request asks the validator at most once, and it does so exactly when it arrived
well formed while authorization was on, got no answer from the cache, and was let through by the
breaker. If it arrived while authorization was off, or malformed, each of its steps leaves the cache
and the breaker as they are; if the cache answered it, each of its steps leaves the breaker as it
is. And whatever state the breaker is in, a request that finds a fresh principal under its key is
decided on for this principal by its next three steps. A request that nothing comes between asks the
validator about its own credential. -/
theorem asked_exactly (hnew : w.requests.length ≤ i)
    (hget : (w.run events).requests[i]? = some (r, q)) :
    (w.asked events).count i ≤ 1 ∧
    (i ∈ w.asked events ↔
      Accepted w events i r ∧ Found w events i r .miss ∧ LetThrough w events i r) ∧
    (∀ past now, Took w events past now i r .arrived →
      (w.run past).gate.enabled = false ∨
        ¬ Gate.WellFormed (w.run past).gate.operations r →
      EachStep w events i r fun _ _ g g' => g'.cache = g.cache ∧ g'.breaker = g.breaker) ∧
    (∀ answer, Found w events i r answer → answer ≠ .miss →
      EachStep w events i r fun _ _ g g' => g'.breaker = g.breaker) ∧
    (∀ past now more p, events = past ++ [(now, .step i)] ++ more →
      (w.run past).requests[i]? = some (r, .accepted) →
      (w.run past).gate.cache.fresh?
        (Cache.scopedKey (credentialDigest r.credential) r.scope) now = some (.known p) →
      3 ≤ ownSteps i more →
      ∃ result, Checked w events i r p result ∧ q = .ended (authorization result)) ∧
    ∀ {σ : Type} (g : Gate) (v : Validator σ) (s : σ) (asked : List String) (wall : WallClock)
      (r : Request) (now : Instant),
      (g.Contacts r (wall.moment now) →
        (g.authorize v.logged (s, asked) wall r now).remote.2 = asked ++ [r.credential]) ∧
      (¬ g.Contacts r (wall.moment now) →
        (g.authorize v.logged (s, asked) wall r now).remote = (s, asked)) := by
  refine ⟨count_asked_le_one w events i, ⟨?_, ?_⟩, ?_, ?_, ?_, fun g v s asked wall r now =>
    g.remote_authorize_logged v s asked wall r now⟩
  · intro hasked
    obtain ⟨past, now, r', q', n, took, hflight, hasking⟩ := mem_asked_iff.1 hasked
    obtain rfl := took.request_eq hget
    have hinit := took.past_prefix
    have hcame := came_run hnew past took.stood
    rcases (Gate.asking_step_iff hflight).1 hasking with ⟨rfl, hpass⟩ | ⟨rfl, hmoved⟩
    · exact ⟨hcame.1.mono hinit, hcame.2.mono hinit, past, now, n, .inl ⟨took, hpass⟩⟩
    · exact ⟨hcame.1.mono hinit, hcame.2.mono hinit, past, now, n, .inr ⟨took, hmoved⟩⟩
  · rintro ⟨-, -, past, now, n, ⟨took, hpass⟩ | ⟨took, hmoved⟩⟩
    · exact mem_asked_iff.2 ⟨past, now, r, _, n, took, rfl,
        (Gate.asking_step_iff rfl).2 (.inl ⟨rfl, hpass⟩)⟩
    · exact mem_asked_iff.2 ⟨past, now, r, _, n, took, rfl,
        (Gate.asking_step_iff rfl).2 (.inr ⟨rfl, hmoved⟩)⟩
  · intro past now took hout
    refine kept_of_not_accepted hnew ?_
    intro haccepted
    obtain ⟨hon, hform⟩ := haccepted.of_took took
    rcases hout with hoff | hmalformed
    · rw [hon] at hoff
      cases hoff
    · exact hmalformed hform
  · intro answer hfound hne
    exact breaker_kept_of_not_missed hnew fun hmiss => hne (hfound.unique hmiss)
  · rintro past now more p rfl hstood hfresh hsteps
    have hhit : ((w.run past).gate.cache.scan (credentialDigest r.credential) r.scope now).answer =
        .hit p := by
      rw [Cache.scan_answer, hfresh]
      rfl
    obtain ⟨q', hget', hdecides⟩ := decides_run (getElem?_run_step hstood now) (.scanned hhit) more
    obtain ⟨-, rfl⟩ := stood_unique hget hget'
    rw [Nat.zero_add] at hdecides
    generalize ownSteps i more = n at hsteps hdecides
    cases hdecides with
    | scanned | identified | decided => omega
    | ended hchecked => exact ⟨_, hchecked, rfl⟩

/-- While the breaker is open, a request with a fresh principal in the cache is let in, and leaves
the breaker as it is. -/
theorem asked_exactly_while_open :
    let r : Request := ⟨"get", "t", "main"⟩
    let p : Principal := { id := "u", permissions := [{ name := "state:data:read" }] }
    let events : List (Moment × Event) :=
      [(⟨1, ⟨0, 0⟩⟩, .request r)] ++ List.replicate 5 (⟨2, ⟨0, 0⟩⟩, .step 0)
    ∃ g, Gate.build {} {} 0 = .ok g ∧
      let w : World := { gate := { g with
        cache := g.cache.store "t" "main" p 0
        breaker := { g.breaker with state := ⟨.opened, 3, some 0, 0, 1⟩ } } }
      (w.run events).requests[0]? = some (r, .ended (.ok ⟨p, some .global⟩)) ∧
      (w.asked events).count 0 ≤ 1 ∧ 0 ∉ w.asked events ∧
      (EachStep w events 0 r fun _ _ g g' => g'.breaker = g.breaker) ∧
      ∃ result, Checked w events 0 r p result ∧
        Progress.ended (.ok ⟨p, some .global⟩) = .ended (authorization result) := by
  intro r p events
  refine ⟨_, rfl, ?_⟩
  intro w
  have hget : (w.run events).requests[0]? = some (r, .ended (.ok ⟨p, some .global⟩)) := by
    decide +kernel
  have hstood : (w.run (events.take 2)).requests[0]? = some (r, .accepted) := by decide +kernel
  have hfresh : (w.run (events.take 2)).gate.cache.fresh?
      (Cache.scopedKey (credentialDigest r.credential) r.scope) ⟨2, ⟨0, 0⟩⟩ =
        some (.known p) := by decide +kernel
  obtain ⟨honce, hiff, -, hanswered, hlive, -⟩ := asked_exactly (Nat.zero_le 0) hget
  have hfound : Found w events 0 r (.hit p) :=
    ⟨_, _, ⟨events.take 2, ⟨2, ⟨0, 0⟩⟩, ⟨⟨_, rfl⟩, hstood⟩, rfl, rfl⟩, by decide +kernel⟩
  refine ⟨hget, honce, ?_, hanswered _ hfound (by decide), hlive (events.take 2) ⟨2, ⟨0, 0⟩⟩
    (events.drop 3) p rfl hstood hfresh (by decide)⟩
  intro hasked
  cases (hiff.1 hasked).2.1.unique hfound

end World

end AccessGate
