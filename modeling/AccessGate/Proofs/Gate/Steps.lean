import AccessGate.Gate.Interleaving
import AccessGate.Proofs.Cache.Entries
import Mathlib.Data.List.Induction

/-!
# What an event does to a gate and its requests

An event leaves the settings, the domain and the operations of a gate alone (`World.setup_run`), and
moves one request on at most: a request arrives, takes a step, or hears the answer it waits for
(`World.requests_apply`). A principal comes into the cache in one way only, by the step of a request
that takes it there (`World.known_apply`).
-/

namespace AccessGate

/-! ## What stays -/

/-- What a gate is made with and keeps. -/
structure Gate.Setup where
  config : Config
  domain : Domain
  operations : OperationTable
  lifetimes : CacheSettings

namespace Gate

/-- What a gate was made with. -/
def setup (g : Gate) : Setup := ⟨g.config, g.domain, g.operations, g.cache.settings⟩

/-- A new gate has the settings and parts given, and an empty cache. -/
theorem build_eq_ok {c : Config} {parts : Parts} {now : Instant} {g : Gate}
    (h : build c parts now = .ok g) :
    g.setup = ⟨c, parts.domain, parts.operations.getD (.standard parts.domain), c.cacheSettings⟩ ∧
      g.cache.entries = .empty := by
  unfold build at h
  cases hv : c.validate with
  | error e => rw [hv] at h; cases h
  | ok u =>
    rw [hv] at h
    obtain rfl := Except.ok.inj h
    exact ⟨rfl, rfl⟩

/-- A request that the breaker has counted asks the validator or is refused. -/
theorem counted_cases (g : Gate) (generation : Option Nat) :
    (∃ n, (g.counted generation).1 = .asking n) ∨
      ∃ e, (g.counted generation).1 = .decided none (.error e) := by
  cases generation with
  | some n => exact .inl ⟨n, rfl⟩
  | none => exact .inr ⟨_, rfl⟩

/-- Being let through or refused leaves alone what a gate was made with. -/
theorem setup_counted (g : Gate) (generation : Option Nat) :
    (g.counted generation).2.setup = g.setup := by
  cases generation <;> rfl

/-- So does telling who holds a credential. -/
theorem setup_identify (g : Gate) (r : Request) (now : Moment) (reply : ValidationReply) :
    (g.identify r now reply).2.setup = g.setup := by
  unfold identify
  cases g.principalOf reply now.wall with
  | ok p => rfl
  | error e => simp only [setup, Cache.settings_storeUnknown]

/-- A step of a request leaves what the gate was made with alone. -/
theorem setup_step (g : Gate) (r : Request) (now : Moment) (p : Progress) :
    (g.step r now p).2.setup = g.setup := by
  cases p with
  | arrived =>
    simp only [step]
    split
    · rfl
    · cases g.refusal? r <;> rfl
  | accepted => rfl
  | scanned found instant =>
    have hcache := Cache.settings_cleanup g.cache found.stale instant now.wall
    obtain ⟨answer, stale⟩ := found
    cases answer <;> simp only [step, setup, Cache.countAnswer, hcache]
  | missed =>
    simp only [step]
    cases g.breaker.state.glance g.breaker.settings now.instant with
    | pass generation => exact setup_counted g (some generation)
    | refuse => exact setup_counted g none
    | elapsed => rfl
  | elapsed => exact setup_counted _ _
  | answered generation result => cases result <;> rfl
  | replied reply =>
    have hsetup := setup_identify g r now reply
    simp only [step]
    cases hi : g.identify r now reply with
    | mk principal g' =>
      rw [hi] at hsetup
      cases principal <;> exact hsetup
  | asking | identified | decided | ended => rfl

/-- A step of upkeep leaves what the gate was made with, and its cache, alone. -/
theorem setup_tend (g : Gate) (now : Instant) (u : Upkeep.Progress) :
    (g.tend now u).2.setup = g.setup ∧ (g.tend now u).2.cache = g.cache := by
  cases u with
  | begun task => cases task <;> exact ⟨rfl, rfl⟩
  | probing | disabling | degrading | resetting | recovering | enabling | ended => exact ⟨rfl, rfl⟩

end Gate

namespace World

/-- One more event happens at the end. -/
theorem run_concat (w : World) (events : List (Moment × Event)) (e : Moment × Event) :
    w.run (events ++ [e]) = (w.run events).apply e.1 e.2 := by
  rw [run, List.foldl_append]
  rfl

/-- An event leaves what the gate was made with alone. -/
theorem setup_apply (w : World) (now : Moment) (e : Event) :
    (w.apply now e).gate.setup = w.gate.setup := by
  cases e with
  | step i =>
    simp only [apply]
    cases w.requests[i]? with
    | none => rfl
    | some request => exact Gate.setup_step _ _ _ _
  | tend i =>
    simp only [apply]
    cases w.upkeep[i]? with
    | none => rfl
    | some u => exact (Gate.setup_tend _ _ _).1
  | request | answer | upkeep | probe | clearCache | invalidate | registerScope | unregisterScope
  | resetBreaker => rfl

/-- A gate keeps what it was made with. -/
theorem setup_run (w : World) (events : List (Moment × Event)) :
    (w.run events).gate.setup = w.gate.setup := by
  induction events using List.reverseRecOn with
  | nil => rfl
  | append_singleton events e ih => rw [run_concat, setup_apply, ih]

/-- A run leaves the domain alone. -/
theorem domain_run (w : World) (events : List (Moment × Event)) :
    (w.run events).gate.domain = w.gate.domain :=
  congrArg Gate.Setup.domain (setup_run w events)

/-- A run leaves the table of operations alone. -/
theorem operations_run (w : World) (events : List (Moment × Event)) :
    (w.run events).gate.operations = w.gate.operations :=
  congrArg Gate.Setup.operations (setup_run w events)

/-! ## Requests -/

/-- Only a request that waits for an answer hears one. -/
theorem hear_cases (result : Except Error ValidationReply) (p : Progress) :
    hear result p = p ∨
      ∃ generation, p = .asking generation ∧ hear result p = .answered generation result := by
  cases p with
  | asking generation => exact .inr ⟨generation, rfl, rfl⟩
  | arrived | accepted | scanned | missed | elapsed | answered | replied | identified | decided
  | ended => exact .inl rfl

/-- How far a request has come after an event: as far as before, or it has arrived, taken a step, or
heard the answer it waited for. -/
theorem requests_apply {w : World} {now : Moment} {e : Event} {i : Nat} {r : Request}
    {p : Progress} (h : (w.apply now e).requests[i]? = some (r, p)) :
    w.requests[i]? = some (r, p) ∨
      (e = .request r ∧ p = .arrived) ∨
      (e = .step i ∧ ∃ q, w.requests[i]? = some (r, q) ∧ p = (w.gate.step r now q).1) ∨
      ∃ generation result, e = .answer i result ∧
        w.requests[i]? = some (r, .asking generation) ∧ p = .answered generation result := by
  cases e with
  | request r' =>
    simp only [apply, List.getElem?_append] at h
    split at h
    · exact .inl h
    · have hmem := List.mem_of_getElem? h
      rw [List.mem_singleton] at hmem
      cases hmem
      exact .inr (.inl ⟨rfl, rfl⟩)
  | step k =>
    simp only [apply] at h
    cases hk : w.requests[k]? with
    | none =>
      rw [hk] at h
      exact .inl h
    | some request =>
      obtain ⟨r', q⟩ := request
      simp only [hk, List.getElem?_set] at h
      split at h
      · next hki =>
        subst hki
        split at h
        · cases h
          exact .inr (.inr (.inl ⟨rfl, q, hk, rfl⟩))
        · cases h
      · exact .inl h
  | answer k result =>
    simp only [apply, List.getElem?_modify] at h
    cases hi : w.requests[i]? with
    | none => rw [hi] at h; cases h
    | some request =>
      obtain ⟨r', q⟩ := request
      rw [hi] at h
      by_cases hki : k = i
      · have h := Option.some.inj h
        simp only [hki, if_true] at h
        obtain ⟨rfl, hp⟩ := Prod.mk.inj h
        rcases hear_cases result q with hq | ⟨generation, rfl, hq⟩
        · exact .inl (by rw [← hp, hq])
        · exact .inr (.inr (.inr ⟨generation, result, by rw [hki], rfl, by rw [← hp, hq]⟩))
      · have h := Option.some.inj h
        simp only [hki, if_false] at h
        exact .inl (congrArg some h)
  | tend k =>
    simp only [apply] at h
    cases hk : w.upkeep[k]? with
    | none => rw [hk] at h; exact .inl h
    | some u => rw [hk] at h; exact .inl h
  | upkeep | probe | clearCache | invalidate | registerScope | unregisterScope | resetBreaker =>
    exact .inl h

/-- What holds of a request where a run finds it, if it does, and where it arrives, and is kept by
its steps, by the answer that it waits for and by whatever else happens, holds of it in the run. -/
theorem stood_induction {w : World} {i : Nat} {r : Request}
    {P : List (Moment × Event) → Progress → Prop}
    (hstart : ∀ q, w.requests[i]? = some (r, q) → P [] q)
    (harrived : ∀ events, P events .arrived)
    (hmore : ∀ events e q, P events q → P (events ++ [e]) q)
    (hstep : ∀ events now q, (w.run events).requests[i]? = some (r, q) → P events q →
      P (events ++ [(now, .step i)]) ((w.run events).gate.step r now q).1)
    (hanswer : ∀ events generation result, P events (.asking generation) →
      P events (.answered generation result))
    (events : List (Moment × Event)) {q : Progress}
    (hget : (w.run events).requests[i]? = some (r, q)) : P events q := by
  induction events using List.reverseRecOn generalizing q with
  | nil => exact hstart q hget
  | append_singleton events e ih =>
    rw [run_concat] at hget
    rcases requests_apply hget with
      hold | ⟨-, rfl⟩ | ⟨he, q, hold, rfl⟩ | ⟨generation, result, -, hold, rfl⟩
    · exact hmore _ _ _ (ih hold)
    · exact harrived _
    · obtain ⟨now, event⟩ := e
      obtain rfl : event = .step i := he
      exact hstep _ _ _ hold (ih hold)
    · exact hmore _ _ _ (hanswer _ _ _ (ih hold))

/-- The requests of a run. -/
def arrivals (events : List (Moment × Event)) : List Request :=
  events.filterMap fun e =>
    match e.2 with
    | .request r => some r
    | _ => none

/-- A request of a run has arrived in its course. -/
theorem mem_arrivals {w : World} (hw : w.requests = []) {events : List (Moment × Event)} {i : Nat}
    {r : Request} {p : Progress} (h : (w.run events).requests[i]? = some (r, p)) :
    r ∈ arrivals events := by
  induction events using List.reverseRecOn generalizing p with
  | nil =>
    rw [run, List.foldl_nil, hw] at h
    cases h
  | append_singleton events e ih =>
    rw [arrivals, List.filterMap_append]
    rw [run_concat] at h
    rcases requests_apply h with
      h | ⟨he, -⟩ | ⟨-, q, h, -⟩ | ⟨generation, result, -, h, -⟩
    · exact List.mem_append_left _ (ih h)
    · refine List.mem_append_right _ (List.mem_filterMap.2 ⟨e, List.mem_singleton_self _, ?_⟩)
      rw [he]
    · exact List.mem_append_left _ (ih h)
    · exact List.mem_append_left _ (ih h)

end World

/-! ## The cache -/

/-- The step of a request leaves an entry that was there before, or puts a marker, or a principal
that it made out of the validator's answer. -/
theorem Gate.get?_cache_step {g : Gate} {r : Request} {now : Moment} {p : Progress} {key : String}
    {h : Held} (hget : (g.step r now p).2.cache.entries.get? key = some h) :
    g.cache.entries.get? key = some h ∨ h.verdict = .unknown ∨
      ∃ reply q, p = .replied reply ∧ g.principalOf reply now.wall = .ok q ∧
        key = Cache.scopedKey (credentialDigest r.credential) r.scope ∧
        h = ⟨.known q, g.cache.settings.ttl.after now.instant⟩ := by
  cases p with
  | arrived =>
    refine .inl ?_
    simp only [step] at hget
    split at hget
    · exact hget
    · cases hr : g.refusal? r <;> rw [hr] at hget <;> exact hget
  | scanned found instant =>
    have hclean : (g.cache.cleanup found.stale instant now.wall).entries.get? key = some h := by
      obtain ⟨answer, stale⟩ := found
      cases answer <;> exact hget
    rcases Cache.get?_cleanup_eq_or g.cache found.stale instant now.wall key with
      heq | ⟨hnone, -⟩
    · exact .inl (heq ▸ hclean)
    · rw [hnone] at hclean
      cases hclean
  | missed =>
    refine .inl ?_
    simp only [step] at hget
    cases hg : g.breaker.state.glance g.breaker.settings now.instant <;> rw [hg] at hget <;>
      exact hget
  | elapsed =>
    refine .inl ?_
    simp only [step] at hget
    cases hm : (g.breaker.state.moveOn g.breaker.settings now.instant).1 <;> rw [hm] at hget <;>
      exact hget
  | answered generation result => cases result <;> exact .inl hget
  | replied reply =>
    simp only [step, identify] at hget
    cases hp : g.principalOf reply now.wall with
    | ok q =>
      simp only [hp, Cache.get?_store] at hget
      split at hget
      · next hkey => exact .inr (.inr ⟨reply, q, rfl, hp, hkey, (Option.some.inj hget).symm⟩)
      · exact .inl hget
    | error e =>
      simp only [hp, Cache.get?_storeUnknown] at hget
      split at hget
      · exact .inr (.inl (by rw [← Option.some.inj hget]))
      · exact .inl hget
  | accepted | asking | identified | decided | ended => exact .inl hget

/-- A principal that the cache holds after an event was there before, or a request has taken the
step that puts it there. -/
theorem World.known_apply {w : World} {now : Moment} {e : Event} {key : String} {q : Principal}
    {expires : Instant}
    (hget : (w.apply now e).gate.cache.entries.get? key = some ⟨.known q, expires⟩) :
    w.gate.cache.entries.get? key = some ⟨.known q, expires⟩ ∨
      ∃ i r reply, e = .step i ∧ w.requests[i]? = some (r, .replied reply) ∧
        w.gate.principalOf reply now.wall = .ok q ∧
        key = Cache.scopedKey (credentialDigest r.credential) r.scope ∧
        expires = w.gate.setup.lifetimes.ttl.after now.instant := by
  cases e with
  | step i =>
    simp only [apply] at hget
    cases hi : w.requests[i]? with
    | none =>
      rw [hi] at hget
      exact .inl hget
    | some request =>
      obtain ⟨r, p⟩ := request
      rw [hi] at hget
      rcases Gate.get?_cache_step hget with hold | hunknown | ⟨reply, q', rfl, hq, hkey, hheld⟩
      · exact .inl hold
      · cases hunknown
      · cases hheld
        exact .inr ⟨i, r, reply, rfl, hi, hq, hkey, rfl⟩
  | tend i =>
    simp only [apply] at hget
    cases hu : w.upkeep[i]? with
    | none =>
      rw [hu] at hget
      exact .inl hget
    | some u =>
      rw [hu] at hget
      simp only [(Gate.setup_tend w.gate now.instant u).2] at hget
      exact .inl hget
  | clearCache => cases hget
  | invalidate credential =>
    simp only [apply, Gate.invalidate, Cache.get?_invalidate] at hget
    split at hget
    · cases hget
    · exact .inl hget
  | request | answer | upkeep | probe | registerScope | unregisterScope | resetBreaker =>
    exact .inl hget

end AccessGate
