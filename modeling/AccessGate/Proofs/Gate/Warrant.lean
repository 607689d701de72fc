import AccessGate.Proofs.Gate.Answers
import AccessGate.Proofs.Gate.Steps

/-!
# Nobody is let in without a validation

Behind every request that a gate lets in by a pattern stands an answer of the validator for the
credential of the request: its own (`World.Vouched`), or that of a request with the same credential
and scope, whose principal the cache still held (`World.Served`). This is shown for runs in which
requests, upkeep and changes from outside come in any order.

Two facts are kept by every event. How far a request has come tells what has happened before
(`World.Standing`), and a principal in the cache tells of the request that took it there
(`World.Cached`). Both speak of the events of the run only, so they stay true when it goes on. The
main statement is `World.no_grant_without_validation`.
-/

namespace AccessGate

namespace World

variable {w : World} {events events' : List (Moment × Event)} {now stored : Moment} {i : Nat}
  {r : Request} {p : Principal} {reply : ValidationReply} {pattern : AccessPattern}

/-! ## What has happened in a run -/

/-- In a run, after the events of `past`, a request took a step from how far it had come. -/
structure Took (w : World) (events past : List (Moment × Event)) (now : Moment) (i : Nat)
    (r : Request) (p : Progress) : Prop where
  happened : past ++ [(now, .step i)] <+: events
  stood : (w.run past).requests[i]? = some (r, p)

/-- In a run, the validator answered a request that waited for it. -/
def Answered (w : World) (events : List (Moment × Event)) (i : Nat) (r : Request)
    (reply : ValidationReply) : Prop :=
  ∃ past now generation, past ++ [(now, .answer i (.ok reply))] <+: events ∧
    (w.run past).requests[i]? = some (r, .asking generation)

/-- In a run, the validator answered a request, and then the request took the principal of the
answer, not expired, into the cache. -/
def Vouched (w : World) (events : List (Moment × Event)) (stored : Moment) (i : Nat) (r : Request)
    (reply : ValidationReply) (p : Principal) : Prop :=
  ∃ past, Took w events past stored i r (.replied reply) ∧ Answered w past i r reply ∧
    Principal.ofReply w.gate.domain reply = .ok p ∧ p.isExpired stored.wall = false

/-- In a run, a request looked its principal up in the cache within the lifetime of what a request
with the same digest and scope had stored. -/
def Served (w : World) (events : List (Moment × Event)) (i : Nat) (r : Request) (p : Principal) :
    Prop :=
  ∃ past found, Took w events past found i r .accepted ∧ p.isExpired found.wall = false ∧
    ∃ stored j r' reply, Vouched w past stored j r' reply p ∧
      credentialDigest r'.credential = credentialDigest r.credential ∧ r'.scope = r.scope ∧
      found.instant < w.gate.cache.settings.ttl.after stored.instant

/-- In a run, the principal of a request was vouched for by an answer to it or by one before. -/
def Warranted (w : World) (events : List (Moment × Event)) (i : Nat) (r : Request)
    (p : Principal) : Prop :=
  (∃ stored reply, Vouched w events stored i r reply p) ∨ Served w events i r p

/-- In a run, access was decided for the principal of a request, by a pattern that held of the
owners of scopes at the time. -/
def Granted (w : World) (events : List (Moment × Event)) (i : Nat) (r : Request) (p : Principal)
    (pattern : AccessPattern) : Prop :=
  ∃ past now, Took w events past now i r (.identified p) ∧
    Access.decide w.gate.domain (w.run past).gate.ownership p
      ⟨r.operation, (w.gate.operations.rule r.operation).permission, r.scope⟩ = .ok pattern

theorem Took.mono {past : List (Moment × Event)} {q : Progress} (hp : events <+: events')
    (h : Took w events past now i r q) : Took w events' past now i r q :=
  ⟨h.happened.trans hp, h.stood⟩

theorem Answered.mono (hp : events <+: events') (h : Answered w events i r reply) :
    Answered w events' i r reply := by
  obtain ⟨past, now, generation, happened, stood⟩ := h
  exact ⟨past, now, generation, happened.trans hp, stood⟩

theorem Vouched.mono (hp : events <+: events') (h : Vouched w events stored i r reply p) :
    Vouched w events' stored i r reply p := by
  obtain ⟨past, took, rest⟩ := h
  exact ⟨past, took.mono hp, rest⟩

theorem Served.mono (hp : events <+: events') (h : Served w events i r p) :
    Served w events' i r p := by
  obtain ⟨past, found, took, rest⟩ := h
  exact ⟨past, found, took.mono hp, rest⟩

theorem Warranted.mono (hp : events <+: events') (h : Warranted w events i r p) :
    Warranted w events' i r p := by
  rcases h with ⟨stored, reply, h⟩ | h
  · exact .inl ⟨stored, reply, h.mono hp⟩
  · exact .inr (h.mono hp)

/-- An answer that vouches for a principal calls the credential valid and names the principal, who
was not past its end when it was stored. -/
theorem Vouched.answer (h : Vouched w events stored i r reply p) :
    reply.valid = true ∧ reply.principalId = some p.id ∧ p.id ≠ "" ∧
      Principal.ofReply w.gate.domain reply = .ok p ∧ p.isExpired stored.wall = false := by
  obtain ⟨past, -, -, hreply, hend⟩ := h
  obtain ⟨hvalid, hid, hne, -⟩ := Principal.ofReply_eq_ok hreply
  exact ⟨hvalid, hid, hne, hreply, hend⟩

/-- A request that an answer vouches for has arrived. -/
theorem Vouched.mem_arrivals (hw : w.requests = []) (h : Vouched w events stored i r reply p) :
    r ∈ arrivals events := by
  obtain ⟨past, took, -⟩ := h
  have hinit : past <+: events := (List.prefix_append _ _).trans took.happened
  exact (hinit.filterMap _).subset (World.mem_arrivals hw took.stood)

theorem Granted.mono (hp : events <+: events') (h : Granted w events i r p pattern) :
    Granted w events' i r p pattern := by
  obtain ⟨past, now, took, rest⟩ := h
  exact ⟨past, now, took.mono hp, rest⟩

/-! ## What is kept -/

/-- What must have happened in a run for a request to be let in by a pattern. -/
structure Admitted (w : World) (events : List (Moment × Event)) (i : Nat) (r : Request)
    (p : Principal) (pattern : AccessPattern) : Prop where
  wellFormed : Gate.WellFormed w.gate.operations r
  warranted : Warranted w events i r p
  granted : Granted w events i r p pattern

/-- What must have happened in a run for a request to have come so far. -/
def Standing (w : World) (events : List (Moment × Event)) (i : Nat) (r : Request) :
    Progress → Prop
  | .arrived => True
  | .accepted | .missed | .elapsed | .asking _ => Gate.WellFormed w.gate.operations r
  | .scanned found _ =>
    Gate.WellFormed w.gate.operations r ∧ ∀ p, found.answer = .hit p → Served w events i r p
  | .answered _ result =>
    Gate.WellFormed w.gate.operations r ∧ ∀ reply, result = .ok reply → Answered w events i r reply
  | .replied reply => Gate.WellFormed w.gate.operations r ∧ Answered w events i r reply
  | .identified p => Gate.WellFormed w.gate.operations r ∧ Warranted w events i r p
  | .decided _ result =>
    ∀ p pattern, result = .ok (p, pattern) → Admitted w events i r p pattern
  | .ended result =>
    ∀ p pattern, result = .ok ⟨p, some pattern⟩ → Admitted w events i r p pattern

/-- Every principal in the cache was taken there by a request for the key, and its lifetime counts
from then. -/
def Cached (w : World) (events : List (Moment × Event)) : Prop :=
  ∀ key p expires,
    (w.run events).gate.cache.entries.get? key = some ⟨.known p, expires⟩ →
      ∃ stored j r reply, Vouched w events stored j r reply p ∧
        key = Cache.scopedKey (credentialDigest r.credential) r.scope ∧
        expires = w.gate.cache.settings.ttl.after stored.instant

theorem Admitted.mono (hp : events <+: events') (h : Admitted w events i r p pattern) :
    Admitted w events' i r p pattern :=
  ⟨h.wellFormed, h.warranted.mono hp, h.granted.mono hp⟩

/-- What has happened stays so while the run goes on. -/
theorem Standing.mono {q : Progress} (hp : events <+: events') (h : Standing w events i r q) :
    Standing w events' i r q := by
  cases q with
  | arrived => trivial
  | accepted | missed | elapsed | asking => exact h
  | scanned found instant => exact ⟨h.1, fun p hfound => (h.2 p hfound).mono hp⟩
  | answered generation result => exact ⟨h.1, fun reply hreply => (h.2 reply hreply).mono hp⟩
  | replied reply => exact ⟨h.1, h.2.mono hp⟩
  | identified p => exact ⟨h.1, h.2.mono hp⟩
  | decided id result => exact fun p pattern hresult => (h p pattern hresult).mono hp
  | ended result => exact fun p pattern hresult => (h p pattern hresult).mono hp

/-! ## One step -/

/-- A hit is a principal that the cache holds for the digest and scope looked up. -/
theorem served_of_hit (hcached : Cached w events)
    (hstood : (w.run events).requests[i]? = some (r, .accepted))
    (hit : ((w.run events).gate.cache.scan (credentialDigest r.credential) r.scope now).answer =
      .hit p) : Served w (events ++ [(now, .step i)]) i r p := by
  rcases Cache.fresh?_of_scan_hit hit with hfresh | hfresh
  · obtain ⟨expires, hget, hlife, hend⟩ := Cache.fresh?_eq_some_known hfresh
    obtain ⟨stored, j, r', reply, hvouched, hkey, rfl⟩ := hcached _ _ _ hget
    obtain ⟨hdigest, hscope⟩ := Cache.scopedKey_inj hkey
    exact ⟨events, now, ⟨List.prefix_refl _, hstood⟩, hend, stored, j, r', reply, hvouched,
      hdigest.symm, hscope.symm, hlife⟩
  · -- No principal stands under a digest.
    obtain ⟨expires, hget, -, -⟩ := Cache.fresh?_eq_some_known hfresh
    obtain ⟨stored, j, r', reply, -, hkey, -⟩ := hcached _ _ _ hget
    exact absurd hkey.symm (Cache.scopedKey_ne_credentialDigest _ _ _)

/-- A request that was refused says nothing of what has happened. -/
theorem standing_refused (w : World) (events : List (Moment × Event)) (i : Nat) (r : Request)
    (id : Option String) (e : Error) : Standing w events i r (.decided id (.error e)) := by
  intro p pattern h
  cases h

/-- A request that the breaker has counted asks the validator or is refused. -/
theorem standing_counted (g : Gate) (generation : Option Nat)
    (h : Gate.WellFormed w.gate.operations r) :
    Standing w events i r (g.counted generation).1 := by
  cases generation with
  | some generation => exact h
  | none => exact standing_refused _ _ _ _ _ _

/-- A step of a request tells of what has happened when it came so far. -/
theorem standing_step {q : Progress} (hcached : Cached w events)
    (hstood : (w.run events).requests[i]? = some (r, q)) (hs : Standing w events i r q) :
    Standing w (events ++ [(now, .step i)]) i r ((w.run events).gate.step r now q).1 := by
  have hinit : events <+: events ++ [(now, Event.step i)] := List.prefix_append _ _
  have took : Took w (events ++ [(now, .step i)]) events now i r q :=
    ⟨List.prefix_refl _, hstood⟩
  cases q with
  | arrived =>
    simp only [Gate.step]
    split
    · -- A request that is let in unchecked is let in by no pattern.
      intro p pattern h
      cases h
    · cases hr : (w.run events).gate.refusal? r with
      | some e => exact standing_refused _ _ _ _ _ _
      | none =>
        have hform := Gate.wellFormed_of_refusal? hr
        rw [operations_run] at hform
        exact hform
  | accepted => exact ⟨hs, fun p hit => served_of_hit hcached hstood hit⟩
  | scanned found instant =>
    obtain ⟨hform, hserved⟩ := hs
    simp only [Gate.step]
    cases hanswer : found.answer with
    | hit p => exact ⟨hform, .inr ((hserved p hanswer).mono hinit)⟩
    | unknown => exact standing_refused _ _ _ _ _ _
    | miss => exact hform
  | missed =>
    simp only [Gate.step]
    cases (w.run events).gate.breaker.state.glance (w.run events).gate.breaker.settings
      now.instant with
    | pass generation => exact standing_counted _ _ hs
    | refuse => exact standing_counted _ _ hs
    | elapsed => exact hs
  | elapsed => exact standing_counted _ _ hs
  | asking generation => exact hs
  | answered generation result =>
    obtain ⟨hform, hanswered⟩ := hs
    cases result with
    | error e => exact standing_refused _ _ _ _ _ _
    | ok reply => exact ⟨hform, (hanswered reply rfl).mono hinit⟩
  | replied reply =>
    obtain ⟨hform, hanswered⟩ := hs
    simp only [Gate.step, Gate.identify]
    cases hp : (w.run events).gate.principalOf reply now.wall with
    | error e => exact standing_refused _ _ _ _ _ _
    | ok p =>
      obtain ⟨hreply, hend⟩ := Gate.principalOf_eq_ok hp
      rw [domain_run] at hreply
      exact ⟨hform, .inl ⟨now, reply, events, took, hanswered, hreply, hend⟩⟩
  | identified p =>
    obtain ⟨hform, hwarranted⟩ := hs
    intro p' pattern h
    obtain ⟨rfl, hd⟩ := Gate.check_eq_ok h
    rw [domain_run, operations_run] at hd
    exact ⟨hform, hwarranted.mono hinit, events, now, took, hd⟩
  | decided id result =>
    intro p pattern h
    cases result with
    | error e => cases h
    | ok decided =>
      obtain ⟨p', pattern'⟩ := decided
      cases h
      exact (hs p pattern rfl).mono hinit
  | ended result => exact fun p pattern h => (hs p pattern h).mono hinit

/-! ## Every run -/

/-- Every event keeps what is said of a request. -/
theorem standing_apply {e : Event} {q : Progress} (hcached : Cached w events)
    (hs : ∀ i r q, (w.run events).requests[i]? = some (r, q) → Standing w events i r q)
    (hget : (w.run (events ++ [(now, e)])).requests[i]? = some (r, q)) :
    Standing w (events ++ [(now, e)]) i r q := by
  have hinit : events <+: events ++ [(now, e)] := List.prefix_append _ _
  rw [run_concat] at hget
  rcases requests_apply hget with
    hold | ⟨rfl, rfl⟩ | ⟨rfl, q, hold, rfl⟩ | ⟨generation, result, rfl, hold, rfl⟩
  · exact (hs i r q hold).mono hinit
  · trivial
  · exact standing_step hcached hold (hs i r q hold)
  · refine ⟨hs i r _ hold, fun reply hreply => ?_⟩
    subst hreply
    exact ⟨events, now, generation, List.prefix_refl _, hold⟩

/-- Every event keeps what is said of the cache. -/
theorem cached_apply {e : Event} (hcached : Cached w events)
    (hs : ∀ i r q, (w.run events).requests[i]? = some (r, q) → Standing w events i r q) :
    Cached w (events ++ [(now, e)]) := by
  have hinit : events <+: events ++ [(now, e)] := List.prefix_append _ _
  intro key p expires hget
  rw [run_concat] at hget
  rcases known_apply hget with hold | ⟨i, r, reply, he, hstood, hp, hkey, rfl⟩
  · obtain ⟨stored, j, r, reply, hvouched, rest⟩ := hcached key p expires hold
    exact ⟨stored, j, r, reply, hvouched.mono hinit, rest⟩
  · obtain ⟨hreply, hend⟩ := Gate.principalOf_eq_ok hp
    rw [domain_run] at hreply
    obtain rfl := he
    refine ⟨now, i, r, reply, ⟨events, ⟨List.prefix_refl _, hstood⟩, (hs i r _ hstood).2, hreply,
      hend⟩, hkey, ?_⟩
    rw [setup_run]
    rfl

/-- In every run from an empty cache without requests, how far a request has come and what the cache
holds tell of what has happened. -/
theorem standing_run (hrequests : w.requests = []) (hcache : w.gate.cache.entries = .empty)
    (events : List (Moment × Event)) :
    Cached w events ∧
      ∀ i r q, (w.run events).requests[i]? = some (r, q) → Standing w events i r q := by
  induction events using List.reverseRecOn with
  | nil =>
    constructor
    · intro key p expires hget
      rw [run, List.foldl_nil, hcache] at hget
      cases hget
    · intro i r q hget
      rw [run, List.foldl_nil, hrequests] at hget
      cases hget
  | append_singleton events e ih =>
    exact ⟨cached_apply ih.1 ih.2, fun i r q hget => standing_apply ih.1 ih.2 hget⟩

/-- Requests of a run whose credentials share a digest have the same credential. -/
def Apart (events : List (Moment × Event)) : Prop :=
  ∀ r ∈ arrivals events, ∀ r' ∈ arrivals events,
    credentialDigest r.credential = credentialDigest r'.credential → r.credential = r'.credential

/-- **Nobody is let in without a validation.** Take any run of a new gate in which no two
credentials share a digest. A request that it lets in by a pattern has a credential, and a scope
that can be one unless it has none and needs none. The validator called the credential valid and
named the principal that the request was let in as, in answer to the request itself, or to one with
the same credential and scope whose principal was stored less than a lifetime before the request
looked it up; and the principal was not past its end when it was stored, nor when it was looked up.
And the pattern is the one that access was decided by, for the owners of scopes at the time. -/
theorem no_grant_without_validation {c : Config} {parts : Gate.Parts} {start : Instant} {g : Gate}
    (hbuild : Gate.build c parts start = .ok g) (hapart : Apart events)
    (hgranted : (run { gate := g } events).requests[i]? =
      some (r, .ended (.ok ⟨p, some pattern⟩))) :
    Gate.WellFormed g.operations r ∧
      (∃ stored j r' reply, r'.credential = r.credential ∧ r'.scope = r.scope ∧
        reply.valid = true ∧ reply.principalId = some p.id ∧ p.id ≠ "" ∧
        Principal.ofReply parts.domain reply = .ok p ∧ p.isExpired stored.wall = false ∧
        ((j = i ∧ Vouched { gate := g } events stored j r' reply p) ∨
          ∃ past found, Took { gate := g } events past found i r .accepted ∧
            Vouched { gate := g } past stored j r' reply p ∧
            found.instant < stored.instant + c.cacheTtl.nanos ∧
            p.isExpired found.wall = false)) ∧
      Granted { gate := g } events i r p pattern := by
  obtain ⟨hsetup, hempty⟩ := Gate.build_eq_ok hbuild
  have hdomain : g.domain = parts.domain := congrArg Gate.Setup.domain hsetup
  have hlifetimes : g.cache.settings = c.cacheSettings := congrArg Gate.Setup.lifetimes hsetup
  obtain ⟨-, hs⟩ := standing_run (w := { gate := g }) rfl hempty events
  obtain ⟨hform, hwarranted, hdecided⟩ := hs i r _ hgranted p pattern rfl
  refine ⟨hform, ?_, hdecided⟩
  rw [← hdomain]
  rcases hwarranted with ⟨stored, reply, hvouched⟩ |
    ⟨past, found, took, hfound, stored, j, r', reply, hvouched, hdigest, hscope, hlife⟩
  · obtain ⟨hvalid, hid, hne, hreply, hend⟩ := hvouched.answer
    exact ⟨stored, i, r, reply, rfl, rfl, hvalid, hid, hne, hreply, hend, .inl ⟨rfl, hvouched⟩⟩
  · have hinit : past <+: events := (List.prefix_append _ _).trans took.happened
    have harrived := (hvouched.mono hinit).mem_arrivals rfl
    have hcredential := hapart r' harrived r (mem_arrivals rfl hgranted) hdigest
    obtain ⟨hvalid, hid, hne, hreply, hend⟩ := hvouched.answer
    rw [hlifetimes] at hlife
    exact ⟨stored, j, r', reply, hcredential, hscope, hvalid, hid, hne, hreply, hend,
      .inr ⟨past, found, took, hvouched, hlife, hfound⟩⟩

/-- A request that comes after another with the same credential and scope is let in without being
put to the validator; the answer to the first one stands behind it. -/
theorem no_grant_without_validation_from_cache :
    let r : Request := ⟨"get", "t", "main"⟩
    let p : Principal :=
      { id := "u", permissions := [{ name := "state:data:read" }], validUntil := ⟨100, 0⟩ }
    let reply : ValidationReply :=
      { valid := true, principalId := some "u", permissions := ["state:data:read"],
        expiresAt := some 100 }
    let events : List (Moment × Event) :=
      [(⟨0, ⟨0, 0⟩⟩, .request r)] ++ List.replicate 4 (⟨1, ⟨0, 0⟩⟩, .step 0) ++
        [(⟨2, ⟨0, 0⟩⟩, .answer 0 (.ok reply))] ++ List.replicate 4 (⟨3, ⟨0, 0⟩⟩, .step 0) ++
        [(⟨5, ⟨1, 0⟩⟩, .request r)] ++ List.replicate 5 (⟨6, ⟨1, 0⟩⟩, .step 1)
    ∃ g, Gate.build {} {} 0 = .ok g ∧ Apart events ∧
      (run { gate := g } events).requests[1]? = some (r, .ended (.ok ⟨p, some .global⟩)) ∧
      (∃ stored j r' reply, r'.credential = "t" ∧
        Vouched { gate := g } events stored j r' reply p) ∧
      Granted { gate := g } events 1 r p .global := by
  intro r p reply events
  have hapart : Apart events := by
    intro r₁ h₁ r₂ h₂ _
    simp only [arrivals, events, List.replicate, List.cons_append, List.nil_append,
      List.filterMap_cons, List.filterMap_nil, List.mem_cons, List.not_mem_nil, or_false,
      or_self] at h₁ h₂
    rw [h₁, h₂]
  have hbacked (g : Gate) (hbuild : Gate.build {} {} 0 = .ok g)
      (hgranted : (run { gate := g } events).requests[1]? =
        some (r, .ended (.ok ⟨p, some .global⟩))) :
      (run { gate := g } events).requests[1]? = some (r, .ended (.ok ⟨p, some .global⟩)) ∧
      (∃ stored j r' reply, r'.credential = "t" ∧
        Vouched { gate := g } events stored j r' reply p) ∧
      Granted { gate := g } events 1 r p .global := by
    obtain ⟨-, ⟨stored, j, r', reply', hcredential, -, -, -, -, -, -, hvouched⟩, hdecided⟩ :=
      no_grant_without_validation hbuild hapart hgranted
    refine ⟨hgranted, ⟨stored, j, r', reply', hcredential, ?_⟩, hdecided⟩
    rcases hvouched with ⟨-, hvouched⟩ | ⟨past, found, took, hvouched, -⟩
    · exact hvouched
    · exact hvouched.mono ((List.prefix_append _ _).trans took.happened)
  exact ⟨_, rfl, hapart, hbacked _ rfl (by decide +kernel)⟩

end World

end AccessGate
