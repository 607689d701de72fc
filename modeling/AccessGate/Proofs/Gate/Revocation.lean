import AccessGate.Proofs.Gate.Warrant

/-!
# Who is let in after a revocation

A credential is revoked by dropping what the cache holds for it (`Event.revokes`). A request that
comes later is let in on an answer that the validator was asked for after the revocation, or on the
answer to a request that was in flight at the time (`World.granted_after_revocation`): such a
request takes its principal into the cache when the answer has come, whatever was dropped in the
meantime. So a revocation can be lost while a request for the credential is in flight
(`World.revocation_lost`).

Three facts hold of every run that goes on from a revocation, and each event keeps them: who is in
flight was so at the revocation or has asked since, a principal that the cache holds for the
credential is the work of one of those, and so is one that a later request has come by.
-/

namespace AccessGate

/-- Whether an event drops all that the cache holds for a credential. -/
def Event.revokes (credential : String) : Event → Bool
  | .clearCache => true
  | .invalidate c => c == credential
  | _ => false

/-- Whether the validator was asked for a request whose principal is still to be cached. -/
def Progress.inFlight : Progress → Bool
  | .asking _ | .answered _ _ | .replied _ => true
  | _ => false

/-- The principal that a request has come by. One that is let in unchecked has come by none. -/
def Progress.principal? : Progress → Option Principal
  | .scanned ⟨.hit p, _⟩ _ | .identified p | .decided _ (.ok (p, _)) | .ended (.ok ⟨p, some _⟩) =>
    some p
  | _ => none

/-! ## One step -/

namespace Gate

variable {g : Gate} {r : Request} {now : Moment} {q : Progress} {p : Principal}

/-- A request comes into flight by asking the validator. -/
theorem inFlight_step (h : (g.step r now q).1.inFlight = true) :
    q.inFlight = true ∨ ∃ generation, (g.step r now q).1 = .asking generation := by
  have hcounted (g : Gate) (generation : Option Nat)
      (h : (g.counted generation).1.inFlight = true) :
      ∃ n, (g.counted generation).1 = .asking n := by
    rcases g.counted_cases generation with hasks | ⟨e, hrefused⟩
    · exact hasks
    · rw [hrefused] at h
      cases h
  cases q with
  | asking | answered | replied => exact .inl rfl
  | arrived =>
    simp only [step] at h
    split at h
    · cases h
    · cases hr : g.refusal? r <;> rw [hr] at h <;> cases h
  | accepted | identified | decided | ended => cases h
  | scanned found instant =>
    simp only [step] at h
    cases ha : found.answer <;> rw [ha] at h <;> cases h
  | missed =>
    simp only [step] at h ⊢
    cases hg : g.breaker.state.glance g.breaker.settings now.instant with
    | pass generation =>
      rw [hg] at h
      exact .inr (hcounted _ _ h)
    | refuse =>
      rw [hg] at h
      exact .inr (hcounted _ _ h)
    | elapsed => rw [hg] at h; cases h
  | elapsed => exact .inr (hcounted _ _ h)

/-- A request comes by a principal by a hit of its scan, or by the validator's answer. -/
theorem principal?_step (h : (g.step r now q).1.principal? = some p) :
    q.principal? = some p ∨
      (q = .accepted ∧
        (g.cache.scan (credentialDigest r.credential) r.scope now).answer = .hit p) ∨
      ∃ reply, q = .replied reply ∧ g.principalOf reply now.wall = .ok p := by
  have hcounted (g : Gate) (generation : Option Nat) :
      (g.counted generation).1.principal? ≠ some p := by
    intro h
    rcases g.counted_cases generation with ⟨n, hasks⟩ | ⟨e, hrefused⟩
    · rw [hasks] at h
      cases h
    · rw [hrefused] at h
      cases h
  cases q with
  | arrived =>
    simp only [step] at h
    split at h
    · cases h
    · cases hr : g.refusal? r <;> rw [hr] at h <;> cases h
  | accepted =>
    refine .inr (.inl ⟨rfl, ?_⟩)
    simp only [step] at h
    cases hs : g.cache.scan (credentialDigest r.credential) r.scope now with
    | mk answer stale =>
      rw [hs] at h
      cases answer with
      | hit p' => exact congrArg Cache.Answer.hit (Option.some.inj h)
      | unknown | miss => cases h
  | scanned found instant =>
    obtain ⟨answer, stale⟩ := found
    cases answer with
    | hit p' => exact .inl h
    | unknown | miss => cases h
  | missed =>
    simp only [step] at h
    cases hg : g.breaker.state.glance g.breaker.settings now.instant with
    | pass generation =>
      rw [hg] at h
      exact absurd h (hcounted _ _)
    | refuse =>
      rw [hg] at h
      exact absurd h (hcounted _ _)
    | elapsed => rw [hg] at h; cases h
  | elapsed => exact absurd h (hcounted _ _)
  | asking => cases h
  | answered generation result => cases result <;> cases h
  | replied reply =>
    simp only [step, identify] at h
    cases hp : g.principalOf reply now.wall with
    | ok p' =>
      rw [hp] at h
      exact .inr (.inr ⟨reply, rfl, hp.trans (congrArg Except.ok (Option.some.inj h))⟩)
    | error e => rw [hp] at h; cases h
  | identified p' =>
    simp only [step, check] at h
    cases hd : Access.decide g.domain g.ownership p'
      ⟨r.operation, (g.operations.rule r.operation).permission, r.scope⟩ with
    | ok pattern => rw [hd] at h; exact .inl h
    | error e => rw [hd] at h; cases h
  | decided id result =>
    cases result with
    | ok decided => exact .inl h
    | error e => cases h
  | ended => exact .inl h

end Gate

namespace World

variable {w : World} {cut after : List (Moment × Event)} {now : Moment} {e : Event} {i : Nat}
  {r : Request} {q : Progress} {p : Principal} {reply : ValidationReply} {credential scope : String}

/-- After a revocation the cache holds no principal for the credential. -/
theorem get?_of_revokes (h : e.revokes credential = true) (scope : String) :
    (w.apply now e).gate.cache.entries.get?
      (Cache.scopedKey (credentialDigest credential) scope) = none := by
  cases e with
  | clearCache => rfl
  | invalidate c =>
    obtain rfl := beq_iff_eq.1 h
    simp only [apply, Gate.invalidate, Cache.get?_invalidate]
    exact if_pos ((Cache.isKeyOf_scopedKey _ _ _).2 rfl)
  | request | step | answer | upkeep | tend | probe | registerScope | unregisterScope
  | resetBreaker => cases h

/-- A revocation leaves the requests alone. -/
theorem requests_of_revokes (h : e.revokes credential = true) :
    (w.apply now e).requests = w.requests := by
  cases e with
  | clearCache | invalidate => rfl
  | request | step | answer | upkeep | tend | probe | registerScope | unregisterScope
  | resetBreaker => cases h

/-! ## Who asks the validator -/

/-- The request that asks the validator by an event, if one does. -/
def asks? (w : World) (now : Moment) : Event → Option Nat
  | .step i =>
    match w.requests[i]? with
    | none => none
    | some (r, q) =>
      if q.inFlight then none
      else
        match (w.gate.step r now q).1 with
        | .asking _ => some i
        | _ => none
  | _ => none

/-- The requests that ask the validator in the course of events. -/
def asked (w : World) : List (Moment × Event) → List Nat
  | [] => []
  | (now, e) :: events => (w.asks? now e).toList ++ (w.apply now e).asked events

/-- One more event may ask the validator once more. -/
theorem asked_concat (w : World) (events : List (Moment × Event)) (e : Moment × Event) :
    w.asked (events ++ [e]) = w.asked events ++ ((w.run events).asks? e.1 e.2).toList := by
  induction events generalizing w with
  | nil => exact List.append_nil _
  | cons e' events ih =>
    rw [List.cons_append, asked, asked, ih, List.append_assoc]
    rfl

/-- When a world went on with some events, the answer to a request was still to come: the request
was in flight, or has asked the validator since. -/
def Queried (w : World) (after : List (Moment × Event)) (i : Nat) (r : Request) : Prop :=
  i ∈ w.asked after ∨ ∃ q, w.requests[i]? = some (r, q) ∧ q.inFlight = true

/-- What was queried stays queried. -/
theorem Queried.concat (h : w.Queried after i r) (e : Moment × Event) :
    w.Queried (after ++ [e]) i r := by
  rw [Queried, asked_concat]
  exact h.imp_left (List.mem_append_left _)

/-- A request that is in flight has asked the validator, or was in flight from the start. -/
theorem queried_of_inFlight (w : World) (after : List (Moment × Event))
    (hget : (w.run after).requests[i]? = some (r, q)) (hq : q.inFlight = true) :
    w.Queried after i r := by
  refine stood_induction (P := fun after q => q.inFlight = true → w.Queried after i r) ?_ ?_ ?_ ?_ ?_
    after hget hq
  · exact fun q hstood hq => .inr ⟨q, hstood, hq⟩
  · rintro after ⟨⟩
  · exact fun after e q h hq => (h hq).concat e
  · intro after now q hstood h hq
    cases hbefore : q.inFlight with
    | true => exact (h hbefore).concat _
    | false =>
      left
      rcases Gate.inFlight_step hq with hin | ⟨generation, hasks⟩
      · rw [hbefore] at hin
        cases hin
      · have hnow : (w.run after).asks? now (.step i) = some i := by
          simp only [asks?, hstood, hbefore, hasks, Bool.false_eq_true, if_false]
        rw [asked_concat, hnow]
        exact List.mem_append_right _ (List.mem_singleton_self i)
  · exact fun after generation result h _ => h rfl

/-! ## What is known after a revocation -/

/-- In a run that goes on from `cut`, the answer that vouched for a principal, to a request with the
digest of a credential and with a scope, was still to come at the end of `cut`. -/
def Renewed (w : World) (cut after : List (Moment × Event)) (credential scope : String)
    (p : Principal) : Prop :=
  ∃ stored j r reply, Vouched w (cut ++ after) stored j r reply p ∧
    credentialDigest r.credential = credentialDigest credential ∧ r.scope = scope ∧
    (w.run cut).Queried after j r

/-- What was renewed stays renewed. -/
theorem Renewed.concat (h : Renewed w cut after credential scope p) (e : Moment × Event) :
    Renewed w cut (after ++ [e]) credential scope p := by
  obtain ⟨stored, j, r, reply, hvouched, hdigest, hscope, hqueried⟩ := h
  have hinit : cut ++ after <+: cut ++ (after ++ [e]) := by
    rw [← List.append_assoc]
    exact List.prefix_append _ _
  exact ⟨stored, j, r, reply, hvouched.mono hinit, hdigest, hscope, hqueried.concat e⟩

section

variable (hrequests : w.requests = []) (hcache : w.gate.cache.entries = .empty)

include hrequests hcache

/-- A request that takes its principal into the cache was vouched for by an answer that was still
to come. -/
theorem renewed_of_replied (hget : (w.run (cut ++ after)).requests[i]? = some (r, .replied reply))
    (hp : (w.run (cut ++ after)).gate.principalOf reply now.wall = .ok p) :
    Renewed w cut (after ++ [(now, .step i)]) r.credential r.scope p := by
  obtain ⟨-, hanswered⟩ := (standing_run hrequests hcache (cut ++ after)).2 i r _ hget
  obtain ⟨hreply, hend⟩ := Gate.principalOf_eq_ok hp
  rw [domain_run] at hreply
  have hvouched : Vouched w (cut ++ after ++ [(now, .step i)]) now i r reply p :=
    ⟨cut ++ after, ⟨List.prefix_refl _, hget⟩, hanswered, hreply, hend⟩
  rw [List.append_assoc] at hvouched
  rw [run_append] at hget
  exact ⟨now, i, r, reply, hvouched, rfl, rfl, (queried_of_inFlight _ _ hget rfl).concat _⟩

/-- While a run goes on from a revocation, the cache holds a principal for the credential only by an
answer that was still to come. -/
theorem renewed_of_known
    (hcut : ∀ scope, (w.run cut).gate.cache.entries.get?
      (Cache.scopedKey (credentialDigest credential) scope) = none)
    (after : List (Moment × Event)) {expires : Instant}
    (hget : (w.run (cut ++ after)).gate.cache.entries.get?
      (Cache.scopedKey (credentialDigest credential) scope) = some ⟨.known p, expires⟩) :
    Renewed w cut after credential scope p := by
  induction after using List.reverseRecOn with
  | nil =>
    rw [List.append_nil, hcut] at hget
    cases hget
  | append_singleton after e ih =>
    rw [← List.append_assoc, run_concat] at hget
    rcases known_apply hget with hold | ⟨i, r, reply, he, hstood, hp, hkey, -⟩
    · exact (ih hold).concat e
    · obtain ⟨hdigest, rfl⟩ := Cache.scopedKey_inj hkey
      obtain ⟨now, event⟩ := e
      obtain rfl : event = .step i := he
      obtain ⟨stored, j, r', reply', hvouched, hsame, rest⟩ :=
        renewed_of_replied hrequests hcache hstood hp
      exact ⟨stored, j, r', reply', hvouched, hsame.trans hdigest.symm, rest⟩

/-- A request that arrives after a revocation of its credential comes by a principal only by an
answer that was still to come. -/
theorem renewed_of_principal?
    (hcut : ∀ scope, (w.run cut).gate.cache.entries.get?
      (Cache.scopedKey (credentialDigest r.credential) scope) = none)
    (hlater : (w.run cut).requests.length ≤ i) (after : List (Moment × Event))
    (hget : (w.run (cut ++ after)).requests[i]? = some (r, q)) (hq : q.principal? = some p) :
    Renewed w cut after r.credential r.scope p := by
  rw [run_append] at hget
  refine stood_induction (w := w.run cut) (P := fun after q => ∀ p, q.principal? = some p →
    Renewed w cut after r.credential r.scope p) ?_ ?_ ?_ ?_ ?_ after hget p hq
  · intro q hstood
    rw [List.getElem?_eq_none hlater] at hstood
    cases hstood
  · rintro after p ⟨⟩
  · exact fun after e q h p hq => (h p hq).concat e
  · intro after now q hstood h p hq
    rw [← run_append] at hstood hq
    rcases Gate.principal?_step hq with hbefore | ⟨rfl, hhit⟩ | ⟨reply, rfl, hp⟩
    · exact (h p hbefore).concat _
    · rcases Cache.fresh?_of_scan_hit hhit with hfresh | hfresh
      · obtain ⟨expires, hknown, -, -⟩ := Cache.fresh?_eq_some_known hfresh
        exact (renewed_of_known hrequests hcache hcut after hknown).concat _
      · -- No principal stands under a digest.
        obtain ⟨expires, hknown, -, -⟩ := Cache.fresh?_eq_some_known hfresh
        obtain ⟨_, _, _, _, _, hkey, _⟩ :=
          (standing_run hrequests hcache (cut ++ after)).1 _ _ _ hknown
        exact absurd hkey.symm (Cache.scopedKey_ne_credentialDigest _ _ _)
    · exact renewed_of_replied hrequests hcache hstood hp
  · rintro after generation result h p ⟨⟩

end

/-! ## Grants after a revocation -/

/-- **A revocation holds for all that is not in flight.** In a run of a new gate in which no two
credentials share a digest, a credential is revoked, and a request for it that arrives later is let
in by a pattern. Then the validator vouched for the principal in answer to a request with the same
credential and scope, which asked after the revocation or was in flight at the time. -/
theorem granted_after_revocation {c : Config} {parts : Gate.Parts} {start : Instant} {g : Gate}
    {before : List (Moment × Event)} {pattern : AccessPattern}
    (hbuild : Gate.build c parts start = .ok g) (hrevokes : e.revokes r.credential = true)
    (hapart : Apart (before ++ [(now, e)] ++ after))
    (hlater : (run { gate := g } before).requests.length ≤ i)
    (hgranted : (run { gate := g } (before ++ [(now, e)] ++ after)).requests[i]? =
      some (r, .ended (.ok ⟨p, some pattern⟩))) :
    ∃ stored j r' reply, r'.credential = r.credential ∧ r'.scope = r.scope ∧
      Vouched { gate := g } (before ++ [(now, e)] ++ after) stored j r' reply p ∧
      (j ∈ (run { gate := g } (before ++ [(now, e)])).asked after ∨
        ∃ q, (run { gate := g } before).requests[j]? = some (r', q) ∧ q.inFlight = true) := by
  obtain ⟨-, hempty⟩ := Gate.build_eq_ok hbuild
  have hsame : (run { gate := g } (before ++ [(now, e)])).requests =
      (run { gate := g } before).requests := by
    rw [run_concat]
    exact requests_of_revokes hrevokes
  have hcut (scope : String) : (run { gate := g } (before ++ [(now, e)])).gate.cache.entries.get?
      (Cache.scopedKey (credentialDigest r.credential) scope) = none := by
    rw [run_concat]
    exact get?_of_revokes hrevokes scope
  obtain ⟨stored, j, r', reply, hvouched, hdigest, hscope, hqueried⟩ :=
    renewed_of_principal? (w := { gate := g }) rfl hempty hcut (hsame ▸ hlater) after hgranted rfl
  have hcredential := hapart r' (hvouched.mem_arrivals rfl) r (mem_arrivals rfl hgranted) hdigest
  rw [Queried, hsame] at hqueried
  exact ⟨stored, j, r', reply, hcredential, hscope, hvouched, hqueried⟩

/-- A request that comes after the revocation of a cached credential is let in on an answer that it
asks for itself. -/
theorem granted_after_revocation_asked :
    let r : Request := ⟨"get", "t", "main"⟩
    let p : Principal :=
      { id := "u", permissions := [{ name := "state:data:read" }], validUntil := ⟨100, 0⟩ }
    let reply : ValidationReply :=
      { valid := true, principalId := some "u", permissions := ["state:data:read"],
        expiresAt := some 100 }
    let before : List (Moment × Event) :=
      [(⟨0, ⟨0, 0⟩⟩, .request r)] ++ List.replicate 4 (⟨1, ⟨0, 0⟩⟩, .step 0) ++
        [(⟨2, ⟨0, 0⟩⟩, .answer 0 (.ok reply))] ++ List.replicate 4 (⟨3, ⟨0, 0⟩⟩, .step 0)
    let after : List (Moment × Event) :=
      [(⟨5, ⟨1, 0⟩⟩, .request r)] ++ List.replicate 4 (⟨6, ⟨1, 0⟩⟩, .step 1) ++
        [(⟨7, ⟨1, 0⟩⟩, .answer 1 (.ok reply))] ++ List.replicate 4 (⟨8, ⟨1, 0⟩⟩, .step 1)
    let revocation : Moment × Event := (⟨4, ⟨1, 0⟩⟩, .invalidate "t")
    ∃ g, Gate.build {} {} 0 = .ok g ∧ Apart (before ++ [revocation] ++ after) ∧
      (run { gate := g } before).requests.length ≤ 1 ∧
      (run { gate := g } (before ++ [revocation] ++ after)).requests[1]? =
        some (r, .ended (.ok ⟨p, some .global⟩)) ∧
      ∃ stored j r' reply, r'.credential = "t" ∧
        Vouched { gate := g } (before ++ [revocation] ++ after) stored j r' reply p ∧
        j ∈ (run { gate := g } (before ++ [revocation])).asked after := by
  intro r p reply before after revocation
  have hapart : Apart (before ++ [revocation] ++ after) := by
    intro r₁ h₁ r₂ h₂ _
    simp only [arrivals, before, after, revocation, List.replicate, List.cons_append,
      List.nil_append, List.filterMap_cons, List.filterMap_nil, List.mem_cons, List.not_mem_nil,
      or_false, or_self] at h₁ h₂
    rw [h₁, h₂]
  obtain ⟨g, hbuild, hlater, hquiet, hgranted⟩ : ∃ g, Gate.build {} {} 0 = .ok g ∧
      (run { gate := g } before).requests.length ≤ 1 ∧
      (∀ x ∈ (run { gate := g } before).requests, x.2.inFlight = false) ∧
      (run { gate := g } (before ++ [revocation] ++ after)).requests[1]? =
        some (r, .ended (.ok ⟨p, some .global⟩)) :=
    ⟨_, rfl, by decide +kernel, by decide +kernel, by decide +kernel⟩
  refine ⟨g, hbuild, hapart, hlater, hgranted, ?_⟩
  obtain ⟨stored, j, r', reply', hcredential, -, hvouched, hasked | ⟨q, hget, hin⟩⟩ :=
    granted_after_revocation hbuild rfl hapart hlater hgranted
  · exact ⟨stored, j, r', reply', hcredential, hvouched, hasked⟩
  · -- The first request was over at the revocation.
    rw [hquiet _ (List.mem_of_getElem? hget)] at hin
    cases hin

/-- **A revocation can be lost.** A request is in flight when its credential is revoked. Its answer
comes, its principal is cached, and the next request with the credential is let in although nobody
has asked the validator since the revocation. -/
theorem revocation_lost :
    let r : Request := ⟨"get", "t", "main"⟩
    let p : Principal :=
      { id := "u", permissions := [{ name := "state:data:read" }], validUntil := ⟨100, 0⟩ }
    let reply : ValidationReply :=
      { valid := true, principalId := some "u", permissions := ["state:data:read"],
        expiresAt := some 100 }
    let before : List (Moment × Event) :=
      [(⟨0, ⟨0, 0⟩⟩, .request r)] ++ List.replicate 4 (⟨1, ⟨0, 0⟩⟩, .step 0)
    let after : List (Moment × Event) :=
      [(⟨3, ⟨0, 0⟩⟩, .answer 0 (.ok reply))] ++ List.replicate 4 (⟨4, ⟨0, 0⟩⟩, .step 0) ++
        [(⟨5, ⟨1, 0⟩⟩, .request r)] ++ List.replicate 5 (⟨6, ⟨1, 0⟩⟩, .step 1)
    let revocation : Moment × Event := (⟨2, ⟨0, 0⟩⟩, .invalidate "t")
    ∃ g, Gate.build {} {} 0 = .ok g ∧ (run { gate := g } before).requests = [(r, .asking 0)] ∧
      (run { gate := g } (before ++ [revocation] ++ after)).requests[1]? =
        some (r, .ended (.ok ⟨p, some .global⟩)) ∧
      (run { gate := g } (before ++ [revocation])).asked after = [] := by
  intro r p reply before after revocation
  exact ⟨_, rfl, by decide +kernel, by decide +kernel, by decide +kernel⟩

end World

end AccessGate
