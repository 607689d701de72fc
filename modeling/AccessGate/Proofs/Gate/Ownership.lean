import AccessGate.Proofs.Access.Priority
import AccessGate.Proofs.Gate.Course
import AccessGate.Proofs.Ownership.Record

/-!
# Owners take effect at once

A scope changes hands while requests are under way, and nothing but registering and unregistering
changes its owner (`World.ownership_run`). A request asks for the owner in one step only, the one
that decides it (`Gate.check`), for the service that the validator named for the credential
(`World.Warranted.service`). So what counts is the owner at this step, whenever the principal was
made out. The main statement is `World.owner_decides`.
-/

namespace AccessGate

/-! ## What ownership is enough for -/

namespace Access

variable {d : Domain} {o : Ownership} {p : Principal} {r : AccessRequest} {required : String}

/-- The permissions on a scope that owning it is enough for. -/
def OwnerMay (d : Domain) (required : String) : Prop :=
  required = d.nameOf .dataRead ∨ required = d.nameOf .dataWrite ∨
    required = d.nameOf .dataDelete ∨ required = d.nameOf .healthRead

/-- For which permissions ownership suffices, as a proposition. -/
theorem ownershipSuffices_iff : ownershipSuffices d required = true ↔ OwnerMay d required := by
  simp only [ownershipSuffices, OwnerMay, Bool.or_eq_true, beq_iff_eq, or_assoc]

/-- On a scope, ownership holds of a request if owning the scope is enough for it and the service of
the principal is the owner. -/
theorem matchesPattern_serviceOwnership_iff {service : Option String} {gs : List String}
    (hscope : r.scope ≠ "") :
    matchesPattern d o service gs r .serviceOwnership = true ↔
      OwnerMay d r.required ∧ ∃ name, service = some name ∧ o.ownerOf r.scope = some name := by
  have hsome : (!r.scope.isEmpty) = true := by simpa using hscope
  rw [matchesPattern, hsome, Bool.true_and, Bool.and_eq_true, ownershipSuffices_iff]
  refine and_congr_right fun _ => ?_
  cases service with
  | none => simp
  | some name => simp [Ownership.isOwner]

/-- On a scope, a request that no pattern before ownership grants is granted by ownership exactly if
this holds of it. -/
theorem decide_eq_serviceOwnership_iff (hscope : r.scope ≠ "")
    (hnone : ∀ pattern ∈ [AccessPattern.admin, .global, .bound],
      matchesPattern d o p.service (grants d p) r pattern = false) :
    decide d o p r = .ok .serviceOwnership ↔
      OwnerMay d r.required ∧ ∃ name, p.service = some name ∧ o.ownerOf r.scope = some name := by
  have hbefore (other : AccessPattern) (h : other.rank < AccessPattern.serviceOwnership.rank) :
      other ∈ [AccessPattern.admin, .global, .bound] := by
    revert h
    cases other <;> decide
  rw [decide_eq_ok_iff, matchesPattern_serviceOwnership_iff hscope]
  exact and_iff_left fun other h => hnone other (hbefore other h)

end Access

/-- What a check grants it grants to the principal it was made for, as access was decided. -/
theorem Gate.check_eq_ok_iff {g : Gate} {r : Request} {p : Principal} {pattern : AccessPattern} :
    g.check r p = .ok (p, pattern) ↔ Access.decide g.domain g.ownership p
      ⟨r.operation, (g.operations.rule r.operation).permission, r.scope⟩ = .ok pattern := by
  refine ⟨fun h => (check_eq_ok h).2, fun h => ?_⟩
  rw [check, h]
  rfl

/-- The service of a principal is the one that the answer names, if it names one. -/
theorem Principal.service_ofReply {d : Domain} {reply : ValidationReply} {p : Principal}
    (h : ofReply d reply = .ok p) : p.service = reply.service.filter (!·.isEmpty) := by
  obtain ⟨-, id, -, -, rfl⟩ := ofReply_eq_ok_iff.1 h
  obtain ⟨permissions, hgranted⟩ := exists_foldl_grant (reply.permissions.filter d.accepts)
    { id, email := reply.email, username := reply.username
      service := reply.service.filter (!·.isEmpty), validUntil := endOfLife reply.expiresAt }
  rw [hgranted]

namespace Gate

/-- A step of a request changes no owner. -/
theorem ownership_step (g : Gate) (r : Request) (now : Moment) (q : Progress) :
    (g.step r now q).2.ownership = g.ownership := by
  have hcounted (g : Gate) (generation : Option Nat) :
      (g.counted generation).2.ownership = g.ownership := by
    cases generation <;> rfl
  cases q with
  | arrived =>
    simp only [step]
    split
    · rfl
    · cases g.refusal? r <;> rfl
  | scanned found instant => obtain ⟨answer, stale⟩ := found; cases answer <;> rfl
  | missed =>
    simp only [step]
    cases g.breaker.state.glance g.breaker.settings now.instant with
    | pass generation => exact hcounted g (some generation)
    | refuse => exact hcounted g none
    | elapsed => rfl
  | elapsed => exact hcounted _ _
  | answered generation result => cases result <;> rfl
  | replied reply =>
    simp only [step, identify]
    cases g.principalOf reply now.wall <;> rfl
  | accepted | asking | identified | decided | ended => rfl

/-- Upkeep changes no owner. -/
theorem ownership_tend (g : Gate) (now : Instant) (u : Upkeep.Progress) :
    (g.tend now u).2.ownership = g.ownership := by
  cases u with
  | begun task => cases task <;> rfl
  | probing | disabling | degrading | resetting | recovering | enabling | ended => rfl

end Gate

namespace World

variable {w : World} {past : List (Moment × Event)} {now : Moment} {i : Nat} {r : Request}
  {p : Principal}

/-! ## Owners in a run -/

/-- The change of owners that an event makes. -/
def change? : Event → Option Ownership.Change
  | .registerScope scope service => some (.register scope service)
  | .unregisterScope scope => some (.unregister scope)
  | _ => none

/-- The changes of owners in a run. -/
def changes (events : List (Moment × Event)) : List Ownership.Change :=
  events.filterMap fun e => change? e.2

/-- An event changes the owners only if it is a registration or the end of one. -/
theorem ownership_apply (w : World) (now : Moment) (e : Event) :
    (w.apply now e).gate.ownership = w.gate.ownership.after (change? e).toList := by
  cases e with
  | step k =>
    simp only [apply]
    cases w.requests[k]? with
    | none => rfl
    | some request => exact Gate.ownership_step _ _ _ _
  | tend k =>
    simp only [apply]
    cases w.upkeep[k]? with
    | none => rfl
    | some u => exact Gate.ownership_tend _ _ _
  | request | answer | upkeep | probe | clearCache | invalidate | registerScope | unregisterScope
  | resetBreaker => rfl

/-- The owners in a run are those that its changes leave behind. -/
theorem ownership_run (w : World) (events : List (Moment × Event)) :
    (w.run events).gate.ownership = w.gate.ownership.after (changes events) := by
  induction events using List.reverseRecOn with
  | nil => rfl
  | append_singleton events e ih =>
    have hone : changes [e] = (change? e.2).toList := by
      cases h : change? e.2 <;> simp [changes, h]
    have hboth : changes (events ++ [e]) = changes events ++ changes [e] :=
      List.filterMap_append
    rw [run_concat, ownership_apply, ih, hboth, Ownership.after_append, hone]

/-- The principal of a request was made out of an answer for its credential and scope, and its
service is the one that the answer names. -/
theorem Warranted.service (h : Warranted w past i r p) :
    ∃ stored j r' reply, Vouched w past stored j r' reply p ∧
      credentialDigest r'.credential = credentialDigest r.credential ∧ r'.scope = r.scope ∧
      p.service = reply.service.filter (!·.isEmpty) := by
  rcases h with ⟨stored, reply, hvouched⟩ |
    ⟨before, found, took, -, stored, j, r', reply, hvouched, hdigest, hscope, -⟩
  · exact ⟨stored, i, r, reply, hvouched, rfl, rfl,
      Principal.service_ofReply hvouched.answer.2.2.2.1⟩
  · exact ⟨stored, j, r', reply, hvouched.mono took.past_prefix, hdigest, hscope,
      Principal.service_ofReply hvouched.answer.2.2.2.1⟩

/-- The owners of a new gate in a run are those that all changes leave behind, before the run and in
it. -/
theorem ownership_run_build {before : List Ownership.Change} {c : Config} {parts : Gate.Parts}
    {start : Instant} {g : Gate} (hparts : parts.ownership = .after {} before)
    (hbuild : Gate.build c parts start = .ok g) (past : List (Moment × Event)) :
    (run { gate := g } past).gate.ownership = .after {} (before ++ changes past) := by
  have hgate : g.ownership = parts.ownership := by
    unfold Gate.build at hbuild
    cases hv : c.validate with
    | error e => rw [hv] at hbuild; cases hbuild
    | ok u =>
      rw [hv] at hbuild
      obtain rfl := Except.ok.inj hbuild
      rfl
  rw [ownership_run, Ownership.after_append, hgate, hparts]

/-- **The owner at the moment decides.** At every moment of a run of a new gate the registry tells
of all changes made so far. Let a request on a scope come to its decision, for a principal of whom
no pattern before ownership holds. The service of the principal is the one that the validator named,
in its answer to this request or to the one that took the principal into the cache. From this step
on, whatever comes between, the request is decided by a result, and its next step ends it so; and
this is a grant by ownership exactly if owning the scope is enough for the permission it needs, and
the last change of the scope, before the run or in it, made the service its owner. -/
theorem owner_decides {before : List Ownership.Change} {c : Config} {parts : Gate.Parts}
    {start : Instant} {g : Gate} (hparts : parts.ownership = .after {} before)
    (hbuild : Gate.build c parts start = .ok g) :
    (∀ past, (run { gate := g } past).gate.ownership.Record (before ++ changes past)) ∧
    ∀ past now i r p,
      (run { gate := g } past).requests[i]? = some (r, .identified p) → r.scope ≠ "" →
      (∀ pattern ∈ [AccessPattern.admin, .global, .bound],
        Access.matchesPattern g.domain (run { gate := g } past).gate.ownership p.service
          (Access.grants g.domain p)
          ⟨r.operation, (g.operations.rule r.operation).permission, r.scope⟩ pattern = false) →
      (∃ stored j r' reply, Vouched { gate := g } past stored j r' reply p ∧
        credentialDigest r'.credential = credentialDigest r.credential ∧ r'.scope = r.scope ∧
        p.service = reply.service.filter (!·.isEmpty)) ∧
      ∃ result,
        (∀ more, (run { gate := g } (past ++ [(now, .step i)] ++ more)).requests[i]? =
          some (r, if ownSteps i more = 0 then .decided (some p.id) result
            else .ended (authorization result))) ∧
        (result = .ok (p, .serviceOwnership) ↔
          Access.OwnerMay g.domain (g.operations.rule r.operation).permission ∧
            ∃ service, p.service = some service ∧
              Ownership.Latest (before ++ changes past) r.scope service) := by
  have howners := ownership_run_build hparts hbuild
  refine ⟨fun past => ?_, fun past now i r p hget hscope hnone => ?_⟩
  · rw [howners]
    exact Ownership.record_after _
  · obtain ⟨-, hempty⟩ := Gate.build_eq_ok hbuild
    obtain ⟨-, hwarranted⟩ := (standing_run (w := { gate := g }) rfl hempty past).2 i r _ hget
    have hdecided := getElem?_run_step hget now
    refine ⟨hwarranted.service, _, fun more => decided_run hdecided more, ?_⟩
    rw [Gate.check_eq_ok_iff, domain_run, operations_run,
      Access.decide_eq_serviceOwnership_iff hscope hnone]
    simp only [howners, Ownership.ownerOf_after_iff]

/-- The service that owns a scope sets a value on it, and its principal is cached. The principal of
its next request comes from the cache. If the scope then goes to another service before the request
is decided, it is not granted; if the scope stays, it is. -/
theorem owner_decides_from_cache :
    let r : Request := ⟨"set", "t", "main"⟩
    let p : Principal := { id := "u", service := some "svc-a", validUntil := ⟨100, 0⟩ }
    let reply : ValidationReply :=
      { valid := true, principalId := some "u", service := some "svc-a", expiresAt := some 100 }
    let parts : Gate.Parts := { ownership := .after {} [.register "main" "svc-a"] }
    let past (owner : String) : List (Moment × Event) :=
      [(⟨0, ⟨0, 0⟩⟩, .request r)] ++ List.replicate 4 (⟨1, ⟨0, 0⟩⟩, .step 0) ++
        [(⟨2, ⟨0, 0⟩⟩, .answer 0 (.ok reply))] ++ List.replicate 4 (⟨3, ⟨0, 0⟩⟩, .step 0) ++
        [(⟨5, ⟨1, 0⟩⟩, .request r)] ++ List.replicate 3 (⟨6, ⟨1, 0⟩⟩, .step 1) ++
        [(⟨7, ⟨1, 0⟩⟩, .registerScope "main" owner)]
    let last : Moment × Event := (⟨8, ⟨1, 0⟩⟩, .step 1)
    ∃ g, Gate.build {} parts 0 = .ok g ∧
      (run { gate := g } (past "svc-a")).requests[1]? = some (r, .identified p) ∧
      (run { gate := g } (past "svc-b")).requests[1]? = some (r, .identified p) ∧
      (run { gate := g } (past "svc-a" ++ [last])).requests[1]? =
        some (r, .decided (some "u") (.ok (p, .serviceOwnership))) ∧
      ∃ result, (run { gate := g } (past "svc-b" ++ [last])).requests[1]? =
        some (r, .decided (some "u") result) ∧ result ≠ .ok (p, .serviceOwnership) := by
  intro r p reply parts past last
  obtain ⟨g, hbuild, hidentified, hidentified', hnone, hnone', hmay⟩ :
      ∃ g, Gate.build {} parts 0 = .ok g ∧
        (run { gate := g } (past "svc-a")).requests[1]? = some (r, .identified p) ∧
        (run { gate := g } (past "svc-b")).requests[1]? = some (r, .identified p) ∧
        (∀ pattern ∈ [AccessPattern.admin, .global, .bound],
          Access.matchesPattern g.domain (run { gate := g } (past "svc-a")).gate.ownership p.service
            (Access.grants g.domain p)
            ⟨"set", (g.operations.rule "set").permission, "main"⟩ pattern = false) ∧
        (∀ pattern ∈ [AccessPattern.admin, .global, .bound],
          Access.matchesPattern g.domain (run { gate := g } (past "svc-b")).gate.ownership p.service
            (Access.grants g.domain p)
            ⟨"set", (g.operations.rule "set").permission, "main"⟩ pattern = false) ∧
        Access.ownershipSuffices g.domain (g.operations.rule "set").permission = true :=
    ⟨_, rfl, by decide +kernel, by decide +kernel, by decide +kernel, by decide +kernel,
      by decide +kernel⟩
  have hscope : r.scope ≠ "" := by decide
  have hlatest {owner service : String} : Ownership.Latest
      ([.register "main" "svc-a"] ++ changes (past owner)) "main" service ↔ service = owner := by
    refine Cache.Last.concat_iff.trans ⟨fun h => ?_, fun h => .inl (congrArg _ h)⟩
    rcases h with h | ⟨hother, -⟩
    · exact (Ownership.Change.register.inj h).2
    · exact absurd rfl hother
  obtain ⟨-, hdecides⟩ := owner_decides rfl hbuild
  obtain ⟨-, granted, hgranted, hiff⟩ := hdecides _ last.1 1 r p hidentified hscope hnone
  obtain ⟨-, refused, hrefused, hiff'⟩ := hdecides _ last.1 1 r p hidentified' hscope hnone'
  refine ⟨g, hbuild, hidentified, hidentified', ?_, refused, hrefused [], fun h => ?_⟩
  · rw [← hiff.2 ⟨Access.ownershipSuffices_iff.1 hmay, "svc-a", rfl, hlatest.2 rfl⟩]
    exact hgranted []
  · obtain ⟨-, service, hservice, hlast⟩ := hiff'.1 h
    obtain rfl := Option.some.inj hservice
    exact absurd (hlatest.1 hlast) (by decide)

end World

end AccessGate
