import AccessGate.Gate.Authorize

/-!
# What an answer and a request must be like

The validator vouches for somebody only by an answer that calls the credential valid and names an
identity (`Principal.ofReply_eq_ok`), and the gate takes its word only for a principal that is not
past its end (`Gate.principalOf_eq_ok`). It asks only about requests that are well formed
(`Gate.WellFormed`).
-/

namespace AccessGate

/-! ## Answers -/

/-- The answers that vouch for somebody, and for whom. -/
theorem Principal.ofReply_eq_ok_iff {d : Domain} {reply : ValidationReply} {p : Principal} :
    ofReply d reply = .ok p ↔
      reply.valid = true ∧ ∃ id, reply.principalId = some id ∧ id ≠ "" ∧
        (reply.permissions.filter d.accepts).foldl (fun p name => p.grant { name })
          { id, email := reply.email, username := reply.username
            service := reply.service.filter (!·.isEmpty)
            validUntil := endOfLife reply.expiresAt } = p := by
  unfold ofReply
  cases hvalid : reply.valid with
  | false => simp
  | true =>
    simp only [Bool.not_true, Bool.false_eq_true, if_false, true_and]
    cases hid : reply.principalId.filter (!·.isEmpty) with
    | none =>
      simp only [reduceCtorEq, false_iff]
      rintro ⟨id, hsome, hne, -⟩
      rw [hsome, Option.filter_some, if_pos (by simpa using hne)] at hid
      cases hid
    | some id =>
      obtain ⟨hsome, hne⟩ := Option.filter_eq_some_iff.1 hid
      rw [hsome]
      simp only [Except.ok.injEq, Option.some.injEq, exists_eq_left']
      exact ⟨fun h => ⟨by simpa using hne, h⟩, And.right⟩

/-- Granting permissions changes nothing but the permissions. -/
theorem Principal.exists_foldl_grant (names : List String) (p : Principal) :
    ∃ permissions, names.foldl (fun p name => p.grant { name }) p = { p with permissions } := by
  induction names generalizing p with
  | nil => exact ⟨p.permissions, rfl⟩
  | cons name names ih =>
    obtain ⟨permissions, h⟩ := ih (p.grant { name })
    refine ⟨permissions, ?_⟩
    rw [List.foldl_cons, h, grant]
    split <;> rfl

/-- An answer vouches for somebody only if it calls the credential valid and names an identity, and
it says when the principal is at its end. -/
theorem Principal.ofReply_eq_ok {d : Domain} {reply : ValidationReply} {p : Principal}
    (h : ofReply d reply = .ok p) :
    reply.valid = true ∧ reply.principalId = some p.id ∧ p.id ≠ "" ∧
      p.validUntil = endOfLife reply.expiresAt := by
  obtain ⟨hvalid, id, hid, hne, rfl⟩ := ofReply_eq_ok_iff.1 h
  obtain ⟨permissions, hgranted⟩ := exists_foldl_grant (reply.permissions.filter d.accepts)
    { id, email := reply.email, username := reply.username
      service := reply.service.filter (!·.isEmpty), validUntil := endOfLife reply.expiresAt }
  rw [hgranted]
  exact ⟨hvalid, hid, hne, rfl⟩

/-- Whatever permissions are granted by name are bound to no scope and were named. -/
theorem Principal.mem_permissions_foldl_grant {names : List String} {p : Principal}
    {q : Permission} (h : q ∈ (names.foldl (fun p name => p.grant { name }) p).permissions) :
    q ∈ p.permissions ∨ q.scope = none ∧ q.name ∈ names := by
  induction names generalizing p with
  | nil => exact .inl h
  | cons name names ih =>
    rw [List.foldl_cons] at h
    rcases ih h with hq | ⟨hscope, hname⟩
    · unfold grant at hq
      split at hq
      · exact .inl hq
      · rcases List.mem_append.1 hq with hq | hq
        · exact .inl hq
        · obtain rfl := List.mem_singleton.1 hq
          exact .inr ⟨rfl, List.mem_cons_self⟩
    · exact .inr ⟨hscope, List.mem_cons_of_mem _ hname⟩

/-- The permissions that an answer grants are bound to no scope, and are names of the domain. -/
theorem Principal.of_mem_permissions_ofReply {d : Domain} {reply : ValidationReply} {p : Principal}
    (h : ofReply d reply = .ok p) {q : Permission} (hq : q ∈ p.permissions) :
    q.scope = none ∧ d.accepts q.name = true := by
  obtain ⟨-, id, -, -, rfl⟩ := ofReply_eq_ok_iff.1 h
  rcases mem_permissions_foldl_grant hq with hnone | ⟨hscope, hname⟩
  · cases hnone
  · exact ⟨hscope, (List.mem_filter.1 hname).2⟩

namespace Gate

/-- The principal of an answer is the one that it vouches for, and is not past its end. -/
theorem principalOf_eq_ok {g : Gate} {reply : ValidationReply} {now : Timestamp} {p : Principal}
    (h : g.principalOf reply now = .ok p) :
    Principal.ofReply g.domain reply = .ok p ∧ p.isExpired now = false := by
  unfold principalOf at h
  cases hp : Principal.ofReply g.domain reply with
  | error e => rw [hp] at h; cases h
  | ok q =>
    rw [hp] at h
    simp only [bind, Except.bind] at h
    cases hq : q.isExpired now with
    | true => rw [hq] at h; cases h
    | false =>
      rw [hq] at h
      obtain rfl := Except.ok.inj h
      exact ⟨rfl, hq⟩

/-! ## Requests -/

/-- A request that has a credential, and a scope that can be one where the operation needs it. -/
def WellFormed (operations : OperationTable) (r : Request) : Prop :=
  r.credential ≠ "" ∧
    (r.scope = "" ∧ (operations.rule r.operation).requiresScope = false ∨
      validateScope r.scope = .ok ())

/-- A request that is not refused before anything else is looked at is well formed. -/
theorem wellFormed_of_refusal? {g : Gate} {r : Request} (h : g.refusal? r = none) :
    WellFormed g.operations r := by
  unfold refusal? at h
  split at h
  · cases h
  · next hcredential =>
    refine ⟨by simpa using hcredential, ?_⟩
    split at h
    · next hscope =>
      refine .inl ⟨by simpa using hscope, ?_⟩
      cases hs : g.requiresScope r.operation with
      | true => rw [hs] at h; cases h
      | false => exact hs
    · cases hv : validateScope r.scope with
      | ok u => exact .inr rfl
      | error e => rw [hv] at h; cases h

/-- Exactly the well-formed requests are not refused before anything else is looked at. -/
theorem refusal?_eq_none_iff {g : Gate} {r : Request} :
    g.refusal? r = none ↔ WellFormed g.operations r := by
  refine ⟨wellFormed_of_refusal?, ?_⟩
  rintro ⟨hcredential, hscope⟩
  rw [refusal?, if_neg (by simpa using hcredential)]
  rcases hscope with ⟨hempty, hfree⟩ | hvalid
  · rw [if_pos (by simp [hempty]), requiresScope, hfree]
    rfl
  · have hne : r.scope ≠ "" := (validateScope_eq_ok_iff.1 hvalid).1
    rw [if_neg (by simpa using hne), hvalid]

/-! ## Decisions -/

/-- Access is granted to the principal that it was checked for, by a pattern that holds of it. -/
theorem check_eq_ok {g : Gate} {r : Request} {p p' : Principal} {pattern : AccessPattern}
    (h : g.check r p = .ok (p', pattern)) :
    p' = p ∧ Access.decide g.domain g.ownership p
      ⟨r.operation, (g.operations.rule r.operation).permission, r.scope⟩ = .ok pattern := by
  unfold check at h
  cases hd : Access.decide g.domain g.ownership p
      ⟨r.operation, (g.operations.rule r.operation).permission, r.scope⟩ with
  | error e => rw [hd] at h; cases h
  | ok pattern' =>
    rw [hd] at h
    obtain ⟨rfl, rfl⟩ := Prod.mk.inj (Except.ok.inj h)
    exact ⟨rfl, rfl⟩

/-- Access is denied with an error that names the operation and the scope, and nothing else. -/
theorem check_eq_error {g : Gate} {r : Request} {p : Principal} {e : Error}
    (h : g.check r p = .error e) : e = .permissionDenied r.operation r.scope := by
  unfold check Access.decide at h
  cases hp : Access.pattern? g.domain g.ownership p
      ⟨r.operation, (g.operations.rule r.operation).permission, r.scope⟩ with
  | some pattern => rw [hp] at h; cases h
  | none =>
    rw [hp] at h
    exact (Except.error.inj h).symm

end Gate

end AccessGate
