import AccessGate.Proofs.Audit.Arrivals
import AccessGate.Proofs.Gate.Contact
import AccessGate.Proofs.Message.Delivery

/-!
# The audit trail

The step by which a request comes to its end, and no other event, tells the audit log of it
(`Gate.tells`, `World.trail`). So the trail has exactly one record for each request that is over
(`World.nodup_trail`, `World.mem_trail_iff_ended`), and all of it arrives at every sink
(`World.received_trail`). What a record says is true of the request: where it was decided, it names
the principal whose access was checked (`World.sourced_run`). The main statement is
`World.one_truthful_record`.
-/

namespace AccessGate

namespace Gate

variable {g : Gate} {r : Request} {now : Moment} {q : Progress} {entry : AuditEntry}

/-- What a step of a request tells the audit log. -/
def tells (g : Gate) (r : Request) : Progress → Option AuditEntry
  | .arrived =>
    if g.enabled then none
    else some { operation := r.operation, scope := r.scope, outcome := .bypassed }
  | .decided principalId result => some (auditEntry r principalId result)
  | _ => none

/-- A step writes what it tells, and nothing else. -/
theorem audit_step_eq_tells (g : Gate) (r : Request) (now : Moment) (q : Progress) :
    (g.step r now q).2.audit = (g.tells r q).elim g.audit g.audit.record := by
  rw [audit_step]
  cases q with
  | arrived => cases h : g.enabled <;> simp [tells, h, bypass]
  | accepted | scanned | missed | elapsed | asking | answered | replied | identified | decided
  | ended => rfl

/-- A step that tells of a request is its last. -/
theorem ended_of_tells (h : g.tells r q = some entry) (now : Moment) :
    ∃ result, (g.step r now q).1 = .ended result := by
  cases q with
  | arrived =>
    cases hon : g.enabled with
    | true => simp [tells, hon] at h
    | false => exact ⟨.ok ⟨.anonymous, none⟩, by simp [step, hon, bypass]⟩
  | decided principalId result => exact ⟨_, rfl⟩
  | accepted | scanned | missed | elapsed | asking | answered | replied | identified | ended =>
    cases h

/-- The step that brings a request to its end tells of it. -/
theorem tells_of_ended {result : Except Error Authorization} (hq : q.rests = false)
    (h : (g.step r now q).1 = .ended result) : ∃ entry, g.tells r q = some entry := by
  have hcounted (g : Gate) (generation : Option Nat) :
      (g.counted generation).1 ≠ .ended result := by
    rcases g.counted_cases generation with ⟨n, hn⟩ | ⟨e, he⟩ <;> simp [*]
  cases q with
  | arrived =>
    cases hon : g.enabled with
    | false => exact ⟨{ operation := r.operation, scope := r.scope, outcome := .bypassed },
        by simp [tells, hon]⟩
    | true =>
      simp only [step, hon] at h
      cases hr : g.refusal? r <;> simp [hr] at h
  | decided principalId result => exact ⟨_, rfl⟩
  | scanned found instant =>
    simp only [step] at h
    cases ha : found.answer <;> simp [ha] at h
  | missed =>
    simp only [step] at h
    cases hg : g.breaker.state.glance g.breaker.settings now.instant <;> simp [hg, hcounted] at h
  | elapsed => exact absurd h (hcounted _ _)
  | answered generation result => cases result <;> cases h
  | replied reply =>
    simp only [step] at h
    cases hi : g.identify r now reply with
    | mk principal g' => cases principal <;> simp [hi] at h
  | accepted | identified => cases h
  | asking | ended => cases hq

end Gate

namespace World

variable {w : World} {events past past' more : List (Moment × Event)} {now now' : Moment}
  {e : Event} {i : Nat} {r r' : Request} {q q' : Progress} {entry : AuditEntry}
  {p : Principal} {result : Except Error Authorization}
  {decision : Except Error (Principal × AccessPattern)}

/-! ## The trail of a run -/

/-- What an event tells the audit log, and of which request. -/
def tells? (w : World) : Event → Option (Nat × AuditEntry)
  | .step i =>
    match w.requests[i]? with
    | none => none
    | some (r, q) => (w.gate.tells r q).map (i, ·)
  | _ => none

/-- The records of a run, each with the request that it is about. -/
def trail (w : World) : List (Moment × Event) → List (Nat × AuditEntry)
  | [] => []
  | (now, e) :: events => (w.tells? e).toList ++ (w.apply now e).trail events

/-- One more event adds to the trail what it tells. -/
theorem trail_concat (w : World) (events : List (Moment × Event)) (e : Moment × Event) :
    w.trail (events ++ [e]) = w.trail events ++ ((w.run events).tells? e.2).toList := by
  induction events generalizing w with
  | nil => exact List.append_nil _
  | cons e' events ih =>
    rw [List.cons_append, trail, trail, ih, List.append_assoc]
    rfl

/-- An event tells an entry exactly if it is a step of a request that tells it. -/
theorem tells?_eq_some_iff :
    w.tells? e = some (i, entry) ↔
      e = .step i ∧ ∃ r q, w.requests[i]? = some (r, q) ∧ w.gate.tells r q = some entry := by
  cases e with
  | step k =>
    simp only [tells?]
    cases hk : w.requests[k]? with
    | none =>
      constructor
      · intro h
        cases h
      · rintro ⟨he, r, q, hget, -⟩
        obtain rfl := Event.step.inj he
        rw [hk] at hget
        cases hget
    | some request =>
      obtain ⟨r, q⟩ := request
      constructor
      · intro h
        obtain ⟨entry', htells, heq⟩ := Option.map_eq_some_iff.1 h
        obtain ⟨rfl, rfl⟩ := Prod.mk.inj heq
        exact ⟨rfl, r, q, hk, htells⟩
      · rintro ⟨he, r', q', hget, htells⟩
        obtain rfl := Event.step.inj he
        obtain ⟨rfl, rfl⟩ := Prod.mk.inj (Option.some.inj (hk.symm.trans hget))
        simp only [htells, Option.map_some]
  | request | answer | upkeep | tend | probe | clearCache | invalidate | registerScope
  | unregisterScope | resetBreaker => simp [tells?]

/-- What an event does to the audit log: it hands on what it tells. -/
theorem audit_apply (w : World) (now : Moment) (e : Event) :
    (w.apply now e).gate.audit =
      ((w.tells? e).toList.map Prod.snd).foldl AuditLog.record w.gate.audit := by
  cases e with
  | step i =>
    simp only [apply, tells?]
    cases w.requests[i]? with
    | none => rfl
    | some request =>
      obtain ⟨r, q⟩ := request
      simp only [Gate.audit_step_eq_tells]
      cases w.gate.tells r q <;> rfl
  | tend i =>
    simp only [apply]
    cases w.upkeep[i]? with
    | none => rfl
    | some u =>
      cases u with
      | begun task => cases task <;> rfl
      | probing | disabling | degrading | resetting | recovering | enabling | ended => rfl
  | request | answer | upkeep | probe | clearCache | invalidate | registerScope | unregisterScope
  | resetBreaker => rfl

/-- An event that is not the step of a request leaves the audit log alone. -/
theorem audit_apply_of_not_step (h : ∀ i, e ≠ .step i) (now : Moment) :
    (w.apply now e).gate.audit = w.gate.audit := by
  rw [audit_apply]
  cases e with
  | step i => exact absurd rfl (h i)
  | request | answer | upkeep | tend | probe | clearCache | invalidate | registerScope
  | unregisterScope | resetBreaker => rfl

/-- The audit log of a run is the one before, with the trail handed on. -/
theorem audit_run (w : World) (events : List (Moment × Event)) :
    (w.run events).gate.audit =
      ((w.trail events).map Prod.snd).foldl AuditLog.record w.gate.audit := by
  induction events using List.reverseRecOn with
  | nil => rfl
  | append_singleton events e ih =>
    rw [run_concat, trail_concat, audit_apply, ih, List.map_append, List.foldl_append]

/-- The trail arrives at every sink. -/
theorem received_trail (w : World) (events : List (Moment × Event)) :
    AuditLog.Received w.gate.audit (w.run events).gate.audit
      ((w.trail events).map Prod.snd) := by
  rw [audit_run]
  exact AuditLog.received_foldl_record _ _

/-! ## One record for each request -/

/-- The records of a run are those that steps of requests told. -/
theorem mem_trail_iff :
    (i, entry) ∈ w.trail events ↔
      ∃ past now r q, Took w events past now i r q ∧ (w.run past).gate.tells r q = some entry := by
  induction events using List.reverseRecOn with
  | nil => simp [trail, not_took_nil]
  | append_singleton events e ih =>
    rw [trail_concat, List.mem_append, ih, Option.mem_toList, tells?_eq_some_iff]
    simp only [took_concat_iff, or_and_right, exists_or]
    refine or_congr_right ⟨?_, ?_⟩
    · rintro ⟨he, r, q, hstood, htells⟩
      exact ⟨events, e.1, r, q, ⟨rfl, Prod.ext rfl he, hstood⟩, htells⟩
    · rintro ⟨past, now, r, q, ⟨rfl, rfl, hstood⟩, htells⟩
      exact ⟨rfl, r, q, hstood, htells⟩

/-- After the step that told of it, a request is over for good. -/
theorem Took.ended (took : Took w events past now i r q)
    (htells : (w.run past).gate.tells r q = some entry) :
    ∃ result, ((w.run past).gate.step r now q).1 = .ended result ∧
      (w.run events).requests[i]? = some (r, .ended result) := by
  obtain ⟨result, hresult⟩ := Gate.ended_of_tells htells now
  obtain ⟨more, rfl⟩ := took.happened
  have hget := getElem?_run_step took.stood now
  rw [hresult] at hget
  exact ⟨result, hresult, ended_run hget more⟩

/-- A request is over exactly if the trail has a record of it. -/
theorem mem_trail_iff_ended (hnew : w.requests.length ≤ i) (events : List (Moment × Event)) :
    (∃ entry, (i, entry) ∈ w.trail events) ↔
      ∃ r result, (w.run events).requests[i]? = some (r, .ended result) := by
  constructor
  · rintro ⟨entry, hmem⟩
    obtain ⟨past, now, r, q, took, htells⟩ := mem_trail_iff.1 hmem
    obtain ⟨result, -, hget⟩ := took.ended htells
    exact ⟨r, result, hget⟩
  · rintro ⟨r, result, hget⟩
    refine stood_induction
      (P := fun events q => ∀ result, q = .ended result → ∃ entry, (i, entry) ∈ w.trail events)
      ?_ (by simp) ?_ ?_ (by simp) events hget result rfl
    · intro q hstood
      rw [List.getElem?_eq_none hnew] at hstood
      cases hstood
    · intro events e q h result hq
      obtain ⟨entry, hmem⟩ := h result hq
      rw [trail_concat]
      exact ⟨entry, List.mem_append_left _ hmem⟩
    · intro events now q hstood h result hstep
      rw [trail_concat]
      cases hq : q.rests with
      | true =>
        rw [Gate.step_of_rests _ _ _ hq] at hstep
        obtain ⟨entry, hmem⟩ := h result hstep
        exact ⟨entry, List.mem_append_left _ hmem⟩
      | false =>
        obtain ⟨entry, htells⟩ := Gate.tells_of_ended hq hstep
        refine ⟨entry, List.mem_append_right _ (Option.mem_toList.2 ?_)⟩
        exact tells?_eq_some_iff.2 ⟨rfl, r, q, hstood, htells⟩

/-- No request has two records in the trail. -/
theorem nodup_trail (w : World) (events : List (Moment × Event)) :
    ((w.trail events).map Prod.fst).Nodup := by
  induction events using List.reverseRecOn with
  | nil => exact .nil
  | append_singleton events e ih =>
    rw [trail_concat, List.map_append]
    cases ht : (w.run events).tells? e.2 with
    | none => simpa using ih
    | some x =>
      obtain ⟨i, entry⟩ := x
      refine List.nodup_append.2 ⟨ih, by simp, ?_⟩
      -- A request that was told of before has no step left that tells of it.
      rintro j hj k hk rfl
      obtain rfl : j = i := by simpa using hk
      obtain ⟨⟨j, entry'⟩, hmem, rfl⟩ := List.mem_map.1 hj
      obtain ⟨past, now, r, q, took, htells⟩ := mem_trail_iff.1 hmem
      obtain ⟨result, -, hget⟩ := took.ended htells
      obtain ⟨-, r', q', hget', htells'⟩ := tells?_eq_some_iff.1 ht
      obtain ⟨rfl, rfl⟩ := stood_unique hget hget'
      cases htells'

/-! ## What a record says -/

/-- What is known of a request that was decided: it failed before it had a principal, or this is
what was decided of its principal. -/
def Sourced (w : World) (events : List (Moment × Event)) (i : Nat) (r : Request) : Progress → Prop
  | .decided principalId decision =>
    (principalId = none ∧ ∃ e, decision = .error e) ∨
      ∃ p, principalId = some p.id ∧ Checked w events i r p decision
  | _ => True

theorem Sourced.mono {events' : List (Moment × Event)} (hp : events <+: events')
    (h : Sourced w events i r q) : Sourced w events' i r q := by
  cases q with
  | decided principalId decision =>
    exact h.imp_right fun ⟨p, hid, hchecked⟩ => ⟨p, hid, hchecked.mono hp⟩
  | arrived | accepted | scanned | missed | elapsed | asking | answered | replied | identified
  | ended => trivial

/-- Being let through or refused comes from where it should. -/
theorem sourced_counted (g : Gate) (generation : Option Nat) :
    Sourced w events i r (g.counted generation).1 := by
  cases generation with
  | some generation => trivial
  | none => exact .inl ⟨rfl, _, rfl⟩

/-- A step leaves a request at a place that it has come to. -/
theorem sourced_step (hstood : (w.run events).requests[i]? = some (r, q)) :
    Sourced w (events ++ [(now, .step i)]) i r ((w.run events).gate.step r now q).1 := by
  cases q with
  | arrived =>
    simp only [Gate.step]
    cases (w.run events).gate.enabled with
    | false => trivial
    | true =>
      cases (w.run events).gate.refusal? r with
      | some e => exact .inl ⟨rfl, e, rfl⟩
      | none => trivial
  | scanned found instant =>
    simp only [Gate.step]
    cases found.answer with
    | unknown => exact .inl ⟨rfl, _, rfl⟩
    | hit | miss => trivial
  | missed =>
    simp only [Gate.step]
    cases (w.run events).gate.breaker.state.glance (w.run events).gate.breaker.settings
      now.instant with
    | pass | refuse => exact sourced_counted _ _
    | elapsed => trivial
  | elapsed => exact sourced_counted _ _
  | answered generation answer =>
    cases answer with
    | error e => exact .inl ⟨rfl, e, rfl⟩
    | ok reply => trivial
  | replied reply =>
    simp only [Gate.step]
    cases (w.run events).gate.identify r now reply with
    | mk principal g' =>
      cases principal with
      | error e => exact .inl ⟨rfl, e, rfl⟩
      | ok p => trivial
  | identified p =>
    exact .inr ⟨p, rfl, events, now, ⟨List.prefix_refl _, hstood⟩, rfl⟩
  | accepted | asking | decided | ended => trivial

/-- In every run that a request arrives in, it is known what its decision is about. -/
theorem sourced_run (hnew : w.requests.length ≤ i) (events : List (Moment × Event))
    (hget : (w.run events).requests[i]? = some (r, q)) : Sourced w events i r q := by
  refine stood_induction (P := fun events => Sourced w events i r) ?_ (fun _ => trivial)
    (fun _ _ _ => Sourced.mono (List.prefix_append _ _))
    (fun _ _ _ hstood _ => sourced_step hstood) (fun _ _ _ _ => trivial) events hget
  intro q hstood
  rw [List.getElem?_eq_none hnew] at hstood
  cases hstood

/-- A request whose access was checked is decided as the check came out. -/
theorem Checked.of_decided {principalId : Option String}
    {decision' : Except Error (Principal × AccessPattern)} (h : Checked w events i r p decision)
    (took : Took w events past now i r (.decided principalId decision')) :
    principalId = some p.id ∧ decision' = decision := by
  obtain ⟨past', now', took', rfl⟩ := h
  obtain ⟨more, rfl⟩ := took'.follows took (Nat.lt_succ_self 8)
  obtain ⟨q', hget, hstage⟩ := stage_run (getElem?_run_step took'.stood now') more
  obtain ⟨-, rfl⟩ := stood_unique took.stood hget
  rcases hstage with hsame | hlt
  · exact Progress.decided.inj hsame
  · exact absurd hlt (Nat.lt_irrefl 9)

/-- A request that is granted was resolved to the principal that it is granted for. -/
theorem Took.granted (hnew : w.requests.length ≤ i) {principalId : Option String}
    {pattern : AccessPattern}
    (took : Took w events past now i r (.decided principalId (.ok (p, pattern)))) :
    principalId = some p.id ∧ Checked w events i r p (.ok (p, pattern)) := by
  rcases sourced_run hnew past took.stood with ⟨-, e, he⟩ | ⟨p', hid, hchecked⟩
  · cases he
  · obtain ⟨past', now', took', hcheck⟩ := hchecked.mono took.past_prefix
    obtain ⟨rfl, -⟩ := Gate.check_eq_ok hcheck
    exact ⟨hid, past', now', took', hcheck⟩

/-- No access was checked of a request that was let in unchecked. -/
theorem Took.not_checked (took : Took w events past now i r .arrived)
    (hoff : (w.run past).gate.enabled = false) : ¬ Checked w events i r p decision := by
  rintro ⟨past', now', took', -⟩
  have hfirst : Took w past' past now i r .arrived :=
    ⟨took.follows took' (Nat.succ_pos 7), took.stood⟩
  have htells : (w.run past).gate.tells r .arrived =
      some { operation := r.operation, scope := r.scope, outcome := .bypassed } := by
    simp [Gate.tells, hoff]
  obtain ⟨result, -, hget⟩ := hfirst.ended htells
  obtain ⟨-, hq⟩ := stood_unique took'.stood hget
  cases hq

/-- That what a record says of a request is true. -/
structure Truthful (w : World) (events : List (Moment × Event)) (i : Nat) (r : Request)
    (result : Except Error Authorization) (entry : AuditEntry) : Prop where
  operation : entry.operation = r.operation
  scope : entry.scope = r.scope
  granted : ∀ pattern, entry.outcome = .granted pattern ↔
    ∃ a, result = .ok a ∧ a.pattern = some pattern
  bypassed : entry.outcome = .bypassed ↔ ∃ a, result = .ok a ∧ a.pattern = none
  denied : ∀ reason, entry.outcome = .denied reason ↔
    ∃ e, result = .error e ∧ e.kind.name = reason
  /-- A request that was let in by a pattern was resolved to its principal. -/
  resolved : ∀ a pattern, result = .ok a → a.pattern = some pattern →
    Checked w events i r a.principal (.ok (a.principal, pattern))
  /-- It names the principal that was let in, or the one that was denied access. -/
  principal : ∀ id, entry.principalId = some id ↔
    (∃ a pattern, result = .ok a ∧ a.pattern = some pattern ∧ a.principal.id = id) ∨
    ∃ p e, Checked w events i r p (.error e) ∧ result = .error e ∧ p.id = id
  credential : entry.credential =
    if entry.outcome = .bypassed ∨ r.credential = "" then none
    else some (fingerprint r.credential)

/-- A record of a request that passed while authorization was off is true. -/
theorem truthful_bypass (took : Took w events past now i r .arrived)
    (hoff : (w.run past).gate.enabled = false) :
    Truthful w events i r (.ok ⟨.anonymous, none⟩)
      { operation := r.operation, scope := r.scope, outcome := .bypassed } where
  operation := rfl
  scope := rfl
  granted pattern := by simp
  bypassed := by simp
  denied reason := by simp
  resolved a pattern ha hpattern := by
    obtain rfl := Except.ok.inj ha
    cases hpattern
  principal id := by
    constructor
    · rintro ⟨⟩
    · rintro (⟨a, pattern, ha, hpattern, -⟩ | ⟨p, e, hchecked, -⟩)
      · obtain rfl := Except.ok.inj ha
        cases hpattern
      · exact absurd hchecked (took.not_checked hoff)
  credential := by simp

/-- A record of a decision is true. -/
theorem truthful_auditEntry (hnew : w.requests.length ≤ i) {principalId : Option String}
    (took : Took w events past now i r (.decided principalId decision)) :
    Truthful w events i r (authorization decision) (Gate.auditEntry r principalId decision) where
  operation := rfl
  scope := rfl
  granted pattern := by
    cases decision <;> simp [Gate.auditEntry, Gate.auditOutcome, authorization, Except.map]
  bypassed := by
    cases decision <;> simp [Gate.auditEntry, Gate.auditOutcome, authorization, Except.map]
  denied reason := by
    cases decision <;> simp [Gate.auditEntry, Gate.auditOutcome, authorization, Except.map]
  resolved a pattern ha hpattern := by
    cases decision with
    | error e => cases ha
    | ok granted =>
      obtain rfl := Except.ok.inj ha
      obtain rfl := Option.some.inj hpattern
      exact (took.granted hnew).2
  principal id := by
    constructor
    · intro hid
      cases decision with
      | ok granted =>
        obtain ⟨p, pattern⟩ := granted
        have hsame : principalId = some p.id := (took.granted hnew).1
        exact .inl ⟨⟨p, some pattern⟩, pattern, rfl, rfl, Option.some.inj (hsame.symm.trans hid)⟩
      | error e =>
        rcases sourced_run hnew past took.stood with ⟨hnone, -⟩ | ⟨p, hp, hchecked⟩
        · simp [Gate.auditEntry, hnone] at hid
        · exact .inr ⟨p, e, hchecked.mono took.past_prefix, rfl,
            Option.some.inj (hp.symm.trans hid)⟩
    · rintro (⟨a, pattern, ha, hpattern, rfl⟩ | ⟨p, e, hchecked, -, rfl⟩)
      · cases decision with
        | error e => cases ha
        | ok granted =>
          obtain rfl := Except.ok.inj ha
          exact (took.granted hnew).1
      · exact (hchecked.of_decided took).1
  credential := by
    cases decision <;> simp [Gate.auditEntry, Gate.auditOutcome]

/-- A record of a request that is over is true of it. -/
theorem truthful_of_mem_trail (hnew : w.requests.length ≤ i)
    (hget : (w.run events).requests[i]? = some (r, .ended result))
    (h : (i, entry) ∈ w.trail events) : Truthful w events i r result entry := by
  obtain ⟨past, now, r', q, took, htells⟩ := mem_trail_iff.1 h
  obtain ⟨result', hstep, hget'⟩ := took.ended htells
  obtain ⟨rfl, hq⟩ := stood_unique hget hget'
  obtain rfl := Progress.ended.inj hq
  cases q with
  | arrived =>
    cases hon : (w.run past).gate.enabled with
    | true => simp [Gate.tells, hon] at htells
    | false =>
      simp only [Gate.tells, Gate.step, hon, Gate.bypass] at htells hstep
      obtain rfl := Option.some.inj htells
      obtain rfl := Progress.ended.inj hstep
      exact truthful_bypass took hon
  | decided principalId decision =>
    obtain rfl := Option.some.inj htells
    obtain rfl := Progress.ended.inj hstep
    exact truthful_auditEntry hnew took
  | accepted | scanned | missed | elapsed | asking | answered | replied | identified | ended =>
    cases htells

/-- **One truthful record for each decision.** Take any gate, with whatever sinks in its audit log,
and any run in which requests, upkeep and changes from outside come in any order. The records of the
run are one for each request that is over, and each of them arrives at every sink; what a record
says is true of its request. An event that is not the step of a request leaves the audit log as it
is, and a message that makes no request leaves the whole gate as it is. -/
theorem one_truthful_record (g : Gate) (events : List (Moment × Event)) :
    let w : World := { gate := g }
    AuditLog.Received g.audit (w.run events).gate.audit ((w.trail events).map Prod.snd) ∧
    ((w.trail events).map Prod.fst).Nodup ∧
    (∀ i, (∃ entry, (i, entry) ∈ w.trail events) ↔
      ∃ r result, (w.run events).requests[i]? = some (r, .ended result)) ∧
    (∀ i entry r result, (i, entry) ∈ w.trail events →
      (w.run events).requests[i]? = some (r, .ended result) →
      Truthful w events i r result entry) ∧
    (∀ past now e, past ++ [(now, e)] <+: events → (∀ i, e ≠ .step i) →
      (w.run (past ++ [(now, e)])).gate.audit = (w.run past).gate.audit) ∧
    ∀ (σ : Type) (v : Validator σ) (s : σ) (wall : WallClock) (operation : String)
      (handler : Handler) (message : String) (now : Instant) (e : Error),
      (w.run events).gate.requestOf operation message = .error e →
      ((w.run events).gate.serve v s wall operation handler message now).gate =
        (w.run events).gate := by
  intro w
  have hnew (i : Nat) : w.requests.length ≤ i := Nat.zero_le i
  refine ⟨received_trail w events, nodup_trail w events,
    fun i => mem_trail_iff_ended (hnew i) events,
    fun i entry r result hmem hget => truthful_of_mem_trail (hnew i) hget hmem, ?_, ?_⟩
  · intro past now e _ hstep
    rw [run_concat]
    exact audit_apply_of_not_step hstep now
  · intro σ v s wall operation handler message now e h
    rw [Gate.serve_of_error h]

/-- A request that is granted to a cached principal has one record, which names it. A memory sink
keeps it, and a sink that the log has twice gets it twice. -/
theorem one_truthful_record_granted :
    let r : Request := ⟨"get", "t", "main"⟩
    let p : Principal := { id := "u", permissions := [{ name := "state:data:read" }] }
    let events : List (Moment × Event) :=
      [(⟨1, ⟨0, 0⟩⟩, .request r)] ++ List.replicate 5 (⟨2, ⟨0, 0⟩⟩, .step 0)
    ∃ g, Gate.build {} { audit := { sinks := [.other 0, .memory, .other 0] } } 0 = .ok g ∧
      let w : World := { gate := { g with cache := g.cache.store "t" "main" p 0 } }
      ∃ entry, w.trail events = [(0, entry)] ∧ entry.outcome = .granted .global ∧
        entry.principalId = some "u" ∧
        (w.run events).gate.audit.handedTo 0 = [entry, entry] ∧
        (w.run events).gate.audit.buffer.entries = [entry] := by
  intro r p events
  obtain ⟨g, g', hbuild, hg', hget, hlength, hcount, hhanded, hmemory, hempty, hroom⟩ :
      ∃ g g', Gate.build {} { audit := { sinks := [.other 0, .memory, .other 0] } } 0 = .ok g ∧
        g' = { g with cache := g.cache.store "t" "main" p 0 } ∧
        (run { gate := g' } events).requests[0]? = some (r, .ended (.ok ⟨p, some .global⟩)) ∧
        (trail { gate := g' } events).length = 1 ∧
        g'.audit.sinks.count (.other 0) = 2 ∧ g'.audit.handedTo 0 = [] ∧
        g'.audit.sinks.count .memory = 1 ∧ g'.audit.buffer.entries = [] ∧
        g'.audit.buffer.capacity = 1024 :=
    ⟨_, _, rfl, rfl, by decide +kernel, by decide +kernel, by decide +kernel, by decide +kernel,
      by decide +kernel, by decide +kernel, by decide +kernel⟩
  refine ⟨g, hbuild, ?_⟩
  rw [← hg']
  obtain ⟨hreceived, -, htold, htruthful, -⟩ := one_truthful_record g' events
  obtain ⟨entry, hmem⟩ := (htold 0).2 ⟨r, _, hget⟩
  have htrue := htruthful 0 entry r _ hmem hget
  have htrail : trail { gate := g' } events = [(0, entry)] := by
    obtain ⟨x, hx⟩ := List.length_eq_one_iff.1 hlength
    rw [hx] at hmem ⊢
    rw [List.mem_singleton.1 hmem]
  have harrived := hreceived.handed 0
  rw [htrail, hhanded, hcount] at harrived
  have hkept : (run { gate := g' } events).gate.audit.buffer.entries = [entry] := by
    have hentries := hreceived.entries
    rw [htrail, hempty, hmemory, hroom] at hentries
    simpa [List.rtake] using hentries
  exact ⟨entry, htrail, (htrue.granted .global).2 ⟨_, rfl, rfl⟩,
    (htrue.principal "u").2 (.inl ⟨_, .global, rfl, rfl, rfl⟩), harrived, hkept⟩

end World

end AccessGate
