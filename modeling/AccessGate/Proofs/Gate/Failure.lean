import AccessGate.Proofs.Gate.Contact

/-!
# Requests whose call fails

The call of a request fails when the breaker refuses it, and when it ends with a failure of the
dependency: past its deadline, unreachable, or broken down (`World.Fails`). Such a request ends with
this failure and leaves next to nothing behind (`World.failure_is_inert`): one entry in the audit
log, at most one failure noted by the breaker, and of the cache it takes away what it found stale.
Whatever its call comes to afterwards is not heard.
-/

namespace AccessGate

/-! ## Failures that the breaker notes -/

namespace Breaker

@[simp] theorem state_count (b : Breaker) (generation : Option Nat) :
    (b.count generation).2.state = b.state := by
  cases generation <;> rfl

namespace State

variable (c : Settings) (n : Nat) (now : Instant) (s : State)

/-- Moving on adds no failure. -/
theorem failures_moveOn_le : (s.moveOn c now).2.failures ≤ s.failures := by
  unfold moveOn toHalfOpen
  split
  · split
    · split
      · exact Nat.le_refl _
      · exact Nat.zero_le _
    · exact Nat.le_refl _
  · exact Nat.le_refl _

/-- A success adds no failure. -/
theorem failures_succeed_le : (s.succeed n now).failures ≤ s.failures := by
  unfold succeed toClosed
  split
  · exact Nat.le_refl _
  · cases s.phase <;> simp [enter]

/-- A failure adds one at most. -/
theorem failures_fail_le : (s.fail c n now).failures ≤ s.failures + 1 := by
  unfold fail toOpened
  split
  · exact Nat.le_succ _
  · cases s.phase with
    | closed =>
      simp only
      split <;> simp [enter]
    | halfOpen | opened => simp [enter]

end State

/-- A result that is recorded adds one failure at most. -/
theorem failures_record_le {α : Type} (b : Breaker) (n : Nat) (now : Instant)
    (result : Except Error α) :
    (b.record n now result).state.failures ≤ b.state.failures + 1 := by
  unfold record
  split
  · exact State.failures_fail_le _ _ _ _
  · exact Nat.le_succ_of_le (State.failures_succeed_le _ _ _)

end Breaker

/-- A step of a request adds a failure to the breaker's count only by telling it of a call. -/
theorem Gate.failures_step (g : Gate) (r : Request) (now : Moment) (q : Progress) :
    (g.step r now q).2.breaker.state.failures ≤ g.breaker.state.failures ∨
      (∃ n result, q = .answered n result) ∧
        (g.step r now q).2.breaker.state.failures ≤ g.breaker.state.failures + 1 := by
  rw [breaker_step]
  cases q with
  | missed =>
    left
    cases g.breaker.state.glance g.breaker.settings now.instant <;> simp
  | elapsed =>
    left
    simpa using Breaker.State.failures_moveOn_le g.breaker.settings now.instant g.breaker.state
  | answered n result => exact .inr ⟨⟨n, result, rfl⟩, Breaker.failures_record_le _ _ _ _⟩
  | arrived | accepted | scanned | asking | replied | identified | decided | ended =>
    exact .inl (Nat.le_refl _)

namespace World

variable {w : World} {events past past' more : List (Moment × Event)} {now now' : Moment}
  {event : Event} {i : Nat} {r r' : Request} {q : Progress} {e : Error}

/-! ## After the failure -/

/-- An event by which the call of a request fails. -/
inductive Fails (w : World) (i : Nat) (r : Request) (e : Error) (now : Moment) : Event → Prop
  /-- The call ends with a failure of the dependency. -/
  | broken {generation : Nat} : w.requests[i]? = some (r, .asking generation) →
    e.isDependencyFailure = true → Fails w i r e now (.answer i (.error e))
  /-- The breaker refuses the call. -/
  | refused {q : Progress} : w.requests[i]? = some (r, q) → q = .missed ∨ q = .elapsed →
    (w.gate.step r now q).1 = .decided none (.error e) → Fails w i r e now (.step i)

/-- The audit entry of a request whose call failed. -/
def unavailableEntry (r : Request) : AuditEntry where
  principalId := none
  credential := some (fingerprint r.credential)
  operation := r.operation
  scope := r.scope
  outcome := .denied "unavailable"

/-- In a run, that the call of a request failed went to the audit log. -/
def Told (w : World) (events : List (Moment × Event)) (i : Nat) (r : Request) (e : Error) : Prop :=
  ∃ past now, Took w events past now i r (.decided none (.error e))

theorem Told.mono {events' : List (Moment × Event)} (hp : events <+: events')
    (h : Told w events i r e) : Told w events' i r e := by
  obtain ⟨past, now, took⟩ := h
  exact ⟨past, now, took.mono hp⟩

/-- How far a request has come so many steps after its call ended with a failure. One that the
breaker refuses is a step ahead. -/
inductive Failed (w : World) (i : Nat) (r : Request) (e : Error) :
    List (Moment × Event) → Nat → Progress → Prop
  | answered {events : List (Moment × Event)} {generation : Nat} :
    Failed w i r e events 0 (.answered generation (.error e))
  | decided {events : List (Moment × Event)} : Failed w i r e events 1 (.decided none (.error e))
  | ended {events : List (Moment × Event)} {n : Nat} : Told w events i r e → 2 ≤ n →
    Failed w i r e events n (.ended (.error e))

/-- A request that has failed does not ask. -/
theorem Failed.not_asking {n : Nat} (h : Failed w i r e events n q) (generation : Nat) :
    q ≠ .asking generation := by
  rintro rfl
  cases h

/-- A request whose call failed is at its end after two more steps. -/
theorem failed_run {k : Nat} (hget : (w.run past).requests[i]? = some (r, q))
    (hfailed : Failed w i r e past k q) (more : List (Moment × Event)) :
    ∃ q', (w.run (past ++ more)).requests[i]? = some (r, q') ∧
      Failed w i r e (past ++ more) (k + ownSteps i more) q' := by
  refine follow_steps (P := fun more n q => Failed w i r e (past ++ more) (k + n) q) hget
    (by rwa [List.append_nil]) (fun more n q generation h => h.not_asking generation) ?_ ?_ more
  · intro more n q x h
    have hinit := prefix_concat past more x
    generalize k + n = m at h ⊢
    cases h with
    | answered => exact .answered
    | decided => exact .decided
    | ended htold hm => exact .ended (htold.mono hinit) hm
  · intro more n q now hstood h
    rw [← Nat.add_assoc]
    have hinit := prefix_concat past more (now, .step i)
    generalize k + n = m at h ⊢
    cases h with
    | answered => exact .decided
    | decided =>
      exact .ended ⟨past ++ more, now, took_concat hstood now⟩ (Nat.le_refl _)
    | ended htold hm => exact .ended (htold.mono hinit) (Nat.le_succ_of_le hm)

/-- The call of a request fails that misses its deadline, breaks down, or does not reach the
validator. -/
theorem Fails.of_call {c : RemoteCall ValidationReply} {generation : Nat}
    (hget : w.requests[i]? = some (r, .asking generation)) (invoker : Invoker)
    (hcall : c.endsWithin invoker.limit = false ∨ (∃ text, c.ending = .breaksDown text) ∨
      ∃ endpoint message, c.ending = .returns (.error (.network endpoint message))) :
    ∃ e, invoker.outcome c = .error e ∧ Fails w i r e now (.answer i (.error e)) := by
  unfold Invoker.outcome
  cases hin : c.endsWithin invoker.limit with
  | false => exact ⟨_, if_neg Bool.false_ne_true, .broken hget rfl⟩
  | true =>
    rcases hcall with hlate | ⟨text, hending⟩ | ⟨endpoint, message, hending⟩
    · rw [hin] at hlate
      cases hlate
    · exact ⟨_, by rw [if_pos rfl, hending], .broken hget rfl⟩
    · exact ⟨_, by rw [if_pos rfl, hending], .broken hget rfl⟩

/-- What a failure is: a dependency could not be consulted. -/
theorem Fails.kind (h : Fails w i r e now event) : e.kind = .unavailable := by
  cases h with
  | broken _ hfailure => exact eq_of_beq hfailure
  | refused _ hq hrefused =>
    have hcounted (g : Gate) (generation : Option Nat)
        (h : (g.counted generation).1 = .decided none (.error e)) : e.kind = .unavailable := by
      cases generation with
      | some n => cases h
      | none =>
        cases h
        rfl
    rcases hq with rfl | rfl
    · simp only [Gate.step] at hrefused
      cases hg : w.gate.breaker.state.glance w.gate.breaker.settings now.instant with
      | pass n => rw [hg] at hrefused; exact hcounted _ _ hrefused
      | refuse => rw [hg] at hrefused; exact hcounted _ _ hrefused
      | elapsed => rw [hg] at hrefused; cases hrefused
    · exact hcounted _ _ hrefused

/-- Before its call fails a request waits for it, or is about to ask. -/
theorem Fails.before (h : Fails w i r e now event) :
    ∃ q, w.requests[i]? = some (r, q) ∧ q.stage ≤ 5 ∧
      ∀ {w₀ : World} {past : List (Moment × Event)}, Came w₀ past i r q →
        Accepted w₀ past i r := by
  cases h with
  | broken hget => exact ⟨_, hget, Nat.le_refl _, fun hcame => hcame.1⟩
  | refused hget hq =>
    rcases hq with rfl | rfl
    · exact ⟨_, hget, by simp [Progress.stage], fun hcame => hcame.1⟩
    · exact ⟨_, hget, by simp [Progress.stage], fun hcame => hcame.1⟩

/-- After its call failed, a request is to be told so, or at once to be recorded. -/
theorem Fails.after (h : Fails (w.run past) i r e now event) :
    ∃ k q, (w.run (past ++ [(now, event)])).requests[i]? = some (r, q) ∧
      Failed w i r e (past ++ [(now, event)]) k q ∧ (event = .step i → 1 ≤ k) := by
  cases h with
  | broken hget =>
    rw [run_concat]
    refine ⟨0, _, getElem?_apply hget now _, ?_, by simp⟩
    rw [advance, if_pos rfl]
    exact .answered
  | refused hget hq hrefused =>
    refine ⟨1, _, getElem?_run_step hget now, ?_, fun _ => Nat.le_refl _⟩
    rw [hrefused]
    exact .decided

/-- A step of a request whose call fails in a run is one that comes before, or one on the way to its
end. -/
theorem Fails.cases (h : Fails (w.run past) i r e now event)
    (took : Took w (past ++ [(now, event)] ++ more) past' now' i r' q) :
    q.stage ≤ 5 ∨ ∃ n, Failed w i r e past' n q ∧ (event = .step i → 1 ≤ n) := by
  have hlater : ∀ after, past' = past ++ [(now, event)] ++ after →
      ∃ n, Failed w i r e past' n q ∧ (event = .step i → 1 ≤ n) := by
    rintro after rfl
    obtain ⟨k, q₀, hget, hfailed, hlead⟩ := h.after
    obtain ⟨q', hget', hfailed'⟩ := failed_run hget hfailed after
    obtain ⟨-, rfl⟩ := stood_unique hget' took.stood
    exact ⟨_, hfailed', fun hstep => Nat.le_add_right_of_le (hlead hstep)⟩
  rcases List.prefix_or_prefix_of_prefix took.past_prefix (List.prefix_append _ more) with
    hbefore | ⟨after, hafter⟩
  · rcases List.prefix_concat_iff.1 hbefore with hsame | ⟨between, rfl⟩
    · exact .inr (hlater [] (by rw [hsame, List.append_nil]))
    · left
      obtain ⟨q₀, hget, hstage, -⟩ := h.before
      obtain ⟨q', hget', hcome⟩ := stage_run took.stood between
      obtain ⟨-, rfl⟩ := stood_unique hget hget'
      rcases hcome with rfl | hlt <;> omega
  · exact .inr (hlater after hafter.symm)

/-- A request that waits for no answer hears none. -/
theorem apply_answer (hget : w.requests[i]? = some (r, q)) (hq : ∀ generation, q ≠ .asking generation)
    (now : Moment) (result : Except Error ValidationReply) : w.apply now (.answer i result) = w := by
  have hsame : w.requests.modify i (fun x => (x.1, hear result x.2)) = w.requests := by
    refine List.ext_getElem? ?_
    intro k
    rw [List.getElem?_modify]
    by_cases hk : i = k
    · subst hk
      rcases hear_cases result q with hear | ⟨generation, rfl, -⟩
      · simp [hget, hear]
      · exact absurd rfl (hq generation)
    · simp [hk]
  simp only [apply]
  rw [hsame]

/-! ## What a failure leaves behind -/

/-- By a step of a request in a run, the breaker notes a failure. -/
def Notes (w : World) (events past : List (Moment × Event)) (i : Nat) (r : Request) : Prop :=
  ∃ now q, Took w events past now i r q ∧
    (w.run past).gate.breaker.state.failures <
      (w.run (past ++ [(now, .step i)])).gate.breaker.state.failures

/-- The breaker notes a failure only when it is told of a call. -/
theorem Notes.answered (h : Notes w events past i r) :
    ∃ now n result, Took w events past now i r (.answered n result) := by
  obtain ⟨now, q, took, hlt⟩ := h
  rw [took.gate_eq] at hlt
  rcases Gate.failures_step (w.run past).gate r now q with hle | ⟨⟨n, result, rfl⟩, -⟩
  · omega
  · exact ⟨now, n, result, took⟩

/-- That a step of a request leaves the cache's entries alone, but for those of its credential that
its scan found stale, which it may take away. -/
def LosesStale (w : World) (events : List (Moment × Event)) (i : Nat) (r : Request) (now : Moment)
    (q : Progress) (c c' : Cache) : Prop :=
  ∀ key, c'.entries.get? key = c.entries.get? key ∨
    c'.entries.get? key = none ∧
    (key = Cache.scopedKey (credentialDigest r.credential) r.scope ∨
      key = credentialDigest r.credential) ∧
    ∃ found instant held, q = .scanned found instant ∧ Scanned w events i r found instant ∧
      key ∈ found.stale ∧ c.entries.get? key = some held ∧ held.isStale instant now.wall = true

/-- A request whose call failed is at its end after two more steps, and its end is recorded once. -/
theorem Fails.ends (h : Fails (w.run past) i r e now event) (more : List (Moment × Event)) :
    ∃ q, (w.run (past ++ [(now, event)] ++ more)).requests[i]? = some (r, q) ∧
      (2 ≤ ownSteps i more → q = .ended (.error e)) ∧
      ∀ result, q = .ended result → result = .error e ∧
        ∃! past', ∃ now', Took w (past ++ [(now, event)] ++ more) past' now' i r
          (.decided none (.error e)) := by
  obtain ⟨k, q₀, hget₀, hfailed₀, -⟩ := h.after
  obtain ⟨q, hget, hfailed⟩ := failed_run hget₀ hfailed₀ more
  refine ⟨q, hget, ?_, ?_⟩
  · intro hsteps
    have hn : 2 ≤ k + ownSteps i more := by omega
    generalize k + ownSteps i more = n at hfailed hn
    cases hfailed with
    | answered | decided => omega
    | ended => rfl
  · rintro result rfl
    generalize k + ownSteps i more = n at hfailed
    cases hfailed with
    | ended htold =>
      obtain ⟨past', now', took⟩ := htold
      refine ⟨rfl, past', ⟨now', took⟩, ?_⟩
      rintro past'' ⟨now'', took'⟩
      exact (took'.unique took rfl rfl).1

/-- A request whose call fails has arrived well formed while authorization was on. -/
theorem Fails.accepted (h : Fails (w.run past) i r e now event) (hnew : w.requests.length ≤ i) :
    Accepted w past i r := by
  obtain ⟨q, hget, -, haccepted⟩ := h.before
  exact haccepted (came_run hnew past hget)

/-- The record of a request that fails tells of nothing but the failure. -/
theorem Fails.auditEntry_eq (h : Fails (w.run past) i r e now event)
    (hnew : w.requests.length ≤ i) :
    Gate.auditEntry r none (.error e) = unavailableEntry r := by
  obtain ⟨-, -, -, -, hcredential, -⟩ := h.accepted hnew
  simp only [Gate.auditEntry, Gate.auditOutcome, unavailableEntry, h.kind, ErrorKind.name]
  rw [if_neg (by simpa using hcredential)]

/-- The audit log is told that the service was unavailable, and nothing else. -/
theorem Fails.audit (h : Fails (w.run past) i r e now event) (hnew : w.requests.length ≤ i)
    (more : List (Moment × Event)) :
    EachStep w (past ++ [(now, event)] ++ more) i r fun _ q g g' =>
      g'.audit = if q = .decided none (.error e) then g.audit.record (unavailableEntry r)
        else g.audit := by
  intro past' now' q took
  rw [took.gate_eq, Gate.audit_step]
  cases q with
  | arrived =>
    have haccepted : Accepted w (past ++ [(now, event)] ++ more) i r := by
      refine (h.accepted hnew).mono ?_
      rw [List.append_assoc]
      exact List.prefix_append _ _
    simp [(haccepted.of_took took).1]
  | decided principalId result =>
    rcases h.cases took with hearly | ⟨n, hfailed, -⟩
    · exact absurd hearly (by simp [Progress.stage])
    · cases hfailed
      rw [if_pos rfl, ← h.auditEntry_eq hnew]
  | accepted | scanned | missed | elapsed | asking | answered | replied | identified | ended =>
    exact (if_neg (by rintro ⟨⟩)).symm

/-- The cache loses what the scan found stale, and takes nothing in. -/
theorem Fails.cache (h : Fails (w.run past) i r e now event) (hnew : w.requests.length ≤ i)
    (more : List (Moment × Event)) :
    EachStep w (past ++ [(now, event)] ++ more) i r fun now' q g g' =>
      LosesStale w (past ++ [(now, event)] ++ more) i r now' q g.cache g'.cache := by
  intro past' now' q took key
  rw [took.gate_eq, Gate.cache_step]
  cases q with
  | scanned found instant =>
    have hscanned := (came_run hnew past' took.stood).2
    rcases Cache.get?_cleanup_eq_or (w.run past').gate.cache found.stale instant now'.wall key with
      hkept | ⟨hnone, hmem, held, hheld, hstale⟩
    · exact .inl hkept
    · refine .inr ⟨hnone, ?_, found, instant, held, rfl,
        hscanned.mono took.past_prefix, hmem, hheld, hstale⟩
      obtain ⟨past'', now'', -, -, hfound⟩ := hscanned
      rw [← hfound] at hmem
      simpa using (Cache.mem_stale_scanKeys hmem).1
  | replied reply =>
    rcases h.cases took with hearly | ⟨n, hfailed, -⟩
    · exact absurd hearly (by simp [Progress.stage])
    · cases hfailed
  | arrived | accepted | missed | elapsed | asking | answered | identified | decided | ended =>
    exact .inl rfl

/-- If the breaker refused the call, it notes no failure for it. -/
theorem Fails.not_notes (h : Fails (w.run past) i r e now (.step i)) (more : List (Moment × Event)) :
    ¬ Notes w (past ++ [(now, .step i)] ++ more) past' i r := by
  intro hnotes
  obtain ⟨now', n, result, took⟩ := hnotes.answered
  rcases h.cases took with hearly | ⟨m, hfailed, hlead⟩
  · exact absurd hearly (by simp [Progress.stage])
  · cases hfailed
    exact absurd (hlead rfl) (by omega)

/-- A request tells the breaker of its call once. -/
theorem Notes.unique {past₁ past₂ : List (Moment × Event)} (h₁ : Notes w events past₁ i r)
    (h₂ : Notes w events past₂ i r) : past₁ = past₂ := by
  obtain ⟨now₁, n₁, result₁, took₁⟩ := h₁.answered
  obtain ⟨now₂, n₂, result₂, took₂⟩ := h₂.answered
  exact (took₁.unique took₂ rfl rfl).1

/-- What the call comes to after it failed is not heard. -/
theorem Fails.apply_answer_run (h : Fails (w.run past) i r e now event)
    (more : List (Moment × Event)) (later : Moment) (result : Except Error ValidationReply) :
    (w.run (past ++ [(now, event)] ++ more)).apply later (.answer i result) =
      w.run (past ++ [(now, event)] ++ more) := by
  obtain ⟨k, q₀, hget₀, hfailed₀, -⟩ := h.after
  obtain ⟨q, hget, hfailed⟩ := failed_run hget₀ hfailed₀ more
  exact apply_answer hget hfailed.not_asking later result

/-- **A request whose call fails is inert.** In a run, the call of a request fails: the breaker
refuses it, or it ends with a failure of the dependency. However the run goes on, the request is at
its end after two more steps, and the failure is its result. One of its steps, if it is at its end,
has told the audit log that the service was unavailable, and none has told it anything else. The
cache loses by its steps what its scan found stale of its credential, and nothing else happens to
the entries. The breaker notes at most one failure by its steps, and none if it refused the call.
And whatever the call comes to later, a valid answer included, leaves the world as it is. -/
theorem failure_is_inert (hnew : w.requests.length ≤ i)
    (hfails : Fails (w.run past) i r e now event)
    (hevents : events = past ++ [(now, event)] ++ more) :
    (∃ q, (w.run events).requests[i]? = some (r, q) ∧
      (2 ≤ ownSteps i more → q = .ended (.error e)) ∧
      ∀ result, q = .ended result → result = .error e ∧
        ∃! past', ∃ now', Took w events past' now' i r (.decided none (.error e))) ∧
    (EachStep w events i r fun _ q g g' =>
      g'.audit = if q = .decided none (.error e) then g.audit.record (unavailableEntry r)
        else g.audit) ∧
    (EachStep w events i r fun now q g g' => LosesStale w events i r now q g.cache g'.cache) ∧
    (EachStep w events i r fun _ _ g g' =>
      g'.breaker.state.failures ≤ g.breaker.state.failures + 1) ∧
    (∀ past₁ past₂, Notes w events past₁ i r → Notes w events past₂ i r → past₁ = past₂) ∧
    (event = .step i → ∀ past', ¬ Notes w events past' i r) ∧
    ∀ later result, (w.run events).apply later (.answer i result) = w.run events := by
  subst hevents
  refine ⟨hfails.ends more, hfails.audit hnew more, hfails.cache hnew more, ?_,
    fun _ _ h₁ h₂ => h₁.unique h₂, ?_, hfails.apply_answer_run more⟩
  · intro past' now' q took
    rw [took.gate_eq]
    rcases Gate.failures_step (w.run past').gate r now' q with hle | ⟨-, hle⟩
    · exact Nat.le_succ_of_le hle
    · exact hle
  · rintro rfl past'
    exact hfails.not_notes more

/-- A validator that needs a minute misses the deadline: the request ends with the timeout, and the
valid answer that comes then is not heard. -/
theorem failure_is_inert_timeout :
    let r : Request := ⟨"get", "t", "main"⟩
    let reply : ValidationReply :=
      { valid := true, principalId := some "u", permissions := ["state:data:read"] }
    let call : RemoteCall ValidationReply := ⟨.ofSecs 60, .returns (.ok reply)⟩
    let past : List (Moment × Event) :=
      [(⟨0, ⟨0, 0⟩⟩, .request r)] ++ List.replicate 4 (⟨1, ⟨0, 0⟩⟩, .step 0)
    let more : List (Moment × Event) := List.replicate 2 (⟨3, ⟨0, 0⟩⟩, .step 0)
    let events (e : Error) := past ++ [(⟨2, ⟨0, 0⟩⟩, .answer 0 (.error e))] ++ more
    ∃ g e, Gate.build {} {} 0 = .ok g ∧ g.validateInvoker.outcome call = .error e ∧
      (run { gate := g } (events e)).requests[0]? = some (r, .ended (.error e)) ∧
      (∃! past', ∃ now', Took { gate := g } (events e) past' now' 0 r
        (.decided none (.error e))) ∧
      (run { gate := g } (events e)).apply ⟨4, ⟨0, 0⟩⟩ (.answer 0 (.ok reply)) =
        run { gate := g } (events e) := by
  intro r reply call past more events
  obtain ⟨g, hbuild, hlate, hasking⟩ :
      ∃ g, Gate.build {} {} 0 = .ok g ∧ call.endsWithin g.validateInvoker.limit = false ∧
        (run { gate := g } past).requests[0]? = some (r, .asking 0) :=
    ⟨_, rfl, by decide +kernel, by decide +kernel⟩
  obtain ⟨e, houtcome, hfails⟩ : ∃ e, g.validateInvoker.outcome call = .error e ∧
      Fails (run { gate := g } past) 0 r e ⟨2, ⟨0, 0⟩⟩ (.answer 0 (.error e)) :=
    Fails.of_call hasking g.validateInvoker (.inl hlate)
  have hevents : events e = past ++ [(⟨2, ⟨0, 0⟩⟩, .answer 0 (.error e))] ++ more := rfl
  obtain ⟨⟨q, hget, hended, honce⟩, -, -, -, -, -, hdeaf⟩ :=
    failure_is_inert (Nat.zero_le 0) hfails hevents
  obtain rfl := hended (by decide)
  exact ⟨g, e, hbuild, houtcome, hget, (honce _ rfl).2, hdeaf _ _⟩

end World

end AccessGate
