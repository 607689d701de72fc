import AccessGate.Proofs.Gate.Failure
import AccessGate.Proofs.Validator.Replies

/-!
# Bad replies of the validator

Whatever text comes back over the queue, it is an answer about the credential or a failure of the
dependency, and nothing in between: a text that is not JSON, tells of a failure, or does not decode
is a network error at the channel's endpoint. The gate hears such an error like any other: the
request goes from it to its end in two steps (`World.getElem?_after_error`), by the first of which
the breaker is told of a failure, and the cache takes in neither a principal nor the marker of an
unknown credential. The main statement is `World.bad_reply_is_failure`.
-/

namespace AccessGate

/-! ## The validator at the other end of a channel -/

namespace Queue

variable {σ : Type} {c : Channel σ} {s : σ} {credential text : String} {now : Moment}

/-- The call of the validator is that of the channel, with what came back read. -/
theorem validate_eq (c : Channel σ) (s : σ) (credential : String) (now : Moment) :
    ((validator c).validate s credential now).1 =
      (c.send s (validateMessage credential)).1.andThen (·.bind (readValidation c.endpoint)) := rfl

/-- The validator answers exactly what the text that came back says. -/
theorem validate_answers_iff {reply : ValidationReply} :
    ((validator c).validate s credential now).1.ending = .returns (.ok reply) ↔
      ∃ text, (c.send s (validateMessage credential)).1.ending = .returns (.ok text) ∧
        Answers text reply := by
  rw [validate_eq, RemoteCall.andThen]
  cases (c.send s (validateMessage credential)).1.ending with
  | returns result =>
    cases result with
    | ok text =>
      simp [Except.bind, readValidation_eq_ok_iff]
    | error e => simp [Except.bind]
  | breaksDown | hangs => simp

/-- A text that says nothing about the credential is a network error. -/
theorem validate_of_bad
    (hending : (c.send s (validateMessage credential)).1.ending = .returns (.ok text))
    (hbad : ∀ reply, ¬ Answers text reply) :
    ∃ message, ((validator c).validate s credential now).1.ending =
      .returns (.error (.network c.endpoint message)) := by
  obtain ⟨message, hread⟩ := exists_network_of_not_answers hbad c.endpoint
  refine ⟨message, ?_⟩
  rw [validate_eq, RemoteCall.andThen, hending]
  exact congrArg Ending.returns hread

end Queue

/-! ## A request whose call ended with an error -/

/-- How far a request has come so many steps after its call, let through under a generation, ended
with an error. -/
def Progress.afterError (generation : Nat) (e : Error) : Nat → Progress
  | 0 => .answered generation (.error e)
  | 1 => .decided none (.error e)
  | _ + 2 => .ended (.error e)

/-- A request that got an error does not ask. -/
theorem Progress.afterError_ne_asking (generation : Nat) (e : Error) (n generation' : Nat) :
    afterError generation e n ≠ .asking generation' := by
  rcases n with _ | _ | n <;> exact Progress.noConfusion

/-- A step after an error is one step on the way to the end. -/
theorem Gate.step_afterError (g : Gate) (r : Request) (now : Moment) (generation : Nat) (e : Error)
    (n : Nat) :
    (g.step r now (.afterError generation e n)).1 = .afterError generation e (n + 1) := by
  rcases n with _ | _ | n <;> rfl

namespace World

variable {w : World} {past : List (Moment × Event)} {i : Nat} {r : Request} {generation : Nat}

/-- From an error on, a request goes to its end, whatever comes between its steps. -/
theorem getElem?_after_error (hget : (w.run past).requests[i]? = some (r, .asking generation))
    (now : Moment) (e : Error) (more : List (Moment × Event)) :
    (w.run (past ++ [(now, .answer i (.error e))] ++ more)).requests[i]? =
      some (r, .afterError generation e (ownSteps i more)) := by
  have hheard : (w.run (past ++ [(now, .answer i (.error e))])).requests[i]? =
      some (r, .afterError generation e 0) := by
    rw [run_concat, getElem?_apply hget, advance, if_pos rfl]
    rfl
  -- No stage from the error on waits for an answer, so whatever comes in between is not heard.
  obtain ⟨q, hq, rfl⟩ := follow_steps (P := fun _ n q => q = .afterError generation e n) hheard rfl
    (fun _ n q generation' hq => hq ▸ Progress.afterError_ne_asking generation e n generation')
    (fun _ _ _ _ hq => hq)
    (fun _ n q now _ hq => hq ▸ Gate.step_afterError _ r now generation e n) more
  exact hq

/-- By its next step, the breaker is told of a failure. It counts if the call was let through under
the breaker's generation. -/
theorem breaker_after_error (hget : (w.run past).requests[i]? = some (r, .asking generation))
    {now : Moment} {e : Error} {more : List (Moment × Event)} (hclient : e.isClient = false)
    (hsteps : ownSteps i more = 0) (later : Moment) :
    let b := (w.run (past ++ [(now, .answer i (.error e))] ++ more)).gate.breaker
    let told :=
      ((w.run (past ++ [(now, .answer i (.error e))] ++ more)).apply later (.step i)).gate.breaker
    told = { b with state := b.state.fail b.settings generation later.instant } ∧
      (generation = b.state.generation →
        told.state.failures = b.state.failures + 1 ∧
          told.state.lastFailure = some later.instant) ∧
      (generation ≠ b.state.generation → told = b) := by
  intro b told
  have htold : told = { b with state := b.state.fail b.settings generation later.instant } := by
    have hq := getElem?_after_error hget now e more
    rw [hsteps] at hq
    simp only [told, apply, hq]
    rw [Progress.afterError, Gate.breaker_step]
    exact if_pos (by rw [Breaker.isFailure, hclient]; rfl)
  refine ⟨htold, ?_, fun hother => ?_⟩
  · rintro rfl
    rw [htold]
    exact b.state.counted_fail b.settings later.instant
  · rw [htold, Breaker.State.fail_of_ne hother]

/-- **A bad reply is a failure of the dependency.** Whatever credential is asked about and whatever
the channel does: the validator answers exactly when a text comes back that says something about the
credential, and the answer is what it says. Any other text is a network error at the channel's
endpoint, and an error of the channel passes as it is, as does a call that breaks down or never
ends. In a run of the gate, the call of a request for which such another text came back ends with a
failure of the dependency, the network error if it came in time. However the run goes on, the
request goes from there to its end with this error. No step of it puts anything into the cache, and
the first one after the error tells the breaker of a failure: one more is counted if the call was
let through under the breaker's generation, and else the breaker stays as it is. -/
theorem bad_reply_is_failure {σ : Type} (c : Queue.Channel σ) (s : σ) (credential : String)
    (asked : Moment) :
    let sent := (c.send s (Queue.validateMessage credential)).1
    let call := ((Queue.validator c).validate s credential asked).1
    call.delay = sent.delay ∧
      (∀ reply, call.ending = .returns (.ok reply) ↔
        ∃ text, sent.ending = .returns (.ok text) ∧ Queue.Answers text reply) ∧
      (∀ e, sent.ending = .returns (.error e) → call.ending = .returns (.error e)) ∧
      (∀ text, sent.ending = .breaksDown text → call.ending = .breaksDown text) ∧
      (sent.ending = .hangs → call.ending = .hangs) ∧
      ∀ text, sent.ending = .returns (.ok text) → (∀ reply, ¬ Queue.Answers text reply) →
        (∃ message, call.ending = .returns (.error (.network c.endpoint message))) ∧
          ∀ (w : World) (past : List (Moment × Event)) (i : Nat) (r : Request) (generation : Nat)
            (now : Moment), w.requests.length ≤ i →
            (w.run past).requests[i]? = some (r, .asking generation) →
            ∃ e, (w.run past).gate.validateInvoker.outcome call = .error e ∧
              e.isDependencyFailure = true ∧
              (call.endsWithin (w.run past).gate.validateInvoker.limit = true →
                call.ending = .returns (.error e)) ∧
              ∀ more,
                let events := past ++ [(now, .answer i (.error e))] ++ more
                (w.run events).requests[i]? =
                    some (r, .afterError generation e (ownSteps i more)) ∧
                  (EachStep w events i r fun later q g g' =>
                    LosesStale w events i r later q g.cache g'.cache) ∧
                  (ownSteps i more = 0 → ∀ later,
                    let b := (w.run events).gate.breaker
                    let told := ((w.run events).apply later (.step i)).gate.breaker
                    told =
                        { b with
                          state := b.state.fail b.settings generation later.instant } ∧
                      (generation = b.state.generation →
                        told.state.failures = b.state.failures + 1 ∧
                          told.state.lastFailure = some later.instant) ∧
                      (generation ≠ b.state.generation → told = b)) := by
  intro sent call
  have hcall : call = sent.andThen (·.bind (Queue.readValidation c.endpoint)) := rfl
  refine ⟨rfl, fun reply => Queue.validate_answers_iff, ?_, ?_, ?_, ?_⟩
  · intro e hsent
    rw [hcall, RemoteCall.andThen, hsent]
    rfl
  · intro text hsent
    rw [hcall, RemoteCall.andThen, hsent]
  · intro hsent
    rw [hcall, RemoteCall.andThen, hsent]
  · intro text hsent hbad
    obtain ⟨message, hending⟩ :
        ∃ message, call.ending = .returns (.error (.network c.endpoint message)) :=
      Queue.validate_of_bad hsent hbad
    refine ⟨⟨message, hending⟩, fun w past i r generation now hnew hget => ?_⟩
    obtain ⟨e, houtcome, hfails⟩ :
        ∃ e, (w.run past).gate.validateInvoker.outcome call = .error e ∧
          Fails (w.run past) i r e now (.answer i (.error e)) :=
      Fails.of_call hget _ (.inr (.inr ⟨c.endpoint, message, hending⟩))
    have hfailure : e.isDependencyFailure = true := by
      rw [Error.isDependencyFailure, hfails.kind]
      rfl
    have hclient := Error.isClient_eq_false_of_isDependencyFailure hfailure
    refine ⟨e, houtcome, hfailure, ?_, fun more => ⟨getElem?_after_error hget now e more,
      hfails.cache hnew more, fun hsteps later => breaker_after_error hget hclient hsteps later⟩⟩
    intro hin
    rw [Invoker.outcome, if_pos hin, hending] at houtcome
    rw [hending]
    exact congrArg Ending.returns houtcome

/-- A text comes back that is not JSON: the request ends with the network error, and by its first
step after that the breaker counts a failure. -/
theorem bad_reply_is_failure_oops :
    let c : Queue.Channel Unit := ⟨"tcp://id", fun s _ => (.now (.ok "oops"), s)⟩
    let r : Request := ⟨"get", "t", "main"⟩
    let call := ((Queue.validator c).validate () r.credential ⟨1, ⟨0, 0⟩⟩).1
    let past : List (Moment × Event) :=
      [(⟨0, ⟨0, 0⟩⟩, .request r)] ++ List.replicate 4 (⟨1, ⟨0, 0⟩⟩, .step 0)
    ∃ g e message, Gate.build {} {} 0 = .ok g ∧ g.validateInvoker.outcome call = .error e ∧
      e = .network "tcp://id" message ∧
      let events := past ++ [(⟨2, ⟨0, 0⟩⟩, .answer 0 (.error e))]
      (run { gate := g } (events ++ List.replicate 2 (⟨3, ⟨0, 0⟩⟩, .step 0))).requests[0]? =
          some (r, .ended (.error e)) ∧
        (run { gate := g } events).gate.breaker.state.failures = 0 ∧
        let told := ((run { gate := g } events).apply ⟨3, ⟨0, 0⟩⟩ (.step 0)).gate.breaker.state
        told.failures = 1 ∧ told.lastFailure = some 3 := by
  intro c r call past
  obtain ⟨g, hbuild, hin, hasking, hgeneration, hnone⟩ :
      ∃ g, Gate.build {} {} 0 = .ok g ∧ call.endsWithin g.validateInvoker.limit = true ∧
        (run { gate := g } past).requests[0]? = some (r, .asking 0) ∧
        (run { gate := g } past).gate.breaker.state.generation = 0 ∧
        (run { gate := g } past).gate.breaker.state.failures = 0 :=
    ⟨_, rfl, by decide +kernel, by decide +kernel, by decide +kernel, by decide +kernel⟩
  have hbad : ∀ reply, ¬ Queue.Answers "oops" reply := by
    rintro reply ⟨answer, body, hparse, -⟩
    have hnone : Json.parse? "oops" = none := by decide +kernel
    rw [hnone] at hparse
    cases hparse
  obtain ⟨-, -, -, -, -, hreply⟩ := bad_reply_is_failure c () r.credential ⟨1, ⟨0, 0⟩⟩
  obtain ⟨⟨message, hending⟩, hrun⟩ := hreply "oops" rfl hbad
  obtain ⟨e, houtcome, -, htime, hmore⟩ :=
    hrun { gate := g } past 0 r 0 ⟨2, ⟨0, 0⟩⟩ (Nat.zero_le 0) hasking
  have hsetup := setup_run { gate := g } past
  have hinvoker : (run { gate := g } past).gate.validateInvoker = g.validateInvoker :=
    congrArg (fun setup : Gate.Setup => (⟨"validate", setup.config.callTimeout⟩ : Invoker)) hsetup
  rw [hinvoker] at houtcome htime
  have hnetwork : e = .network "tcp://id" message :=
    Except.error.inj (Ending.returns.inj ((htime hin).symm.trans hending))
  have hbreaker : (run { gate := g } (past ++ [(⟨2, ⟨0, 0⟩⟩, .answer 0 (.error e))])).gate.breaker =
      (run { gate := g } past).gate.breaker := by
    rw [run_concat]
    rfl
  refine ⟨g, e, message, hbuild, houtcome, hnetwork, ?_, ?_, ?_⟩
  · exact (hmore (List.replicate 2 (⟨3, ⟨0, 0⟩⟩, .step 0))).1
  · rw [hbreaker, hnone]
  · obtain ⟨-, htold, -⟩ := (hmore []).2.2 rfl ⟨3, ⟨0, 0⟩⟩
    rw [List.append_nil, hbreaker, hgeneration, hnone] at htold
    exact htold rfl

end World

end AccessGate
