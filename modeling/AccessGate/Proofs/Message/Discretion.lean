import AccessGate.Gate.Uninterrupted
import AccessGate.Proofs.Gate.Contact
import AccessGate.Proofs.Gate.Failure
import AccessGate.Proofs.Message.Delivery

/-!
# What a reply does not tell

Every failure of a dependency is told in the same words (`Reply.ofError_of_isDependencyFailure`),
and a denial names the operation and the scope of the message, which the caller knows
(`Gate.check_eq_error`). So of two runs in which a message ends in a failure of the dependency the
replies are the same, whatever failed and how; and of two runs in which it is denied they are the
same, whoever the principals are and whatever access would have taken
(`World.replies_tell_nothing`). These are runs with requests, upkeep and changes from outside side
by side; serving one message on its own is one of them (`Gate.serves_serve`).
-/

namespace AccessGate

/-- What is told of a failure of a dependency, whatever it is. -/
theorem Reply.ofError_of_isDependencyFailure {e : Error} (h : e.isDependencyFailure = true) :
    Reply.ofError e =
      { status := .failure
        error := some ⟨ErrorKind.unavailable.name, Reply.unavailableMessage⟩ } := by
  have hkind : e.kind = .unavailable := eq_of_beq h
  simp only [Reply.ofError, hkind]

namespace World

variable {w w' : World} {events events' past : List (Moment × Event)}
  {operation message : String} {handler handler' : Handler} {i i' : Nat} {r r' : Request}
  {result result' : Except Error Authorization} {served served' : Gate.Served}

/-- In a run, a message to an operation made a request, which has ended, and the message was served
as the request ended. -/
structure Serves (w : World) (events : List (Moment × Event)) (operation message : String)
    (handler : Handler) (i : Nat) (r : Request) (result : Except Error Authorization)
    (served : Gate.Served) : Prop where
  came : ∃ past now, past ++ [(now, .request r)] <+: events ∧
    (w.run past).requests.length = i ∧ (w.run past).gate.requestOf operation message = .ok r
  ended : (w.run events).requests[i]? = some (r, .ended result)
  served : served = .ofResult handler message result

/-- A message makes the same request of every gate that takes it. -/
theorem Serves.request_eq (h : Serves w events operation message handler i r result served)
    (h' : Serves w' events' operation message handler' i' r' result' served') : r = r' := by
  obtain ⟨past, now, -, -, hrequest⟩ := h.came
  obtain ⟨past', now', -, -, hrequest'⟩ := h'.came
  cases hheader : RequestHeader.parse operation message with
  | error e =>
    rw [Gate.requestOf_of_error hheader] at hrequest
    cases hrequest
  | ok header =>
    rw [Gate.requestOf_eq_ok hheader hrequest, Gate.requestOf_eq_ok hheader hrequest']

/-- The first message of a gate is served as its request ends. -/
theorem Serves.first {g : Gate} {now : Moment} {more : List (Moment × Event)}
    (hrequest : g.requestOf operation message = .ok r)
    (hended : (run { gate := g } ((now, .request r) :: more)).requests[0]? =
      some (r, .ended result)) :
    Serves { gate := g } ((now, .request r) :: more) operation message handler 0 r result
      (.ofResult handler message result) :=
  ⟨⟨[], now, ⟨more, rfl⟩, rfl, hrequest⟩, hended, rfl⟩

/-- A message whose request fails is not handed over, and the failure is told. -/
theorem Serves.of_error {e : Error}
    (h : Serves w events operation message handler i r (.error e) served) :
    served = ⟨.ofError e, []⟩ := h.served

/-- A request that fails for its dependency ends with this failure. -/
theorem Serves.of_fails {now : Moment} {event : Event} {e : Error}
    (h : Serves w events operation message handler i r result served)
    (hevent : past ++ [(now, event)] <+: events) (hfails : Fails (w.run past) i r e now event) :
    result = .error e ∧ e.isDependencyFailure = true := by
  obtain ⟨more, rfl⟩ := hevent
  obtain ⟨q, hget, -, hresult⟩ := hfails.ends more
  obtain ⟨-, rfl⟩ := stood_unique hget h.ended
  refine ⟨(hresult result rfl).1, ?_⟩
  rw [Error.isDependencyFailure, hfails.kind]
  rfl

/-- **Replies do not tell of the policy or the dependency.** Take any two runs, of any two gates, in
which the same message to an operation came and its request has ended. If both ended in a failure of
the dependency, the replies are the same text; and a request does end so if the breaker refuses it,
or if its call misses the deadline, breaks down with whatever text, or does not reach the validator.
If both were denied access, the replies are the same text too, whoever the principals are, whatever
they are granted, whoever owns the scope and whatever the operation requires. In neither case is the
message handed over. -/
theorem replies_tell_nothing
    (h : Serves w events operation message handler i r result served)
    (h' : Serves w' events' operation message handler' i' r' result' served') :
    (∀ e e', result = .error e → result' = .error e' →
      e.isDependencyFailure = true → e'.isDependencyFailure = true →
      served.reply.toJson.text = served'.reply.toJson.text ∧
        served.handed = [] ∧ served'.handed = []) ∧
    (∀ past now event e, past ++ [(now, event)] <+: events → Fails (w.run past) i r e now event →
      result = .error e ∧ e.isDependencyFailure = true) ∧
    (∀ past now generation (invoker : Invoker) (call : RemoteCall ValidationReply),
      past ++ [(now, .answer i (invoker.outcome call))] <+: events →
      (w.run past).requests[i]? = some (r, .asking generation) →
      (call.endsWithin invoker.limit = false ∨ (∃ text, call.ending = .breaksDown text) ∨
        ∃ endpoint text, call.ending = .returns (.error (.network endpoint text))) →
      ∃ e, result = .error e ∧ e.isDependencyFailure = true) ∧
    ∀ p p' e e', Checked w events i r p (.error e) → Checked w' events' i' r' p' (.error e') →
      served.reply.toJson.text = served'.reply.toJson.text ∧
        served.handed = [] ∧ served'.handed = [] := by
  refine ⟨?_, fun _ _ _ _ => h.of_fails, ?_, ?_⟩
  · rintro e e' rfl rfl hfailure hfailure'
    rw [h.of_error, h'.of_error]
    simp only [Reply.ofError_of_isDependencyFailure hfailure,
      Reply.ofError_of_isDependencyFailure hfailure']
    exact ⟨trivial, trivial, trivial⟩
  · intro past now generation invoker call hanswer hasking hcall
    obtain ⟨e, houtcome, hfails⟩ : ∃ e, invoker.outcome call = .error e ∧
        Fails (w.run past) i r e now (.answer i (.error e)) :=
      Fails.of_call hasking invoker hcall
    rw [houtcome] at hanswer
    exact ⟨e, h.of_fails hanswer hfails⟩
  · intro p p' e e' hchecked hchecked'
    obtain rfl := h.request_eq h'
    have hdenied : result = .error e := hchecked.result_eq h.ended
    have hdenied' : result' = .error e' := hchecked'.result_eq h'.ended
    subst hdenied hdenied'
    obtain ⟨past, now, -, hcheck⟩ := hchecked
    obtain ⟨past', now', -, hcheck'⟩ := hchecked'
    rw [h.of_error, h'.of_error, Gate.check_eq_error hcheck, Gate.check_eq_error hcheck']
    exact ⟨rfl, rfl, rfl⟩

/-- An open breaker and a validator that cannot be reached are told alike, and so are a principal
with no grants and one that may read something else. -/
theorem replies_tell_nothing_apart :
    let message := "\x7b\"credential\":\"t\",\"scope\":\"main\"\x7d"
    let handler : Handler := fun _ => .ok (.ok none)
    let r : Request := ⟨"get", "t", "main"⟩
    let refused : Error := .circuitOpen "tcp://127.0.0.1:5555"
    let network : Error := .network "10.0.0.7:443" "connection refused"
    let denied : Error := .permissionDenied "get" "main"
    let now : Moment := ⟨1, ⟨0, 0⟩⟩
    let more : List (Moment × Event) := List.replicate 6 (now, .step 0)
    let heard : List (Moment × Event) :=
      (now, .answer 0 (.error network)) :: List.replicate 2 (now, .step 0)
    let nobody : Principal := { id := "n" }
    let reader : Principal := { id := "w", permissions := [{ name := "state:health:read" }] }
    ∃ g, Gate.build {} {} 0 = .ok g ∧
      let opened : World :=
        { gate := { g with breaker := { g.breaker with state := ⟨.opened, 3, some 0, 0, 1⟩ } } }
      let known (p : Principal) : World :=
        { gate := { g with cache := g.cache.store "t" "main" p 0 } }
      ∃ x x' y y',
        Serves opened ((now, .request r) :: more) "get" message handler 0 r (.error refused) x ∧
        Serves { gate := g } ((now, .request r) :: (more ++ heard)) "get" message handler 0 r
          (.error network) x' ∧
        x.reply.toJson.text = x'.reply.toJson.text ∧ x.handed = [] ∧
        Serves (known nobody) ((now, .request r) :: more) "get" message handler 0 r
          (.error denied) y ∧
        Serves (known reader) ((now, .request r) :: more) "get" message handler 0 r
          (.error denied) y' ∧
        y.reply.toJson.text = y'.reply.toJson.text ∧ y.handed = [] := by
  intro message handler r refused network denied now more heard nobody reader
  obtain ⟨g, opened, known, known', hbuild, hopened, hknown, hknown', hrequest, hrequest₁,
      hrequest₂, hrequest₃, hended, hended₁, hended₂, hended₃, hstood₂, hstood₃, hcheck₂,
      hcheck₃⟩ :
      ∃ g opened known known', Gate.build {} {} 0 = .ok g ∧
        opened = { g with breaker := { g.breaker with state := ⟨.opened, 3, some 0, 0, 1⟩ } } ∧
        known = { g with cache := g.cache.store "t" "main" nobody 0 } ∧
        known' = { g with cache := g.cache.store "t" "main" reader 0 } ∧
        g.requestOf "get" message = .ok r ∧ opened.requestOf "get" message = .ok r ∧
        known.requestOf "get" message = .ok r ∧ known'.requestOf "get" message = .ok r ∧
        (run { gate := g } ((now, .request r) :: (more ++ heard))).requests[0]? =
          some (r, .ended (.error network)) ∧
        (run { gate := opened } ((now, .request r) :: more)).requests[0]? =
          some (r, .ended (.error refused)) ∧
        (run { gate := known } ((now, .request r) :: more)).requests[0]? =
          some (r, .ended (.error denied)) ∧
        (run { gate := known' } ((now, .request r) :: more)).requests[0]? =
          some (r, .ended (.error denied)) ∧
        (run { gate := known } ((now, .request r) :: more.take 3)).requests[0]? =
          some (r, .identified nobody) ∧
        (run { gate := known' } ((now, .request r) :: more.take 3)).requests[0]? =
          some (r, .identified reader) ∧
        (run { gate := known } ((now, .request r) :: more.take 3)).gate.check r nobody =
          .error denied ∧
        (run { gate := known' } ((now, .request r) :: more.take 3)).gate.check r reader =
          .error denied :=
    ⟨_, _, _, _, rfl, rfl, rfl, rfl, by decide +kernel, by decide +kernel,
      by decide +kernel, by decide +kernel, by decide +kernel, by decide +kernel,
      by decide +kernel, by decide +kernel, by decide +kernel, by decide +kernel,
      by decide +kernel, by decide +kernel⟩
  have hrefused : Serves { gate := opened } _ "get" message handler 0 r (.error refused) _ :=
    .first hrequest₁ hended₁
  have hunreached : Serves { gate := g } _ "get" message handler 0 r (.error network) _ :=
    .first hrequest hended
  have hdenied : Serves { gate := known } _ "get" message handler 0 r (.error denied) _ :=
    .first hrequest₂ hended₂
  have hdenied' : Serves { gate := known' } _ "get" message handler 0 r (.error denied) _ :=
    .first hrequest₃ hended₃
  obtain ⟨htext, hhanded, -⟩ :=
    (replies_tell_nothing hrefused hunreached).1 refused network rfl rfl rfl rfl
  obtain ⟨-, -, -, htold⟩ := replies_tell_nothing hdenied hdenied'
  obtain ⟨htext', hhanded', -⟩ := htold nobody reader denied denied
    ⟨_, now, ⟨⟨_, rfl⟩, hstood₂⟩, hcheck₂⟩ ⟨_, now, ⟨⟨_, rfl⟩, hstood₃⟩, hcheck₃⟩
  subst hopened hknown hknown'
  exact ⟨g, hbuild, _, _, _, _, hrefused, hunreached, htext, hhanded, hdenied, hdenied', htext',
    hhanded'⟩

end World

namespace Gate

variable {σ : Type} {g : Gate} {operation message : String} {r : Request}

/-- Serving a message on its own is a run in which nothing else takes part. -/
theorem serves_serve (v : Validator σ) (s : σ) (wall : WallClock) (handler : Handler)
    (now : Instant) (h : g.requestOf operation message = .ok r) :
    World.Serves { gate := g } (g.courseOf v s wall r now) operation message handler 0 r
      (g.authorize v s wall r now).result
      (g.serve v s wall operation handler message now).result where
  came := by
    refine ⟨[], wall.moment now, ?_, rfl, h⟩
    unfold courseOf
    split
    · exact ⟨_, rfl⟩
    · exact ⟨_, rfl⟩
  ended := by rw [authorize_eq_run]; rfl
  served := by rw [serve_of_ok h]

end Gate

end AccessGate
