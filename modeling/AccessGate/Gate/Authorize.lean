import AccessGate.Gate.Basic
import AccessGate.Permission.Grammar
import AccessGate.Validator.Basic

/-!
# Authorizing a request

A request passes in two parts. `Gate.approach` goes as far as it can without the validator: a
request that is malformed, or that the cache can answer, ends there, and one that the breaker lets
through asks the validator. `Gate.conclude` takes the validator's answer, or the error in its place,
to the end. `Gate.authorize` is a request on its own, `Gate.authorizeAll` many at once. However a
request ends, exactly one entry goes to the audit log.
-/

namespace AccessGate.Gate

/-- What a request is refused for before anything else is looked at. -/
def refusal? (g : Gate) (r : Request) : Option Error :=
  let malformed (reason : String) : Error := .malformedRequest r.operation reason
  if r.credential.isEmpty then some (malformed "missing credential")
  else if r.scope.isEmpty then
    if g.requiresScope r.operation then some (malformed "missing scope") else none
  else
    match validateScope r.scope with
    | .ok _ => none
    | .error e => some (malformed e.message)

/-! ## How a request ends -/

/-- The outcome that the audit log is told of a result. -/
def auditOutcome : Except Error (Principal × AccessPattern) → AuditOutcome
  | .ok (_, pattern) => .granted pattern
  | .error e => .denied e.kind.name

/-- The audit entry of a request that was decided. -/
def auditEntry (r : Request) (principalId : Option String)
    (result : Except Error (Principal × AccessPattern)) : AuditEntry where
  principalId := principalId
  credential := if r.credential.isEmpty then none else some (fingerprint r.credential)
  operation := r.operation
  scope := r.scope
  outcome := auditOutcome result

/-- Ends a request that was decided, for a principal if there is one. -/
def close (g : Gate) (r : Request) (principalId : Option String)
    (result : Except Error (Principal × AccessPattern)) : Except Error Authorization × Gate :=
  (result.map fun (principal, pattern) => ⟨principal, some pattern⟩,
    { g with audit := g.audit.record (auditEntry r principalId result) })

/-- Ends a request that is let in because authorization is off. -/
def bypass (g : Gate) (r : Request) : Except Error Authorization × Gate :=
  (.ok ⟨.anonymous, none⟩,
    { g with audit :=
        g.audit.record { operation := r.operation, scope := r.scope, outcome := .bypassed } })

/-- Decides whether a principal may do what a request asks. -/
def check (g : Gate) (r : Request) (p : Principal) : Except Error (Principal × AccessPattern) :=
  (Access.decide g.domain g.ownership p
    ⟨r.operation, (g.operations.rule r.operation).permission, r.scope⟩).map (p, ·)

/-- Decides a request of a principal and ends it. -/
def settle (g : Gate) (r : Request) (p : Principal) : Except Error Authorization × Gate :=
  g.close r (some p.id) (g.check r p)

/-! ## With the validator's answer -/

/-- The principal of an answer, unless the credential is past its end. -/
def principalOf (g : Gate) (reply : ValidationReply) (now : Timestamp) :
    Except Error Principal := do
  let p ← Principal.ofReply g.domain reply
  if p.isExpired now then .error (.authentication "credential expired") else .ok p

/-- Takes the principal of an answer into the cache, or that there is none. -/
def identify (g : Gate) (r : Request) (now : Moment) (reply : ValidationReply) :
    Except Error Principal × Gate :=
  match g.principalOf reply now.wall with
  | .ok p =>
    (.ok p, { g with cache := g.cache.store r.credential r.scope p now.instant })
  | .error e => (.error e, { g with cache := g.cache.storeUnknown r.credential now.instant })

/-- Tells the breaker how a call went that was let through under a generation. -/
def hear (g : Gate) (generation : Nat) (now : Instant) (result : Except Error ValidationReply) :
    Gate :=
  { g with breaker := g.breaker.record generation now result }

/-- Takes a request that asked the validator to its end. -/
def conclude (g : Gate) (r : Request) (generation : Nat) (now : Moment)
    (result : Except Error ValidationReply) : Except Error Authorization × Gate :=
  let g := g.hear generation now.instant result
  match result with
  | .error e => g.close r none (.error e)
  | .ok reply =>
    match g.identify r now reply with
    | (.error e, g) => g.close r none (.error e)
    | (.ok p, g) => g.settle r p

/-! ## Up to the validator -/

/-- How far a request comes without the validator. -/
inductive Approach
  /-- The validator is to be asked; the breaker let the call through under a generation. -/
  | asks (generation : Nat)
  | ends (result : Except Error Authorization)

/-- A request that has ended. -/
def Approach.ended (x : Except Error Authorization × Gate) : Approach × Gate := (.ends x.1, x.2)

/-- Takes a request as far as it comes without the validator. -/
def approach (g : Gate) (r : Request) (now : Moment) : Approach × Gate :=
  if !g.enabled then Approach.ended (g.bypass r)
  else
    match g.refusal? r with
    | some e => Approach.ended (g.close r none (.error e))
    | none =>
      let (answer, cache) := g.cache.lookup r.credential r.scope now
      let g := { g with cache }
      match answer with
      | .hit p => Approach.ended (g.settle r p)
      | .unknown =>
        Approach.ended
          (g.close r none (.error (.authentication "credential rejected by validator")))
      | .miss =>
        match g.breaker.request now.instant with
        | (.ok generation, breaker) => (.asks generation, { g with breaker })
        | (.error e, breaker) => Approach.ended ({ g with breaker }.close r none (.error e))

/-! ## Whole requests -/

/-- What is left when something that may wait for the validator is over: its result, the gate, the
validator's state and the instant. -/
structure Finished (σ α : Type) where
  result : α
  gate : Gate
  remote : σ
  finish : Instant

variable {σ : Type}

/-- Authorizes a request. -/
def authorize (g : Gate) (v : Validator σ) (s : σ) (wall : WallClock) (r : Request)
    (now : Instant) : Finished σ (Except Error Authorization) :=
  match g.approach r (wall.moment now) with
  | (.ends result, g) => ⟨result, g, s, now⟩
  | (.asks generation, g) =>
    let (call, s) := v.validate s r.credential (wall.moment now)
    let finish := (g.validateInvoker.wait call).after now
    let (result, g) :=
      g.conclude r generation (wall.moment finish) (g.validateInvoker.outcome call)
    ⟨result, g, s, finish⟩

/-! ## Requests at once -/

/-- A request that waits for the validator: when the wait is over, whether that is the deadline, and
what comes of it. -/
structure Waiting where
  index : Nat
  request : Request
  generation : Nat
  finish : Instant
  missed : Bool
  answer : Except Error ValidationReply

/-- The order in which waits end: a deadline comes before an answer at the same instant, and else
the earlier request first. -/
def Waiting.before (a b : Waiting) : Bool :=
  a.finish < b.finish ||
    (a.finish == b.finish &&
      ((a.missed && !b.missed) || (a.missed == b.missed && a.index ≤ b.index)))

/-- Takes requests, numbered from an index, as far as they come without the validator. -/
def approachAll (now : Moment) :
    Nat → List Request → Gate → List (Nat × Request × Approach) × Gate
  | _, [], g => ([], g)
  | i, r :: rs, g =>
    let (a, g) := g.approach r now
    let (rest, g) := approachAll now (i + 1) rs g
    ((i, r, a) :: rest, g)

/-- Asks the validator for each request that comes so far. -/
def askAll (v : Validator σ) (invoker : Invoker) (now : Moment) :
    List (Nat × Request × Approach) → σ → List Waiting × σ
  | [], s => ([], s)
  | (_, _, .ends _) :: rest, s => askAll v invoker now rest s
  | (index, request, .asks generation) :: rest, s =>
    let (call, s) := v.validate s request.credential now
    let (waiting, s) := askAll v invoker now rest s
    (⟨index, request, generation, (invoker.wait call).after now.instant,
      !call.endsWithin invoker.limit, invoker.outcome call⟩ :: waiting, s)

/-- Takes waiting requests to their end, in the order given. -/
def concludeAll (wall : WallClock) :
    List Waiting → Gate → List (Nat × Except Error Authorization) × Gate
  | [], g => ([], g)
  | w :: ws, g =>
    let (result, g) := g.conclude w.request w.generation (wall.moment w.finish) w.answer
    let (rest, g) := concludeAll wall ws g
    ((w.index, result) :: rest, g)

/-- Authorizes requests that come at once: all of them approach before the validator is asked for
the first, and each is concluded when its wait ends. The results are in the order of the requests.
-/
def authorizeAll (g : Gate) (v : Validator σ) (s : σ) (wall : WallClock) (rs : List Request)
    (now : Instant) : Finished σ (List (Except Error Authorization)) :=
  let (approached, g) := approachAll (wall.moment now) 0 rs g
  let (waiting, s) := askAll v g.validateInvoker (wall.moment now) approached s
  let waiting := waiting.mergeSort Waiting.before
  let (concluded, g) := concludeAll wall waiting g
  let results := approached.filterMap fun (i, _, a) =>
    match a with
    | .ends result => some result
    | .asks _ => (concluded.find? (·.1 == i)).map Prod.snd
  ⟨results, g, s, waiting.foldl (fun t w => max t w.finish) now⟩

end AccessGate.Gate
