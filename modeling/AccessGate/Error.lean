import AccessGate.Duration

/-!
# Failures of the authorization path

Every failure is an `Error`: a cause with what it carries. Two questions are asked of it. Its
`Error.kind` decides how a refusal is reported and whether a breaker counts it: the three kinds of
`Error.isClient` are the caller's own doing, `ErrorKind.unavailable` is a dependency that could not
be consulted. Its `Error.message` is the only place where the wording lives. A denial names the
operation and the scope, and never a permission.
-/

namespace AccessGate

/-- How a failure is classified for the caller. -/
inductive ErrorKind
  | malformedRequest
  | unauthenticated
  | forbidden
  | unavailable
  | internal
deriving DecidableEq, Repr

/-- The name of a kind in replies and audit records. -/
def ErrorKind.name : ErrorKind → String
  | malformedRequest => "malformed_request"
  | unauthenticated => "unauthenticated"
  | forbidden => "forbidden"
  | unavailable => "unavailable"
  | internal => "internal"

/-- A failure, by cause. -/
inductive Error
  /-- The request was refused before any remote call. -/
  | malformedRequest (operation message : String)
  /-- The credential is not valid. -/
  | authentication (message : String)
  /-- The principal is known and no pattern grants it the operation. -/
  | permissionDenied (operation scope : String)
  /-- The dependency's breaker is open. -/
  | circuitOpen (dependency : String)
  /-- The call did not answer before its deadline. -/
  | timeout (operation : String) (limit : Duration)
  /-- The dependency could not be reached, or answered nonsense. -/
  | network (endpoint message : String)
  /-- The call broke down on its own task. -/
  | internal (message : String)
  /-- The configuration cannot be used. -/
  | configuration (message : String)
  /-- One named field has a value that is not allowed. -/
  | validation (field message : String)
  /-- A file could not be worked with. -/
  | fileSystem (path operation reason : String)
  /-- A value could not be read from, or written as, JSON. -/
  | json (message : String)
deriving DecidableEq, Repr

namespace Error

/-- The kind of a failure. -/
def kind : Error → ErrorKind
  | malformedRequest .. | json .. => .malformedRequest
  | authentication .. => .unauthenticated
  | permissionDenied .. => .forbidden
  | circuitOpen .. | timeout .. | network .. | internal .. => .unavailable
  | configuration .. | validation .. | fileSystem .. => .internal

/-- A failure of the caller's own making; a breaker never counts it. -/
def isClient (e : Error) : Bool :=
  match e.kind with
  | .malformedRequest | .unauthenticated | .forbidden => true
  | .unavailable | .internal => false

/-- A failure of a dependency: unreachable, too slow or broken. -/
def isDependencyFailure (e : Error) : Bool := e.kind == .unavailable

/-- The wording of a failure. -/
def message : Error → String
  | malformedRequest operation message => s!"malformed request for '{operation}': {message}"
  | authentication message => s!"authentication failed: {message}"
  | permissionDenied operation scope =>
    if scope.isEmpty then s!"permission denied for '{operation}'"
    else s!"permission denied for '{operation}' on scope '{scope}'"
  | circuitOpen dependency =>
    s!"circuit breaker is open for '{dependency}': service unavailable"
  | timeout operation limit =>
    "operation '" ++ operation ++ "' timed out after " ++ limit.text
  | network endpoint message => s!"network error for '{endpoint}': {message}"
  | internal message => s!"internal fault: {message}"
  | configuration message => s!"configuration error: {message}"
  | validation field message => s!"validation failed for '{field}': {message}"
  | fileSystem path operation reason =>
    s!"file system {operation} operation failed for '{path}': {reason}"
  | json message => s!"JSON error: {message}"

/-- A failure met while doing `activity`. A classified failure passes unchanged; one of kind
`internal` becomes a configuration failure that says what was being done. -/
def during (e : Error) (activity : String) : Error :=
  if e.kind = .internal then .configuration (activity ++ ": " ++ e.message) else e

/-- A chain of causes, the root first, as one text: the outermost cause comes first and each is
followed by what caused it. -/
def chainText (causes : List String) : String := ": ".intercalate causes.reverse

/-- A chain of causes, the root first, told as one internal fault. -/
def ofCauses (causes : List String) : Error := .internal (chainText causes)

/-- No failure is both the caller's and the dependency's. -/
theorem isClient_eq_false_of_isDependencyFailure {e : Error} (h : e.isDependencyFailure = true) :
    e.isClient = false := by
  cases e <;> simp_all [isDependencyFailure, isClient, kind]

end Error

end AccessGate
