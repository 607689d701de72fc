import AccessGate.Permission.Grammar
import AccessGate.Permission.Wire
import AccessGate.Timestamp.Text
import AccessGate.Validation.Reply

/-!
# Principals

A `Principal` is who a valid credential belongs to, with the permissions granted. It is built from a
validator's answer (`Principal.ofReply`): a refusal or an answer without an identity is an
authentication failure, names that are not the domain's are dropped, and an expiry that the calendar
cannot hold means that the credential never expires.
-/

namespace AccessGate

/-- A validated identity. -/
structure Principal where
  id : String
  email : Option String := none
  username : Option String := none
  /-- The service that the validator vouches for. -/
  service : Option String := none
  /-- The granted permissions, none twice. -/
  permissions : List Permission := []
  validUntil : Timestamp := .never
deriving DecidableEq, Repr

namespace Principal

/-- The principal of requests that pass while authorization is off. -/
def anonymous : Principal := { id := "anonymous" }

/-- The principal with one more permission. -/
def grant (p : Principal) (permission : Permission) : Principal :=
  if p.permissions.contains permission then p
  else { p with permissions := p.permissions ++ [permission] }

/-- Whether a principal's credential is past its end. -/
def isExpired (p : Principal) (now : Timestamp) : Bool := now.reached p.validUntil

/-- The end of a credential's life: never, when there is none or it cannot be represented. -/
def endOfLife (expiresAt : Option Int) : Timestamp :=
  (expiresAt.bind Timestamp.ofSeconds?).getD .never

/-- The principal that an answer vouches for. -/
def ofReply (d : Domain) (r : ValidationReply) : Except Error Principal :=
  if !r.valid then
    .error (.authentication (r.message.getD "credential rejected by validator"))
  else
    match r.principalId.filter (!·.isEmpty) with
    | none => .error (.authentication "validator returned no principal id")
    | some id =>
      let principal : Principal := {
        id, email := r.email, username := r.username
        service := r.service.filter (!·.isEmpty)
        validUntil := endOfLife r.expiresAt }
      .ok ((r.permissions.filter d.accepts).foldl (fun p name => p.grant { name }) principal)

/-- The order of permissions in an answer: by name, then by scope, none first. -/
def permissionLe (a b : Permission) : Bool :=
  a.name < b.name || (a.name == b.name &&
    match a.scope, b.scope with
    | none, _ => true
    | some _, none => false
    | some s, some t => s ≤ t)

/-- The JSON form, permissions in order. -/
def toJson (p : Principal) : Json :=
  .object [
    ("id", .string p.id), ("email", .ofOption .string p.email),
    ("username", .ofOption .string p.username), ("service", .ofOption .string p.service),
    ("permissions", .array ((p.permissions.mergeSort permissionLe).map Permission.toJson)),
    ("valid_until", .string p.validUntil.text)]

end Principal

end AccessGate
