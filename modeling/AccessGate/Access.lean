import AccessGate.Error
import AccessGate.Ownership
import AccessGate.Permission.Implication
import AccessGate.Principal

/-!
# Access decisions

A request is granted by the first of five patterns that holds of it, in the order of
`AccessPattern.priority`; `Access.decide` answers with that pattern, or with a denial that names the
operation and the scope. The permissions of a principal count only through their effective names
(`Access.grants`).
-/

namespace AccessGate

/-- The ways in which a principal is granted access. -/
inductive AccessPattern
  /-- System or full administration, of the domain or of the requested scope. -/
  | admin
  /-- The required permission, held without a scope. -/
  | global
  /-- The required permission, held for the requested scope. -/
  | bound
  /-- The calling service owns the requested scope. -/
  | serviceOwnership
  /-- An explicit cross-service grant on the requested scope. -/
  | crossService
deriving DecidableEq, Repr

namespace AccessPattern

/-- The name of a pattern. -/
def name : AccessPattern → String
  | admin => "admin"
  | global => "global"
  | bound => "scoped"
  | serviceOwnership => "service-ownership"
  | crossService => "cross-service"

/-- Every pattern, the highest priority first. -/
def priority : List AccessPattern := [admin, global, bound, serviceOwnership, crossService]

/-- Every pattern is tried. -/
theorem mem_priority (p : AccessPattern) : p ∈ priority := by cases p <;> decide

end AccessPattern

/-- A question of access. -/
structure AccessRequest where
  operation : String
  /-- The permission the operation needs. -/
  required : String
  /-- The scope it works on; empty for none. -/
  scope : String
deriving DecidableEq, Repr

namespace Access

/-- The names under which a principal's permissions are matched. -/
def grants (d : Domain) (p : Principal) : List String := p.permissions.map d.effectiveName

/-- Whether one of the grants is enough for a permission. -/
def holds (d : Domain) (grants : List String) (required : String) : Bool :=
  grants.any fun granted => d.satisfies granted required

/-- Whether a permission can be bound to a scope: administration, scope management and metrics
cannot. -/
def isBindable (d : Domain) (required : String) : Bool :=
  !d.isGlobal required || required == d.nameOf .healthRead

/-- Whether owning a scope is enough for a permission on it. -/
def ownershipSuffices (d : Domain) (required : String) : Bool :=
  required == d.nameOf .dataRead || required == d.nameOf .dataWrite ||
    required == d.nameOf .dataDelete || required == d.nameOf .healthRead

/-- Whether a pattern holds of a request, for given grants and a service vouched for. -/
def matchesPattern (d : Domain) (o : Ownership) (service : Option String) (grants : List String)
    (r : AccessRequest) : AccessPattern → Bool
  | .admin =>
    holds d grants (d.nameOf .adminSystem) || holds d grants (d.nameOf .adminFull) ||
      (!r.scope.isEmpty && !d.isGlobal r.required &&
        holds d grants (d.scopedVariant (d.nameOf .adminFull) r.scope))
  | .global => holds d grants r.required
  | .bound =>
    !r.scope.isEmpty && isBindable d r.required &&
      holds d grants (d.scopedVariant r.required r.scope)
  | .serviceOwnership =>
    !r.scope.isEmpty && ownershipSuffices d r.required && service.any (o.isOwner r.scope)
  | .crossService =>
    !r.scope.isEmpty && isBindable d r.required &&
      holds d grants (d.crossServiceVariant r.required r.scope)

/-- The first pattern that holds of a request. -/
def pattern? (d : Domain) (o : Ownership) (p : Principal) (r : AccessRequest) :
    Option AccessPattern :=
  AccessPattern.priority.find? (matchesPattern d o p.service (grants d p) r)

/-- Decides a request. -/
def decide (d : Domain) (o : Ownership) (p : Principal) (r : AccessRequest) :
    Except Error AccessPattern :=
  match pattern? d o p r with
  | some pattern => .ok pattern
  | none => .error (.permissionDenied r.operation r.scope)

end Access

end AccessGate
