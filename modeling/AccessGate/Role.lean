import AccessGate.Permission.Grammar
import AccessGate.Permission.Implication
import AccessGate.Table
import AccessGate.Text.Blank

/-!
# Roles

A role is a named bundle of permissions. The catalog of a domain takes in well-formed roles only
(`RoleCatalog.register`): the first rule that a role breaks is its fault, and the catalog stays as
it was. `RoleCatalog.effective` lists what a role grants once implication is applied.
-/

namespace AccessGate

/-- Where the permissions of a role apply. -/
inductive ScopeClass
  | global
  | organization
  | service
deriving DecidableEq, Repr

/-- A named bundle of permissions. -/
structure Role where
  name : String
  description : String
  permissions : List String
  scopeClass : ScopeClass
deriving DecidableEq, Repr

/-- The roles of a domain. -/
structure RoleCatalog where
  domain : Domain
  roles : Table String Role

namespace RoleCatalog

/-- The catalog of a domain without roles. -/
def empty (d : Domain) : RoleCatalog := ⟨d, .empty⟩

/-- The role with a name. -/
def get? (c : RoleCatalog) (name : String) : Option Role := c.roles.get? name

/-- The names of the roles, ascending. -/
def names (c : RoleCatalog) : List String := Text.sortedSet c.roles.keys

/-- The first rule that a role breaks. -/
def fault? (c : RoleCatalog) (r : Role) : Option Error :=
  if Text.isBlank r.name then some (.validation "role" "name is empty")
  else if c.roles.contains r.name then
    some (.validation "role" s!"'{r.name}' is already defined")
  else if r.permissions.isEmpty then
    some (.validation "role" s!"'{r.name}' grants no permissions")
  else
    match r.permissions.findSome? fun p => (c.domain.nameFault? p).map (p, ·) with
    | some (p, fault) => some (.validation "permission" (fault.message c.domain.name p))
    | none =>
      if r.scopeClass ≠ .global ∧ r.permissions.any isWildcard then
        some (.validation "role" s!"'{r.name}' is not global and may not use wildcards")
      else none

/-- Takes in a role. -/
def register (c : RoleCatalog) (r : Role) : Except Error RoleCatalog :=
  match c.fault? r with
  | some e => .error e
  | none => .ok { c with roles := c.roles.insert r.name r }

/-- The roles that every domain has. -/
def standardRoles (d : Domain) : List Role :=
  [⟨"system-admin", "Unrestricted control of the domain", [d.nameOf .adminSystem], .global⟩,
    ⟨"admin", "Full administrative access", [d.nameOf .adminFull], .global⟩,
    ⟨"reader", "Read and list data", [d.nameOf .dataRead, d.nameOf .dataList], .organization⟩,
    ⟨"writer", "Read, write and delete data",
      [d.nameOf .dataWrite, d.nameOf .dataDelete, d.nameOf .dataList], .organization⟩,
    ⟨"service", "Manage scopes and their data",
      [d.nameOf .scopeCreate, d.nameOf .scopeDelete, d.nameOf .dataWrite, d.nameOf .dataDelete,
        d.nameOf .dataList], .service⟩,
    ⟨"monitor", "Health and metrics only", [d.nameOf .healthRead, d.nameOf .metricsRead],
      .global⟩]

/-- The catalog of a domain with the roles that every domain has. -/
def standard (d : Domain) : Except Error RoleCatalog := (standardRoles d).foldlM register (empty d)

/-- The permissions of a role and all that they imply, ascending. -/
def effective (c : RoleCatalog) (name : String) : Option (List String) :=
  (c.get? name).map fun r =>
    Text.sortedSet (r.permissions.flatMap fun p => p :: c.domain.impliedBy p)

end RoleCatalog

end AccessGate
