import AccessGate.Table
import AccessGate.Text.Sorted

/-!
# Owners of scopes

Each scope has at most one owning service: the one registered last. Registering and unregistering
answer with the owner before.
-/

namespace AccessGate

/-- The services that own scopes. -/
structure Ownership where
  owners : Table String String := .empty

namespace Ownership

/-- The owner of a scope. -/
def ownerOf (o : Ownership) (scope : String) : Option String := o.owners.get? scope

/-- Makes a service the owner of a scope. -/
def register (o : Ownership) (scope service : String) : Ownership :=
  ⟨o.owners.insert scope service⟩

/-- Leaves a scope without an owner. -/
def unregister (o : Ownership) (scope : String) : Ownership := ⟨o.owners.erase scope⟩

/-- Whether a service owns a scope. -/
def isOwner (o : Ownership) (scope service : String) : Bool := o.ownerOf scope == some service

/-- The scopes that a service owns, ascending. -/
def scopesOf (o : Ownership) (service : String) : List String :=
  Text.sortedSet (o.owners.filter fun _ owner => owner == service).keys

/-- The number of scopes with an owner. -/
def size (o : Ownership) : Nat := o.owners.size

/-- Registering a scope changes the owner of this scope only. -/
theorem ownerOf_register (o : Ownership) (scope service s : String) :
    (o.register scope service).ownerOf s = if s = scope then some service else o.ownerOf s :=
  o.owners.get?_insert scope s service

/-- Giving a scope up changes the owner of this scope only. -/
theorem ownerOf_unregister (o : Ownership) (scope s : String) :
    (o.unregister scope).ownerOf s = if s = scope then none else o.ownerOf s :=
  o.owners.get?_erase scope s

/-- A scope is among those of a service exactly when the service is its owner. -/
theorem mem_scopesOf {o : Ownership} {scope service : String} :
    scope ∈ o.scopesOf service ↔ o.ownerOf scope = some service := by
  rw [scopesOf, Text.mem_sortedSet, Table.mem_keys_iff, Table.get?_filter, ownerOf]
  cases o.owners.get? scope with
  | none => simp
  | some owner => by_cases h : owner = service <;> simp [Option.filter_some, h]

end Ownership

end AccessGate
