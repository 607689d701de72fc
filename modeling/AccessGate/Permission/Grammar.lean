import AccessGate.Error
import AccessGate.Permission.Basic

/-!
# Well-formed permission names and scopes

A name of a domain has at least two segments, the first is the domain, none is empty, and a star
stands only as the whole last segment. `Domain.nameFault?` finds the first of these rules that a
name breaks; `Domain.IsName` states them together. A scope can be embedded in a name when it is not
empty and holds neither a colon nor a star.
-/

namespace AccessGate

open Text (segments)

/-- The rule that a permission name breaks. -/
inductive NameFault
  | empty
  | oneSegment
  | foreignDomain
  | emptySegment
  | misplacedStar
deriving DecidableEq, Repr

/-- The wording of a fault of `name`, in `domain`. -/
def NameFault.message (domain name : String) : NameFault → String
  | empty => "name is empty"
  | oneSegment => s!"'{name}' needs at least a domain and an action"
  | foreignDomain => s!"'{name}' does not belong to domain '{domain}'"
  | emptySegment => s!"'{name}' has an empty segment"
  | misplacedStar => s!"'{name}' may only use '*' as its final segment"

/-- Whether a segment holds a star. -/
def hasStar (segment : String) : Bool := segment.toList.contains '*'

namespace Domain

/-- The first rule that a name breaks. -/
def nameFault? (d : Domain) (name : String) : Option NameFault :=
  let parts := segments name
  if name.isEmpty then some .empty
  else if parts.length < 2 then some .oneSegment
  else if parts.headD "" ≠ d.name then some .foreignDomain
  else if parts.any String.isEmpty then some .emptySegment
  else if parts.dropLast.any hasStar || (hasStar (parts.getLastD "") && parts.getLastD "" != "*")
  then some .misplacedStar
  else none

/-- The names of a domain. -/
structure IsName (d : Domain) (name : String) : Prop where
  two_le : 2 ≤ (segments name).length
  head : (segments name).head? = some d.name
  nonempty : ∀ part ∈ segments name, part ≠ ""
  star_free : ∀ part ∈ (segments name).dropLast, '*' ∉ part.toList
  last : ∀ part, (segments name).getLast? = some part → '*' ∉ part.toList ∨ part = "*"

/-- Accepts the names of a domain. -/
def validate (d : Domain) (name : String) : Except Error Unit :=
  match d.nameFault? name with
  | none => .ok ()
  | some fault => .error (.validation "permission" (fault.message d.name name))

/-- Whether a name is one of the domain's. -/
def accepts (d : Domain) (name : String) : Bool := (d.nameFault? name).isNone

end Domain

/-- Whether a text can stand as a scope in a permission name. -/
def isScopeName (scope : String) : Bool :=
  !scope.isEmpty && !scope.toList.contains ':' && !hasStar scope

/-- Accepts the texts that can stand as a scope. -/
def validateScope (scope : String) : Except Error Unit :=
  if isScopeName scope then .ok ()
  else .error (.validation "scope" s!"'{scope}' must be non-empty and contain neither ':' nor '*'")

/-- A scope is valid exactly if it is not empty and has neither separators nor stars. -/
theorem validateScope_eq_ok_iff {scope : String} :
    validateScope scope = .ok () ↔ scope ≠ "" ∧ ':' ∉ scope.toList ∧ '*' ∉ scope.toList := by
  have hname : isScopeName scope = true ↔
      scope ≠ "" ∧ ':' ∉ scope.toList ∧ '*' ∉ scope.toList := by
    simp [isScopeName, hasStar, and_assoc]
  rw [← hname, validateScope]
  cases isScopeName scope <;> simp

end AccessGate
