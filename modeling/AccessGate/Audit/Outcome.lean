import AccessGate.Access.Wire

/-!
# Outcomes of decisions

An `AuditOutcome` says how a decision ended. Its JSON form is an object in which the member
`outcome` names the case and the others hold what the case carries; it may also be an array, the
case first. What the case carries is set aside until its name is known, wherever the name stands.
-/

namespace AccessGate

open Json

/-- How a decision ended. -/
inductive AuditOutcome
  | granted (pattern : AccessPattern)
  /-- Refused; the reason is the kind of the error. -/
  | denied (reason : String)
  /-- Let through unchecked, because authorization was off. -/
  | bypassed
deriving DecidableEq, Repr

namespace AuditOutcome

/-- Whether access was granted. -/
def isGranted : AuditOutcome → Bool
  | granted _ => true
  | _ => false

/-- The cases, by name only. -/
inductive Case
  | granted
  | denied
  | bypassed
deriving DecidableEq, Repr

/-- The names of the cases. -/
def Case.variants : List (String × Case) :=
  [("granted", .granted), ("denied", .denied), ("bypassed", .bypassed)]

/-- The member that names the case. -/
def tag : String := "outcome"

/-- Reads the case; a member that was set aside may hold its index. -/
def Case.ofJson (source : Source) : Json → Except DecodeError Case
  | .string s => variantNamed variants s
  | .number (.integer n) =>
    let j : Json := .number (.integer n)
    if source = .member ∧ 0 ≤ n then
      match variants[n.toNat]? with
      | some v => .ok v.2
      | none => .error (.invalidValue j.description "variant index 0 <= i < 3")
    else .error (j.mismatch "variant identifier")
  | j => .error (j.mismatch "variant identifier")

/-- Finds the case among members, wherever it stands. -/
def takeCase (source : Source) (found : Option Case) :
    List (String × Json) → Except DecodeError Case
  | [] =>
    match found with
    | some c => .ok c
    | none => .error (.missingField tag)
  | (key, v) :: ms =>
    if key = tag then
      if found.isSome then .error (.duplicateField tag)
      else do takeCase source (some (← Case.ofJson source v)) ms
    else takeCase source found ms

/-- The fields of a grant. -/
def grantedFields : List Field := [.must "pattern" (AccessPattern.ofJson .member)]

/-- The fields of a refusal. -/
def deniedFields : List Field := [.must "reason" asString]

/-- Reads what a case carries, which was set aside. -/
def ofContent (content : Json) : Case → Except DecodeError AuditOutcome
  | .granted => do
    let kept ← asRecord "struct variant AuditOutcome::Granted" grantedFields .member content
    .ok (granted (← field kept "pattern" (AccessPattern.ofJson .member)))
  | .denied => do
    let kept ← asRecord "struct variant AuditOutcome::Denied" deniedFields .member content
    .ok (denied (← field kept "reason" asString))
  | .bypassed =>
    match content with
    | .array (item :: items) =>
      .error (surplus .member (items.length + 1) (item :: items).length)
    | _ => .ok bypassed

/-- Reads an outcome from the members of an object. -/
def ofMembers (source : Source) (ms : List (String × Json)) : Except DecodeError AuditOutcome := do
  let c ← takeCase source none ms
  ofContent (.object (ms.filter (·.1 != tag))) c

/-- Reads an outcome. -/
def ofJson (source : Source) : Json → Except DecodeError AuditOutcome
  | .object ms => ofMembers source ms
  | .array [] => .error (.missingField tag)
  | .array (c :: items) => do ofContent (.array items) (← Case.ofJson source c)
  | j => .error (j.mismatch "internally tagged enum AuditOutcome")

/-- Reads an outcome from a text. Every member counts, since what a case carries is set aside. -/
def ofText : String → Except DecodeError AuditOutcome := decodeText .whole (ofJson .text)

/-- The members of the JSON form. -/
def members : AuditOutcome → List (String × Json)
  | granted pattern => [(tag, .string "granted"), ("pattern", pattern.toJson)]
  | denied reason => [(tag, .string "denied"), ("reason", .string reason)]
  | bypassed => [(tag, .string "bypassed")]

/-- The JSON form. -/
def toJson (o : AuditOutcome) : Json := .object o.members

end AuditOutcome

end AccessGate
