import AccessGate.Permission.Basic
import AccessGate.Table

/-!
# What an operation needs

Each known operation has a rule: the permission it needs and whether a scope must come with it. An
operation without a rule of its own needs the permission of system administration, and a scope.
-/

namespace AccessGate

/-- What an operation needs before it may run. -/
structure OperationRule where
  permission : String
  requiresScope : Bool
deriving DecidableEq, Repr

/-- The rules of the known operations, and the rule of all others. -/
structure OperationTable where
  rules : Table String OperationRule
  fallback : OperationRule

namespace OperationTable

/-- The table of a domain without known operations. -/
def empty (d : Domain) : OperationTable := ⟨.empty, ⟨d.nameOf .adminSystem, true⟩⟩

/-- Sets the rule of an operation. -/
def register (t : OperationTable) (operation permission : String) (requiresScope : Bool) :
    OperationTable :=
  { t with rules := t.rules.insert operation ⟨permission, requiresScope⟩ }

/-- The operations that every service has. -/
def standardOperations : List (String × Standard × Bool) :=
  [("create-scope", .scopeCreate, true), ("delete-scope", .scopeDelete, true),
    ("list-scopes", .scopeList, false), ("get", .dataRead, true), ("set", .dataWrite, true),
    ("delete", .dataDelete, true), ("list", .dataList, true), ("keys", .dataList, true),
    ("health", .healthRead, false), ("metrics", .metricsRead, false)]

/-- The table of a domain with the operations that every service has. -/
def standard (d : Domain) : OperationTable :=
  standardOperations.foldl
    (fun t (operation, s, requiresScope) => t.register operation (d.nameOf s) requiresScope)
    (empty d)

/-- Whether an operation has a rule of its own. -/
def isKnown (t : OperationTable) (operation : String) : Bool := t.rules.contains operation

/-- The rule of an operation. -/
def rule (t : OperationTable) (operation : String) : OperationRule :=
  (t.rules.get? operation).getD t.fallback

/-- An operation that is not in the table falls back. -/
theorem rule_of_not_isKnown {t : OperationTable} {operation : String}
    (h : t.isKnown operation = false) : t.rule operation = t.fallback := by
  cases hr : t.rules.get? operation with
  | none => simp [rule, hr]
  | some r => simp [isKnown, Table.contains, hr] at h

end OperationTable

end AccessGate
