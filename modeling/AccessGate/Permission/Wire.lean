import AccessGate.Json.Document
import AccessGate.Permission.Basic

/-!
# The JSON form of a permission
-/

namespace AccessGate.Permission

open Json

/-- The fields of the JSON form. -/
def fields : List Field := [.must "name" asString, .may "scope" (asOption asString)]

/-- Reads a permission. -/
def ofJson (source : Source) (j : Json) : Except DecodeError Permission := do
  let kept ← asRecord "struct Permission" fields source j
  .ok {
    name := ← field kept "name" asString
    scope := ← fieldOr kept "scope" none (asOption asString) }

/-- Reads a permission from a text. -/
def ofText : String → Except DecodeError Permission :=
  decodeText (.ofFields fields) (ofJson .text)

/-- The JSON form; an absent scope is left out. -/
def toJson (p : Permission) : Json :=
  .object ([("name", .string p.name)] ++ (p.scope.map fun s => ("scope", Json.string s)).toList)

end AccessGate.Permission
