import AccessGate.Json.Document
import AccessGate.Role

/-!
# The JSON form of a role
-/

namespace AccessGate

open Json

namespace ScopeClass

/-- The names of the classes. -/
def variants : List (String × ScopeClass) :=
  [("global", .global), ("organization", .organization), ("service", .service)]

/-- The name of a class. -/
def name : ScopeClass → String
  | global => "global"
  | organization => "organization"
  | service => "service"

/-- Reads a class. -/
def ofJson (source : Source) : Json → Except DecodeError ScopeClass := asVariant variants source

/-- Reads a class from a text. -/
def ofText : String → Except DecodeError ScopeClass := decodeText .whole (ofJson .text)

end ScopeClass

namespace Role

/-- The fields of the JSON form. -/
def fields (source : Source) : List Field :=
  [.must "name" asString, .must "description" asString, .must "permissions" (asList asString),
    .must "scope_class" (ScopeClass.ofJson source)]

/-- Reads a role. -/
def ofJson (source : Source) (j : Json) : Except DecodeError Role := do
  let kept ← asRecord "struct Role" (fields source) source j
  .ok {
    name := ← field kept "name" asString
    description := ← field kept "description" asString
    permissions := ← field kept "permissions" (asList asString)
    scopeClass := ← field kept "scope_class" (ScopeClass.ofJson source) }

/-- Reads a role from a text. -/
def ofText : String → Except DecodeError Role :=
  decodeText (.ofFields (fields .text)) (ofJson .text)

/-- The JSON form. -/
def toJson (r : Role) : Json :=
  .object [
    ("name", .string r.name), ("description", .string r.description),
    ("permissions", .array (r.permissions.map .string)),
    ("scope_class", .string r.scopeClass.name)]

end Role

end AccessGate
