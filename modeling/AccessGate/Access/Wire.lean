import AccessGate.Access
import AccessGate.Json.Document

/-!
# The JSON form of an access pattern
-/

namespace AccessGate.AccessPattern

open Json

/-- The names of the patterns. -/
def variants : List (String × AccessPattern) := priority.map fun p => (p.name, p)

/-- Reads a pattern. -/
def ofJson (source : Source) : Json → Except DecodeError AccessPattern := asVariant variants source

/-- Reads a pattern from a text. -/
def ofText : String → Except DecodeError AccessPattern := decodeText .whole (ofJson .text)

/-- The JSON form. -/
def toJson (p : AccessPattern) : Json := .string p.name

end AccessGate.AccessPattern
