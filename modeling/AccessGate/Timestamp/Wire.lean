import AccessGate.Json.Decode
import AccessGate.Timestamp.Text

/-!
# The JSON form of a time
-/

namespace AccessGate.Timestamp

open Json

/-- Reads a time. -/
def ofJson : Json → Except DecodeError Timestamp
  | .string s =>
    match ofText s with
    | .ok t => .ok t
    | .error fault => .error (.malformed fault.message)
  | j => .error (j.mismatch "an RFC 3339 formatted date and time string")

/-- The JSON form. -/
def toJson (t : Timestamp) : Json := .string t.text

end AccessGate.Timestamp
