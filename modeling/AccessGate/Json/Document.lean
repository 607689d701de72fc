import AccessGate.Json.Decode
import AccessGate.Json.Reader

/-!
# Typed reading straight from a text

`Json.decodeText` reads typed data from a text. What is written in a member that the data does not
have need only follow the grammar, so a text without a value may still hold the data. When it does
not, the fault of such a text is that it has no value, whatever else is wrong with it.
-/

namespace AccessGate.Json

/-- Reads data from the parts of a text that its shape looks at. -/
def decodeText {α : Type} (shape : Shape) (read : Json → Except DecodeError α) (text : String) :
    Except DecodeError α :=
  match draft? text with
  | none => .error .unreadable
  | some d =>
    match d.value? with
    | some j => read j
    | none =>
      match (d.keep shape depthLimit).map read with
      | some (.ok a) => .ok a
      | _ => .error .unreadable

/-- A text that has a value is read as that value. -/
theorem decodeText_of_parse? {α : Type} {shape : Shape} {read : Json → Except DecodeError α}
    {text : String} {j : Json} (h : parse? text = some j) :
    decodeText shape read text = read j := by
  obtain ⟨d, hd, hj⟩ := Option.bind_eq_some_iff.1 h
  have hv : d.value? = some j := hj
  simp [decodeText, hd, hv]

end AccessGate.Json
