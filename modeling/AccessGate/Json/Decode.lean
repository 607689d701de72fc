import AccessGate.Json.Draft
import AccessGate.Text.Quoted

/-!
# Typed reading of JSON values

A decoder takes a value to typed data or says why it cannot: the cause is a `DecodeError`, its
wording `DecodeError.message`. Where the value comes from matters in two places only, an array given
for a record with too many elements and a variant of an enumeration given as something else than a
string; `Source` keeps them apart. A record is read member by member in the order of the members, so
of two faults the one written first is reported, and a missing field only when no member is at
fault.
-/

namespace AccessGate.Json

/-- Where a value comes from. -/
inductive Source
  /-- Straight from a text; a fault that a text reader sees before the type is one of the text. -/
  | text
  /-- From a value held in memory. -/
  | value
  /-- From a member that was set aside while its record was read. -/
  | member
deriving DecidableEq, Repr

/-- Why a value is not the data looked for. -/
inductive DecodeError
  | invalidType (found expected : String)
  | invalidValue (found expected : String)
  | invalidLength (length : Nat) (expected : String)
  | unknownVariant (name : String) (variants : List String)
  | missingField (key : String)
  | duplicateField (key : String)
  /-- A string that is not of the form its type asks for. -/
  | malformed (detail : String)
  /-- The text itself is at fault. -/
  | unreadable
deriving DecidableEq, Repr

/-- What stands for the fault of a text that is not JSON; its place and kind are not told. -/
def unreadableDetail : String := "<syntax>"

/-- A name between backticks. -/
def ticked (s : String) : String := "`" ++ s ++ "`"

namespace DecodeError

/-- The wording of a fault. -/
def message : DecodeError → String
  | invalidType found expected => s!"invalid type: {found}, expected {expected}"
  | invalidValue found expected => s!"invalid value: {found}, expected {expected}"
  | invalidLength length expected => s!"invalid length {length}, expected {expected}"
  | unknownVariant name variants =>
    "unknown variant " ++ ticked name ++ ", expected one of " ++
      ", ".intercalate (variants.map ticked)
  | missingField key => "missing field " ++ ticked key
  | duplicateField key => "duplicate field " ++ ticked key
  | malformed detail => detail
  | unreadable => unreadableDetail

end DecodeError

/-- What a value is, in the words of a fault. -/
def description : Json → String
  | null => "null"
  | bool b => "boolean " ++ ticked (if b then "true" else "false")
  | number (.integer n) => "integer " ++ ticked (toString n)
  | number (.float b) => "floating point " ++ ticked b.text
  | string s => "string " ++ Text.quoted s
  | array _ => "sequence"
  | object _ => "map"

/-- The fault of finding a value where something else is expected. -/
def mismatch (j : Json) (expected : String) : DecodeError := .invalidType j.description expected

/-! ## Scalars -/

/-- Reads a string. -/
def asString : Json → Except DecodeError String
  | string s => .ok s
  | j => .error (j.mismatch "a string")

/-- Reads a truth value. -/
def asBool : Json → Except DecodeError Bool
  | bool b => .ok b
  | j => .error (j.mismatch "a boolean")

/-- Reads an integer of a bounded type. -/
def asInteger (low high : Int) (type : String) : Json → Except DecodeError Int
  | number (.integer n) =>
    if low ≤ n ∧ n < high then .ok n
    else .error (.invalidValue (number (.integer n)).description type)
  | j => .error (j.mismatch type)

/-- Reads an integer of 64 bits with a sign. -/
def asInt64 : Json → Except DecodeError Int := asInteger (-Nat.pow 2 63) (Nat.pow 2 63) "i64"

/-- Reads a natural number of 64 bits; `type` names what it is expected to be. -/
def asNat64 (type : String) (j : Json) : Except DecodeError Nat :=
  (asInteger 0 (Nat.pow 2 64) type j).map Int.toNat

/-- Reads a value that may be null. -/
def asOption {α : Type} (read : Json → Except DecodeError α) : Json → Except DecodeError (Option α)
  | null => .ok none
  | j => (read j).map some

/-- Reads each item of an array. -/
def asList {α : Type} (read : Json → Except DecodeError α) : Json → Except DecodeError (List α)
  | array items => items.mapM read
  | j => .error (j.mismatch "a sequence")

/-! ## Enumerations -/

/-- Reads what must be null: the content of a variant that has none. -/
def asUnit (source : Source) : Json → Except DecodeError Unit
  | null => .ok ()
  | object [] => if source = .member then .ok () else .error ((object []).mismatch "unit")
  | j => .error (j.mismatch "unit")

/-- The variant with a name. -/
def variantNamed {α : Type} (variants : List (String × α)) (name : String) :
    Except DecodeError α :=
  match variants.find? (·.1 == name) with
  | some v => .ok v.2
  | none => .error (.unknownVariant name (variants.map Prod.fst))

/-- Reads a variant without content: its name, or an object with its name as the only key. -/
def asVariant {α : Type} (variants : List (String × α)) (source : Source) :
    Json → Except DecodeError α
  | string s => variantNamed variants s
  | object [(name, content)] => do
    let v ← variantNamed variants name
    asUnit source content
    .ok v
  | object ms =>
    match source, ms with
    | .text, (name, content) :: _ => do
      let _ ← variantNamed variants name
      asUnit source content
      .error .unreadable
    | .text, [] => .error .unreadable
    | _, _ => .error (.invalidValue "map" "map with a single key")
  | j =>
    match source with
    | .text => .error .unreadable
    | _ => .error (j.mismatch "string or map")

/-! ## Records -/

/-- A field of a record: its key, whether it must be there, what its value must be, and what of the
value is looked at. -/
structure Field where
  key : String
  required : Bool
  check : Json → Except DecodeError Unit
  shape : Shape := .whole

/-- A field that must be there. -/
def Field.must {α : Type} (key : String) (read : Json → Except DecodeError α) : Field :=
  { key, required := true, check := fun j => (read j).map fun _ => () }

/-- A field that may be left out. -/
def Field.may {α : Type} (key : String) (read : Json → Except DecodeError α) : Field :=
  { key, required := false, check := fun j => (read j).map fun _ => () }

/-- The shape of a record with given fields. -/
def Shape.ofFields (fields : List Field) : Shape := .record (fields.map fun f => (f.key, f.shape))

/-- Keeps the members that are fields, each checked when it is met; a second one with the same key
is a fault. -/
def takeFields (fields : List Field) (kept : List (String × Json)) :
    List (String × Json) → Except DecodeError (List (String × Json))
  | [] => .ok kept
  | (key, v) :: ms =>
    match fields.find? (·.key == key) with
    | none => takeFields fields kept ms
    | some field =>
      if kept.any (·.1 == key) then .error (.duplicateField key)
      else do
        field.check v
        takeFields fields (kept ++ [(key, v)]) ms

/-- Finds the first required field that is not there. -/
def requireFields (fields : List Field) (kept : List (String × Json)) : Except DecodeError Unit :=
  match fields.find? fun f => f.required && !kept.any (·.1 == f.key) with
  | some f => .error (.missingField f.key)
  | none => .ok ()

/-- The record's name and the number of its elements, as expected of an array. -/
def elementsOf (record : String) (n : Nat) : String :=
  s!"{record} with {n} " ++ (if n = 1 then "element" else "elements")

/-- Pairs the elements of an array with the fields in their order. -/
def takeElements (record : String) (count : Nat) :
    Nat → List Field → List Json → Except DecodeError (List (String × Json) × List Json)
  | _, [], rest => .ok ([], rest)
  | i, f :: fs, [] =>
    if f.required then .error (.invalidLength i (elementsOf record count))
    else takeElements record count (i + 1) fs []
  | i, f :: fs, v :: vs => do
    f.check v
    let (kept, rest) ← takeElements record count (i + 1) fs vs
    .ok ((f.key, v) :: kept, rest)

/-- The fault of an array of which some elements at the end belong to no field. -/
def surplus (source : Source) (length rest : Nat) : DecodeError :=
  match source with
  | .text => .unreadable
  | .value => .invalidLength length "fewer elements in array"
  | .member =>
    let taken := length - rest
    .invalidLength length
      (s!"{taken} " ++ (if taken = 1 then "element" else "elements") ++ " in sequence")

/-- Reads the fields of a record, given as an object, or as an array in the fields' order. -/
def asRecord (record : String) (fields : List Field) (source : Source) :
    Json → Except DecodeError (List (String × Json))
  | object ms => do
    let kept ← takeFields fields [] ms
    requireFields fields kept
    .ok kept
  | array items => do
    let (kept, rest) ← takeElements record fields.length 0 fields items
    if rest.isEmpty then .ok kept
    else .error (surplus source items.length rest.length)
  | j => .error (j.mismatch record)

/-- The value of a field that was read. -/
def field {α : Type} (kept : List (String × Json)) (key : String)
    (read : Json → Except DecodeError α) : Except DecodeError α :=
  match kept.find? (·.1 == key) with
  | some m => read m.2
  | none => .error (.missingField key)

/-- The value of a field that was read, or `default` if it was left out. -/
def fieldOr {α : Type} (kept : List (String × Json)) (key : String) (default : α)
    (read : Json → Except DecodeError α) : Except DecodeError α :=
  match kept.find? (·.1 == key) with
  | some m => read m.2
  | none => .ok default

end AccessGate.Json
