import AccessGate.Json.Basic

/-!
# What the grammar makes of a JSON text

The grammar allows more than there are values: numbers beyond every finite one, escaped halves of
surrogate pairs, and any depth of nesting. A `Draft` is a text taken apart by the grammar alone, and
`Draft.keep` is the value of those parts of it that a reader looks at. A `Shape` says which parts
those are: all (`Shape.whole`), or the fields of a record, so that what is written in a member that
is no field needs no value. `Draft.value?` is the value of a whole draft.
-/

namespace AccessGate.Json

/-- A text as the grammar takes it apart. -/
inductive Draft
  /-- A number or string that has no value. -/
  | void
  | leaf (value : Json)
  | array (items : List Draft)
  /-- An object; a key may have no value either. -/
  | object (members : List (Option String × Draft))

/-- The parts of a value that a reader looks at. -/
inductive Shape
  | whole
  /-- The fields of a record, each by its key, in the order in which an array would hold them. -/
  | record (fields : List (String × Shape))

namespace Shape

/-- What is looked at of the member with a key; none if nobody looks at the member. -/
def member? : Shape → String → Option Shape
  | whole, _ => some whole
  | record fields, key => (fields.find? (·.1 == key)).map Prod.snd

/-- What is looked at of the items of an array; of those beyond the list, everything. -/
def items : Shape → List Shape
  | whole => []
  | record fields => fields.map Prod.snd

end Shape

/-- The greatest number of arrays and objects that may be open at once. -/
def depthLimit : Nat := 127

namespace Draft

mutual

/-- The value of the parts that a shape looks at, which nest at most so deep. -/
def keep : Shape → Nat → Draft → Option Json
  | _, _, void => none
  | _, _, leaf v => some v
  | _, 0, array _ => none
  | _, 0, object _ => none
  | s, n + 1, array items => (keepItems s.items n items).map Json.array
  | s, n + 1, object members => (keepMembers s n members).map Json.object

/-- The values of items, each of its shape. -/
def keepItems : List Shape → Nat → List Draft → Option (List Json)
  | _, _, [] => some []
  | shapes, n, d :: ds => do
    let v ← keep (shapes.headD .whole) n d
    let vs ← keepItems shapes.tail n ds
    some (v :: vs)

/-- The members that a shape looks at. -/
def keepMembers : Shape → Nat → List (Option String × Draft) → Option (List (String × Json))
  | _, _, [] => some []
  | _, _, (none, _) :: _ => none
  | s, n, (some key, d) :: ms =>
    match s.member? key with
    | none => keepMembers s n ms
    | some s' => do
      let v ← keep s' n d
      let vs ← keepMembers s n ms
      some ((key, v) :: vs)

end

/-- The value of a whole draft. -/
def value? (d : Draft) : Option Json := d.keep .whole depthLimit

end Draft

end AccessGate.Json
