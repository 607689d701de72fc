import AccessGate.Json.Token

/-!
# Reading JSON texts

`Json.build` puts tokens together with a stack of the arrays and objects that are still open, each
token deciding on what may come next. `Json.draft?` takes a text apart by the strict grammar, and
`Json.parse?` is the value of a text that has one.
-/

namespace AccessGate.Json

/-- An array or object that is still open; what it holds comes last first. -/
inductive Frame
  | items (done : List Draft)
  | members (done : List (Option String × Draft)) (key : Option String)

/-- What the next token must be. -/
inductive Expect
  /-- A value. -/
  | value
  /-- A value or the end of the array just opened. -/
  | firstItem
  /-- A key or the end of the object just opened. -/
  | firstKey
  /-- A key for a further member after those done. -/
  | key (done : List (Option String × Draft))
  /-- The colon after a key. -/
  | colon
  /-- A comma or the end of the innermost array or object. -/
  | more
  /-- Nothing: the text is complete. -/
  | nothing (whole : Draft)

/-- Where building stands: what must come, and what is open, innermost first. -/
structure State where
  expect : Expect
  opened : List Frame

/-- A part is complete: it is the whole text, or belongs to the innermost open array or object. -/
def complete (d : Draft) : List Frame → State
  | [] => ⟨.nothing d, []⟩
  | .items done :: frames => ⟨.more, .items (d :: done) :: frames⟩
  | .members done key :: frames => ⟨.more, .members ((key, d) :: done) key :: frames⟩

/-- A token that starts a value. -/
def startValue? (frames : List Frame) : Token → Option State
  | .bare d => some (complete d frames)
  | .string (some s) => some (complete (.leaf (string s)) frames)
  | .string none => some (complete .void frames)
  | .leftBracket => some ⟨.firstItem, .items [] :: frames⟩
  | .leftBrace => some ⟨.firstKey, .members [] none :: frames⟩
  | _ => none

/-- A token that should be a key of the innermost object. -/
def startKey? (done : List (Option String × Draft)) (frames : List Frame) : Token → Option State
  | .string k => some ⟨.colon, .members done k :: frames⟩
  | _ => none

/-- One token. -/
def advance? (t : Token) (s : State) : Option State :=
  match s.expect, s.opened with
  | .value, frames => startValue? frames t
  | .firstItem, .items done :: frames =>
    match t with
    | .rightBracket => some (complete (.array []) frames)
    | t => startValue? (.items done :: frames) t
  | .firstKey, .members _ _ :: frames =>
    match t with
    | .rightBrace => some (complete (.object []) frames)
    | t => startKey? [] frames t
  | .key done, frames => startKey? done frames t
  | .colon, frames =>
    match t with
    | .colon => some ⟨.value, frames⟩
    | _ => none
  | .more, .items done :: frames =>
    match t with
    | .comma => some ⟨.value, .items done :: frames⟩
    | .rightBracket => some (complete (.array done.reverse) frames)
    | _ => none
  | .more, .members done _ :: frames =>
    match t with
    | .comma => some ⟨.key done, frames⟩
    | .rightBrace => some (complete (.object done.reverse) frames)
    | _ => none
  | _, _ => none

/-- The draft that tokens are put together to. -/
def build : State → List Token → Option Draft
  | ⟨.nothing d, []⟩, [] => some d
  | _, [] => none
  | s, t :: ts =>
    match advance? t s with
    | none => none
    | some s => build s ts

/-- What the grammar makes of a text. -/
def draft? (text : String) : Option Draft :=
  (scan .between text.toList).bind (build ⟨.value, []⟩)

/-- The value of a text that nests at most `limit` deep. -/
def parseWithin? (limit : Nat) (text : String) : Option Json :=
  (draft? text).bind (Draft.keep .whole limit)

/-- The value of a text. -/
def parse? (text : String) : Option Json := parseWithin? depthLimit text

end AccessGate.Json
