import AccessGate.Json.Draft

/-!
# Tokens of a JSON text

`Json.scan` cuts a text into tokens in one pass: each character moves a `Mode` on and may complete a
token. Strings come out with their escapes resolved. A bare control character in a string, an
unknown escape, a word other than the three known ones and a malformed number are no tokens; a
string with an escaped surrogate that has no partner is one, but has no value.
-/

namespace AccessGate.Json

/-- A token of a JSON text. -/
inductive Token
  | leftBrace
  | rightBrace
  | leftBracket
  | rightBracket
  | colon
  | comma
  /-- A word or number. -/
  | bare (value : Draft)
  /-- A string, which may have no value. -/
  | string (value : Option String)

/-- Where the scan stands. Characters read so far of a token come last first; of a string that has
no value there are none. -/
inductive Mode
  /-- Between tokens. -/
  | between
  /-- In a word or number. -/
  | bare (seen : List Char)
  /-- In a string. -/
  | string (seen : Option (List Char))
  /-- After a backslash in a string. -/
  | escape (seen : Option (List Char))
  /-- In the hexadecimal digits of an escape, `left` of them to come; `high` is a surrogate that
  waits for its partner. -/
  | code (seen : Option (List Char)) (high : Option Nat) (left value : Nat)
  /-- After a high surrogate: a backslash should follow. -/
  | partner (seen : Option (List Char)) (high : Nat)
  /-- After that backslash: the letter `u` should follow. -/
  | partnerMark (seen : Option (List Char)) (high : Nat)

/-- White space between tokens. -/
def isSpace (c : Char) : Bool := c == ' ' || c == '\n' || c == '\t' || c == '\r'

/-- The characters of words and numbers. -/
def isBare (c : Char) : Bool := c.isAlphanum || c == '+' || c == '-' || c == '.'

/-- The value of a hexadecimal digit. -/
def hexValue? (c : Char) : Option Nat :=
  if '0' ≤ c ∧ c ≤ '9' then some (c.toNat - '0'.toNat)
  else if 'a' ≤ c ∧ c ≤ 'f' then some (c.toNat - 'a'.toNat + 10)
  else if 'A' ≤ c ∧ c ≤ 'F' then some (c.toNat - 'A'.toNat + 10)
  else none

/-- The character that a one-letter escape stands for. -/
def unescape? : Char → Option Char
  | '"' => some '"'
  | '\\' => some '\\'
  | '/' => some '/'
  | 'b' => some '\x08'
  | 'f' => some '\x0c'
  | 'n' => some '\n'
  | 'r' => some '\r'
  | 't' => some '\t'
  | _ => none

/-- What a word or number is. -/
def word? (lexeme : List Char) : Option Draft :=
  if lexeme = ['n', 'u', 'l', 'l'] then some (.leaf null)
  else if lexeme = ['t', 'r', 'u', 'e'] then some (.leaf (bool true))
  else if lexeme = ['f', 'a', 'l', 's', 'e'] then some (.leaf (bool false))
  else
    (Literal.ofChars? lexeme).map fun l =>
      match l.number? with
      | some n => .leaf (number n)
      | none => .void

/-- What a character between tokens does: the tokens it is, and the mode after it. -/
def start? (c : Char) : Option (List Token × Mode) :=
  if isSpace c then some ([], .between)
  else if c = '{' then some ([.leftBrace], .between)
  else if c = '}' then some ([.rightBrace], .between)
  else if c = '[' then some ([.leftBracket], .between)
  else if c = ']' then some ([.rightBracket], .between)
  else if c = ':' then some ([.colon], .between)
  else if c = ',' then some ([.comma], .between)
  else if c = '"' then some ([], .string (some []))
  else if isBare c then some ([], .bare [c])
  else none

/-- What a character in a string does. -/
def inString? (c : Char) (seen : Option (List Char)) : Option (List Token × Mode) :=
  if c = '"' then some ([.string (seen.map fun cs => String.ofList cs.reverse)], .between)
  else if c = '\\' then some ([], .escape seen)
  else if c.toNat < 0x20 then none
  else some ([], .string (seen.map (c :: ·)))

/-- What a character after a backslash does. -/
def inEscape? (c : Char) (seen : Option (List Char)) : Option (List Token × Mode) :=
  if c = 'u' then some ([], .code seen none 3 0)
  else (unescape? c).map fun e => ([], .string (seen.map (e :: ·)))

/-- The mode after a complete escape of a code unit. -/
def closeCode (seen : Option (List Char)) (high : Option Nat) (unit : Nat) : Mode :=
  match high with
  | some h =>
    if 0xDC00 ≤ unit ∧ unit ≤ 0xDFFF then
      .string (seen.map (Char.ofNat (0x10000 + (h - 0xD800) * 0x400 + (unit - 0xDC00)) :: ·))
    else .string none
  | none =>
    if 0xD800 ≤ unit ∧ unit ≤ 0xDBFF then .partner seen unit
    else if 0xDC00 ≤ unit ∧ unit ≤ 0xDFFF then .string none
    else .string (seen.map (Char.ofNat unit :: ·))

/-- One character: the tokens it completes or is, and the mode after it. -/
def step? (c : Char) : Mode → Option (List Token × Mode)
  | .between => start? c
  | .bare seen =>
    if isBare c then some ([], .bare (c :: seen))
    else
      match word? seen.reverse, start? c with
      | some v, some (tokens, mode) => some (.bare v :: tokens, mode)
      | _, _ => none
  | .string seen => inString? c seen
  | .escape seen => inEscape? c seen
  | .code seen high left value =>
    (hexValue? c).map fun d =>
      match left with
      | 0 => ([], closeCode seen high (value * 16 + d))
      | left + 1 => ([], .code seen high left (value * 16 + d))
  | .partner seen high => if c = '\\' then some ([], .partnerMark seen high) else inString? c none
  | .partnerMark seen high =>
    if c = 'u' then some ([], .code seen (some high) 3 0) else inEscape? c none

/-- The tokens that the end of the text completes. -/
def finish? : Mode → Option (List Token)
  | .between => some []
  | .bare seen => (word? seen.reverse).map fun v => [.bare v]
  | _ => none

/-- The tokens of a text. -/
def scan : Mode → List Char → Option (List Token)
  | mode, [] => finish? mode
  | mode, c :: cs =>
    match step? c mode with
    | none => none
    | some (tokens, mode) => (scan mode cs).map (tokens ++ ·)

end AccessGate.Json
