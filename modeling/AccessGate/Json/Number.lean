import AccessGate.Binary64.Shortest

/-!
# Numbers of JSON texts

A number is an integer that fits 64 bits, with or without a sign, or else a floating-point number.
`Literal.ofChars?` reads the strict grammar: an optional minus sign, a whole part without leading
zeros, and an optional fraction and exponent, each with at least one digit. A literal without
fraction and exponent is an integer when it fits; minus zero and every other literal is a
floating-point number, read in two rounded steps (`Literal.float?`). A literal of a magnitude beyond
the greatest finite number has no number.
-/

namespace AccessGate.Json

/-- A number of a JSON value. -/
inductive Number
  /-- An integer from `-2 ^ 63` up to `2 ^ 64 - 1`. -/
  | integer (value : Int)
  | float (value : Binary64)
deriving DecidableEq, Repr

/-- The parts of a number literal, as digits. -/
structure Literal where
  negative : Bool
  whole : List Nat
  fraction : List Nat
  exponent : Int
  /-- Neither fraction nor exponent is written. -/
  plain : Bool
deriving DecidableEq, Repr

/-- The value of a decimal digit. -/
def digitValue? (c : Char) : Option Nat :=
  if '0' ≤ c ∧ c ≤ '9' then some (c.toNat - '0'.toNat) else none

/-- The digits a text starts with, and the rest. -/
def spanDigits : List Char → List Nat × List Char
  | [] => ([], [])
  | c :: cs =>
    match digitValue? c with
    | some d => let (ds, rest) := spanDigits cs; (d :: ds, rest)
    | none => ([], c :: cs)

/-- The natural with given decimal digits. -/
def ofDigits (ds : List Nat) : Nat := ds.foldl (fun n d => n * 10 + d) 0

/-- Reads an exponent, or nothing, up to the end of a literal. -/
def readExponent? : List Char → Option (Option Int)
  | [] => some none
  | c :: cs =>
    if c = 'e' ∨ c = 'E' then
      let (negative, cs) := match cs with
        | '+' :: cs => (false, cs)
        | '-' :: cs => (true, cs)
        | cs => (false, cs)
      match spanDigits cs with
      | (d :: ds, []) =>
        let n : Int := ofDigits (d :: ds)
        some (some (if negative then -n else n))
      | _ => none
    else none

/-- Reads a number literal. -/
def Literal.ofChars? (cs : List Char) : Option Literal :=
  let (negative, cs) := match cs with
    | '-' :: cs => (true, cs)
    | cs => (false, cs)
  match spanDigits cs with
  | ([], _) => none
  | (0 :: _ :: _, _) => none
  | (whole, '.' :: rest) =>
    match spanDigits rest with
    | ([], _) => none
    | (fraction, rest) =>
      (readExponent? rest).map fun e => ⟨negative, whole, fraction, e.getD 0, false⟩
  | (whole, rest) =>
    (readExponent? rest).map fun e => ⟨negative, whole, [], e.getD 0, e.isNone⟩

/-- Appends digits to a significand as long as it fits 64 bits; also the number of digits used. -/
def takeFitting (value : Nat) : List Nat → Nat × Nat
  | [] => (value, 0)
  | d :: ds =>
    if value * 10 + d < Nat.pow 2 64 then
      let (v, n) := takeFitting (value * 10 + d) ds
      (v, n + 1)
    else (value, 0)

/-- The rounded power of ten. -/
def tenTo (n : Nat) : Binary64 := (Binary64.ofNat? (Nat.pow 10 n)).getD (.zero false)

/-- A number divided by `10 ^ n`, by at most `1e308` at a time. -/
def scaleDown (b : Binary64) (n : Nat) : Binary64 :=
  if n ≤ 308 then (b.div (tenTo n)).getD (.zero false)
  else if b.isZero then b
  else scaleDown ((b.div (tenTo 308)).getD (.zero false)) (n - 308)
termination_by n

/-- The floating-point number of a literal: the leading digits that fit 64 bits are rounded, then
scaled by a rounded power of ten and rounded again. -/
def Literal.float? (l : Literal) : Option Binary64 :=
  let (v, used) := takeFitting 0 l.whole
  let (v, more) := takeFitting v l.fraction
  let x : Int := (l.whole.length - used : Nat) - (more : Int) + l.exponent
  let value :=
    match Binary64.ofNat? v with
    | none => none
    | some b =>
      if x ≤ 0 then some (scaleDown b (-x).toNat)
      else if b.isZero then some b
      else if x ≤ 308 then b.mul (tenTo x.toNat)
      else none
  value.map fun b => if l.negative then b.neg else b

/-- The number of a literal, if there is one. -/
def Literal.number? (l : Literal) : Option Number :=
  let n := ofDigits l.whole
  if l.plain ∧ n < Nat.pow 2 64 ∧ (¬ l.negative ∨ (0 < n ∧ n ≤ Nat.pow 2 63)) then
    some (.integer (if l.negative then -n else n))
  else l.float?.map .float

/-- The text of a number. -/
def Number.text : Number → String
  | integer n => toString n
  | float b => b.text

end AccessGate.Json
