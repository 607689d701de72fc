/-!
# Reading a bounded whole number

A whole number is written in decimal digits, perhaps after a plus sign. Reading goes from the left
and stops at the first fault, so of two faults the earlier one is reported: a character that is no
digit is found before an overflow at the same place.
-/

namespace AccessGate.Text

/-- Why a text is not a whole number below the bound. -/
inductive NaturalFault
  | empty
  | invalidDigit
  | tooLarge
deriving DecidableEq, Repr

/-- The wording of a fault. -/
def NaturalFault.message : NaturalFault → String
  | empty => "cannot parse integer from empty string"
  | invalidDigit => "invalid digit found in string"
  | tooLarge => "number too large to fit in target type"

/-- The value of a decimal digit. -/
def digit? (c : Char) : Option Nat :=
  if '0' ≤ c ∧ c ≤ '9' then some (c.toNat - '0'.toNat) else none

/-- Reads digits onto the value so far, which stays below `bound`. -/
def readDigits (bound : Nat) : Nat → List Char → Except NaturalFault Nat
  | value, [] => .ok value
  | value, c :: cs =>
    match digit? c with
    | none => .error .invalidDigit
    | some d =>
      if value * 10 + d < bound then readDigits bound (value * 10 + d) cs
      else .error .tooLarge

/-- A whole number below `bound`; a plus sign may come first, but not alone. -/
def readNatural (bound : Nat) (s : String) : Except NaturalFault Nat :=
  match s.toList with
  | [] => .error .empty
  | ['+'] => .error .invalidDigit
  | '+' :: cs => readDigits bound 0 cs
  | cs => readDigits bound 0 cs

end AccessGate.Text
