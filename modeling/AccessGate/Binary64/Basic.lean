/-!
# Finite binary floating-point numbers of 64 bits

A `Binary64` is a sign, a significand below `2 ^ 53` and an exponent of two. `Binary64.round` takes
a fraction to the nearest such number, a tie to the even significand, and fails when the nearest
would be infinite; products and quotients are rounded fractions. All arithmetic is on naturals.
-/

namespace AccessGate

/-- A finite number `± significand * 2 ^ exponent`. A significand below `2 ^ 52` goes with the least
exponent, `-1074`. -/
structure Binary64 where
  negative : Bool
  significand : Nat
  exponent : Int
deriving DecidableEq, Repr

namespace Binary64

/-- The least exponent. -/
def minExponent : Int := -1074

/-- The greatest exponent of a finite number. -/
def maxExponent : Int := 971

/-- Zero with a sign. -/
def zero (negative : Bool) : Binary64 := ⟨negative, 0, minExponent⟩

/-- Whether a number is a zero of either sign. -/
def isZero (b : Binary64) : Bool := b.significand == 0

/-- The number with the other sign. -/
def neg (b : Binary64) : Binary64 := { b with negative := !b.negative }

/-- The fraction `num / den` divided by `2 ^ e`. -/
def scaled (num den : Nat) (e : Int) : Nat × Nat :=
  (num * Nat.pow 2 (-e).toNat, den * Nat.pow 2 e.toNat)

/-- A quotient rounded to the nearest natural, a tie to the even one. -/
def roundQuotient (num den : Nat) : Nat :=
  let q := num / den
  let r := num % den
  if 2 * r > den ∨ (2 * r = den ∧ q % 2 = 1) then q + 1 else q

/-- The number nearest to `± num / den`, a tie to the even significand; none when it is out of
range. -/
def round (negative : Bool) (num den : Nat) : Option Binary64 :=
  if num = 0 then some (zero negative)
  else
    let guess : Int := (num.log2 : Int) - den.log2 - 52
    let (n, d) := scaled num den guess
    let e := max (if n / d < Nat.pow 2 52 then guess - 1 else guess) minExponent
    let (n, d) := scaled num den e
    let q := roundQuotient n d
    let (q, e) := if q = Nat.pow 2 53 then (Nat.pow 2 52, e + 1) else (q, e)
    if e > maxExponent then none else some ⟨negative, q, e⟩

/-- The number nearest to a natural. -/
def ofNat? (n : Nat) : Option Binary64 := round false n 1

/-- The fraction a number is, without its sign. -/
def fraction (b : Binary64) : Nat × Nat :=
  (b.significand * Nat.pow 2 b.exponent.toNat, Nat.pow 2 (-b.exponent).toNat)

/-- The rounded product; the sign is that of the first factor. -/
def mul (a b : Binary64) : Option Binary64 :=
  round a.negative (a.fraction.1 * b.fraction.1) (a.fraction.2 * b.fraction.2)

/-- The rounded quotient; the sign is that of the dividend. -/
def div (a b : Binary64) : Option Binary64 :=
  round a.negative (a.fraction.1 * b.fraction.2) (a.fraction.2 * b.fraction.1)

/-- The 64-bit pattern: sign, biased exponent, significand without its leading bit. -/
def bits (b : Binary64) : Nat :=
  (if b.negative then Nat.pow 2 63 else 0) +
    (if b.significand < Nat.pow 2 52 then b.significand
     else (b.exponent + 1075).toNat * Nat.pow 2 52 + (b.significand - Nat.pow 2 52))

end Binary64

end AccessGate
