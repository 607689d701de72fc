import AccessGate.Binary64.Basic

/-!
# The fewest decimal digits that read back

`Binary64.shortest` gives a decimal `coefficient * 10 ^ exponent` with as few digits as possible
among those that are nearer to the number than to any other, and of these the one nearest to it, a
tie to the even coefficient. `Binary64.text` writes it out: positionally from `1e-5` up to `1e16`,
always with a point, and else with an exponent, which has a sign.
-/

namespace AccessGate.Binary64

/-- The fraction `n / 4 * 2 ^ e`. -/
def quarters (n : Nat) (e : Int) : Nat × Nat :=
  (n * Nat.pow 2 (e - 2).toNat, Nat.pow 2 (2 - e).toNat)

/-- The fractions between which every decimal reads back as this number. -/
def readBack (b : Binary64) : (Nat × Nat) × (Nat × Nat) :=
  let below := if b.significand = Nat.pow 2 52 ∧ b.exponent > minExponent then 1 else 2
  (quarters (4 * b.significand - below) b.exponent, quarters (4 * b.significand + 2) b.exponent)

/-- The fraction `c * 10 ^ x`. -/
def decimal (c : Nat) (x : Int) : Nat × Nat := (c * Nat.pow 10 x.toNat, Nat.pow 10 (-x).toNat)

/-- Whether one fraction is below another. -/
def less (a b : Nat × Nat) : Bool := a.1 * b.2 < b.1 * a.2

/-- Whether a decimal reads back as this number; the ends count when the significand is even. -/
def readsBack (b : Binary64) (c : Nat) (x : Int) : Bool :=
  let (low, high) := b.readBack
  let v := decimal c x
  (less low v && less v high) ||
    (b.significand % 2 == 0 && !less v low && !less high v)

/-- The least `k` with the number below `10 ^ k`. -/
def magnitude (b : Binary64) : Int :=
  let ks := (List.range 640).map fun i : Nat => (i : Int) - 325
  (ks.find? fun k => less b.fraction (decimal 1 k)).getD 310

/-- The decimal with `n` digits that reads back and is nearest to the number. -/
def nearest (b : Binary64) (n : Nat) : Option (Nat × Int) :=
  let x := b.magnitude - n
  let (p, q) := b.fraction
  let (num, den) := (p * Nat.pow 10 (-x).toNat, q * Nat.pow 10 x.toNat)
  let low := num / den
  match b.readsBack low x, b.readsBack (low + 1) x with
  | true, true => some (roundQuotient num den, x)
  | true, false => some (low, x)
  | false, true => some (low + 1, x)
  | false, false => none

/-- The shortest decimal that reads back as a number other than zero. One digit rounded up to ten is
written as one digit of the next place. -/
def shortest (b : Binary64) : Nat × Int :=
  match (List.range 17).findSome? fun i => b.nearest (i + 1) with
  | some (10, x) => (1, x + 1)
  | some d => d
  | none => (0, 0)

/-- The text of a number: shortest digits, with a point when written positionally. -/
def text (b : Binary64) : String :=
  let sign := if b.negative then "-" else ""
  if b.isZero then sign ++ "0.0"
  else
    let (c, x) := b.shortest
    let digits := Nat.toDigits 10 c
    let point := digits.length + x
    let zeros (n : Int) := List.replicate n.toNat '0'
    sign ++ String.ofList (
      if 0 ≤ x ∧ point ≤ 16 then digits ++ zeros x ++ ['.', '0']
      else if 0 < point ∧ point ≤ 16 then
        digits.take point.toNat ++ '.' :: digits.drop point.toNat
      else if -5 < point ∧ point ≤ 0 then ['0', '.'] ++ zeros (-point) ++ digits
      else
        let mantissa := match digits with
          | d :: e :: rest => d :: '.' :: e :: rest
          | short => short
        mantissa ++ 'e' :: (if 0 < point then ['+'] else []) ++ (toString (point - 1)).toList)

end AccessGate.Binary64
