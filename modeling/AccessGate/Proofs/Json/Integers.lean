import AccessGate.Json.Token

/-!
# Integers read back

An integer of 64 bits (`Json.Number.IsInteger`) is written with an optional minus sign and its
decimal digits, the first of which is no zero unless it is the only one (`Json.leading_toDigits`).
So its text is a number literal, plain and without leading zeros, and is read as the integer again
(`Json.word?_integer`).
-/

namespace AccessGate.Json

theorem pow_two_64 : Nat.pow 2 64 = 18446744073709551616 := by decide

theorem pow_two_63 : Nat.pow 2 63 = 9223372036854775808 := by decide

/-- An integer of 64 bits with a sign. -/
def IsInt64 (n : Int) : Prop := -Nat.pow 2 63 ≤ n ∧ n < Nat.pow 2 63

instance (n : Int) : Decidable (IsInt64 n) :=
  inferInstanceAs (Decidable (-Nat.pow 2 63 ≤ n ∧ n < Nat.pow 2 63))

/-- An integer of 64 bits, with or without a sign. -/
def Number.IsInteger : Number → Prop
  | integer n => -Nat.pow 2 63 ≤ n ∧ n < Nat.pow 2 64
  | float _ => False

instance : DecidablePred Number.IsInteger
  | .integer n => inferInstanceAs (Decidable (-Nat.pow 2 63 ≤ n ∧ n < Nat.pow 2 64))
  | .float _ => inferInstanceAs (Decidable False)

/-- A signed number of 64 bits is one of the whole numbers that a text can have. -/
theorem IsInt64.isInteger {n : Int} (h : IsInt64 n) : (Number.integer n).IsInteger := by
  obtain ⟨hlow, hhigh⟩ := h
  rw [pow_two_63] at hhigh
  exact ⟨hlow, by rw [pow_two_64]; omega⟩

/-! ## Digits -/

/-- The value of a digit character. -/
def valueOf (c : Char) : Nat := c.toNat - '0'.toNat

/-- A digit has a value. -/
theorem digitValue?_of_isDigit {c : Char} (h : c.isDigit = true) :
    digitValue? c = some (valueOf c) := by
  have hrange : '0' ≤ c ∧ c ≤ '9' := by simpa [Char.isDigit, Char.le_def] using h
  rw [digitValue?, if_pos hrange, valueOf]

/-- Digits up to the end are taken as a whole. -/
theorem spanDigits_of_isDigit {cs : List Char} (h : ∀ c ∈ cs, c.isDigit = true) :
    spanDigits cs = (cs.map valueOf, []) := by
  induction cs with
  | nil => rfl
  | cons c cs ih =>
    obtain ⟨hc, hcs⟩ := List.forall_mem_cons.1 h
    simp only [spanDigits, digitValue?_of_isDigit hc, ih hcs, List.map_cons]

/-- The value of digits is that of their text. -/
theorem ofDigits_map_valueOf (cs : List Char) :
    ofDigits (cs.map valueOf) = Nat.ofDigitChars 10 cs 0 := by
  rw [ofDigits, List.foldl_map, Nat.ofDigitChars_eq_foldl]
  simp only [valueOf, Nat.mul_comm]

/-- A number is written in digits. -/
theorem isDigit_of_mem_toDigits {n : Nat} {c : Char} (h : c ∈ Nat.toDigits 10 n) :
    c.isDigit = true := Nat.isDigit_of_mem_toDigits (by decide) (by decide) h

/-- The digits of a number stand for it. -/
theorem ofDigits_toDigits (n : Nat) : ofDigits ((Nat.toDigits 10 n).map valueOf) = n := by
  rw [ofDigits_map_valueOf, Nat.ofDigitChars_ten_toDigits]

/-- The first digit of a number with more than one is no zero. -/
theorem leading_toDigits {n : Nat} {c c' : Char} {cs : List Char}
    (h : Nat.toDigits 10 n = c :: c' :: cs) : valueOf c ≠ 0 := by
  induction n using Nat.strongRecOn generalizing c c' cs with
  | ind n ih =>
    by_cases hn : n < 10
    · rw [Nat.toDigits_of_lt_base hn] at h
      cases h
    · have hten : 10 ≤ n := Nat.le_of_not_lt hn
      rw [Nat.toDigits_of_base_le (by decide) hten] at h
      cases hfront : Nat.toDigits 10 (n / 10) with
      | nil => exact absurd hfront Nat.toDigits_ne_nil
      | cons first rest =>
        rw [hfront, List.cons_append, List.cons.injEq] at h
        obtain ⟨rfl, -⟩ := h
        cases rest with
        | cons second rest => exact ih (n / 10) (by omega) hfront
        | nil =>
          -- Of one digit only, the front is the digit of a number that is not zero.
          have hvalue := ofDigits_toDigits (n / 10)
          rw [hfront] at hvalue
          have hfirst : valueOf first = n / 10 := by simpa [ofDigits] using hvalue
          omega

/-! ## Literals -/

/-- The literal that the digits of a number are. -/
def digitsLiteral (negative : Bool) (n : Nat) : Literal :=
  ⟨negative, (Nat.toDigits 10 n).map valueOf, [], 0, true⟩

/-- The digits of a number are a literal, with a minus sign or without. -/
theorem ofChars?_toDigits (n : Nat) :
    Literal.ofChars? (Nat.toDigits 10 n) = some (digitsLiteral false n) ∧
      Literal.ofChars? ('-' :: Nat.toDigits 10 n) = some (digitsLiteral true n) := by
  have hspan := spanDigits_of_isDigit fun c hc => isDigit_of_mem_toDigits (n := n) hc
  unfold digitsLiteral Literal.ofChars?
  cases hdigits : Nat.toDigits 10 n with
  | nil => exact absurd hdigits Nat.toDigits_ne_nil
  | cons c cs =>
    have hc : c.isDigit = true := isDigit_of_mem_toDigits (hdigits ▸ List.mem_cons_self)
    have hminus : c ≠ '-' := by
      rintro rfl
      exact absurd hc (by decide)
    rw [hdigits, List.map_cons] at hspan
    cases cs with
    | nil => simp [hspan, hminus, readExponent?]
    | cons c' cs =>
      have hleading : valueOf c ≠ 0 := leading_toDigits hdigits
      obtain ⟨v, hv⟩ := Nat.exists_eq_succ_of_ne_zero hleading
      rw [hv] at hspan
      simp [hspan, hminus, hv, readExponent?]

/-- An integer of 64 bits is the number of its literal. -/
theorem number?_digitsLiteral {n : Int} (h : (Number.integer n).IsInteger) :
    (digitsLiteral (n < 0) n.natAbs).number? = some (.integer n) := by
  obtain ⟨hlow, hhigh⟩ := h
  rw [pow_two_63] at hlow
  rw [pow_two_64] at hhigh
  simp only [Literal.number?, digitsLiteral, ofDigits_toDigits, pow_two_64, pow_two_63]
  by_cases hneg : n < 0
  · have hvalue : -(n.natAbs : Int) = n := by omega
    have hfits : n.natAbs < 18446744073709551616 ∧
        (¬ decide (n < 0) = true ∨ 0 < n.natAbs ∧ n.natAbs ≤ 9223372036854775808) := by omega
    rw [if_pos ⟨trivial, hfits⟩, if_pos (decide_eq_true hneg), hvalue]
  · have hvalue : (n.natAbs : Int) = n := by omega
    have hnot : ¬ decide (n < 0) = true := by simpa using hneg
    have hfits : n.natAbs < 18446744073709551616 := by omega
    rw [if_pos ⟨trivial, hfits, .inl hnot⟩, if_neg hnot, hvalue]

/-- The text of an integer: its digits, after a minus sign if it is negative. -/
theorem toList_toString (n : Int) :
    (toString n).toList =
      if n < 0 then '-' :: Nat.toDigits 10 n.natAbs else Nat.toDigits 10 n.natAbs := by
  have hrepr : toString n = n.repr := rfl
  rw [hrepr, Int.repr_eq_if]
  by_cases hneg : n < 0
  · have hnot : ¬ 0 ≤ n := by omega
    have hnat : (-n).toNat = n.natAbs := by omega
    rw [if_neg hnot, if_pos hneg, hnat, Nat.repr_eq_ofList_toDigits]
    simp
  · have hle : 0 ≤ n := by omega
    have hnat : n.toNat = n.natAbs := by omega
    rw [if_pos hle, if_neg hneg, hnat, Nat.repr_eq_ofList_toDigits, String.toList_ofList]

/-- A literal that begins with a digit or a minus sign is none of the three words. -/
theorem word?_eq_number {c : Char} {cs : List Char} {l : Literal} {n : Number}
    (h : c.isDigit = true ∨ c = '-') (hl : Literal.ofChars? (c :: cs) = some l)
    (hn : l.number? = some n) : word? (c :: cs) = some (.leaf (number n)) := by
  have hne (first : Char) (hdigit : first.isDigit = false) (hminus : first ≠ '-') : c ≠ first := by
    rintro rfl
    rcases h with h | h
    · rw [hdigit] at h
      cases h
    · exact hminus h
  have hnull := hne 'n' rfl (by decide)
  have htrue := hne 't' rfl (by decide)
  have hfalse := hne 'f' rfl (by decide)
  simp [word?, hnull, htrue, hfalse, hl, hn]

/-- The text of an integer of 64 bits is read as the integer. -/
theorem word?_integer {n : Int} (h : (Number.integer n).IsInteger) :
    word? (toString n).toList = some (.leaf (number (.integer n))) := by
  have hnumber := number?_digitsLiteral h
  obtain ⟨hplain, hsigned⟩ := ofChars?_toDigits n.natAbs
  rw [toList_toString]
  by_cases hneg : n < 0
  · rw [if_pos hneg]
    simp only [hneg, decide_true] at hnumber
    exact word?_eq_number (.inr rfl) hsigned hnumber
  · rw [if_neg hneg]
    simp only [hneg, decide_false] at hnumber
    cases hdigits : Nat.toDigits 10 n.natAbs with
    | nil => exact absurd hdigits Nat.toDigits_ne_nil
    | cons c cs =>
      have hc : c.isDigit = true := isDigit_of_mem_toDigits (hdigits ▸ List.mem_cons_self)
      rw [hdigits] at hplain
      exact word?_eq_number (.inl hc) hplain hnumber

/-- The text of an integer is made of characters of words and numbers, and there is one. -/
theorem isBare_of_mem_toString {n : Int} {c : Char} (h : c ∈ (toString n).toList) :
    isBare c = true := by
  rw [toList_toString] at h
  have hdigit (h : c ∈ Nat.toDigits 10 n.natAbs) : isBare c = true := by
    simp [isBare, Char.isAlphanum, isDigit_of_mem_toDigits h]
  split at h
  · rcases List.mem_cons.1 h with rfl | h
    · rfl
    · exact hdigit h
  · exact hdigit h

end AccessGate.Json
