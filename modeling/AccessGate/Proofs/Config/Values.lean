import AccessGate.Config.Environment
import AccessGate.Proofs.Config.Settings
import Mathlib.Data.Nat.Digits.Defs

/-!
# What the value of a variable means

A text is a whole number if it is a numeral (`Text.Numeral`), which is all that is read as one
(`Text.readNatural_eq_ok_iff`). What a value means for a variable (`Variable.Means`) is one setting
at most (`Variable.Means.unique`); with it in place, that setting and no other has changed, and a
value that means nothing is a fault (`Variable.apply_spec`).
-/

namespace AccessGate

namespace Text

variable {bound value n : Nat} {cs : List Char} {s : String}

/-- Characters that write a whole number in decimal digits, perhaps after a plus sign. -/
def Numeral (cs : List Char) (n : Nat) : Prop :=
  ∃ digits : List Nat, digits ≠ [] ∧ (∀ d ∈ digits, d < 10) ∧
    (cs = digits.map Nat.digitChar ∨ cs = '+' :: digits.map Nat.digitChar) ∧
    n = Nat.ofDigits 10 digits.reverse

/-- A digit is read back. -/
theorem digit?_digitChar {d : Nat} (hd : d < 10) : digit? d.digitChar = some d := by
  decide +revert

/-- No digit is a plus sign. -/
theorem digitChar_ne_plus {d : Nat} (hd : d < 10) : d.digitChar ≠ '+' := by
  decide +revert

/-- A digit is the character of its value. -/
theorem digit?_eq_some_iff {c : Char} {d : Nat} :
    digit? c = some d ↔ d < 10 ∧ c = d.digitChar := by
  constructor
  · intro h
    rw [digit?, Option.ite_none_right_eq_some] at h
    obtain ⟨⟨hlow, hhigh⟩, hvalue⟩ := h
    have hlow : 48 ≤ c.toNat := hlow
    have hhigh : c.toNat ≤ 57 := hhigh
    have hd : c.toNat = 48 + d := by
      rw [← Option.some.inj hvalue]
      exact (Nat.add_sub_cancel' hlow).symm
    have hlt : d < 10 := by omega
    have hof : c = Char.ofNat (48 + d) := by rw [← hd, Char.ofNat_toNat]
    refine ⟨hlt, hof.trans ?_⟩
    clear hvalue hd hof
    decide +revert
  · rintro ⟨hd, rfl⟩
    exact digit?_digitChar hd

/-- More digits make no smaller number. -/
theorem le_foldl_digits (digits : List Nat) (value : Nat) :
    value ≤ digits.foldl (fun n d => d + 10 * n) value := by
  induction digits generalizing value with
  | nil => exact Nat.le_refl value
  | cons d digits ih => exact Nat.le_trans (by omega) (ih (d + 10 * value))

/-- Digits are read onto a value exactly if there is nothing else, and what they come to is below
the bound: no value on the way is larger than the last. -/
theorem readDigits_eq_ok_iff (hv : value < bound) :
    readDigits bound value cs = .ok n ↔ ∃ digits : List Nat, (∀ d ∈ digits, d < 10) ∧
      cs = digits.map Nat.digitChar ∧ n = digits.foldl (fun n d => d + 10 * n) value ∧
      n < bound := by
  induction cs generalizing value with
  | nil =>
    rw [readDigits, Except.ok.injEq]
    constructor
    · rintro rfl
      exact ⟨[], nofun, rfl, rfl, hv⟩
    · rintro ⟨digits, -, hnil, rfl, -⟩
      obtain rfl := List.map_eq_nil_iff.1 hnil.symm
      rfl
  | cons c cs ih =>
    rw [readDigits]
    constructor
    · intro h
      split at h
      · cases h
      next d hdigit =>
      split at h
      · next hlt =>
        obtain ⟨hd, rfl⟩ := digit?_eq_some_iff.1 hdigit
        obtain ⟨digits, hdigits, rfl, hn, hbound⟩ := (ih hlt).1 h
        rw [Nat.mul_comm, Nat.add_comm] at hn
        exact ⟨d :: digits, List.forall_mem_cons.2 ⟨hd, hdigits⟩, rfl, hn, hbound⟩
      · cases h
    · rintro ⟨_ | ⟨d, digits⟩, hdigits, hcs, hn, hbound⟩
      · cases hcs
      obtain ⟨rfl, rfl⟩ := List.cons.inj hcs
      obtain ⟨hd, hdigits⟩ := List.forall_mem_cons.1 hdigits
      -- The reader stops where the value reaches the bound; later digits would not lower it.
      have hlt : value * 10 + d < bound := by
        have := le_foldl_digits digits (d + 10 * value)
        rw [List.foldl_cons] at hn
        omega
      rw [digit?_digitChar hd]
      dsimp only
      rw [if_pos hlt]
      refine (ih hlt).2 ⟨digits, hdigits, rfl, ?_, hbound⟩
      rw [Nat.mul_comm, Nat.add_comm]
      exact hn

/-- What is read as a whole number below a bound is a numeral of it. -/
theorem readNatural_eq_ok_iff (hbound : 0 < bound) :
    readNatural bound s = .ok n ↔ Numeral s.toList n ∧ n < bound := by
  have hread (cs : List Char) : readDigits bound 0 cs = .ok n ↔ ∃ digits : List Nat,
      (∀ d ∈ digits, d < 10) ∧ cs = digits.map Nat.digitChar ∧
      n = Nat.ofDigits 10 digits.reverse ∧ n < bound := by
    simp only [readDigits_eq_ok_iff hbound, Nat.ofDigits_eq_foldr, List.foldr_reverse, Nat.cast_id]
  rw [readNatural]
  split
  · next hs =>
    rw [hs]
    refine iff_of_false nofun ?_
    rintro ⟨⟨digits, hne, -, hcs | hcs, -⟩, -⟩
    · exact hne (List.map_eq_nil_iff.1 hcs.symm)
    · cases hcs
  · next hs =>
    rw [hs]
    refine iff_of_false nofun ?_
    rintro ⟨⟨_ | ⟨d, digits⟩, hne, hdigits, hcs | hcs, -⟩, -⟩
    · exact hne rfl
    · exact hne rfl
    · exact digitChar_ne_plus (hdigits d List.mem_cons_self) (List.cons.inj hcs).1.symm
    · cases hcs
  · next cs hne hs =>
    rw [hs, hread]
    constructor
    · rintro ⟨digits, hdigits, rfl, hn, hlt⟩
      exact ⟨⟨digits, fun h => hne (by simp [h]), hdigits, .inr rfl, hn⟩, hlt⟩
    · rintro ⟨⟨_ | ⟨d, digits⟩, hne, hdigits, hcs | hcs, hn⟩, hlt⟩
      · cases hcs
      · exact absurd rfl hne
      · exact absurd (List.cons.inj hcs).1.symm (digitChar_ne_plus (hdigits d List.mem_cons_self))
      · exact ⟨d :: digits, hdigits, (List.cons.inj hcs).2, hn, hlt⟩
  · next cs hnil _ hplus =>
    rw [hread]
    constructor
    · rintro ⟨digits, hdigits, hcs, hn, hlt⟩
      exact ⟨⟨digits, fun h => hnil (by simp [hcs, h]), hdigits, .inl hcs, hn⟩, hlt⟩
    · rintro ⟨⟨digits, -, hdigits, hcs | hcs, hn⟩, hlt⟩
      · exact ⟨digits, hdigits, hcs, hn, hlt⟩
      · exact absurd hcs (hplus _)

end Text

namespace Variable

variable {v : Variable} {value : String} {n : Nat} {b : Bool} {x x' : Setting} {c c' : Config}

/-- A value that is a whole number of 64 bits, white space at its ends aside. -/
def Number (value : String) (n : Nat) : Prop :=
  Text.Numeral (Text.trimmed value).toList n ∧ n < Nat.pow 2 64

/-- The words for a truth value. -/
def words : Bool → List String
  | true => ["1", "true", "yes", "on"]
  | false => ["0", "false", "no", "off"]

/-- A value that is a word for a truth value, in capitals or not. -/
def Word (value : String) (b : Bool) : Prop := (Text.trimmed value).toLower ∈ words b

/-- What a value means for a variable: lifetimes and the span before the breaker lets a call through
are in seconds, deadlines in milliseconds, and an empty name is none. -/
def Means (v : Variable) (value : String) (x : Setting) : Prop :=
  match v with
  | identityEndpoint => x = .text value
  | enabled | degradeOnStartupFailure => ∃ b, Word value b ∧ x = .flag b
  | callTimeout | healthTimeout => ∃ n, Number value n ∧ x = .span (.ofMillis n)
  | cacheTtl | negativeCacheTtl | resetTimeout => ∃ n, Number value n ∧ x = .span (.ofSecs n)
  | failureLimit => ∃ n, Number value n ∧ x = .count n
  | serviceName => x = .name (if value.isEmpty then none else some value)

/-- A number is read exactly of the texts that write it. -/
theorem readNat_eq_ok_iff : readNat value = .ok n ↔ Number value n := by
  rw [Number, ← Text.readNatural_eq_ok_iff (by decide), readNat]
  cases Text.readNatural (Nat.pow 2 64) (Text.trimmed value) <;> simp

/-- No word stands for both truth values. -/
theorem not_mem_words_of_mem {word : String} (h : word ∈ words b) : word ∉ words !b := by
  cases b with
  | true => decide +revert
  | false => decide +revert

/-- A truth value is read exactly of its words. -/
theorem readBool_eq_ok_iff : readBool value = .ok b ↔ Word value b := by
  rw [readBool, Word]
  split
  · next htrue =>
    have hmem : (Text.trimmed value).toLower ∈ words true := List.contains_iff_mem.1 htrue
    cases b with
    | true => exact iff_of_true rfl hmem
    | false => exact iff_of_false nofun (not_mem_words_of_mem hmem)
  · next htrue =>
    have hmem : (Text.trimmed value).toLower ∉ words true := mt List.contains_iff_mem.2 htrue
    split
    · next hfalse =>
      cases b with
      | true => exact iff_of_false nofun hmem
      | false => exact iff_of_true rfl (List.contains_iff_mem.1 hfalse)
    · next hfalse =>
      refine iff_of_false nofun ?_
      cases b with
      | true => exact hmem
      | false => exact mt List.contains_iff_mem.2 hfalse

/-- A value means one thing at most. -/
theorem Means.unique (h : v.Means value x) (h' : v.Means value x') : x = x' := by
  have hnumber {n n' : Nat} (hn : Number value n) (hn' : Number value n') : n = n' :=
    Except.ok.inj ((readNat_eq_ok_iff.2 hn).symm.trans (readNat_eq_ok_iff.2 hn'))
  have hword {b b' : Bool} (hb : Word value b) (hb' : Word value b') : b = b' :=
    Except.ok.inj ((readBool_eq_ok_iff.2 hb).symm.trans (readBool_eq_ok_iff.2 hb'))
  cases v with
  | identityEndpoint | serviceName => exact h.trans h'.symm
  | enabled | degradeOnStartupFailure =>
    obtain ⟨b, hb, rfl⟩ := h
    obtain ⟨b', hb', rfl⟩ := h'
    rw [hword hb hb']
  | callTimeout | healthTimeout | cacheTtl | negativeCacheTtl | failureLimit | resetTimeout =>
    obtain ⟨n, hn, rfl⟩ := h
    obtain ⟨n', hn', rfl⟩ := h'
    rw [hnumber hn hn']

/-- Settings with what a value means for a variable in place of the setting's own. -/
structure Sets (v : Variable) (value : String) (c c' : Config) : Prop where
  means : v.Means value (c'.get v)
  kept : ∀ u, u ≠ v → c'.get u = c.get u

/-- A variable does what it should if its value is read as what it means, and what is read is put in
the setting's place. -/
theorem apply_spec_of {α : Type} {read : String → Except Fault α} {R : String → α → Prop}
    {f : α → Setting} {set : α → Config} (hread : ∀ a, read value = .ok a ↔ R value a)
    (hmeans : ∀ x, v.Means value x ↔ ∃ a, R value a ∧ x = f a)
    (happly : v.apply value c = do .ok (set (← read value)))
    (hset : ∀ a, (set a).get v = f a) (hkept : ∀ a u, u ≠ v → (set a).get u = c.get u) :
    (∃ c', v.apply value c = .ok c' ∧ Sets v value c c') ∨
    (∃ fault, v.apply value c = .error fault) ∧ ∀ x, ¬ v.Means value x := by
  rw [happly]
  cases hresult : read value with
  | ok a =>
    exact .inl ⟨set a, rfl, (hmeans _).2 ⟨a, (hread a).1 hresult, hset a⟩, hkept a⟩
  | error fault =>
    refine .inr ⟨⟨fault, rfl⟩, fun x hx => ?_⟩
    obtain ⟨a, ha, -⟩ := (hmeans x).1 hx
    cases hresult.symm.trans ((hread a).2 ha)

/-- **What a variable does.** If its value means something, that is now the variable's setting, and
no other setting is touched; if not, there is a fault. -/
theorem apply_spec (v : Variable) (value : String) (c : Config) :
    (∃ c', v.apply value c = .ok c' ∧ Sets v value c c') ∨
    (∃ fault, v.apply value c = .error fault) ∧ ∀ x, ¬ v.Means value x := by
  cases v with
  | identityEndpoint =>
    exact .inl ⟨_, rfl, rfl, fun u hu => by cases u <;> first | exact absurd rfl hu | rfl⟩
  | serviceName =>
    refine .inl ⟨_, rfl, congrArg Setting.name ?_,
      fun u hu => by cases u <;> first | exact absurd rfl hu | rfl⟩
    rw [Option.filter_some]
    cases value.isEmpty <;> rfl
  | enabled | degradeOnStartupFailure =>
    exact apply_spec_of (f := .flag) (fun _ => readBool_eq_ok_iff) (fun _ => .rfl) rfl
      (fun _ => rfl) (fun _ u hu => by cases u <;> first | exact absurd rfl hu | rfl)
  | failureLimit =>
    exact apply_spec_of (f := .count) (fun _ => readNat_eq_ok_iff) (fun _ => .rfl) rfl
      (fun _ => rfl) (fun _ u hu => by cases u <;> first | exact absurd rfl hu | rfl)
  | callTimeout | healthTimeout =>
    exact apply_spec_of (f := fun n => .span (.ofMillis n)) (fun _ => readNat_eq_ok_iff)
      (fun _ => .rfl) rfl (fun _ => rfl)
      (fun _ u hu => by cases u <;> first | exact absurd rfl hu | rfl)
  | cacheTtl | negativeCacheTtl | resetTimeout =>
    exact apply_spec_of (f := fun n => .span (.ofSecs n)) (fun _ => readNat_eq_ok_iff)
      (fun _ => .rfl) rfl (fun _ => rfl)
      (fun _ u hu => by cases u <;> first | exact absurd rfl hu | rfl)

/-- The error of a value is a validation error that names the variable and quotes the value. -/
theorem error_eq (v : Variable) (value : String) (fault : Fault) :
    ∃ reason, v.error value fault = .validation v.name ("'" ++ value ++ "'" ++ reason) := by
  have hquote (reason : String) : "'" ++ value ++ "'" ++ reason = "'" ++ value ++ ("'" ++ reason) :=
    String.append_assoc
  cases fault with
  | notNatural fault =>
    have hcolon : "'" ++ (": " ++ fault.message) = "': " ++ fault.message :=
      String.append_assoc.symm
    refine ⟨": " ++ fault.message, congrArg (Error.validation v.name) ?_⟩
    rw [hquote, hcolon]
    exact String.append_assoc
  | notBoolean =>
    exact ⟨" is not a boolean",
      congrArg (Error.validation v.name) (hquote " is not a boolean").symm⟩

end Variable

end AccessGate
