import Mathlib.Algebra.Group.Nat.Defs
import Rollback.Text.Blank

/-!
# Digits

A run of decimal digits is read up to its end, and a number is what its digits stand for.

- `EndsDigits`: what may follow a run of digits
- `takeWhile_isDigit_append`, `dropWhile_isDigit_append`: a run of digits and what follows it
- `ofDigitChars_lt`: the value of a run of digits
- `trimStart_of_isDigit`: no blanks stand before digits
-/

set_option autoImplicit false

namespace Rollback.Text

/-- A text that does not go on with digits. -/
def EndsDigits (rest : List Char) : Prop :=
  ∀ c ∈ rest.head?, c.isDigit = false

theorem endsDigits_cons {c : Char} (h : c.isDigit = false) (rest : List Char) :
    EndsDigits (c :: rest) := by
  rintro d ⟨⟩
  exact h

/-- Digits are read as far as they go. -/
theorem takeWhile_isDigit_append {digits rest : List Char} (inside : ∀ c ∈ digits, c.isDigit = true)
    (ends : EndsDigits rest) : (digits ++ rest).takeWhile Char.isDigit = digits := by
  rw [List.takeWhile_append_of_pos inside]
  cases rest with
  | nil => rw [List.takeWhile_nil, List.append_nil]
  | cons c rest => rw [List.takeWhile_cons_of_neg (by simp [ends c rfl]), List.append_nil]

theorem dropWhile_isDigit_append {digits rest : List Char} (inside : ∀ c ∈ digits, c.isDigit = true)
    (ends : EndsDigits rest) : (digits ++ rest).dropWhile Char.isDigit = rest := by
  rw [List.dropWhile_append_of_pos inside]
  cases rest with
  | nil => rfl
  | cons c rest => exact List.dropWhile_cons_of_neg (by simp [ends c rfl])

theorem isDigit_of_mem_toDigits {n : Nat} {c : Char} (h : c ∈ Nat.toDigits 10 n) :
    c.isDigit = true :=
  Nat.isDigit_of_mem_toDigits (by decide) (by decide) h

/-- The value of a digit is below ten. -/
theorem toNat_lt_of_isDigit {c : Char} (h : c.isDigit = true) : c.toNat - '0'.toNat < 10 := by
  simp only [Char.isDigit, Bool.and_eq_true, decide_eq_true_eq] at h
  have above : c.toNat ≤ 57 := h.2
  have zero : '0'.toNat = 48 := rfl
  omega

/-- Digits stand for a number that is less than the power of ten for as many zeros. -/
theorem ofDigitChars_lt {digits : List Char} (inside : ∀ c ∈ digits, c.isDigit = true)
    (init : Nat) :
    Nat.ofDigitChars 10 digits init < (init + 1) * 10 ^ digits.length := by
  induction digits generalizing init with
  | nil => simp
  | cons c digits ih =>
    rw [List.forall_mem_cons] at inside
    have digit := toNat_lt_of_isDigit inside.1
    rw [Nat.ofDigitChars_cons, List.length_cons]
    calc
      _ < (10 * init + (c.toNat - '0'.toNat) + 1) * 10 ^ digits.length := ih inside.2 _
      _ ≤ (10 * (init + 1)) * 10 ^ digits.length := Nat.mul_le_mul_right _ (by omega)
      _ = (init + 1) * 10 ^ (digits.length + 1) := by
        rw [Nat.pow_succ, Nat.mul_comm 10 (init + 1), Nat.mul_assoc, Nat.mul_comm 10]

/-- No blanks stand before digits. -/
theorem trimStart_of_isDigit {c : Char} (h : c.isDigit = true) (rest : List Char) :
    trimStart (c :: rest) = c :: rest := by
  refine List.dropWhile_cons_of_neg fun blank => ?_
  simp only [Char.isDigit, Bool.and_eq_true, decide_eq_true_eq] at h
  have above : 48 ≤ c.toNat := h.1
  have below : c.toNat ≤ 57 := h.2
  simp only [isBlank, Bool.or_eq_true, Bool.and_eq_true, decide_eq_true_eq, beq_iff_eq] at blank
  omega

end Rollback.Text
