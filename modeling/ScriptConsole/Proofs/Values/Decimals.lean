import Mathlib.Data.List.Basic
import Mathlib.Tactic.IntervalCases
import ScriptConsole.Number.Shortest

/-!
# Numbers in Decimals

An integer is written with the digits of its absolute value, behind a minus if it is negative. Only
zero has a zero as its first digit.

The shortest decimal of a double other than zero is no zero either: zero lies outside of the
interval of numbers that round to the double, since that reaches less than half the way down to it.
So the first of its digits is no zero.

## Main results

* `Number.toList_toString_int`: integers in decimals.
* `Number.head_toDigits`: the first digit.
* `Number.Decimal.shortest_cases`: the shortest decimals of doubles.
-/

namespace ScriptConsole.Number

/-! ### Digits -/

/-- An integer in decimals: a minus if it is negative, and the digits of its absolute value. -/
theorem toList_toString_int (k : Int) :
    (toString k).toList = (if k < 0 then ['-'] else []) ++ Nat.toDigits 10 k.natAbs := by
  rw [Int.toString_eq_repr]
  cases k with
  | ofNat n =>
      have : ¬Int.ofNat n < 0 := Int.not_lt.mpr (Int.natCast_nonneg n)
      rw [if_neg this]
      exact Nat.toList_repr
  | negSucc n =>
      rw [if_pos (Int.negSucc_lt_zero n)]
      exact (String.toList_append).trans (congrArg _ Nat.toList_repr)

theorem isDigit_of_mem {n : Nat} {c : Char} (mem : c ∈ Nat.toDigits 10 n) : c.isDigit = true :=
  Nat.isDigit_of_mem_toDigits (by decide) (Nat.le_refl 10) mem

/-- The digits of a number other than zero do not start with a zero. -/
theorem head_toDigits {n : Nat} (positive : 0 < n) : (Nat.toDigits 10 n).head? ≠ some '0' := by
  induction n using Nat.strongRecOn with
  | ind n ih =>
      rw [Nat.toDigits_eq_if (by decide)]
      split
      · next small =>
        rw [List.head?_cons, Ne, Option.some.injEq]
        interval_cases n <;> decide
      · next large =>
        rw [List.head?_append_of_ne_nil _ Nat.toDigits_ne_nil]
        exact ih (n / 10) (by omega) (by omega)

/-- Digits that are appended to a number do not make it less. -/
theorem le_ofDigitChars (n : Nat) (digits : List Char) : n ≤ Nat.ofDigitChars 10 digits n := by
  induction digits generalizing n with
  | nil => exact Nat.le_refl n
  | cons c digits ih =>
      rw [Nat.ofDigitChars_cons]
      exact Nat.le_trans (by omega) (ih _)

/-! ### The magnitudes of doubles -/

/-- Doubles of the same bits are the same. -/
theorem Binary64.eq_of_toBits_eq {x y : Float} (h : x.toBits = y.toBits) : x = y := by
  obtain ⟨⟨_, _⟩⟩ := x
  obtain ⟨⟨_, _⟩⟩ := y
  cases h
  rfl

/-- Only the zeros have no mantissa. -/
theorem Binary64.mantissa_pos {x : Float} (nonzero : (x == 0) = false) :
    0 < (ofFloat x).mantissa := by
  by_contra none
  have zero : (ofFloat x).mantissa = 0 := by omega
  simp only [ofFloat] at zero
  split at zero
  · next biased =>
    have low : x.toBits.toNat % 2 ^ 52 = 0 := by
      rw [UInt64.toNat_and] at zero
      rw [← zero]
      exact (Nat.and_two_pow_sub_one_eq_mod _ 52).symm
    have high : x.toBits.toNat / 2 ^ 52 % 2 ^ 11 = 0 := by
      rw [UInt64.toNat_and, UInt64.toNat_shiftRight] at biased
      rw [← biased, ← Nat.shiftRight_eq_div_pow]
      exact (Nat.and_two_pow_sub_one_eq_mod _ 11).symm
    have range := x.toBits.toNat_lt
    have either : x.toBits = 0 ∨ x.toBits = 0x8000000000000000 := by
      rw [← UInt64.toNat_inj, ← UInt64.toNat_inj]
      show x.toBits.toNat = 0 ∨ x.toBits.toNat = 9223372036854775808
      omega
    obtain rfl | rfl : x = 0 ∨ x = -0 :=
      either.imp (fun bits => eq_of_toBits_eq (bits.trans (by decide)))
        fun bits => eq_of_toBits_eq (bits.trans (by decide))
    · exact absurd nonzero (by decide)
    · exact absurd nonzero (by decide)
  · next biased =>
    dsimp only [leadingBit] at zero
    omega

namespace Decimal

variable {r : Rounding} {b : Binary64} {d : Decimal} {tie : Tie} {digits count steps : Nat}
  {exponent places : Int}

/-- The interval around a double does not reach down to zero. -/
theorem Rounding.below_lt_num (positive : 0 < b.mantissa) :
    (Rounding.ofBinary b).below < (Rounding.ofBinary b).num := by
  have up : 0 < Binary64.scaleUp b.exponent := Nat.pow_pos (by decide)
  have large : 4 * Binary64.scaleUp b.exponent ≤ 4 * b.mantissa * Binary64.scaleUp b.exponent :=
    Nat.mul_le_mul_right _ (by omega)
  dsimp only [Rounding.ofBinary]
  split <;> omega

/-- Zero does not round to a double whose interval lies above it. -/
theorem Rounding.digits_pos (above : r.below < r.num) (within : r.admits digits exponent = true) :
    0 < digits := by
  rcases Nat.eq_zero_or_pos digits with rfl | positive
  · have scale : 0 < scaleUp (-exponent) := Nat.pow_pos (by decide)
    have low : 0 < (r.num - r.below) * scaleUp (-exponent) := Nat.mul_pos (by omega) scale
    simp only [admits, Nat.zero_mul] at within
    split at within
    · simp at within
      omega
    · simp at within
  · exact positive

theorem Rounding.admits_withDigits (found : r.withDigits? tie places count = some d) :
    r.admits d.digits d.exponent = true := by
  simp only [withDigits?] at found
  split at found
  · next down up =>
    cases found
    dsimp only
    split
    · exact down
    · exact up
  · next down _ =>
    cases found
    exact down
  · next up =>
    cases found
    exact up
  · cases found

theorem digits_trim_pos (positive : 0 < d.digits) : 0 < (trim steps d).digits := by
  induction steps generalizing d with
  | zero => exact positive
  | succ steps ih =>
      rw [trim]
      split
      · next zero => exact ih (by dsimp only; omega)
      · exact positive

/-- The shortest decimal of a double has digits other than zero. -/
theorem shortest_cases {x : Float} (tie : Tie) (nonzero : (x == 0) = false) :
    shortest tie x = ⟨0, 0⟩ ∨ 0 < (shortest tie x).digits := by
  have above := Rounding.below_lt_num (Binary64.mantissa_pos nonzero)
  dsimp only [shortest]
  split
  · next d found =>
    obtain ⟨count, -, taken⟩ := List.exists_of_findSome?_eq_some found
    exact .inr (digits_trim_pos (Rounding.digits_pos above (Rounding.admits_withDigits taken)))
  · exact .inl rfl

end Decimal

end ScriptConsole.Number
