import Mathlib.Logic.Basic
import ScriptConsole.Value.Operators

/-!
# The Order of Doubles

Doubles that are numbers are in a total order, and `==` holds between those that are equal in it,
which are the zeros of either sign and each double with itself. An integer taken as a double is a
number.

Both are read off the parts into which a double is unpacked: its sign, mantissa and exponent, or
that it is infinite, zero or a NaN.

## Main results

* `Number.Binary64.isNaN_ofInt`: integers as doubles are numbers.
* `Value.orderFloats_eq`, `Value.orderFloats_swap`, `Value.isSome_orderFloats`: the order of
  doubles.
* `Value.beq_iff_orderFloats`: when doubles are equal.
-/

namespace ScriptConsole

open Float.Model

namespace Number.Binary64

/-! ### Which doubles are numbers -/

/-- The bits that are unpacked to a NaN have an exponent of ones and a mantissa that is not zero. -/
theorem of_unpack_eq_notANumber {spec : Format} {bits : BitVec spec.numBits}
    (h : UnpackedFloat.unpack spec bits = .notANumber) :
    UnpackedFloat.unpackExponent bits = -1#(spec.exponentBits) ∧
      UnpackedFloat.unpackMantissa bits ≠ 0#(spec.mantissaBitsWithoutImplicit) := by
  unfold UnpackedFloat.unpack at h
  obtain ⟨ones, special⟩ | ⟨-, finite⟩ := ite_eq_iff.mp h
  · obtain ⟨-, infinite⟩ | ⟨nonzero, -⟩ := ite_eq_iff.mp special
    · cases infinite
    · exact ⟨ones, nonzero⟩
  · obtain ⟨-, small⟩ | ⟨-, normal⟩ := ite_eq_iff.mp finite
    · obtain ⟨_, zero⟩ | ⟨_, denormal⟩ := dite_eq_iff.mp small
      · cases zero
      · cases denormal
    · cases normal

/-- What is packed is no NaN, unless it was one before. -/
theorem unpack_pack_ne_notANumber {u : UnpackedFloat} (h : u ≠ .notANumber) :
    (pack u).unpack ≠ .notANumber := by
  intro nan
  obtain ⟨ones, nonzero⟩ := of_unpack_eq_notANumber nan
  dsimp only [pack] at ones nonzero
  cases u with
  | notANumber => exact h rfl
  | infinity s =>
      unfold UnpackedFloat.pack at nonzero
      rw [UnpackedFloat.packedInfinity,
        UnpackedFloat.unpackMantissa_packComponents] at nonzero
      exact nonzero rfl
  | zero s =>
      unfold UnpackedFloat.pack at nonzero
      rw [UnpackedFloat.packedZero,
        UnpackedFloat.unpackMantissa_packComponents] at nonzero
      exact nonzero rfl
  | finite s m e positive =>
      unfold UnpackedFloat.pack at ones nonzero
      dsimp only at ones nonzero
      split at ones
      · next large =>
        rw [if_pos large, UnpackedFloat.packedInfinity,
          UnpackedFloat.unpackMantissa_packComponents] at nonzero
        exact nonzero rfl
      · next fits =>
        -- an exponent that fits is not one of ones
        split at ones
        · rw [UnpackedFloat.unpackExponent_packComponents] at ones
          have exponent := congrArg BitVec.toNat ones
          rw [BitVec.toNat_ofNat] at exponent
          simp at exponent fits
          omega
        · rw [UnpackedFloat.unpackExponent_packComponents] at ones
          exact absurd ones (by decide)

/-- A double is a number if it unpacks as one. -/
theorem isNaN_eq_false_iff {x : Float} : x.isNaN = false ↔ x.toModel.unpack ≠ .notANumber := by
  show x.toModel.unpack.isNaN = false ↔ _
  cases x.toModel.unpack with
  | notANumber => exact iff_of_false Bool.noConfusion (absurd rfl)
  | _ => exact iff_of_true rfl UnpackedFloat.noConfusion

/-- The negative of a number is a number. -/
theorem isNaN_neg {x : Float} (h : x.isNaN = false) : (-x).isNaN = false := by
  rw [isNaN_eq_false_iff] at h ⊢
  refine unpack_pack_ne_notANumber ?_
  cases hx : x.toModel.unpack with
  | notANumber => exact absurd hx h
  | _ => exact UnpackedFloat.noConfusion

/-- Rounding gives a zero or a finite double. -/
theorem round_ne_notANumber (spec : Format) (s : UnpackedFloat.Sign) (m : Nat) (e : Int) :
    UnpackedFloat.round spec s m e ≠ .notANumber := by
  unfold UnpackedFloat.round UnpackedFloat.roundWithAccuracy
  intro nan
  obtain ⟨_, zero⟩ | ⟨_, finite⟩ := dite_eq_iff.mp nan
  · cases zero
  · cases finite

/-- A normal form is a number. -/
theorem normalize_ne_notANumber (spec : Format) (m e : Int) (s : UnpackedFloat.Sign) :
    UnpackedFloat.normalize spec m e s ≠ .notANumber := by
  unfold UnpackedFloat.normalize
  cases compare m 0 with
  | eq => exact UnpackedFloat.noConfusion
  | lt | gt => exact round_ne_notANumber _ _ _ _

/-- A natural number is one as a double. -/
theorem isNaN_toFloat (n : UInt64) : n.toFloat.isNaN = false := by
  rw [isNaN_eq_false_iff]
  exact unpack_pack_ne_notANumber (normalize_ne_notANumber _ _ _ _)

/-- An integer as a double is a number. -/
theorem isNaN_ofInt (n : Int) : (Binary64.ofInt n).isNaN = false := by
  unfold Binary64.ofInt withSign
  split
  · exact isNaN_neg (isNaN_toFloat _)
  · exact isNaN_toFloat _

/-! ### The order of unpacked doubles -/

/-- The comparison of unpacked doubles is swapped with them. -/
theorem compare_swap (a b : UnpackedFloat) : b.compare a = (a.compare b).map Ordering.swap := by
  cases a with
  | notANumber => cases b <;> rfl
  | infinity s | zero s =>
      cases b with
      | notANumber => cases s <;> rfl
      | infinity t | zero t | finite t => cases s <;> cases t <;> rfl
  | finite s m e =>
      cases b with
      | notANumber => cases s <;> rfl
      | infinity t | zero t => cases s <;> cases t <;> rfl
      | finite t n d =>
          have size : (compare d e).then (compare n m) =
              ((compare e d).then (compare m n)).swap := by
            rw [Ordering.swap_then, ← Std.OrientedCmp.eq_swap, ← Std.OrientedCmp.eq_swap]
          cases s <;> cases t
          · exact congrArg (some ∘ Ordering.swap) size
          · rfl
          · rfl
          · exact congrArg some size

/-- Numbers can be compared. -/
theorem isSome_compare {a b : UnpackedFloat} (ha : a ≠ .notANumber) (hb : b ≠ .notANumber) :
    (a.compare b).isSome = true := by
  cases a with
  | notANumber => exact absurd rfl ha
  | infinity s | zero s | finite s =>
      cases b with
      | notANumber => exact absurd rfl hb
      | infinity t | zero t | finite t => cases s <;> cases t <;> rfl

/-- The order of doubles is that of their unpacked forms. -/
theorem lt_iff {x y : Float} :
    x < y ↔ x.toModel.unpack.compare y.toModel.unpack = some .lt := by
  show decide (x.toModel < y.toModel) = true ↔ _
  rw [decide_eq_true_iff]
  show (x.toModel.unpack.compare y.toModel.unpack == some .lt) = true ↔ _
  exact beq_iff_eq

/-- So is their equality. -/
theorem beq_iff {x y : Float} :
    (x == y) = true ↔ x.toModel.unpack.compare y.toModel.unpack = some .eq := by
  show (x.toModel.unpack.compare y.toModel.unpack == some .eq) = true ↔ _
  exact beq_iff_eq

end Number.Binary64

namespace Value

open Number.Binary64

/-! ### The order of doubles -/

/-- Doubles are ordered as their unpacked forms are. -/
theorem orderFloats_eq (x y : Float) :
    orderFloats x y = x.toModel.unpack.compare y.toModel.unpack := by
  unfold orderFloats
  simp only [lt_iff, beq_iff]
  rw [compare_swap x.toModel.unpack y.toModel.unpack]
  rcases x.toModel.unpack.compare y.toModel.unpack with _ | (_ | _ | _) <;> rfl

/-- The order of two doubles is swapped with them. -/
theorem orderFloats_swap (x y : Float) : orderFloats y x = (orderFloats x y).map Ordering.swap := by
  rw [orderFloats_eq, orderFloats_eq, compare_swap]

/-- Doubles that are numbers are in some order. -/
theorem isSome_orderFloats {x y : Float} (hx : x.isNaN = false) (hy : y.isNaN = false) :
    (orderFloats x y).isSome = true := by
  rw [orderFloats_eq]
  exact isSome_compare (isNaN_eq_false_iff.mp hx) (isNaN_eq_false_iff.mp hy)

/-- Doubles are equal if the order says so. -/
theorem beq_iff_orderFloats {x y : Float} : (x == y) = true ↔ orderFloats x y = some .eq := by
  rw [orderFloats_eq, beq_iff]

/-- Equality of doubles does not depend on the order of the operands. -/
theorem beq_comm_float (x y : Float) : (x == y) = (y == x) := by
  rw [Bool.eq_iff_iff, beq_iff_orderFloats, beq_iff_orderFloats, orderFloats_swap x y]
  cases orderFloats x y with
  | none => simp
  | some o => cases o <;> simp

end Value

end ScriptConsole
