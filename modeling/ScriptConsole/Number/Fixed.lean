/-!
# Integers of Fixed Width

The integers of the language have 32 or 64 bits, and arithmetic on them is exact or fails: it is
done on `Int`, and `int32?` and `int64?` let a result through only if it fits.

## Main results

* `int32?_eq_some_iff`, `int64?_eq_some_iff`: a result is let through exactly if it is a number of
  that width, and then unchanged.
-/

namespace ScriptConsole.Number

/-- Natural numbers of 32 bits are below this one, `2 ^ 32`. -/
def limit32 : Nat := 4294967296

/-- Natural numbers of 64 bits are below this one, `2 ^ 64`. -/
def limit64 : Nat := 18446744073709551616

/-- The 32-bit integer of that value, if there is one. -/
def int32? (n : Int) : Option Int32 :=
  if -2147483648 ≤ n ∧ n ≤ 2147483647 then some (Int32.ofInt n) else none

/-- The 64-bit integer of that value, if there is one. -/
def int64? (n : Int) : Option Int64 :=
  if -9223372036854775808 ≤ n ∧ n ≤ 9223372036854775807 then some (Int64.ofInt n) else none

/-- An integer is a narrow one if that has its value. -/
theorem int32?_eq_some_iff {n : Int} {m : Int32} : int32? n = some m ↔ m.toInt = n := by
  unfold int32?
  constructor
  · intro h
    split at h
    · rename_i range
      cases h
      exact Int32.toInt_ofInt_of_le (by omega) (by omega)
    · cases h
  · rintro rfl
    have low := Int32.le_toInt m
    have high := Int32.toInt_lt m
    rw [if_pos ⟨by omega, by omega⟩, Int32.ofInt_toInt]

/-- An integer is a wide one if that has its value. -/
theorem int64?_eq_some_iff {n : Int} {m : Int64} : int64? n = some m ↔ m.toInt = n := by
  unfold int64?
  constructor
  · intro h
    split at h
    · rename_i range
      cases h
      exact Int64.toInt_ofInt_of_le (by omega) (by omega)
    · cases h
  · rintro rfl
    have low := Int64.le_toInt m
    have high := Int64.toInt_lt m
    rw [if_pos ⟨by omega, by omega⟩, Int64.ofInt_toInt]

end ScriptConsole.Number
