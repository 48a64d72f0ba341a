import ScriptConsole.Proofs.Evaluation.Exact

/-!
# Integer Arithmetic

An integer has one of two widths. An operation takes place at the width of its wider operand, and is
exact or fails there: it fails if it divides by zero, or if the number that decides about it is no
number of that width. That number is the sum, the difference or the product, and for both divisions
the quotient (`Arithmetic.deciding`); a remainder always fits, because it lies between zero and the
dividend.

Both widths are treated at once. `Width.value?` makes a number the integer of a width, and
arithmetic on integers is `Arithmetic.checked` with that function at the wider width.

## Main results

* `Arithmetic.checked_cases`: an operation at a width fails as `Arithmetic.Fails` says, and is exact
  otherwise.
* `integers_exact_or_fail`: **integer arithmetic**: operations, wider operands, negation, and how
  quotient and remainder belong together.
-/

namespace ScriptConsole

/-- The widths of integers. -/
inductive Width where
  | narrow
  | wide
  deriving DecidableEq, Repr

namespace Width

/-- The least number of a width. -/
def least : Width → Int
  | narrow => -2147483648
  | wide => -9223372036854775808

/-- The greatest number of a width. -/
def greatest : Width → Int
  | narrow => 2147483647
  | wide => 9223372036854775807

/-- Whether a number is one of a width. -/
def Holds (w : Width) (k : Int) : Prop := w.least ≤ k ∧ k ≤ w.greatest

instance (w : Width) (k : Int) : Decidable (w.Holds k) :=
  inferInstanceAs (Decidable (w.least ≤ k ∧ k ≤ w.greatest))

/-- The wider one of two widths. -/
def join : Width → Width → Width
  | narrow, narrow => narrow
  | _, _ => wide

/-- The integer of a width for a number, if there is one. -/
def value? : Width → Int → Option Value
  | narrow, k => (Number.int32? k).map .int
  | wide, k => (Number.int64? k).map .long

/-- Numbers between zero and a number of a width are of that width. -/
theorem Holds.of_between {w : Width} {m k : Int} (holds : w.Holds m)
    (above : 0 ≤ m → 0 ≤ k ∧ k ≤ m) (below : m ≤ 0 → m ≤ k ∧ k ≤ 0) : w.Holds k := by
  obtain ⟨low, high⟩ := holds
  unfold Holds
  cases w <;> simp only [least, greatest] at low high ⊢ <;> omega

/-- What a width holds is held by any wider one. -/
theorem Holds.join_left {w : Width} {m : Int} (holds : w.Holds m) (w' : Width) :
    (w.join w').Holds m := by
  obtain ⟨low, high⟩ := holds
  unfold Holds
  cases w <;> cases w' <;> simp only [join, least, greatest] at low high ⊢ <;> omega

/-- Either width may come first. -/
theorem join_comm (w w' : Width) : w.join w' = w'.join w := by
  cases w <;> cases w' <;> rfl

/-- The wide one is the widest. -/
@[simp] theorem join_wide (w : Width) : w.join wide = wide := by
  cases w <;> rfl

/-- The same width twice makes no difference. -/
@[simp] theorem join_join (w w' : Width) : (w.join w').join w' = w.join w' := by
  cases w <;> cases w' <;> rfl

/-- A width is no wider than itself. -/
@[simp] theorem join_self (w : Width) : w.join w = w := by
  cases w <;> rfl

end Width

/-- Whether a value is the integer of a width for a number. -/
inductive Value.IsInteger : Value → Width → Int → Prop
  | int (n : Int32) : IsInteger (.int n) .narrow n.toInt
  | long (n : Int64) : IsInteger (.long n) .wide n.toInt

variable {a b : Value} {w w' : Width} {m n : Int}

/-- The value of a width for an integer is the one that stands for it. -/
theorem Width.value?_eq_some_iff {k : Int} {v : Value} :
    w.value? k = some v ↔ v.IsInteger w k := by
  constructor
  · intro h
    cases w with
    | narrow =>
        obtain ⟨r, fits, rfl⟩ := Option.map_eq_some_iff.mp h
        exact Number.int32?_eq_some_iff.mp fits ▸ .int r
    | wide =>
        obtain ⟨r, fits, rfl⟩ := Option.map_eq_some_iff.mp h
        exact Number.int64?_eq_some_iff.mp fits ▸ .long r
  · rintro (r | r)
    · exact Option.map_eq_some_iff.mpr ⟨r, Number.int32?_eq_some_iff.mpr rfl, rfl⟩
    · exact Option.map_eq_some_iff.mpr ⟨r, Number.int64?_eq_some_iff.mpr rfl, rfl⟩

/-- An integer value is in the range of its width. -/
theorem Value.IsInteger.holds (h : a.IsInteger w m) : w.Holds m := by
  cases h with
  | int r =>
      have low := Int32.le_toInt r
      have high := Int32.toInt_lt r
      exact ⟨by simp only [Width.least]; omega, by simp only [Width.greatest]; omega⟩
  | long r =>
      have low := Int64.le_toInt r
      have high := Int64.toInt_lt r
      exact ⟨by simp only [Width.least]; omega, by simp only [Width.greatest]; omega⟩

/-- The numbers of a width are those that an integer of that width has. -/
theorem Width.holds_iff_exists {k : Int} : w.Holds k ↔ ∃ v : Value, v.IsInteger w k := by
  constructor
  · intro holds
    suffices h : ∃ v, w.value? k = some v from h.imp fun v => value?_eq_some_iff.mp
    cases w with
    | narrow => exact ⟨_, congrArg (Option.map _) (if_pos holds)⟩
    | wide => exact ⟨_, congrArg (Option.map _) (if_pos holds)⟩
  · rintro ⟨v, h⟩
    exact h.holds

/-- Out of the range there is none. -/
theorem Width.value?_eq_none {k : Int} (outside : ¬w.Holds k) : w.value? k = none := by
  cases h : w.value? k with
  | none => rfl
  | some v => exact absurd (value?_eq_some_iff.mp h).holds outside

/-- An integer has one width and one number. -/
theorem Value.IsInteger.unique {k : Int} (h : a.IsInteger w m) (h' : a.IsInteger w' k) :
    w' = w ∧ k = m := by
  cases h <;> cases h' <;> exact ⟨rfl, rfl⟩

/-- Integers are equal if their numbers are. -/
theorem Value.IsInteger.eql_iff (ha : a.IsInteger w m) (hb : b.IsInteger w' n) :
    a.eql b = true ↔ m = n := by
  have same : ∀ {x y : Int64}, (x == y) = true ↔ x.toInt = y.toInt := by
    intro x y
    rw [beq_iff_eq, Int64.toInt_inj]
  cases ha <;> cases hb <;>
    simp only [Value.eql, Value.eqlNumber, Value.toInt64?, same, Int32.toInt_toInt64]

/-! ### Operations at a width -/

namespace Arithmetic

/-- The number that decides whether an operation has a result: what comes out, and for both
divisions the quotient. -/
def deciding : Arithmetic → Int → Int → Int
  | add, m, n => m + n
  | subtract, m, n => m - n
  | multiply, m, n => m * n
  | divide, m, n => m.tdiv n
  | remainder, m, n => m.tdiv n

/-- Whether an operation has no result at a width. -/
def Fails (op : Arithmetic) (w : Width) (m n : Int) : Prop :=
  (op.divides = true ∧ n = 0) ∨ ¬w.Holds (op.deciding m n)

/-- The remainder lies between zero and the dividend. -/
theorem tmod_between (m n : Int) :
    (0 ≤ m → 0 ≤ m.tmod n ∧ m.tmod n ≤ m) ∧ (m ≤ 0 → m ≤ m.tmod n ∧ m.tmod n ≤ 0) := by
  have size : (m.tmod n).natAbs ≤ m.natAbs := by
    rw [Int.natAbs_tmod]
    exact Nat.mod_le _ _
  constructor
  · intro positive
    have := Int.tmod_nonneg n positive
    omega
  · intro negative
    have := Int.tmod_nonneg n (Int.neg_nonneg_of_nonpos negative)
    rw [Int.neg_tmod] at this
    omega

/-- A remainder has the sign of the dividend, or is zero. -/
theorem sign_tmod (m n : Int) : m.tmod n = 0 ∨ (m.tmod n).sign = m.sign := by
  obtain ⟨above, below⟩ := tmod_between m n
  rcases Int.lt_trichotomy (m.tmod n) 0 with negative | zero | positive
  · have : m < 0 := Int.not_le.mp fun le => Int.not_le.mpr negative (above le).1
    exact .inr (by rw [Int.sign_eq_neg_one_of_neg negative, Int.sign_eq_neg_one_of_neg this])
  · exact .inl zero
  · have : 0 < m := Int.not_le.mp fun le => Int.not_le.mpr positive (below le).2
    exact .inr (by rw [Int.sign_eq_one_of_pos positive, Int.sign_eq_one_of_pos this])

/-- Where the deciding number fits, the result does. -/
theorem holds_value {op : Arithmetic} (holds : w.Holds m) (fits : w.Holds (op.deciding m n)) :
    w.Holds (op.value m n) := by
  cases op with
  | remainder => exact holds.of_between (tmod_between m n).1 (tmod_between m n).2
  | _ => exact fits

/-- An operation at a width fails, or its result is the exact one. -/
theorem checked_cases (op : Arithmetic) (holds : w.Holds m) (n : Int) :
    (op.Fails w m n ∧ ∃ fault, op.checked w.value? m n = .error fault) ∨
      (¬op.Fails w m n ∧
        ∃ r, r.IsInteger w (op.value m n) ∧ op.checked w.value? m n = .ok r) := by
  have decisive : op.decisive m n (op.value m n) = op.deciding m n := by cases op <;> rfl
  unfold checked
  rcases op.exact_cases m n with ⟨divides, zero, h⟩ | ⟨nonzero, h⟩
  · exact .inl ⟨.inl ⟨divides, zero⟩, _, by rw [h]⟩
  · rw [h]
    dsimp only
    rw [decisive]
    by_cases fits : w.Holds (op.deciding m n)
    · obtain ⟨q, hq⟩ := Width.holds_iff_exists.mp fits
      obtain ⟨r, hr⟩ := Width.holds_iff_exists.mp (holds_value holds fits)
      refine .inr ⟨?_, r, hr, ?_⟩
      · rintro (⟨divides, zero⟩ | outside)
        · exact nonzero divides zero
        · exact outside fits
      · rw [Width.value?_eq_some_iff.mpr hq, Width.value?_eq_some_iff.mpr hr]
    · exact .inl ⟨.inr fits, _, by rw [Width.value?_eq_none fits]⟩

/-- The result of a checked operation may be mapped before or after the check. -/
theorem checked_map {ω ω' : Type} (op : Arithmetic) (fit : Int → Option ω) (f : ω → ω')
    (m n : Int) : (op.checked fit m n).map f = op.checked (fun k => (fit k).map f) m n := by
  unfold checked
  cases op.exact m n with
  | error fault => rfl
  | ok result =>
      dsimp only
      cases fit (op.decisive m n result) with
      | none => rfl
      | some q => cases fit result <;> rfl

end Arithmetic

namespace Value

/-! ### Operators on integers -/

/-- An integer is no text. -/
theorem isText_of_isInteger (h : a.IsInteger w m) : a.isText = false := by
  cases h <;> rfl

/-- Arithmetic on integers takes place at the wider width. -/
theorem binary_of_isInteger (legend : Legend) (op : Arithmetic) (ha : a.IsInteger w m)
    (hb : b.IsInteger w' n) :
    binary legend op.toBinaryOp a b =
      (op.checked (w.join w').value? m n).mapError .arithmetic := by
  have strict : binary legend op.toBinaryOp a b = arithmetic op a b := by
    cases op with
    | add =>
        simp [Arithmetic.toBinaryOp, binary, isText_of_isInteger ha, isText_of_isInteger hb]
    | _ => rfl
  rw [strict]
  cases ha <;> cases hb <;>
    simp only [arithmetic, toInt64?, Arithmetic.checked_map, Int32.toInt_toInt64] <;> rfl

/-- An operation on integers fails, or its result is the exact one. -/
theorem binary_cases (legend : Legend) (op : Arithmetic) (ha : a.IsInteger w m)
    (hb : b.IsInteger w' n) :
    (op.Fails (w.join w') m n ∧
        ∃ fault, binary legend op.toBinaryOp a b = .error (.arithmetic fault)) ∨
      (¬op.Fails (w.join w') m n ∧ ∃ r, r.IsInteger (w.join w') (op.value m n) ∧
        binary legend op.toBinaryOp a b = .ok r) := by
  rw [binary_of_isInteger legend op ha hb]
  rcases op.checked_cases (ha.holds.join_left w') n with ⟨fails, fault, h⟩ | ⟨exact, r, hr, h⟩
  · exact .inl ⟨fails, fault, by rw [h]; rfl⟩
  · exact .inr ⟨exact, r, hr, by rw [h]; rfl⟩

/-- What it means that an operation on integers has a result. -/
theorem binary_eq_ok {legend : Legend} (op : Arithmetic) {r : Value} (ha : a.IsInteger w m)
    (hb : b.IsInteger w' n) (h : binary legend op.toBinaryOp a b = .ok r) :
    ¬op.Fails (w.join w') m n ∧ r.IsInteger (w.join w') (op.value m n) := by
  rcases binary_cases legend op ha hb with ⟨-, fault, failed⟩ | ⟨exact, r', hr, done⟩
  · rw [failed] at h
    cases h
  · rw [done] at h
    exact ⟨exact, Except.ok.inj h ▸ hr⟩

/-- The negation of an integer takes place at its width. -/
theorem negate_of_isInteger (ha : a.IsInteger w m) :
    unary .negate a = negated id (w.value? (-m)) := by
  cases ha with
  | int r => cases h : Number.int32? (-r.toInt) <;> simp [unary, negated, Width.value?, h]
  | long r => cases h : Number.int64? (-r.toInt) <;> simp [unary, negated, Width.value?, h]

/-- Only the least number of a width has no negation there. -/
theorem holds_neg_iff (holds : w.Holds m) : w.Holds (-m) ↔ m ≠ w.least := by
  obtain ⟨low, high⟩ := holds
  unfold Width.Holds
  cases w <;> simp only [Width.least, Width.greatest] at low high ⊢ <;> omega

/-- What holds of the integers `a` and `b` of two widths for the numbers `m` and `n`. -/
structure IntegerLaw (legend : Legend) (a b : Value) (w w' : Width) (m n : Int) : Prop where
  /-- An operation is an arithmetic error exactly if it divides by zero or its deciding number is no
  number of the wider width. -/
  fails_iff (op : Arithmetic) :
    (∃ fault, binary legend op.toBinaryOp a b = .error (.arithmetic fault)) ↔
      op.Fails (w.join w') m n
  /-- Otherwise its result is the exact number at that width. -/
  exact (op : Arithmetic) : ¬op.Fails (w.join w') m n →
    ∃ r, r.IsInteger (w.join w') (op.value m n) ∧ binary legend op.toBinaryOp a b = .ok r
  /-- With an operand replaced by the equal wide one, a result has the same number. -/
  widened (op : Arithmetic) {a' b' r : Value} {k : Int} : (a' = a ∨ a'.IsInteger .wide m) →
    (b' = b ∨ b'.IsInteger .wide n) → binary legend op.toBinaryOp a b = .ok r →
    r.IsInteger (w.join w') k →
      ∃ r' v, r'.IsInteger v k ∧ binary legend op.toBinaryOp a' b' = .ok r'
  /-- Negation fails on the least number of a width, -/
  negation_fails_iff :
    (∃ fault, unary .negate a = .error (.arithmetic fault)) ↔ m = w.least
  /-- and is exact otherwise. -/
  negation_exact : m ≠ w.least → ∃ r, r.IsInteger w (-m) ∧ unary .negate a = .ok r
  /-- A quotient and a remainder make up the dividend again, without overflow, and the remainder is
  smaller than the divisor and zero or of the dividend's sign. -/
  divided {q r : Value} : binary legend .divide a b = .ok q → binary legend .remainder a b = .ok r →
    ∃ p s k, binary legend .multiply q b = .ok p ∧ binary legend .add p r = .ok s ∧
      binary legend .equal s a = .ok (.bool true) ∧ r.IsInteger (w.join w') k ∧
      k.natAbs < n.natAbs ∧ (k = 0 ∨ k.sign = m.sign)

/-- Widening operands keeps results. -/
theorem binary_widened {legend : Legend} {op : Arithmetic} {a' b' r : Value} {k : Int}
    (ha : a.IsInteger w m) (hb : b.IsInteger w' n) (left : a' = a ∨ a'.IsInteger .wide m)
    (right : b' = b ∨ b'.IsInteger .wide n) (h : binary legend op.toBinaryOp a b = .ok r)
    (hr : r.IsInteger (w.join w') k) :
    ∃ r' v, r'.IsInteger v k ∧ binary legend op.toBinaryOp a' b' = .ok r' := by
  obtain ⟨exact, hr'⟩ := binary_eq_ok op ha hb h
  obtain ⟨-, rfl⟩ := hr'.unique hr
  have fits : (w.join w').Holds (op.deciding m n) :=
    Decidable.not_not.mp fun outside => exact (.inr outside)
  have wide : Width.wide.Holds (op.deciding m n) := by
    simpa using fits.join_left .wide
  have nonzero : ¬(op.divides = true ∧ n = 0) := fun zero => exact (.inl zero)
  -- the wider width of the replaced operands is the old one or the wide one
  have replaced : ∃ v v', a'.IsInteger v m ∧ b'.IsInteger v' n ∧
      (v.join v').Holds (op.deciding m n) := by
    rcases left with rfl | ha' <;> rcases right with rfl | hb'
    · exact ⟨w, w', ha, hb, fits⟩
    · exact ⟨w, .wide, ha, hb', by simpa using wide⟩
    · exact ⟨.wide, w', ha', hb, by cases w' <;> exact wide⟩
    · exact ⟨.wide, .wide, ha', hb', wide⟩
  obtain ⟨v, v', ha', hb', fits'⟩ := replaced
  rcases binary_cases legend op ha' hb' with ⟨zero | outside, -⟩ | ⟨-, r', hr'', done⟩
  · exact absurd zero nonzero
  · exact absurd fits' outside
  · exact ⟨r', _, hr'', done⟩

/-- A quotient times the divisor, plus the remainder, is the dividend. -/
theorem binary_divided {legend : Legend} {q r : Value} (ha : a.IsInteger w m)
    (hb : b.IsInteger w' n) (quotient : binary legend .divide a b = .ok q)
    (rest : binary legend .remainder a b = .ok r) :
    ∃ p s k, binary legend .multiply q b = .ok p ∧ binary legend .add p r = .ok s ∧
      binary legend .equal s a = .ok (.bool true) ∧ r.IsInteger (w.join w') k ∧
      k.natAbs < n.natAbs ∧ (k = 0 ∨ k.sign = m.sign) := by
  obtain ⟨exact, hq⟩ := binary_eq_ok .divide ha hb quotient
  obtain ⟨-, hr⟩ := binary_eq_ok .remainder ha hb rest
  have nonzero : n ≠ 0 := fun zero => exact (.inl ⟨rfl, zero⟩)
  have holds : (w.join w').Holds m := ha.holds.join_left w'
  obtain ⟨above, below⟩ := Arithmetic.tmod_between m n
  have whole : m.tdiv n * n + m.tmod n = m := by
    rw [Int.mul_comm]
    exact Int.mul_tdiv_add_tmod m n
  -- the product lies between zero and the dividend as well
  have product : (w.join w').Holds (m.tdiv n * n) :=
    holds.of_between (fun positive => by have := above positive; omega)
      (fun negative => by have := below negative; omega)
  obtain ⟨p, hp, times⟩ : ∃ p, p.IsInteger (w.join w') (m.tdiv n * n) ∧
      binary legend .multiply q b = .ok p := by
    have := binary_cases legend .multiply hq hb
    rw [Width.join_join] at this
    rcases this with ⟨⟨zero, -⟩ | outside, -⟩ | ⟨-, p, hp, times⟩
    · cases zero
    · exact absurd product outside
    · exact ⟨p, hp, times⟩
  obtain ⟨s, hs, plus⟩ : ∃ s, s.IsInteger (w.join w') m ∧ binary legend .add p r = .ok s := by
    have := binary_cases legend .add hp hr
    rw [Width.join_self] at this
    rcases this with ⟨⟨zero, -⟩ | outside, -⟩ | ⟨-, s, hs, plus⟩
    · cases zero
    · refine absurd ?_ outside
      show (w.join w').Holds (m.tdiv n * n + m.tmod n)
      rw [whole]
      exact holds
    · exact ⟨s, whole ▸ hs, plus⟩
  refine ⟨p, s, _, times, plus, ?_, hr, ?_, ?_⟩
  · rw [binary, (hs.eql_iff ha).mpr rfl]
  · show (m.tmod n).natAbs < n.natAbs
    rw [Int.natAbs_tmod]
    exact Nat.mod_lt _ (by omega)
  · exact Arithmetic.sign_tmod m n

end Value

/-- **Integer arithmetic.** Operations on integers take place at the width of the wider operand and
are exact there or fail, and so is negation. A wider operand changes no number that comes out, and
from a quotient and a remainder the dividend comes out again. -/
theorem integers_exact_or_fail (legend : Legend) {a b : Value} {w w' : Width} {m n : Int}
    (ha : a.IsInteger w m) (hb : b.IsInteger w' n) : Value.IntegerLaw legend a b w w' m n where
  fails_iff op := by
    rcases Value.binary_cases legend op ha hb with ⟨fails, fault, h⟩ | ⟨exact, r, -, h⟩
    · exact iff_of_true ⟨fault, h⟩ fails
    · refine iff_of_false ?_ exact
      rintro ⟨fault, failed⟩
      rw [h] at failed
      cases failed
  exact op exact := by
    rcases Value.binary_cases legend op ha hb with ⟨fails, -⟩ | ⟨-, done⟩
    · exact absurd fails exact
    · exact done
  widened _ _ _ _ _ left right h hr := Value.binary_widened ha hb left right h hr
  negation_fails_iff := by
    rw [Value.negate_of_isInteger ha]
    by_cases least : m = w.least
    · rw [Width.value?_eq_none fun fits => (Value.holds_neg_iff ha.holds).mp fits least]
      exact iff_of_true ⟨_, rfl⟩ least
    · obtain ⟨r, hr⟩ := Width.holds_iff_exists.mp ((Value.holds_neg_iff ha.holds).mpr least)
      rw [Width.value?_eq_some_iff.mpr hr]
      exact iff_of_false nofun least
  negation_exact least := by
    obtain ⟨r, hr⟩ := Width.holds_iff_exists.mp ((Value.holds_neg_iff ha.holds).mpr least)
    exact ⟨r, hr, by rw [Value.negate_of_isInteger ha, Width.value?_eq_some_iff.mpr hr]; rfl⟩
  divided quotient rest := Value.binary_divided ha hb quotient rest

/-- The least narrow integer has neither a quotient nor a remainder by a narrow minus one, but it
has both by a wide one. -/
theorem integers_exact_or_fail_least :
    let legend : Legend := fun _ _ => ""
    let least : Value := .int (-2147483648)
    let narrow : Value := .int (-1)
    let wide : Value := .long (-1)
    (least.IsInteger .narrow (-2147483648) ∧ narrow.IsInteger .narrow (-1) ∧
        wide.IsInteger .wide (-1)) ∧
      Value.IntegerLaw legend least narrow .narrow .narrow (-2147483648) (-1) ∧
      Value.IntegerLaw legend least wide .narrow .wide (-2147483648) (-1) ∧
      (∃ fault, Value.binary legend .divide least narrow = .error (.arithmetic fault)) ∧
      (∃ fault, Value.binary legend .remainder least narrow = .error (.arithmetic fault)) ∧
      Value.binary legend .divide least wide = .ok (.long 2147483648) ∧
      Value.binary legend .remainder least wide = .ok (.long 0) := by
  intro legend least narrow wide
  have hleast : least.IsInteger .narrow (-2147483648) := .int (-2147483648)
  have hnarrow : narrow.IsInteger .narrow (-1) := .int (-1)
  have hwide : wide.IsInteger .wide (-1) := .long (-1)
  have law := integers_exact_or_fail legend hleast hnarrow
  exact ⟨⟨hleast, hnarrow, hwide⟩, law, integers_exact_or_fail legend hleast hwide,
    (law.fails_iff .divide).mpr (.inr (by decide)),
    (law.fails_iff .remainder).mpr (.inr (by decide)), rfl, rfl⟩

end ScriptConsole
