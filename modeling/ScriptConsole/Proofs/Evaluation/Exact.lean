import ScriptConsole.Proofs.Evaluation.Simple

/-!
# Integers Within Their Width

The integers of the language are numbers of 32 and 64 bits, and the model computes on `Int`. Here is
what that leaves open: every result is the exact one and a number of its width, or there is an error
instead; nothing is divided by zero; and where an index or a range is computed on 64-bit integers
step by step, no step overflows, and the outcome is that on `Int`.

## Main results

* `Arithmetic.sound_checked`, `Value.arithmetic_int`, `Value.arithmetic_long`: arithmetic.
* `Value.negate_int`, `Value.negate_long`: negation.
* `Plain.pick?_eq`, `Plain.element_cases`: indices.
* `Plain.upTo?_eq`, `Plain.range_law`: ranges.
-/

namespace ScriptConsole

/-! ### Arithmetic -/

namespace Arithmetic

/-- The operators that divide. -/
def divides : Arithmetic → Bool
  | divide | remainder => true
  | _ => false

/-- The result on numbers, where nothing is divided by zero. -/
def value : Arithmetic → Int → Int → Int
  | add, m, n => m + n
  | subtract, m, n => m - n
  | multiply, m, n => m * n
  | divide, m, n => m.tdiv n
  | remainder, m, n => m.tmod n

/-- The error of a division by zero. -/
def zeroFault : Arithmetic → ArithmeticFault
  | remainder => .remainderByZero
  | _ => .divisionByZero

/-- What an operation on integers of some width comes to: the exact result, if there is one of that
width; or an error, if it would divide by zero or overflow. -/
inductive Sound {ω : Type} (toInt : ω → Int) (op : Arithmetic) (m n : Int) :
    Except ArithmeticFault ω → Prop
  | exact {r : ω} : (op.divides = true → n ≠ 0) → toInt r = op.value m n →
      Sound toInt op m n (.ok r)
  | byZero : op.divides = true → n = 0 → Sound toInt op m n (.error op.zeroFault)
  | overflow : (op.divides = true → n ≠ 0) →
      (∀ q : ω, toInt q ≠ op.decisive m n (op.value m n)) ∨ (∀ r : ω, toInt r ≠ op.value m n) →
      Sound toInt op m n (.error (.overflow op.toBinaryOp.symbol))

/-- An operation divides by zero, or has its mathematical value. -/
theorem exact_cases (op : Arithmetic) (m n : Int) :
    (op.divides = true ∧ n = 0 ∧ op.exact m n = .error op.zeroFault) ∨
      ((op.divides = true → n ≠ 0) ∧ op.exact m n = .ok (op.value m n)) := by
  cases op with
  | add | subtract | multiply => exact .inr ⟨nofun, rfl⟩
  | divide | remainder =>
      by_cases zero : n = 0
      · exact .inl ⟨rfl, zero, if_pos zero⟩
      · exact .inr ⟨fun _ => zero, if_neg zero⟩

/-- Operations at a fixed width are exact or fail. -/
theorem sound_checked {ω : Type} {toInt : ω → Int} {fit : Int → Option ω}
    (fits : ∀ {k : Int} {r : ω}, fit k = some r ↔ toInt r = k) (op : Arithmetic) (m n : Int) :
    Sound toInt op m n (op.checked fit m n) := by
  have unfit : ∀ {k : Int}, fit k = none → ∀ r, toInt r ≠ k := fun none r same => by
    rw [fits.mpr same] at none
    cases none
  unfold checked
  rcases op.exact_cases m n with ⟨divides, zero, h⟩ | ⟨nonzero, h⟩
  · rw [h]
    exact .byZero divides zero
  · rw [h]
    dsimp only
    cases decisive : fit (op.decisive m n (op.value m n)) with
    | none => exact .overflow nonzero (.inl (unfit decisive))
    | some q =>
        cases result : fit (op.value m n) with
        | none => exact .overflow nonzero (.inr (unfit result))
        | some r => exact .exact nonzero (fits.mp result)

end Arithmetic

namespace Value

/-- Narrow integers are computed exactly or not at all. -/
theorem arithmetic_int (op : Arithmetic) (m n : Int32) :
    ∃ r, op.Sound Int32.toInt m.toInt n.toInt r ∧
      arithmetic op (.int m) (.int n) = (r.map int).mapError .arithmetic :=
  ⟨_, Arithmetic.sound_checked Number.int32?_eq_some_iff op _ _, rfl⟩

/-- Integers one of which is wide. -/
theorem arithmetic_long (op : Arithmetic) {a b : Value} {m n : Int64} (ha : a.toInt64? = some m)
    (hb : b.toInt64? = some n) (wide : ¬(a.kind = .int ∧ b.kind = .int)) :
    ∃ r, op.Sound Int64.toInt m.toInt n.toInt r ∧
      arithmetic op a b = (r.map long).mapError .arithmetic := by
  refine ⟨_, Arithmetic.sound_checked Number.int64?_eq_some_iff op _ _, ?_⟩
  unfold arithmetic
  split
  · exact absurd ⟨rfl, rfl⟩ wide
  · rw [ha, hb]

/-- A negation is exact, or there is no number for its result. -/
theorem negate_int (n : Int32) :
    (∃ r : Int32, r.toInt = -n.toInt ∧ unary .negate (.int n) = .ok (.int r)) ∨
      (∀ r : Int32, r.toInt ≠ -n.toInt) ∧
        unary .negate (.int n) = .error (.arithmetic (.overflow "-")) := by
  cases h : Number.int32? (-n.toInt) with
  | some r => exact .inl ⟨r, Number.int32?_eq_some_iff.mp h, by rw [unary, h]; rfl⟩
  | none =>
      refine .inr ⟨fun r same => ?_, by rw [unary, h]; rfl⟩
      rw [Number.int32?_eq_some_iff.mpr same] at h
      cases h

/-- The negative of a wide integer is exact, or there is none. -/
theorem negate_long (n : Int64) :
    (∃ r : Int64, r.toInt = -n.toInt ∧ unary .negate (.long n) = .ok (.long r)) ∨
      (∀ r : Int64, r.toInt ≠ -n.toInt) ∧
        unary .negate (.long n) = .error (.arithmetic (.overflow "-")) := by
  cases h : Number.int64? (-n.toInt) with
  | some r => exact .inl ⟨r, Number.int64?_eq_some_iff.mp h, by rw [unary, h]; rfl⟩
  | none =>
      refine .inr ⟨fun r same => ?_, by rw [unary, h]; rfl⟩
      rw [Number.int64?_eq_some_iff.mpr same] at h
      cases h

end Value

/-! ### Indices -/

namespace Number

/-- The sum of two 64-bit integers, unless it overflows. -/
def add64? (a b : Int64) : Option Int64 := int64? (a.toInt + b.toInt)

/-- A number within the bounds of 64 bits is a 64-bit integer. -/
theorem exists_int64 {n : Int} (low : -9223372036854775808 ≤ n) (high : n ≤ 9223372036854775807) :
    ∃ m : Int64, int64? n = some m ∧ m.toInt = n := by
  have some : int64? n = .some (Int64.ofInt n) := if_pos ⟨low, high⟩
  exact ⟨_, some, int64?_eq_some_iff.mp some⟩

end Number

namespace Plain

/-- The place of a number in a sequence of the given length. -/
def within (length : Nat) (i : Int64) : Option Nat :=
  if 0 ≤ i.toInt ∧ i.toInt < length then some i.toInt.toNat else none

/-- The place that an index denotes, in steps on 64-bit integers; `none` if a step overflows. -/
def pick? (length : Nat) (index : Int64) : Option (Option Nat) :=
  if index < 0 then do
    let n ← Number.int64? length
    let i ← Number.add64? n index
    some (within length i)
  else some (within length index)

/-- No step overflows, for any index into a sequence that a machine can hold. -/
theorem pick?_eq {length : Nat} (small : length < 9223372036854775808) (index : Int64) :
    pick? length index = some (place? length index) := by
  unfold pick? place?
  have low := Int64.le_toInt index
  by_cases negative : index < 0
  · have below : index.toInt < 0 := Int64.lt_iff_toInt_lt.mp negative
    obtain ⟨n, hn, same⟩ := Number.exists_int64 (n := length) (by omega) (by omega)
    obtain ⟨i, hi, sum⟩ := Number.exists_int64 (n := n.toInt + index.toInt) (by omega) (by omega)
    rw [if_pos negative, if_pos negative, hn]
    show (Number.int64? (n.toInt + index.toInt)).bind _ = _
    rw [hi, ← same, ← sum]
    show some (within length i) = _
    rw [within, ← same]
  · rw [if_neg negative, if_neg negative]
    rfl

/-- The place that an index denotes is within bounds. -/
theorem lt_of_place? {length i : Nat} {index : Int64} (h : place? length index = some i) :
    i < length := by
  obtain ⟨range, same⟩ := Option.ite_none_right_eq_some.mp h
  rw [← Option.some.inj same]
  omega

/-- The element at an index is that at the place which the index denotes; an index that denotes no
place is an error. -/
theorem element_cases (items : List Value) (index : Int64) :
    (∃ i, ∃ bound : i < items.length, place? items.length index = some i ∧
      element items index = pure items[i]) ∨
    (place? items.length index = none ∧
      element items index = .fault (.type (.indexRange index items.length))) := by
  unfold element
  cases place : place? items.length index with
  | none => exact .inr ⟨rfl, rfl⟩
  | some i =>
      have bound := lt_of_place? place
      refine .inl ⟨i, bound, rfl, ?_⟩
      rw [Option.bind_some, List.getElem?_eq_getElem bound]

/-! ### Ranges -/

/-- The numbers from `n` up to `last`, as a loop on 64-bit integers makes them that takes so many
steps at most; none if a step overflows. -/
def upTo? (last : Int64) : (steps : Nat) → Int64 → Option (List Int64)
  | 0, n => some [n]
  | steps + 1, n =>
    if n < last then do
      let next ← Number.add64? n 1
      let rest ← upTo? last steps next
      some (n :: rest)
    else some [n]

/-- The loop from one bound to another makes all numbers between them, and no step overflows. -/
theorem upTo?_eq {low high : Int64} {steps : Nat} (h : high.toInt = low.toInt + steps) :
    ∃ numbers, upTo? high steps low = some numbers ∧
      numbers.map Int64.toInt = (List.range (steps + 1)).map fun i : Nat => low.toInt + i := by
  induction steps generalizing low with
  | zero => exact ⟨[low], rfl, by simp⟩
  | succ steps ih =>
      have less : low < high := Int64.lt_iff_toInt_lt.mpr (by omega)
      have below := Int64.toInt_lt high
      have above := Int64.le_toInt low
      obtain ⟨next, hnext, same⟩ := Number.exists_int64 (n := low.toInt + 1) (by omega) (by omega)
      have left : high.toInt = next.toInt + steps := by omega
      obtain ⟨rest, hrest, values⟩ := ih left
      refine ⟨low :: rest, ?_, ?_⟩
      · rw [upTo?, if_pos less]
        show (Number.int64? (low.toInt + 1)).bind _ = _
        rw [hnext]
        show (upTo? high steps next).bind _ = _
        rw [hrest]
        rfl
      · rw [List.map_cons, values, List.range_succ_eq_map (n := steps + 1), List.map_cons,
          List.map_map, Int.natCast_zero, Int.add_zero]
        refine congrArg (_ :: ·) (List.map_congr_left fun i _ => ?_)
        show next.toInt + i = low.toInt + (i + 1 : Nat)
        omega

/-- A number held within the bounds of 64 bits is a 64-bit integer. -/
theorem exists_saturate (n : Int) : ∃ m : Int64, m.toInt = saturate n := by
  obtain ⟨m, -, same⟩ := Number.exists_int64 (n := saturate n) (by unfold saturate; omega)
    (by unfold saturate; omega)
  exact ⟨m, same⟩

/-- The items of a range are numbers of their widths: a range of narrow bounds has narrow items. -/
theorem toInt64?_rangeItems {narrow : Bool} {low high : Int}
    (wide : -9223372036854775808 ≤ low ∧ high ≤ 9223372036854775807)
    (small : narrow = true → -2147483648 ≤ low ∧ high ≤ 2147483647) :
    (rangeItems narrow low high).map (fun v => v.toInt64?.map Int64.toInt) =
      (List.range (high - low + 1).toNat).map fun i : Nat => some (low + i) := by
  rw [rangeItems, List.map_map]
  refine List.map_congr_left fun i mem => ?_
  have le : (i : Int) < high - low + 1 := by
    have lt := List.mem_range.mp mem
    omega
  cases narrow with
  | false =>
      show some (Int64.toInt (Int64.ofInt (low + i))) = _
      rw [Int64.toInt_ofInt_of_le (by omega) (by omega)]
  | true =>
      obtain ⟨lower, upper⟩ := small rfl
      show some (Int64.toInt (Int32.toInt64 (Int32.ofInt (low + i)))) = _
      rw [Int32.toInt_toInt64, Int32.toInt_ofInt_of_le (by omega) (by omega)]

/-- What `Range` comes to, for any bounds. -/
structure RangeLaw (a b : Value) (low high : Int64) : Prop where
  /-- The number of elements is held within 64 bits, and beyond the limit exactly if it is so
  without bounds. -/
  counted : low ≤ high → (∃ count : Int64,
      count.toInt = saturate (saturate (high.toInt - low.toInt) + 1)) ∧
    (rangeLimit < saturate (saturate (high.toInt - low.toInt) + 1) ↔
      rangeLimit < high.toInt - low.toInt + 1)
  /-- The loop from one bound to the other takes no step that overflows. -/
  looped : low ≤ high → ∃ numbers, upTo? high (high.toInt - low.toInt).toNat low = some numbers ∧
    (rangeItems (isInt a && isInt b) low.toInt high.toInt).map Value.toInt64? = numbers.map some
  /-- The result is the list of the elements, unless there are too many or none. -/
  result : ∀ m, range a b m =
    if high < low then newList [] m
    else if rangeLimit < high.toInt - low.toInt + 1 then
      (.error (.fault (.type (.rangeLimit
        (saturate (saturate (high.toInt - low.toInt) + 1)) rangeLimit))), m)
    else newList (rangeItems (isInt a && isInt b) low.toInt high.toInt) m

/-- Saturation does not hide that a range is too long. -/
theorem rangeLimit_lt_saturate_iff (n : Int) :
    rangeLimit < saturate (saturate n + 1) ↔ rangeLimit < n + 1 := by
  unfold saturate rangeLimit
  omega

/-- A narrow integer is in the range of 32 bits. -/
theorem toInt64?_of_isInt {v : Value} {n : Int64} (h : v.toInt64? = some n)
    (narrow : isInt v = true) : -2147483648 ≤ n.toInt ∧ n.toInt ≤ 2147483647 := by
  cases v with
  | int k =>
      obtain rfl := Option.some.inj h
      have low := Int32.le_toInt k
      have high := Int32.toInt_lt k
      rw [Int32.toInt_toInt64]
      omega
  | _ => cases narrow

/-- A range has all numbers between its bounds, or is refused. -/
theorem range_law {a b : Value} {low high : Int64} (ha : a.toInt64? = some low)
    (hb : b.toInt64? = some high) : RangeLaw a b low high where
  counted _ := ⟨exists_saturate _, rangeLimit_lt_saturate_iff _⟩
  looped le := by
    have le := Int64.le_iff_toInt_le.mp le
    have steps : high.toInt = low.toInt + ((high.toInt - low.toInt).toNat : Nat) := by omega
    obtain ⟨numbers, loop, values⟩ := upTo?_eq steps
    refine ⟨numbers, loop, ?_⟩
    have small : (isInt a && isInt b) = true →
        -2147483648 ≤ low.toInt ∧ high.toInt ≤ 2147483647 := fun narrow => by
      obtain ⟨first, second⟩ := Bool.and_eq_true_iff.mp narrow
      exact ⟨(toInt64?_of_isInt ha first).1, (toInt64?_of_isInt hb second).2⟩
    have below := Int64.toInt_lt high
    have items := toInt64?_rangeItems ⟨Int64.le_toInt low, by omega⟩ small
    have length : (high.toInt - low.toInt + 1).toNat = (high.toInt - low.toInt).toNat + 1 := by
      omega
    rw [length] at items
    -- two lists of 64-bit numbers are compared by the exact numbers in them
    refine (List.map_inj_right (f := Option.map Int64.toInt) fun x y same => ?_).mp ?_
    · cases x <;> cases y
      · rfl
      · cases same
      · cases same
      · exact congrArg some (Int64.toInt_inj.mp (Option.some.inj same))
    · rw [List.map_map, List.map_map]
      have through := congrArg (List.map some) values
      rw [List.map_map, List.map_map] at through
      exact items.trans through.symm
  result m := by
    have first : integerArgument .range a m = (.ok low, m) := by
      rw [integerArgument, ha]
      rfl
    have second : integerArgument .range b m = (.ok high, m) := by
      rw [integerArgument, hb]
      rfl
    rw [range, Run.bind_ok first, Run.bind_ok second]
    split
    · rfl
    · dsimp only
      simp only [rangeLimit_lt_saturate_iff]
      split <;> rfl

end Plain

end ScriptConsole
