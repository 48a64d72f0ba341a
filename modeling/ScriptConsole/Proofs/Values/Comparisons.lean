import ScriptConsole.Proofs.Values.Doubles

/-!
# Comparisons and Equality

Two characters, two texts and two numbers can be compared, and nothing else. What they compare as is
an order (`Value.order?`), unless one of them is a NaN, and the equality of the language holds
between them exactly if that order is "equal". That is so although equality goes through the kinds
of values on its own: of two numbers, both take integers as such and all others as doubles.

## Main results

* `Value.order?_cases`: what can be compared, and as what.
* `Value.order?_swap`, `Value.eql_of_order?`: the order from the other side, and equality by it.
* `comparisons_agree`: **comparisons and equality** say the same, and are refused together.
-/

namespace ScriptConsole

namespace Value

variable {a b : Value}

/-! ### What can be compared -/

/-- An integer is compared with doubles as the nearest one. -/
theorem toFloat?_of_toInt64? {n : Int64} (h : a.toInt64? = some n) :
    a.toFloat? = some (Number.Binary64.ofInt n.toInt) := by
  cases a with
  | int m =>
      obtain rfl := Option.some.inj h
      rw [toFloat?, Int32.toInt_toInt64]
  | long m =>
      obtain rfl := Option.some.inj h
      rfl
  | _ => cases h

/-- Integers are ordered exactly. -/
theorem order?_of_integers {m n : Int64} (ha : a.toInt64? = some m) (hb : b.toInt64? = some n) :
    order? a b = some (some (compare m.toInt n.toInt)) := by
  unfold order?
  split
  · cases ha
  · cases ha
  · rw [ha, hb]

/-- Anything else that is numeric is ordered as doubles. -/
theorem order?_of_doubles {x y : Float} (mixed : a.toInt64? = none ∨ b.toInt64? = none)
    (ha : a.toFloat? = some x) (hb : b.toFloat? = some y) :
    order? a b = some (orderFloats x y) := by
  unfold order?
  split
  · cases ha
  · cases ha
  · split
    · next hm hn => rcases mixed with none | none <;> simp_all
    · rw [ha, hb]

/-- Two values are characters, texts, integers, numbers that are not both integers, or cannot be
compared. -/
theorem order?_cases (a b : Value) :
    (∃ c d, a = .char c ∧ b = .char d) ∨ (∃ s t, a = .text s ∧ b = .text t) ∨
      (∃ m n, a.toInt64? = some m ∧ b.toInt64? = some n) ∨
      (∃ x y, (a.toInt64? = none ∨ b.toInt64? = none) ∧ a.toFloat? = some x ∧
        b.toFloat? = some y) ∨
      order? a b = none := by
  unfold order?
  split
  · next c d => exact .inl ⟨c, d, rfl, rfl⟩
  · next s t => exact .inr (.inl ⟨s, t, rfl, rfl⟩)
  · split
    · next m n hm hn => exact .inr (.inr (.inl ⟨m, n, hm, hn⟩))
    · next mixed =>
      split
      · next x y hx hy =>
        refine .inr (.inr (.inr (.inl ⟨x, y, ?_, hx, hy⟩)))
        cases ha : a.toInt64? with
        | none => exact .inl rfl
        | some m =>
            cases hb : b.toInt64? with
            | none => exact .inr rfl
            | some n => exact absurd hb (mixed m n ha)
      · exact .inr (.inr (.inr (.inr rfl)))

/-- The order of two values that can be compared, from the other side. -/
theorem order?_swap_of_isSome (h : (order? a b).isSome = true) :
    order? b a = (order? a b).map (Option.map Ordering.swap) := by
  rcases order?_cases a b with ⟨c, d, rfl, rfl⟩ | ⟨s, t, rfl, rfl⟩ | ⟨m, n, ha, hb⟩ |
    ⟨x, y, mixed, ha, hb⟩ | none
  · exact congrArg (fun o => some (some o)) Std.OrientedCmp.eq_swap
  · exact congrArg (fun o => some (some o)) Std.OrientedCmp.eq_swap
  · rw [order?_of_integers ha hb, order?_of_integers hb ha]
    exact congrArg (fun o => some (some o)) Std.OrientedCmp.eq_swap
  · rw [order?_of_doubles mixed ha hb, order?_of_doubles mixed.symm hb ha, orderFloats_swap]
    rfl
  · rw [none] at h
    cases h

/-- The order of two values, from the other side. -/
theorem order?_swap (a b : Value) :
    order? b a = (order? a b).map (Option.map Ordering.swap) := by
  cases h : order? a b with
  | some o => exact h ▸ order?_swap_of_isSome (by rw [h]; rfl)
  | none =>
      cases h' : order? b a with
      | none => rfl
      | some o =>
          have other := order?_swap_of_isSome (a := b) (b := a) (by rw [h']; rfl)
          rw [h, h'] at other
          cases other

/-! ### Equality -/

/-- The equality of numbers. -/
theorem eql_of_numbers {x y : Float} (ha : a.toFloat? = some x) (hb : b.toFloat? = some y) :
    a.eql b = eqlNumber a b := by
  cases a with
  | int m | long m | float m =>
      cases b with
      | int n | long n | float n => simp [eql]
      | _ => cases hb
  | _ => cases ha

/-- Two values are equal exactly if they compare as equal. -/
theorem eql_of_order? {o : Ordering} (h : order? a b = some (some o)) :
    a.eql b = (o == .eq) := by
  rw [Bool.eq_iff_iff, beq_iff_eq]
  rcases order?_cases a b with ⟨c, d, rfl, rfl⟩ | ⟨s, t, rfl, rfl⟩ | ⟨m, n, ha, hb⟩ |
    ⟨x, y, mixed, ha, hb⟩ | none
  · obtain rfl : compare c d = o := Option.some.inj (Option.some.inj h)
    rw [eql, beq_iff_eq, Std.LawfulEqCmp.compare_eq_iff_eq]
  · obtain rfl : compare s t = o := Option.some.inj (Option.some.inj h)
    rw [eql, beq_iff_eq, Std.LawfulEqCmp.compare_eq_iff_eq]
  · rw [order?_of_integers ha hb] at h
    obtain rfl := Option.some.inj (Option.some.inj h)
    rw [eql_of_numbers (toFloat?_of_toInt64? ha) (toFloat?_of_toInt64? hb), eqlNumber, ha, hb]
    rw [beq_iff_eq, Std.LawfulEqCmp.compare_eq_iff_eq, Int64.toInt_inj]
  · rw [order?_of_doubles mixed ha hb] at h
    have order : orderFloats x y = some o := Option.some.inj h
    have equal : eqlNumber a b = (x == y) := by
      unfold eqlNumber
      split
      · next hm hn => rcases mixed with none | none <;> simp_all
      · rw [ha, hb]
    rw [eql_of_numbers ha hb, equal, beq_iff_orderFloats, order, Option.some.injEq]
  · rw [none] at h
    cases h

/-! ### Comparisons -/

/-- Whether a value is anything but a NaN. -/
def NotNaN (v : Value) : Prop := ∀ x, v = .float x → x.isNaN = false

/-- What is no NaN is none as a double. -/
theorem NotNaN.toFloat? {x : Float} (h : a.NotNaN) (ha : a.toFloat? = some x) :
    x.isNaN = false := by
  cases a with
  | int n | long n => exact Option.some.inj ha ▸ Number.Binary64.isNaN_ofInt _
  | float y => exact Option.some.inj ha ▸ h y rfl
  | _ => cases ha

/-- Values that can be compared are in some order, unless one is a NaN. -/
theorem exists_order (ha : a.NotNaN) (hb : b.NotNaN) (h : order? a b ≠ none) :
    ∃ o, order? a b = some (some o) := by
  rcases order?_cases a b with ⟨c, d, rfl, rfl⟩ | ⟨s, t, rfl, rfl⟩ | ⟨m, n, hm, hn⟩ |
    ⟨x, y, mixed, hx, hy⟩ | none
  · exact ⟨_, rfl⟩
  · exact ⟨_, rfl⟩
  · exact ⟨_, order?_of_integers hm hn⟩
  · obtain ⟨o, order⟩ :=
      Option.isSome_iff_exists.mp (isSome_orderFloats (ha.toFloat? hx) (hb.toFloat? hy))
    exact ⟨o, by rw [order?_of_doubles mixed hx hy, order]⟩
  · exact absurd none h

variable (legend : Legend)

/-- Whether a comparison is refused for the kinds of its operands. -/
def Refused (op : Comparison) (a b : Value) : Prop :=
  ∃ fault, binary legend op.toBinaryOp a b = .error (.type fault)

/-- What the comparisons and the equality of two values say if they are in some order. -/
structure Compared (a b : Value) (o : Ordering) : Prop where
  less : binary legend .less a b = .ok (.bool (o == .lt))
  equal : binary legend .equal a b = .ok (.bool (o == .eq))
  greater : binary legend .greater a b = .ok (.bool (o == .gt))
  lessEqual : binary legend .lessEqual a b = .ok (.bool (o == .lt || o == .eq))
  greaterEqual : binary legend .greaterEqual a b = .ok (.bool (o == .gt || o == .eq))
  notEqual : binary legend .notEqual a b = .ok (.bool (!(o == .eq)))

/-- A comparison is a binary operator. -/
theorem binary_comparison (op : Comparison) (a b : Value) :
    binary legend op.toBinaryOp a b = comparison op a b := by
  cases op <;> rfl

/-- A comparison is refused exactly if the operands cannot be compared. -/
theorem refused_iff {op : Comparison} : Refused legend op a b ↔ order? a b = none := by
  unfold Refused
  rw [binary_comparison, comparison]
  rcases order? a b with _ | _ | o
  · exact iff_of_true ⟨_, rfl⟩ rfl
  · refine iff_of_false (fun ⟨_, h⟩ => ?_) (Option.some_ne_none _)
    cases h
  · refine iff_of_false (fun ⟨_, h⟩ => ?_) (Option.some_ne_none _)
    cases h

/-- The order decides all comparisons. -/
theorem compared_of_order? {o : Ordering} (h : order? a b = some (some o)) :
    Compared legend a b o where
  less := by
    rw [binary, comparison, h]
    cases o <;> rfl
  equal := by rw [binary, eql_of_order? h]
  greater := by
    rw [binary, comparison, h]
    cases o <;> rfl
  lessEqual := by
    rw [binary, comparison, h]
    cases o <;> rfl
  greaterEqual := by
    rw [binary, comparison, h]
    cases o <;> rfl
  notEqual := by rw [binary, eql_of_order? h]

end Value

/-- **Comparisons and equality.** Two values on which `<` is not refused, and neither of which is a
NaN, are in one order: it says what all comparisons and equality come to, and its reverse says so
with the operands swapped. Comparisons are refused on the same pairs of values, in either order. -/
theorem comparisons_agree (legend : Legend) (a b : Value) :
    (∀ op op' : Comparison, (Value.Refused legend op a b ↔ Value.Refused legend op' a b) ∧
        (Value.Refused legend op a b ↔ Value.Refused legend op' b a)) ∧
      (¬Value.Refused legend .less a b → a.NotNaN → b.NotNaN →
        ∃ o, Value.Compared legend a b o ∧ Value.Compared legend b a o.swap) := by
  constructor
  · intro op op'
    refine ⟨(Value.refused_iff legend).trans (Value.refused_iff legend).symm, ?_⟩
    rw [Value.refused_iff, Value.refused_iff, Value.order?_swap a b, Option.map_eq_none_iff]
  · intro accepted ha hb
    have comparable : Value.order? a b ≠ none := fun none =>
      accepted ((Value.refused_iff legend).mpr none)
    obtain ⟨o, order⟩ := Value.exists_order ha hb comparable
    refine ⟨o, Value.compared_of_order? legend order, Value.compared_of_order? legend ?_⟩
    rw [Value.order?_swap a b, order]
    rfl

/-- A wide integer that is not a double, against the double next to it: they are compared as
doubles, and equal. -/
theorem comparisons_agree_rounded :
    let legend : Legend := fun _ _ => ""
    let wide : Value := .long 9007199254740993
    let double : Value := .float 9007199254740992
    ¬Value.Refused legend .less wide double ∧ wide.NotNaN ∧ double.NotNaN ∧
      (∃ o, Value.Compared legend wide double o ∧ Value.Compared legend double wide o.swap) ∧
      Value.binary legend .equal wide double = .ok (.bool true) := by
  intro legend wide double
  have order : Value.order? wide double = some (some .eq) := by decide +kernel
  have accepted : ¬Value.Refused legend .less wide double := by
    rw [Value.refused_iff, order]
    nofun
  have hwide : wide.NotNaN := nofun
  have hdouble : double.NotNaN := fun x hx => by
    obtain rfl : 9007199254740992 = x := Value.float.inj hx
    decide +kernel
  exact ⟨accepted, hwide, hdouble,
    (comparisons_agree legend wide double).2 accepted hwide hdouble,
    (Value.compared_of_order? legend order).equal⟩

end ScriptConsole
