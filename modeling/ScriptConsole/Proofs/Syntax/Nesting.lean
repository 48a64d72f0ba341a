import ScriptConsole.Proofs.Syntax.Written

/-!
# Levels of Nesting

A tree occupies levels of nesting. An expression that is **entered** at a level occupies the next
one, and what stands inside its innermost primary is entered there. The links of an expression —
the operators, calls and members on its left spine, from the inside out — occupy one level each
beyond that, and what stands to the right of a link is entered at the level of the link. Levels
are given back where an expression ends, so neighbours do not add up: the links of one expression
do.

`Expr.levels` lists the levels that a tree occupies when it is entered at a given one. How many
levels it takes is its **height**, and the two say the same (`Expr.levels_le_iff`): the reader of
expressions, which counts the levels left, goes by the height.

## Main results

* `Expr.levels_le_iff`: no level beyond `most` is occupied exactly if the height fits between the
  level of entry and `most`.
* `Expr.linkCount_lt_height`: the links of an expression have their levels inside its height.
-/

namespace ScriptConsole

namespace Expr

/-- The number of links on the left spine of an expression. -/
def linkCount : Expr → Nat
  | call callee _ _ => callee.linkCount + 1
  | member target _ _ => target.linkCount + 1
  | binary left _ _ _ => left.linkCount + 1
  | _ => 0

mutual

/-- The levels that an expression occupies when it is entered at a level. An assignment occupies
those of its value. -/
def levels : Expr → (entered : Nat) → List Nat
  | literal _ _, entered => [entered + 1]
  | var _, entered => [entered + 1]
  | hostPath _ _, entered => [entered + 1]
  | assign _ value _, entered => value.levels entered
  | func _ body _, entered => (entered + 1) :: levelsEach body (entered + 1)
  | unary _ operand _, entered => (entered + 1) :: operand.levels (entered + 1)
  | paren inner _, entered => (entered + 1) :: inner.levels (entered + 1)
  | call callee args _, entered =>
    let link := entered + 1 + (callee.linkCount + 1)
    callee.levels entered ++ link :: levelsEach args link
  | member target _ _, entered =>
    let link := entered + 1 + (target.linkCount + 1)
    target.levels entered ++ [link]
  | binary left _ right _, entered =>
    let link := entered + 1 + (left.linkCount + 1)
    left.levels entered ++ link :: right.levels link

/-- The levels that expressions occupy which are entered at the same level, one after the other. -/
def levelsEach : List Expr → (entered : Nat) → List Nat
  | [], _ => []
  | e :: rest, entered => e.levels entered ++ levelsEach rest entered

end

mutual

/-- How many levels an expression takes. -/
def height : Expr → Nat
  | literal _ _ => 1
  | var _ => 1
  | hostPath _ _ => 1
  | assign _ value _ => value.height
  | func _ body _ => heightEach body + 1
  | unary _ operand _ => operand.height + 1
  | paren inner _ => inner.height + 1
  | call callee args _ => max callee.height (callee.linkCount + 2 + heightEach args)
  | member target _ _ => max target.height (target.linkCount + 2)
  | binary left _ right _ => max left.height (left.linkCount + 2 + right.height)

/-- How many levels expressions take, one after the other. -/
def heightEach : List Expr → Nat
  | [] => 0
  | e :: rest => max e.height (heightEach rest)

end

theorem heightEach_le_iff {es : List Expr} {n : Nat} :
    heightEach es ≤ n ↔ ∀ e ∈ es, e.height ≤ n := by
  induction es with
  | nil => simp [heightEach]
  | cons e rest ih => rw [heightEach, Nat.max_le, ih, List.forall_mem_cons]

theorem linkCount_lt_height : (e : Expr) → e.linkCount < e.height
  | literal _ _ => by simp [linkCount, height]
  | var _ => by simp [linkCount, height]
  | hostPath _ _ => by simp [linkCount, height]
  | assign _ value _ => by
      have := value.linkCount_lt_height
      simp only [linkCount, height]
      omega
  | func _ _ _ => by simp [linkCount, height]
  | unary _ _ _ => by simp [linkCount, height]
  | paren _ _ => by simp [linkCount, height]
  | call _ _ _ => by simp only [linkCount, height]; omega
  | member _ _ _ => by simp only [linkCount, height]; omega
  | binary _ _ _ _ => by simp only [linkCount, height]; omega

theorem height_content (e : Expr) : e.content.height = e.height := by
  cases e <;> simp [content, height]

mutual

/-- An expression occupies no level beyond `most` exactly if its height fits in between. -/
theorem levels_le_iff (most : Nat) : (e : Expr) → (entered : Nat) →
    ((∀ n ∈ e.levels entered, n ≤ most) ↔ entered + e.height ≤ most)
  | literal _ _, _ => by simp [levels, height]
  | var _, _ => by simp [levels, height]
  | hostPath _ _, _ => by simp [levels, height]
  | assign _ value _, entered => by simpa [levels, height] using levels_le_iff most value entered
  | func _ body _, entered => by
      have ih := levelsEach_le_iff most body (entered + 1)
      simp only [levels, height, List.mem_cons, forall_eq_or_imp]
      constructor
      · -- the body has a bound only where the level of the function is within it
        rintro ⟨here, inside⟩
        have := (ih here).mp inside
        omega
      · intro h
        exact ⟨by omega, (ih (by omega)).mpr (by omega)⟩
  | unary _ operand _, entered => by
      have ih := levels_le_iff most operand (entered + 1)
      have := operand.linkCount_lt_height
      simp only [levels, height, List.mem_cons, forall_eq_or_imp, ih]
      omega
  | paren inner _, entered => by
      have ih := levels_le_iff most inner (entered + 1)
      have := inner.linkCount_lt_height
      simp only [levels, height, List.mem_cons, forall_eq_or_imp, ih]
      omega
  | call callee args _, entered => by
      have ih := levels_le_iff most callee entered
      have ihArgs := levelsEach_le_iff most args (entered + 1 + (callee.linkCount + 1))
      simp only [levels, height, List.mem_append, List.mem_cons, or_imp, forall_and, forall_eq, ih]
      constructor
      · rintro ⟨front, link, inside⟩
        have := (ihArgs link).mp inside
        omega
      · intro h
        exact ⟨by omega, by omega, (ihArgs (by omega)).mpr (by omega)⟩
  | member target _ _, entered => by
      have ih := levels_le_iff most target entered
      simp only [levels, height, List.mem_append, List.mem_singleton, or_imp, forall_and, forall_eq,
        ih]
      omega
  | binary left _ right _, entered => by
      have ih := levels_le_iff most left entered
      have ihRight := levels_le_iff most right (entered + 1 + (left.linkCount + 1))
      have := right.linkCount_lt_height
      simp only [levels, height, List.mem_append, List.mem_cons, or_imp, forall_and, forall_eq, ih,
        ihRight]
      omega

/-- The same for expressions one after the other, whose level of entry has to exist. -/
theorem levelsEach_le_iff (most : Nat) : (es : List Expr) → (entered : Nat) → entered ≤ most →
    ((∀ n ∈ levelsEach es entered, n ≤ most) ↔ entered + heightEach es ≤ most)
  | [], _, h => by simp [levelsEach, heightEach, h]
  | e :: rest, entered, h => by
      have ih := levels_le_iff most e entered
      have ihRest := levelsEach_le_iff most rest entered h
      simp only [levelsEach, heightEach, List.mem_append, or_imp, forall_and, ih, ihRest]
      omega

end

end Expr

/-- The levels that a program occupies: its statements are entered at level zero. -/
def Program.levels (p : Program) : List Nat := Expr.levelsEach p.statements 0

/-- A program keeps within a limit exactly if each of its statements is low enough. -/
theorem Program.levels_le_iff {p : Program} {most : Nat} :
    (∀ n ∈ p.levels, n ≤ most) ↔ ∀ e ∈ p.statements, e.height ≤ most := by
  rw [levels, Expr.levelsEach_le_iff _ _ _ (Nat.zero_le _), Nat.zero_add, Expr.heightEach_le_iff]

end ScriptConsole
