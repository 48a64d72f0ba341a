import ScriptConsole.Proofs.Syntax.Nesting
import ScriptConsole.Proofs.Syntax.Soundness

/-!
# The Height of What Is Read

No reader of expressions makes a tree that is higher than the levels it was given, whatever its
input and whatever stands behind the input. The levels that a tree takes are counted while it is
read: an expression takes one for itself, its links take one each until it ends, and what stands
inside it is read with those that are left then.

The induction is on the levels left. For the loop over links it goes by what the links so far have
used up: the levels left and the links of the expression so far add up to the levels that the
expression started with, so that what stands to the right of the next link fits in as well.

## Main results

* `Parser.expression_height`: the height of an expression against the levels left for it.
* `Parser.program_height`: no statement of a program is higher than the limit of nesting.
-/

namespace ScriptConsole.Parser

variable {tail : Tail}

/-- Whether the expressions that a reader makes take at most `n` levels. -/
def StaysLow (n : Nat) (expression : TokenReader Expr) : Prop :=
  ∀ ⦃tokens : List Token⦄ ⦃r : Reading tokens Expr⦄, expression tokens = .ok r → r.value.height ≤ n

/-! ### Statements and function literals -/

section statements

variable {n : Nat} {expression : TokenReader Expr} {tokens : List Token}

/-- A statement is no higher than its expression. -/
theorem statement_height (low : StaysLow n expression) {r : Reading tokens Expr}
    (h : statement tail expression tokens = .ok r) : r.value.height ≤ n := by
  unfold statement at h
  split at h
  · cases h
  · exact low h
  split at h
  · cases h
  split at h
  · cases h
  split at h
  · cases h
  next value hvalue =>
  have inside := low hvalue
  cases h
  exact inside

/-- Neither is one with its semicolon. -/
theorem closedStatement_height (low : StaysLow n expression) {r : Reading tokens Expr}
    (h : closedStatement tail expression tokens = .ok r) : r.value.height ≤ n := by
  unfold closedStatement at h
  split at h
  · cases h
  next s hs =>
  have inside := statement_height low hs
  split at h <;> cases h
  exact inside

/-- Nor are those of a block. -/
theorem block_height (low : StaysLow n expression) {r : Reading tokens (List Expr × Token)}
    (h : block tail expression tokens = .ok r) : Expr.heightEach r.value.1 ≤ n := by
  fun_induction block tail expression tokens with
  | case1 | case3 | case4 => cases h
  | case2 tokens t ht brace =>
      obtain ⟨close, -, rfl⟩ := map_ok h
      exact Nat.zero_le n
  | case5 tokens t ht brace s hs more hmore ih =>
      have first := closedStatement_height low hs
      cases h
      exact Nat.max_le.mpr ⟨first, ih hmore⟩

/-- A function is one level higher than its body. -/
theorem function_height (low : StaysLow n expression) {r : Reading tokens Expr}
    (h : function tail expression tokens = .ok r) :
    r.value.height ≤ n + 1 ∧ r.value.linkCount = 0 := by
  unfold function at h
  split at h
  · cases h
  split at h
  · cases h
  split at h
  · cases h
  split at h
  · cases h
  next body hbody =>
  have inside := block_height low hbody
  cases h
  exact ⟨Nat.succ_le_succ inside, rfl⟩

/-- So is an expression in parentheses. -/
theorem parenthesised_height (low : StaysLow n expression) {r : Reading tokens Expr}
    (h : parenthesised tail expression tokens = .ok r) :
    r.value.height ≤ n + 1 ∧ r.value.linkCount = 0 := by
  unfold parenthesised at h
  split at h
  · cases h
  split at h
  · cases h
  next inner hinner =>
  have inside := low hinner
  split at h <;> cases h
  exact ⟨Nat.succ_le_succ inside, rfl⟩

/-- The statements of a program are no higher than their expressions. -/
theorem statements_height (low : StaysLow n expression) {body : List Expr} {last : Token}
    (h : statements tail expression tokens = .ok (body, last)) : Expr.heightEach body ≤ n := by
  fun_induction statements tail expression tokens generalizing body last with
  | case1 | case3 | case4 => cases h
  | case2 =>
      cases h
      exact Nat.zero_le n
  | case5 tokens t ht more s hs rest last' hrest ih =>
      have first := closedStatement_height low hs
      cases h
      exact Nat.max_le.mpr ⟨first, ih hrest⟩

end statements

/-! ### Primaries, links and expressions -/

section expressions

variable {n : Nat} {expression : Nat → TokenReader Expr}

/-- A primary takes one level more than what stands inside it, and it has no links. -/
theorem primary_height (low : ∀ least, StaysLow n (expression least)) {tokens : List Token}
    {r : Reading tokens Expr} (h : primary tail expression tokens = .ok r) :
    r.value.height ≤ n + 1 ∧ r.value.linkCount = 0 := by
  have leaf : 1 ≤ n + 1 := Nat.succ_le_succ (Nat.zero_le n)
  unfold primary at h
  split at h
  · exact absurd h refuse_ne_ok
  split at h
  · cases h
    exact ⟨leaf, rfl⟩
  · cases h
    exact ⟨leaf, rfl⟩
  · exact absurd h refuse_ne_ok
  split at h
  · split at h
    · cases h
    next operand hoperand =>
    have inside := low tightest hoperand
    cases h
    exact ⟨Nat.succ_le_succ inside, rfl⟩
  split at h
  · obtain ⟨names, span, hvalue, -⟩ := hostPath_ok h
    rw [hvalue]
    exact ⟨leaf, rfl⟩
  split at h
  · split at h
    · cases h
    · exact function_height (low 0) h
    · exact parenthesised_height (low 0) h
  · exact absurd h refuse_ne_ok

/-- A link takes one level, and what stands to its right those behind it. -/
theorem extend_height (takes : ∀ least, TakesExpressions least (expression least))
    (low : ∀ least, StaysLow n (expression least)) {link : Link} {origin : List Token}
    {left r : Reading origin Expr} (h : extend tail expression link left = .ok r) :
    r.value.height ≤ max left.value.height (left.value.linkCount + 2 + n) ∧
      r.value.linkCount = left.value.linkCount + 1 := by
  unfold extend at h
  split at h
  · exact absurd h refuse_ne_ok
  have right : ∀ {inside : Nat}, inside ≤ n →
      max left.value.height (left.value.linkCount + 2 + inside) ≤
        max left.value.height (left.value.linkCount + 2 + n) := by
    intro inside le
    omega
  cases link with
  | call =>
      simp only at h
      split at h
      · cases h
      next args hargs =>
      cases h
      have item : Takes (expression 0) Expr.written (fun e => e.height ≤ n) := fun _ _ h =>
        ⟨(takes 0 h).1.written, low 0 h⟩
      exact ⟨right (Expr.heightEach_le_iff.mpr (items_ok item hargs).2), rfl⟩
  | member =>
      simp only at h
      split at h <;> cases h
      exact ⟨right (Nat.zero_le n), rfl⟩
  | operator op =>
      simp only at h
      split at h
      · cases h
      next operand hoperand =>
      have inside := low (op.precedence + 1) hoperand
      cases h
      exact ⟨right inside, rfl⟩

end expressions

mutual

/-- The height of an expression is within the levels left for it. -/
theorem expression_height : (levels least : Nat) → StaysLow levels (expression tail levels least)
  | 0, _, _, _, h => absurd h (by rw [expression]; exact refuseDepth_ne_ok)
  | levels + 1, least, tokens, r, h => by
      rw [expression] at h
      split at h
      · cases h
      next left hleft =>
      obtain ⟨height, count⟩ := primary_height (expression_height levels) hleft
      exact links_height levels least height (by omega) h

/-- The same for the loop over links, where the links so far have used up some levels. -/
theorem links_height {n : Nat} : (levels least : Nat) → {origin : List Token} →
    {left r : Reading origin Expr} → left.value.height ≤ n →
    left.value.linkCount + 1 + levels = n → links tail levels least left = .ok r →
    r.value.height ≤ n
  | 0, least, origin, left, r, low, used, h => by
      rw [links] at h
      split at h
      · cases h
      split at h
      · cases h
        exact low
      · exact absurd h refuseDepth_ne_ok
  | levels + 1, least, origin, left, r, low, used, h => by
      rw [links] at h
      split at h
      · cases h
      split at h
      · cases h
        exact low
      split at h
      · cases h
      next longer hlonger =>
      obtain ⟨height, count⟩ :=
        extend_height (expression_ok levels) (expression_height levels) hlonger
      exact links_height levels least (by omega) (by omega) h

end

/-! ### Programs -/

/-- No statement of a program is higher than the limit of nesting. -/
theorem program_height {tokens : List Token} {p : Program} (h : program tail tokens = .ok p) :
    ∀ e ∈ p.statements, e.height ≤ nestingLimit := by
  unfold program at h
  split at h
  · cases h
  split at h <;> cases h
  next body last hbody =>
  exact Expr.heightEach_le_iff.mp (statements_height (expression_height nestingLimit 0) hbody)

end ScriptConsole.Parser
