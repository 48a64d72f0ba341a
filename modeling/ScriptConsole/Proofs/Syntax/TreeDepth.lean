import ScriptConsole.Proofs.Syntax.FrontEnds
import ScriptConsole.Proofs.Syntax.Heights

/-!
# How Deep a Tree May Be

The limit of nesting does not bound the nodes on a path through a tree. Levels are given back where
an expression ends, so an expression that has used up all levels may stand inside the primary of
one that goes on with as many links as it has levels, and that one inside another primary. Every
level may contribute a chain of links of its own, and with `n` levels the bound is quadratic:
`n * (n + 3) / 2 - 1` nodes. Statements may add an assignment on top.

What carries the induction is a bound that counts the links of an expression apart
(`Expr.Canonical.depth_succ_le`): a link adds one node above what stands to its left, and leaves one
level less for what stands to its right. The parser enters only by the height of what it reads
(`ScriptConsole.Proofs.Syntax.Heights`), so the bound holds wherever an expression is read: from any
tokens, from any supply of tokens, in any source text.

## Main results

* `Expr.Canonical.depth_lt`: the depth of a tree against its height.
* `Feed.exists_holds`: whatever a feed has drawn, it shows some tokens and something behind them.
* `Program.depth_bounded`: **bounded depth** of all that is read.
-/

namespace ScriptConsole

open Placed (move)

namespace Expr

/-! ### Nodes on a path -/

mutual

/-- The number of nodes on the longest path from an expression down to a leaf. -/
def depth : Expr → Nat
  | literal _ _ => 1
  | var _ => 1
  | hostPath _ _ => 1
  | assign _ value _ => value.depth + 1
  | func _ body _ => depthEach body + 1
  | call callee args _ => max callee.depth (depthEach args) + 1
  | member target _ _ => target.depth + 1
  | unary _ operand _ => operand.depth + 1
  | binary left _ right _ => max left.depth right.depth + 1
  | paren inner _ => inner.depth + 1

/-- The number of nodes on the longest path from one of some expressions. -/
def depthEach : List Expr → Nat
  | [] => 0
  | e :: rest => max e.depth (depthEach rest)

end

theorem depthEach_le_iff {es : List Expr} {n : Nat} :
    depthEach es ≤ n ↔ ∀ e ∈ es, e.depth ≤ n := by
  induction es with
  | nil => simp [depthEach]
  | cons e rest ih => rw [depthEach, Nat.max_le, ih, List.forall_mem_cons]

/-- An assignment is one node more than its value. -/
theorem depth_le_content (e : Expr) : e.depth ≤ e.content.depth + 1 := by
  cases e <;> simp [content, depth]

/-! ### Depth against height -/

/-- More than the nodes on a path through an expression of at most so many levels. -/
def depthBound (levels : Nat) : Nat := levels * (levels + 3) / 2

theorem depthBound_succ (levels : Nat) :
    depthBound (levels + 1) = depthBound levels + levels + 2 := by
  have split : (levels + 1) * (levels + 1 + 3) = levels * (levels + 3) + 2 * (levels + 2) := by
    simp only [Nat.add_mul, Nat.mul_add]
    omega
  rw [depthBound, split, Nat.add_mul_div_left _ _ Nat.two_pos]
  rfl

/-- What bounds the depth of an expression by its links bounds it by its height. -/
theorem depth_lt_of_links {e : Expr}
    (links : ∀ {n : Nat}, e.height ≤ n + 1 → e.depth < e.linkCount + 2 + depthBound n) {n : Nat}
    (low : e.height ≤ n) : e.depth < depthBound n := by
  have count := e.linkCount_lt_height
  cases n with
  | zero => omega
  | succ n =>
      have below := links low
      rw [depthBound_succ]
      omega

/-- The links of an expression add a node each. Below them there are the primary, perhaps an
assignment inside it, and what a level less has room for. -/
theorem Canonical.depth_lt_links {e : Expr} (h : e.Canonical) {n : Nat} (low : e.height ≤ n + 1) :
    e.depth < e.linkCount + 2 + depthBound n := by
  induction h generalizing n with
  | literal | var | hostPath =>
      simp only [depth]
      omega
  | @func params body s canonical ih =>
      -- an assignment in the body adds a node but no level
      have inside : depthEach body ≤ depthBound n := depthEach_le_iff.mpr fun e mem => by
        have low : e.content.height ≤ n := by
          rw [height_content]
          exact heightEach_le_iff.mp (Nat.le_of_succ_le_succ low) e mem
        exact Nat.le_trans e.depth_le_content (depth_lt_of_links (ih e mem) low)
      simp only [depth]
      omega
  | @call callee args s _ _ _ ih ihArgs =>
      obtain ⟨left, right⟩ := Nat.max_le.mp low
      have front := ih left
      have inside : depthEach args ≤ depthBound n := depthEach_le_iff.mpr fun e mem => by
        have low : e.height ≤ n := heightEach_le_iff.mp (by omega) e mem
        exact Nat.le_of_lt (depth_lt_of_links (ihArgs e mem) low)
      simp only [depth, linkCount]
      omega
  | member _ _ _ ih =>
      have front := ih (Nat.max_le.mp low).1
      simp only [depth, linkCount]
      omega
  | unary _ _ ih =>
      have inside := depth_lt_of_links ih (Nat.le_of_succ_le_succ low)
      simp only [depth]
      omega
  | @binary left right op s _ _ _ _ ihLeft ihRight =>
      obtain ⟨left, right⟩ := Nat.max_le.mp low
      have front := ihLeft left
      have inside := depth_lt_of_links ihRight (n := n) (by omega)
      simp only [depth, linkCount]
      omega
  | paren _ ih =>
      have inside := depth_lt_of_links ih (Nat.le_of_succ_le_succ low)
      simp only [depth]
      omega

/-- **Depth against height.** -/
theorem Canonical.depth_lt {e : Expr} (h : e.Canonical) {n : Nat} (low : e.height ≤ n) :
    e.depth < depthBound n :=
  depth_lt_of_links h.depth_lt_links low

end Expr

/-! ### What feeds show -/

section feeds

variable {σ : Type} [Supply σ]

/-- A supply gives some tokens, and behind them a flaw or the end of the input for ever. -/
theorem Supply.exists_upcoming (supply : σ) (lastStop : Nat) : ∃ tail tokens, ∀ n,
    (upcoming supply lastStop n).mapError .lex = Parser.ahead tail tokens n := by
  cases hnext : Supply.next supply with
  | none =>
      refine ⟨.padding lastStop, [], fun n => ?_⟩
      rw [upcoming.eq_def, hnext, Parser.ahead_nil]
      rfl
  | some outcome =>
  cases outcome with
  | error e =>
      refine ⟨.flaw e, [], fun n => ?_⟩
      rw [upcoming.eq_def, hnext, Parser.ahead_nil]
      rfl
  | ok first =>
      obtain ⟨t, more⟩ := first
      obtain ⟨tail, tokens, shown⟩ := exists_upcoming more t.span.stop
      refine ⟨tail, t :: tokens, fun n => ?_⟩
      rw [upcoming.eq_def, hnext]
      cases n with
      | zero => rfl
      | succ n => exact shown n
termination_by Supply.size supply
decreasing_by exact Supply.size_lt hnext

/-- Whatever a feed has drawn, it shows some tokens and something behind them. -/
theorem Feed.exists_holds (feed : Feed σ) : ∃ tail tokens, feed.Holds .none tail tokens := by
  obtain ⟨tail, tokens, shown⟩ := Supply.exists_upcoming feed.supply feed.lastStop
  refine ⟨tail, feed.buffer ++ tokens, holds_of_shown fun n => ?_⟩
  rw [Parser.ahead]
  rcases Nat.lt_or_ge n feed.buffer.length with lt | le
  · rw [nth, List.getElem?_eq_getElem lt, List.drop_append_of_le_length (Nat.le_of_lt lt),
      List.drop_eq_getElem_cons lt]
    rfl
  · rw [nth_of_length_le le, shown, Parser.ahead, List.drop_append, List.drop_of_length_le le]
    rfl

end feeds

/-! ### Trees that are read -/

/-- An expression that is read from some tokens. -/
theorem Parser.depth_lt_of_expression {tail : Tail} {levels least : Nat} {tokens : List Token}
    {r : Reading tokens Expr} (h : expression tail levels least tokens = .ok r) :
    r.value.depth < Expr.depthBound levels :=
  (expression_ok levels least h).1.canonical.depth_lt (expression_height levels least h)

/-- An expression that is read on demand. -/
theorem Drawing.depth_lt_of_expression {σ : Type} [Supply σ] {levels least : Nat}
    {feed rest : Feed σ} {e : Expr} (h : expression levels least feed = .ok (e, rest)) :
    e.depth < Expr.depthBound levels := by
  obtain ⟨tail, tokens, holds⟩ := feed.exists_holds
  have draws := expression_agrees monotone_id levels least holds
  cases hread : Parser.expression tail levels least tokens with
  | error e => cases h.symm.trans (draws.error hread)
  | ok r =>
      obtain ⟨rest', hrest, -⟩ := draws.ok hread
      cases h.symm.trans hrest
      have same : move Motion.none.place r.value = r.value := Expr.move_id r.value
      rw [same]
      exact Parser.depth_lt_of_expression hread

/-- The statements of a program that is read from some tokens. -/
theorem Parser.depth_le_of_program {tail : Tail} {tokens : List Token} {p : Program}
    (h : program tail tokens = .ok p) :
    ∀ e ∈ p.statements, e.depth ≤ Expr.depthBound nestingLimit := by
  intro e mem
  have low : e.content.height ≤ nestingLimit := by
    rw [Expr.height_content]
    exact program_height h e mem
  exact Nat.le_trans e.depth_le_content (((program_ok h).2 e mem).depth_lt low)

/-- **Bounded depth.** An expression that is read with `levels` levels left, from tokens or on
demand, has at most `levels * (levels + 3) / 2 - 1` nodes on a path. A statement of a program has
at most `nestingLimit * (nestingLimit + 3) / 2`, however long the program is. -/
theorem Program.depth_bounded :
    (∀ (tail : Tail) (levels least : Nat) (tokens : List Token) (r : Reading tokens Expr),
      Parser.expression tail levels least tokens = .ok r →
        r.value.depth ≤ levels * (levels + 3) / 2 - 1) ∧
    (∀ (σ : Type) [Supply σ] (levels least : Nat) (feed rest : Feed σ) (e : Expr),
      Drawing.expression levels least feed = .ok (e, rest) →
        e.depth ≤ levels * (levels + 3) / 2 - 1) ∧
    (∀ (tokens : List Token) (p : Program), Program.ofTokens tokens = .ok p →
      ∀ e ∈ p.statements, e.depth ≤ nestingLimit * (nestingLimit + 3) / 2) ∧
    ∀ (source : String) (p : Program), Program.ofSource source = .ok p →
      ∀ e ∈ p.statements, e.depth ≤ nestingLimit * (nestingLimit + 3) / 2 := by
  refine ⟨fun _ _ _ _ _ h => Nat.le_sub_one_of_lt (Parser.depth_lt_of_expression h),
    fun _ _ _ _ _ _ _ h => Nat.le_sub_one_of_lt (Drawing.depth_lt_of_expression h),
    fun _ _ h => Parser.depth_le_of_program h, fun source p h => ?_⟩
  rw [ofSource_eq_ofLexed, ofLexed_eq] at h
  exact Parser.depth_le_of_program h

/-- Two levels suffice for `() { x = a; }.b`, which has as many nodes on a path as two levels allow.
-/
theorem Program.depth_bounded_link_behind_function :
    let kinds : List Token.Kind := [.symbol .leftParen, .symbol .rightParen, .symbol .leftBrace,
      .name "x", .symbol .assign, .name "a", .symbol .semicolon, .symbol .rightBrace, .symbol .dot,
      .name "b", .symbol .semicolon]
    let tokens : List Token := kinds.map (⟨·, .empty 0⟩)
    (∃ r, Parser.expression (.padding 0) 2 0 tokens = .ok r ∧ r.value.depth = 2 * (2 + 3) / 2 - 1 ∧
      r.value.depth ≤ 2 * (2 + 3) / 2 - 1) ∧
    (∃ e rest, Drawing.expression 2 0 (.ofSupply tokens) = .ok (e, rest) ∧
      e.depth ≤ 2 * (2 + 3) / 2 - 1) ∧
    (∃ p, Program.ofTokens tokens = .ok p ∧
      ∀ e ∈ p.statements, e.depth ≤ nestingLimit * (nestingLimit + 3) / 2) ∧
    ∃ p, Program.ofSource "() { x = a; }.b;" = .ok p ∧
      ∀ e ∈ p.statements, e.depth ≤ nestingLimit * (nestingLimit + 3) / 2 := by
  intro kinds tokens
  have read : ∀ {α ε : Type} {x : Except ε α}, x.toOption.isSome = true → ∃ a, x = .ok a := by
    intro α ε x some
    cases x with
    | error e => cases some
    | ok a => exact ⟨a, rfl⟩
  obtain ⟨ofLists, onDemand, ofTokens, ofSource⟩ := Program.depth_bounded
  refine ⟨?_, ?_, ?_, ?_⟩
  · have depth : (Parser.expression (.padding 0) 2 0 tokens).toOption.map (·.value.depth) =
        some 4 := by decide +kernel
    cases hr : Parser.expression (.padding 0) 2 0 tokens with
    | error e =>
        rw [hr] at depth
        cases depth
    | ok r =>
        rw [hr] at depth
        exact ⟨r, rfl, Option.some.inj depth, ofLists _ _ _ _ r hr⟩
  · obtain ⟨⟨e, rest⟩, h⟩ := read (x := Drawing.expression 2 0 (.ofSupply tokens))
      (by decide +kernel)
    exact ⟨e, rest, h, onDemand _ _ _ _ _ _ h⟩
  · obtain ⟨p, h⟩ := read (x := Program.ofTokens tokens) (by decide +kernel)
    exact ⟨p, h, ofTokens _ _ h⟩
  · obtain ⟨p, h⟩ := read (x := Program.ofSource "() { x = a; }.b;") (by decide +kernel)
    exact ⟨p, h, ofSource _ _ h⟩

end ScriptConsole
