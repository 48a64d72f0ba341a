import Mathlib.Order.MinMax
import ScriptConsole.Expr.Parser

/-!
# Moving Places

Tokens, the nodes of a tree and errors stand at places of a text. `Placed.move f` puts whatever
stands at a place `p` to the place `f p` and leaves everything else as it is.

A monotone `f` keeps the order of places and with it the smallest span around two spans. Two such
functions matter: adding a constant, for a text behind another, and cutting off at a place, which
changes nothing exactly if all places are before it.

## Main results

* `Expr.move_id`: a tree moved nowhere is the tree.
* `Span.move_join`: a monotone function moves the span around two spans to the one around the moved
  ones.
-/

namespace ScriptConsole

/-- Something with parts that stand at places of a text. -/
class Placed (α : Type) where
  /-- The same with every part moved. -/
  move : (Nat → Nat) → α → α

open Placed (move)

variable {α β : Type} {f : Nat → Nat}

instance [Placed α] : Placed (List α) := ⟨fun f => List.map (move f)⟩

instance [Placed α] [Placed β] : Placed (α × β) := ⟨fun f p => (move f p.1, move f p.2)⟩

/-- A decision does not stand anywhere. -/
instance : Placed Bool := ⟨fun _ b => b⟩

instance : Placed Span := ⟨fun f s => ⟨f s.start, f s.stop⟩⟩

instance : Placed Token := ⟨fun f t => ⟨t.kind, move f t.span⟩⟩

/-- A token that moves keeps its kind. -/
@[simp] theorem Token.kind_move (t : Token) : (move f t).kind = t.kind := rfl

instance : Placed Ident := ⟨fun f name => ⟨name.text, move f name.span⟩⟩

namespace Expr

mutual

/-- An expression with all its parts moved. -/
def moved (f : Nat → Nat) : Expr → Expr
  | literal v s => literal v (move f s)
  | var name => var (move f name)
  | assign name value s => assign (move f name) (value.moved f) (move f s)
  | func params body s => func (move f params) (movedEach f body) (move f s)
  | call callee args s => call (callee.moved f) (movedEach f args) (move f s)
  | hostPath segments s => hostPath (move f segments) (move f s)
  | member target name s => member (target.moved f) (move f name) (move f s)
  | unary op operand s => unary op (operand.moved f) (move f s)
  | binary left op right s => binary (left.moved f) op (right.moved f) (move f s)
  | paren inner s => paren (inner.moved f) (move f s)

/-- Expressions with all their parts moved. -/
def movedEach (f : Nat → Nat) : List Expr → List Expr
  | [] => []
  | e :: rest => e.moved f :: movedEach f rest

end

end Expr

instance : Placed Expr := ⟨Expr.moved⟩

instance : Placed Program := ⟨fun f p => ⟨move f p.statements, move f p.span⟩⟩

instance : Placed ParseError := ⟨fun f e =>
  match e with
  | .unexpected wanted found => .unexpected wanted (move f found)
  | .tooDeep place => .tooDeep (move f place)⟩

/-- A change of places together with one of the flaws that end a text. -/
structure Motion where
  place : Nat → Nat
  flaw : LexError → LexError

namespace Motion

/-- The motion that changes nothing. -/
def none : Motion := ⟨id, id⟩

/-- An error with its parts moved, or with its flaw exchanged. -/
def error (m : Motion) : SourceError → SourceError
  | .lex e => .lex (m.flaw e)
  | .parse e => .parse (move m.place e)

/-- An outcome with its parts moved, or with its error changed. -/
def outcome [Placed α] (m : Motion) : Except SourceError α → Except SourceError α
  | .error e => .error (m.error e)
  | .ok a => .ok (move m.place a)

/-- Where nothing moves, errors stay as they are. -/
@[simp] theorem error_none (e : SourceError) : none.error e = e := by
  obtain e | (e | e) := e <;> rfl

end Motion

/-- Expressions are moved one by one. -/
theorem Expr.movedEach_eq (es : List Expr) : movedEach f es = move f es := by
  induction es with
  | nil => rfl
  | cons e rest ih => rw [movedEach, ih]; rfl

/-! ### Where nothing moves -/

/-- A list stays as it is if its elements do. -/
theorem Placed.move_list [Placed α] {as : List α} (same : ∀ a ∈ as, move f a = a) :
    move f as = as :=
  (List.map_congr_left same).trans (List.map_id' as)

/-- A name that stays where it is stays as it is. -/
@[simp] theorem Ident.move_id (name : Ident) : move id name = name := rfl

mutual

/-- So does an expression, by recursion on its parts. -/
@[simp] theorem Expr.move_id : (e : Expr) → move id e = e
  | .literal _ _ => rfl
  | .var _ => rfl
  | .assign name value s => congrArg (Expr.assign name · s) value.move_id
  | .func params body s => by
      show Expr.func (move id params) (movedEach id body) s = _
      rw [movedEach_eq, eachMove_id, Placed.move_list fun _ _ => rfl]
  | .call callee args s => by
      show Expr.call (move id callee) (movedEach id args) s = _
      rw [movedEach_eq, eachMove_id, callee.move_id]
  | .hostPath segments s => by
      show Expr.hostPath (move id segments) s = _
      rw [Placed.move_list fun _ _ => rfl]
  | .member target name s => congrArg (Expr.member · name s) target.move_id
  | .unary op operand s => congrArg (Expr.unary op · s) operand.move_id
  | .binary left op right s => by
      show Expr.binary (move id left) op (move id right) s = _
      rw [left.move_id, right.move_id]
  | .paren inner s => congrArg (Expr.paren · s) inner.move_id

/-- So do several. -/
theorem Expr.eachMove_id : (es : List Expr) → move id es = es
  | [] => rfl
  | e :: rest => by
      show move id e :: move id rest = _
      rw [e.move_id, eachMove_id rest]

end

/-- A program that stays where it is stays as it is. -/
@[simp] theorem Program.move_id (p : Program) : move id p = p := by
  show Program.mk (move id p.statements) p.span = p
  rw [Expr.eachMove_id]

/-- So does an outcome. -/
theorem Motion.outcome_none (x : Except SourceError Program) : Motion.none.outcome x = x := by
  cases x with
  | error e => exact congrArg Except.error (Motion.error_none e)
  | ok p => exact congrArg Except.ok p.move_id

/-! ### Spans around others -/

/-- A function that keeps the order of places moves the span around two spans to the one around both
of them moved. -/
theorem Span.move_join (mono : Monotone f) (a b : Span) :
    move f (a.join b) = (move f a).join (move f b) := by
  show Span.mk (f (min a.start b.start)) (f (max a.stop b.stop)) =
    ⟨min (f a.start) (f b.start), max (f a.stop) (f b.stop)⟩
  rw [mono.map_min, mono.map_max]

/-- The span of an expression moves with it. -/
theorem Expr.span_move (e : Expr) : (move f e).span = move f e.span := by
  cases e <;> rfl

/-- The place where the last of some names ends, moved. -/
theorem Parser.lastStop_move (default : Nat) (names : List Ident) :
    lastStop (f default) (move f names) = f (lastStop default names) := by
  induction names with
  | nil => rfl
  | cons name rest ih =>
      cases rest with
      | nil => rfl
      | cons other more => exact ih

end ScriptConsole
