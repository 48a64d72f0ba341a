import Mathlib.Data.List.Forall2
import ScriptConsole.Host.Registry
import ScriptConsole.Proofs.Syntax.Completeness
import ScriptConsole.Proofs.Syntax.Places
import ScriptConsole.Trace.Record
import ScriptConsole.Value.Operators

/-!
# Values Up to the Places of Their Code

A function carries its body, and the nodes of the body know where they stand in a source text. The
**shape** of a value is the value with all these places put to the start. Values of one shape are
**alike**: nothing in the language tells them apart, neither an operator nor how they are shown.

## Main results

* `Expr.shape_move`: an expression with its places changed has the same shape.
* `Value.eql_shape`, `Value.render_shape`, `Value.binary_shape`: equality, texts and operators go
  by the shape.
-/

namespace ScriptConsole

open Placed (move)

/-! ### Expressions -/

/-- Names that move keep their shapes. -/
theorem Ident.map_shape_move (f : Nat → Nat) (names : List Ident) :
    (move f names).map Ident.shape = names.map Ident.shape :=
  List.map_map

mutual

/-- The shape of an expression does not depend on its places. -/
theorem Expr.shape_move (f : Nat → Nat) : (e : Expr) → (move f e).shape = e.shape
  | .literal _ _ => rfl
  | .var _ => rfl
  | .assign name value s => congrArg (Expr.assign name.shape · (.empty 0)) (value.shape_move f)
  | .func params body s => by
      show Expr.func ((move f params).map Ident.shape) (shapeEach (movedEach f body)) _ = _
      rw [movedEach_eq, shapeEach_eq_map, eachShape_move f body, Ident.map_shape_move, shape,
        shapeEach_eq_map]
  | .call callee args s => by
      show Expr.call (move f callee).shape (shapeEach (movedEach f args)) _ = _
      rw [movedEach_eq, shapeEach_eq_map, eachShape_move f args, callee.shape_move f, shape,
        shapeEach_eq_map]
  | .hostPath segments s => congrArg (Expr.hostPath · (.empty 0)) (Ident.map_shape_move f segments)
  | .member target name s => congrArg (Expr.member · name.shape (.empty 0)) (target.shape_move f)
  | .unary op operand s => congrArg (Expr.unary op · (.empty 0)) (operand.shape_move f)
  | .binary left op right s => by
      show Expr.binary (move f left).shape op (move f right).shape _ = _
      rw [left.shape_move f, right.shape_move f]
      rfl
  | .paren inner s => congrArg (Expr.paren · (.empty 0)) (inner.shape_move f)

/-- Expressions that move keep their shapes. -/
theorem Expr.eachShape_move (f : Nat → Nat) :
    (es : List Expr) → (move f es).map Expr.shape = es.map Expr.shape
  | [] => rfl
  | e :: rest => by
      show (move f e).shape :: (move f rest).map Expr.shape = _
      rw [e.shape_move f, eachShape_move f rest]
      rfl

end

/-! ### Values -/

/-- The shape of a function: its body without places. -/
def Closure.shape (f : Closure) : Closure :=
  ⟨f.identity, f.params, f.body.map Expr.shape, f.frame⟩

namespace Value

mutual

/-- A value without the places of its code. -/
def shape : Value → Value
  | list i items => list i (shapeItems items)
  | function f => function f.shape
  | v => v

/-- Values without the places of their code. -/
def shapeItems : List Value → List Value
  | [] => []
  | v :: rest => v.shape :: shapeItems rest

end

/-- The shapes of some values are taken one by one. -/
@[simp] theorem shapeItems_eq_map (vs : List Value) : shapeItems vs = vs.map shape := by
  induction vs with
  | nil => rfl
  | cons v rest ih => rw [shapeItems, ih, List.map_cons]

/-- A value and its shape are of one kind. -/
@[simp] theorem kind_shape (v : Value) : v.shape.kind = v.kind := by cases v <;> rfl

/-- A value and its shape are true alike. -/
@[simp] theorem truthy_shape (v : Value) : v.shape.truthy = v.truthy := by
  cases v with
  | list i items => cases items <;> rfl
  | _ => rfl

/-- An integer is its own shape. -/
@[simp] theorem toInt64?_shape (v : Value) : v.shape.toInt64? = v.toInt64? := by cases v <;> rfl

/-- A text is its own shape. -/
@[simp] theorem toText?_shape (v : Value) : v.shape.toText? = v.toText? := by cases v <;> rfl

/-- Whether a value is a text shows in its shape. -/
@[simp] theorem isText_shape (v : Value) : v.shape.isText = v.isText := by cases v <;> rfl

mutual

/-- Equality does not look at places, by recursion on the elements of lists. -/
theorem eql_shape : (a b : Value) → eql a.shape b.shape = eql a b
  | list i xs, b => by
      cases b with
      | list j ys =>
          simp only [shape, eql]
          rw [eqlItems_shape xs ys]
      | _ => rfl
  | null, b | bool _, b | int _, b | long _, b | float _, b | char _, b | text _, b
  | function _, b | builtin _, b | hostClass _, b | object _ _, b => by cases b <;> rfl

/-- Nor does equality of elements. -/
theorem eqlItems_shape : (xs ys : List Value) →
    eqlItems (shapeItems xs) (shapeItems ys) = eqlItems xs ys
  | [], [] => rfl
  | [], _ :: _ => rfl
  | _ :: _, [] => rfl
  | x :: xs, y :: ys => by
      simp only [shapeItems, eqlItems]
      rw [eql_shape x y, eqlItems_shape xs ys]

end

mutual

/-- Places are not shown, by recursion on the elements of lists. -/
theorem render_shape (legend : Legend) (quoted : Bool) :
    (v : Value) → render legend quoted v.shape = render legend quoted v
  | list i items => by
      simp only [shape, render]
      rw [renderItems_shape legend items]
  | null | bool _ | int _ | long _ | float _ | char _ | text _ | function _ | builtin _
  | hostClass _ | object _ _ => rfl

/-- Nor are they in the elements of a list. -/
theorem renderItems_shape (legend : Legend) :
    (vs : List Value) → renderItems legend (shapeItems vs) = renderItems legend vs
  | [] => rfl
  | v :: rest => by
      simp only [shapeItems, renderItems]
      rw [render_shape legend true v, renderItems_shape legend rest]

end

/-- A value and its shape are displayed alike. -/
@[simp] theorem display_shape (legend : Legend) (v : Value) :
    v.shape.display legend = v.display legend := render_shape legend false v

/-- A value and its shape are represented alike. -/
@[simp] theorem repr_shape (legend : Legend) (v : Value) :
    v.shape.repr legend = v.repr legend := render_shape legend true v

/-- Arithmetic sees numbers and texts alone. -/
theorem arithmetic_shape (op : Arithmetic) (a b : Value) :
    arithmetic op a.shape b.shape = arithmetic op a b := by
  cases a <;> cases b <;> rfl

/-- So does the order of values. -/
theorem order?_shape (a b : Value) : order? a.shape b.shape = order? a b := by
  cases a <;> cases b <;> rfl

/-- So do comparisons. -/
theorem comparison_shape (op : Comparison) (a b : Value) :
    comparison op a.shape b.shape = comparison op a b := by
  simp only [comparison, order?_shape, kind_shape]

/-- Operators between values go by their shapes. -/
theorem binary_shape (legend : Legend) (op : BinaryOp) (a b : Value) :
    binary legend op a.shape b.shape = binary legend op a b := by
  cases op <;> simp only [binary, eql_shape, truthy_shape, comparison_shape, arithmetic_shape,
    isText_shape, display_shape]

/-- So do operators before a value. -/
theorem unary_shape (op : UnaryOp) (v : Value) : unary op v.shape = unary op v := by
  cases op with
  | not => simp only [unary, truthy_shape]
  | negate => cases v <;> rfl

end Value

namespace TraceValue

mutual

/-- Traces show values by their shapes. -/
theorem ofValue_shape (legend : Legend) : (v : Value) → ofValue legend v.shape = ofValue legend v
  | .list i items => by
      simp only [Value.shape, ofValue]
      rw [ofShapes_eq legend items]
  | .function f => congrArg shown ((Value.function f).display_shape legend)
  | .null | .bool _ | .int _ | .long _ | .float _ | .char _ | .text _ | .builtin _
  | .hostClass _ | .object _ _ => rfl

/-- Arguments and their shapes are traced alike. -/
theorem ofShapes_eq (legend : Legend) :
    (vs : List Value) → ofValues legend (Value.shapeItems vs) = ofValues legend vs
  | [] => rfl
  | v :: rest => by
      simp only [Value.shapeItems, ofValues]
      rw [ofValue_shape legend v, ofShapes_eq legend rest]

end

end TraceValue

namespace Value

/-! ### Alike values -/

/-- Whether two values are the same up to the places of their code. -/
def Alike (a b : Value) : Prop := a.shape = b.shape

/-- Whether values are, one by one. -/
def AlikeEach (as bs : List Value) : Prop := as.map shape = bs.map shape

/-- Every value is like itself. -/
theorem Alike.refl (a : Value) : a.Alike a := rfl

/-- All values are like themselves. -/
theorem AlikeEach.refl (as : List Value) : AlikeEach as as := rfl

/-- Alike values in front of alike values. -/
theorem Alike.cons {a b : Value} {as bs : List Value} (first : a.Alike b)
    (rest : AlikeEach as bs) : AlikeEach (a :: as) (b :: bs) :=
  congrArg₂ List.cons first rest

section

variable {a b a' b' : Value} {as bs : List Value}

/-- Alike values are of one kind. -/
theorem Alike.kind_eq (h : a.Alike b) : a.kind = b.kind := by
  rw [← kind_shape a, h, kind_shape]

/-- Alike values are true alike. -/
theorem Alike.truthy_eq (h : a.Alike b) : a.truthy = b.truthy := by
  rw [← truthy_shape a, h, truthy_shape]

/-- Alike integers are equal. -/
theorem Alike.toInt64?_eq (h : a.Alike b) : a.toInt64? = b.toInt64? := by
  rw [← toInt64?_shape a, h, toInt64?_shape]

/-- Alike texts are equal. -/
theorem Alike.toText?_eq (h : a.Alike b) : a.toText? = b.toText? := by
  rw [← toText?_shape a, h, toText?_shape]

/-- Equality does not tell alike values apart. -/
theorem Alike.eql_eq (h : a.Alike b) (h' : a'.Alike b') : a.eql a' = b.eql b' := by
  rw [← eql_shape a, h, h', eql_shape]

/-- Alike values are displayed alike. -/
theorem Alike.display_eq (h : a.Alike b) (legend : Legend) :
    a.display legend = b.display legend := by
  rw [← display_shape, h, display_shape]

/-- Alike values are represented alike. -/
theorem Alike.repr_eq (h : a.Alike b) (legend : Legend) : a.repr legend = b.repr legend := by
  rw [← repr_shape, h, repr_shape]

/-- Binary operators do not tell alike operands apart. -/
theorem Alike.binary_eq (h : a.Alike b) (h' : a'.Alike b') (legend : Legend) (op : BinaryOp) :
    binary legend op a a' = binary legend op b b' := by
  rw [← binary_shape, h, h', binary_shape]

/-- Nor do unary ones. -/
theorem Alike.unary_eq (h : a.Alike b) (op : UnaryOp) : unary op a = unary op b := by
  rw [← unary_shape, h, unary_shape]

/-- Alike values differ in the items of a list or in the body of a function, or not at all. -/
theorem Alike.cases (h : a.Alike b) :
    (∃ i items items', a = list i items ∧ b = list i items' ∧ AlikeEach items items') ∨
      (∃ f f', a = function f ∧ b = function f' ∧ f.shape = f'.shape) ∨ a = b := by
  cases a with
  | list i items =>
      cases b with
      | list j items' =>
          obtain ⟨rfl, same⟩ := Value.list.inj h
          rw [shapeItems_eq_map, shapeItems_eq_map] at same
          exact .inl ⟨i, items, items', rfl, rfl, same⟩
      | _ => cases h
  | function f =>
      cases b with
      | function f' => exact .inr (.inl ⟨f, f', rfl, rfl, Value.function.inj h⟩)
      | _ => cases h
  | _ =>
      refine .inr (.inr ?_)
      cases b <;> cases h
      all_goals rfl

/-- What does not depend on the shape of values does not tell alike ones apart. -/
theorem AlikeEach.map_eq {β : Type} {f : Value → β} (h : AlikeEach as bs)
    (same : ∀ v : Value, f v.shape = f v) : as.map f = bs.map f := by
  have through : ∀ vs : List Value, vs.map f = (vs.map shape).map f := by
    intro vs
    rw [List.map_map]
    exact List.map_congr_left fun v _ => (same v).symm
  rw [through as, h, through bs]

/-- Alike lists are alike element by element. -/
theorem AlikeEach.forall₂ (h : AlikeEach as bs) : List.Forall₂ Alike as bs := by
  have same : List.Forall₂ Eq (as.map shape) (bs.map shape) := List.forall₂_eq_eq_eq ▸ h
  rwa [List.forall₂_map_left_iff, List.forall₂_map_right_iff] at same

/-- Alike lists are of one length. -/
theorem AlikeEach.length_eq (h : AlikeEach as bs) : as.length = bs.length := by
  simpa using congrArg List.length h

/-- Alike lists have alike elements at every index. -/
theorem AlikeEach.getElem? (h : AlikeEach as bs) (i : Nat) :
    as[i]?.map shape = bs[i]?.map shape := by
  rw [← List.getElem?_map, h, List.getElem?_map]

end

end Value

end ScriptConsole
