import ScriptConsole.Number.Fixed
import ScriptConsole.Value.Fault

/-!
# Operators

The operators on values that are evaluated already. Integers of one width stay at that width and
mixed widths go to the wider one; an operation on integers is exact or fails. As soon as one of two
numbers is a double, both are taken as doubles. `+` joins texts if either operand is one.

Orders exist between characters, between texts and between numbers; a NaN is neither less nor
greater than anything.
-/

namespace ScriptConsole

/-- The operators of arithmetic. -/
inductive Arithmetic where
  | add
  | subtract
  | multiply
  | divide
  | remainder
  deriving DecidableEq, Repr

namespace Arithmetic

/-- The operator between expressions. -/
def toBinaryOp : Arithmetic → BinaryOp
  | add => .add
  | subtract => .subtract
  | multiply => .multiply
  | divide => .divide
  | remainder => .remainder

/-- The exact result on integers, with division truncated toward zero. -/
def exact : Arithmetic → Int → Int → Except ArithmeticFault Int
  | add, m, n => .ok (m + n)
  | subtract, m, n => .ok (m - n)
  | multiply, m, n => .ok (m * n)
  | divide, m, n => if n = 0 then .error .divisionByZero else .ok (m.tdiv n)
  | remainder, m, n => if n = 0 then .error .remainderByZero else .ok (m.tmod n)

/-- The number that has to fit for the operation to have a result: the result itself, but for a
remainder the quotient that it belongs to. -/
def decisive : Arithmetic → Int → Int → Int → Int
  | remainder, m, n, _ => m.tdiv n
  | _, _, _, result => result

/-- The result of a fixed width, given the function that lets numbers of that width through. -/
def checked {ω : Type} (op : Arithmetic) (fit : Int → Option ω) (m n : Int) :
    Except ArithmeticFault ω :=
  match op.exact m n with
  | .error fault => .error fault
  | .ok result =>
    match fit (op.decisive m n result), fit result with
    | some _, some r => .ok r
    | _, _ => .error (.overflow op.toBinaryOp.symbol)

/-- The result on doubles. -/
def onFloats : Arithmetic → Float → Float → Float
  | add, x, y => x + y
  | subtract, x, y => x - y
  | multiply, x, y => x * y
  | divide, x, y => x / y
  | remainder, x, y => Number.Binary64.remainder x y

end Arithmetic

/-- The orders that can be asked for. -/
inductive Comparison where
  | less
  | lessEqual
  | greater
  | greaterEqual
  deriving DecidableEq, Repr

namespace Comparison

/-- The operator between expressions. -/
def toBinaryOp : Comparison → BinaryOp
  | less => .less
  | lessEqual => .lessEqual
  | greater => .greater
  | greaterEqual => .greaterEqual

/-- Whether an order is the one asked for. -/
def holds : Comparison → Ordering → Bool
  | less, o => o.isLT
  | lessEqual, o => o.isLE
  | greater, o => o.isGT
  | greaterEqual, o => o.isGE

end Comparison

namespace Value

/-- Arithmetic between two values. -/
def arithmetic (op : Arithmetic) (a b : Value) : Except EvalError Value :=
  match a, b with
  | int m, int n => ((op.checked Number.int32? m.toInt n.toInt).map int).mapError .arithmetic
  | _, _ =>
    match a.toInt64?, b.toInt64? with
    | some m, some n =>
      ((op.checked Number.int64? m.toInt n.toInt).map long).mapError .arithmetic
    | _, _ =>
      match a.toFloat?, b.toFloat? with
      | some x, some y => .ok (float (op.onFloats x y))
      | _, _ => .error (.type (.operands op.toBinaryOp a.kind b.kind))

/-- The order of two doubles; none if one is NaN. -/
def orderFloats (x y : Float) : Option Ordering :=
  if x < y then some .lt
  else if y < x then some .gt
  else if x == y then some .eq
  else none

/-- The order of two values of comparable kinds; inside, none if one is NaN. -/
def order? : Value → Value → Option (Option Ordering)
  | char a, char b => some (some (compare a b))
  | text a, text b => some (some (compare a b))
  | a, b =>
    match a.toInt64?, b.toInt64? with
    | some m, some n => some (some (compare m.toInt n.toInt))
    | _, _ =>
      match a.toFloat?, b.toFloat? with
      | some x, some y => some (orderFloats x y)
      | _, _ => none

/-- Comparison of two values. -/
def comparison (op : Comparison) (a b : Value) : Except EvalError Value :=
  match order? a b with
  | some (some o) => .ok (bool (op.holds o))
  | some none => .ok (bool false)
  | none => .error (.type (.operands op.toBinaryOp a.kind b.kind))

/-- Whether a value is a text. -/
def isText : Value → Bool
  | text _ => true
  | _ => false

/-- An operator between two values. -/
def binary (legend : Legend) (op : BinaryOp) (a b : Value) : Except EvalError Value :=
  match op with
  | .equal => .ok (bool (a.eql b))
  | .notEqual => .ok (bool (!a.eql b))
  | .bothAnd => .ok (bool (a.truthy && b.truthy))
  | .eitherOr => .ok (bool (a.truthy || b.truthy))
  | .less => comparison .less a b
  | .lessEqual => comparison .lessEqual a b
  | .greater => comparison .greater a b
  | .greaterEqual => comparison .greaterEqual a b
  | .add =>
    if a.isText || b.isText then .ok (text (a.display legend ++ b.display legend))
    else arithmetic .add a b
  | .subtract => arithmetic .subtract a b
  | .multiply => arithmetic .multiply a b
  | .divide => arithmetic .divide a b
  | .remainder => arithmetic .remainder a b

/-- The result of a negation at some width. -/
def negated {ω : Type} (wrap : ω → Value) (result : Option ω) : Except EvalError Value :=
  match result with
  | some n => .ok (wrap n)
  | none => .error (.arithmetic (.overflow "-"))

/-- An operator before a value. -/
def unary (op : UnaryOp) (v : Value) : Except EvalError Value :=
  match op, v with
  | .not, v => .ok (bool (!v.truthy))
  | .negate, int n => negated int (Number.int32? (-n.toInt))
  | .negate, long n => negated long (Number.int64? (-n.toInt))
  | .negate, float x => .ok (float (-x))
  | .negate, v => .error (.type (.negation v.kind))

end Value

end ScriptConsole
