import ScriptConsole.Value

/-!
# Evaluation Errors

Why an evaluation fails, as causes. `EvalError.kind` is the name of the group of an error, by which
handlers tell errors apart, and `EvalError.message` its wording. A thrown value is an error too; its
wording needs a `Legend`, because the value may be an object of the host.
-/

namespace ScriptConsole

/-- A value of the wrong kind, or out of range. -/
inductive TypeFault where
  | operands (op : BinaryOp) (left right : Kind)
  | negation (operand : Kind)
  | memberOf (name : String) (target : Kind)
  | methodOf (name : String) (target : Kind)
  | nameWanted (builtin : Builtin) (found : Kind)
  | integerWanted (builtin : Builtin) (found : Kind)
  | notSequence (found : Kind)
  | notIterable (className : String)
  | noLength (className : String)
  | noLengthOfKind (found : Kind)
  | notIndexable (found : Kind)
  | indexRange (index : Int64) (length : Nat)
  | rangeLimit (count limit : Int)
  | exitDepth (depth : Int64)

/-- An integer operation without a result. -/
inductive ArithmeticFault where
  | overflow (symbol : String)
  | divisionByZero
  | remainderByZero

/-- What a host function reports. -/
inductive HostError where
  | badArgument (text : String)
  | failed (text : String)

/-- A call or a read that the host refuses. -/
inductive HostFault where
  | noOverload (what : String) (kinds : List Kind)
  | ambiguous (what : String) (kinds : List Kind)
  | noConstructor (className : String)
  | isMethod (className name : String)
  | noField (className name : String)
  | noMethod (className name : String)
  | raised (className member : String) (error : HostError)

/-- Why an evaluation fails. -/
inductive EvalError where
  | unbound (name : String)
  | arity (callee expected : String) (found : Nat)
  | notCallable (found : Kind)
  | noHostPath (segments : List String)
  | noHostClass (className : String)
  | host (fault : HostFault)
  | type (fault : TypeFault)
  | arithmetic (fault : ArithmeticFault)
  | callDepth (limit : Nat)
  | thrown (value : Value)

namespace TypeFault

/-- The wording of the fault. -/
def message : TypeFault → String
  | operands op left right =>
    s!"cannot apply `{op.symbol}` to {left.name} and {right.name}"
  | negation operand => s!"cannot negate a {operand.name} value"
  | memberOf name target => s!"cannot read `{name}` of a {target.name} value"
  | methodOf name target => s!"cannot call `{name}` on a {target.name} value"
  | nameWanted builtin found => s!"{builtin.name} expects a string name, got {found.name}"
  | integerWanted builtin found => s!"{builtin.name} expects an integer, got {found.name}"
  | notSequence found =>
    s!"forEach expects a list, string or iterable host object, got {found.name}"
  | notIterable className => s!"{className} is not iterable"
  | noLength className => s!"{className} has no length"
  | noLengthOfKind found => s!"a {found.name} value has no length"
  | notIndexable found => s!"get expects a list or string, got {found.name}"
  | indexRange index length => s!"index {index.toInt} out of range for length {length}"
  | rangeLimit count limit => s!"Range of {count} elements exceeds the limit of {limit}"
  | exitDepth depth => s!"returnN depth must be at least 1, got {depth.toInt}"

end TypeFault

namespace ArithmeticFault

/-- The wording of the fault. -/
def message : ArithmeticFault → String
  | overflow symbol => s!"integer overflow in `{symbol}`"
  | divisionByZero => "division by zero"
  | remainderByZero => "remainder by zero"

end ArithmeticFault

namespace HostError

/-- The wording of the error. -/
def message : HostError → String
  | badArgument text => s!"bad argument: {text}"
  | failed text => text

end HostError

namespace HostFault

/-- The names of kinds with commas between them. -/
def kindList (kinds : List Kind) : String :=
  String.intercalate ", " (kinds.map Kind.name)

/-- The wording of the fault. -/
def message : HostFault → String
  | noOverload what kinds => s!"no overload of `{what}` accepts ({kindList kinds})"
  | ambiguous what kinds => s!"ambiguous call to `{what}` with ({kindList kinds})"
  | noConstructor className => s!"`{className}` has no constructor"
  | isMethod className name => s!"`{className}.{name}` is a method and must be called"
  | noField className name => s!"`{className}` has no field `{name}`"
  | noMethod className name => s!"`{className}` has no method `{name}`"
  | raised className member error => s!"{className}.{member}: {error.message}"

end HostFault

namespace EvalError

/-- The name of the group of an error. -/
def kind : EvalError → String
  | unbound _ => "UnboundNameError"
  | arity _ _ _ => "ArityError"
  | notCallable _ => "NotCallableError"
  | noHostPath _ => "HostResolutionError"
  | noHostClass _ => "HostResolutionError"
  | host _ => "HostInvocationError"
  | type _ => "TypeError"
  | arithmetic _ => "ArithmeticError"
  | callDepth _ => "CallDepthError"
  | thrown _ => "ThrownError"

/-- The wording of an error. -/
def message (legend : Legend) : EvalError → String
  | unbound name => s!"unbound name `{name}`"
  | arity callee expected found => s!"`{callee}` expects {expected} argument(s), got {found}"
  | notCallable found => s!"value of kind {found.name} is not callable"
  | noHostPath segments => "no host type matches `." ++ String.intercalate "." segments ++ "`"
  | noHostClass className => s!"no host type `{className}`"
  | host fault => fault.message
  | type fault => s!"type error: {fault.message}"
  | arithmetic fault => s!"arithmetic error: {fault.message}"
  | callDepth limit => s!"call depth limit of {limit} exceeded"
  | thrown value => s!"uncaught {value.repr legend}"

end EvalError

end ScriptConsole
