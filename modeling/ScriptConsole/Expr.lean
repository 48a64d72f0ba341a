import ScriptConsole.Literal
import ScriptConsole.Span

/-!
# The Tree of a Program

A program is a list of statements. A statement is an expression or an assignment, which the tree
counts among the expressions; the parser makes assignments only where statements stand. Every node
has its span, and parentheses have a node of their own.
-/

namespace ScriptConsole

/-- The operators before one operand. -/
inductive UnaryOp where
  | not
  | negate
  deriving DecidableEq, Repr

/-- The operators between two operands. -/
inductive BinaryOp where
  | eitherOr
  | bothAnd
  | equal
  | notEqual
  | less
  | lessEqual
  | greater
  | greaterEqual
  | add
  | subtract
  | multiply
  | divide
  | remainder
  deriving DecidableEq, Repr

/-- A name where it stands in the source. -/
structure Ident where
  text : String
  span : Span

/-- An expression. -/
inductive Expr where
  | literal (value : Literal) (span : Span)
  | var (name : Ident)
  /-- `name = value` -/
  | assign (name : Ident) (value : Expr) (span : Span)
  /-- `(a, b) { body; }` -/
  | func (params : List Ident) (body : List Expr) (span : Span)
  | call (callee : Expr) (args : List Expr) (span : Span)
  /-- `.a.b.C` -/
  | hostPath (segments : List Ident) (span : Span)
  /-- `target.name` -/
  | member (target : Expr) (name : Ident) (span : Span)
  | unary (op : UnaryOp) (operand : Expr) (span : Span)
  | binary (left : Expr) (op : BinaryOp) (right : Expr) (span : Span)
  | paren (inner : Expr) (span : Span)

/-- A program and the span from its first token to the end of its source. -/
structure Program where
  statements : List Expr
  span : Span

namespace Expr

/-- The span of a node. -/
def span : Expr → Span
  | literal _ s => s
  | var name => name.span
  | assign _ _ s => s
  | func _ _ s => s
  | call _ _ s => s
  | hostPath _ s => s
  | member _ _ s => s
  | unary _ _ s => s
  | binary _ _ _ s => s
  | paren _ s => s

end Expr

namespace BinaryOp

/-- The operators from the loosest to the tightest. -/
def all : List BinaryOp :=
  [.eitherOr, .bothAnd, .equal, .notEqual, .less, .lessEqual, .greater, .greaterEqual, .add,
    .subtract, .multiply, .divide, .remainder]

/-- How the operator is written. -/
def symbol : BinaryOp → String
  | eitherOr => "||"
  | bothAnd => "&&"
  | equal => "=="
  | notEqual => "!="
  | less => "<"
  | lessEqual => "<="
  | greater => ">"
  | greaterEqual => ">="
  | add => "+"
  | subtract => "-"
  | multiply => "*"
  | divide => "/"
  | remainder => "%"

/-- How tightly the operator binds: the greater the number, the tighter. -/
def precedence : BinaryOp → Nat
  | eitherOr => 1
  | bothAnd => 2
  | equal => 3
  | notEqual => 3
  | less => 4
  | lessEqual => 4
  | greater => 4
  | greaterEqual => 4
  | add => 5
  | subtract => 5
  | multiply => 6
  | divide => 6
  | remainder => 6

end BinaryOp

end ScriptConsole
