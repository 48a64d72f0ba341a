/-!
# The Builtin Functions

The functions that every session finds in its global frame, with their names and the number of
arguments each takes. What they do is in `ScriptConsole.Eval`.
-/

namespace ScriptConsole

/-- How many arguments a function takes. -/
inductive Arity where
  | exactly (n : Nat)
  | atLeast (n : Nat)
  | between (low high : Nat)

namespace Arity

/-- Whether a call with `n` arguments is allowed. -/
def accepts : Arity → Nat → Bool
  | exactly k, n => n == k
  | atLeast k, n => k ≤ n
  | between low high, n => low ≤ n && n ≤ high

/-- The wording of the arity in a message. -/
def describe : Arity → String
  | exactly k => toString k
  | atLeast k => s!"at least {k}"
  | between low high => s!"{low} to {high}"

end Arity

/-- A builtin function. -/
inductive Builtin where
  | print
  | ifTrue
  | ifElse
  | whileTrue
  | forEach
  | range
  | tryCatch
  | throw
  | both
  | either
  | negation
  | eql
  | isNull
  | isClass
  | isBound
  | setGlobal
  | getGlobal
  | getParentVar
  | exit
  | exitMany
  | display
  | typeOf
  | length
  | list
  | get
  | locals
  | globals
  deriving DecidableEq, Repr

namespace Builtin

/-- Every builtin function, in the order in which they are listed. -/
def all : List Builtin :=
  [.print, .ifTrue, .ifElse, .whileTrue, .forEach, .range, .tryCatch, .throw, .both, .either,
    .negation, .eql, .isNull, .isClass, .isBound, .setGlobal, .getGlobal, .getParentVar, .exit,
    .exitMany, .display, .typeOf, .length, .list, .get, .locals, .globals]

/-- The list of builtins leaves none out. -/
theorem mem_all (b : Builtin) : b ∈ all := by
  cases b <;> decide

/-- The name under which the function is bound. -/
def name : Builtin → String
  | print => "print"
  | ifTrue => "if"
  | ifElse => "ifElse"
  | whileTrue => "while"
  | forEach => "forEach"
  | range => "Range"
  | tryCatch => "tryCatch"
  | throw => "throw"
  | both => "and"
  | either => "or"
  | negation => "not"
  | eql => "eql"
  | isNull => "isNull"
  | isClass => "isClass"
  | isBound => "exists"
  | setGlobal => "setGlobal"
  | getGlobal => "getGlobal"
  | getParentVar => "getParentVar"
  | exit => "return"
  | exitMany => "returnN"
  | display => "str"
  | typeOf => "typeOf"
  | length => "len"
  | list => "list"
  | get => "get"
  | locals => "locals"
  | globals => "globals"

/-- How many arguments the function takes. -/
def arity : Builtin → Arity
  | print => .atLeast 0
  | ifTrue => .exactly 2
  | ifElse => .exactly 3
  | whileTrue => .exactly 2
  | forEach => .exactly 2
  | range => .exactly 2
  | tryCatch => .exactly 2
  | throw => .exactly 1
  | both => .exactly 2
  | either => .exactly 2
  | negation => .exactly 1
  | eql => .exactly 2
  | isNull => .exactly 1
  | isClass => .exactly 1
  | isBound => .exactly 1
  | setGlobal => .exactly 2
  | getGlobal => .exactly 1
  | getParentVar => .exactly 1
  | exit => .between 0 1
  | exitMany => .exactly 2
  | display => .exactly 1
  | typeOf => .exactly 1
  | length => .exactly 1
  | list => .atLeast 0
  | get => .exactly 2
  | locals => .exactly 0
  | globals => .exactly 0

end Builtin

end ScriptConsole
