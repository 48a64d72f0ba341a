import ScriptConsole.Expr
import ScriptConsole.Json.Printer
import ScriptConsole.Text.Quoted

/-!
# Outlines of Trees

An outline is a tree reduced to names, fields and plain values. The tree of a program is turned
into an outline once (`Program.outline`), and the outline is printed in two ways: as an indented
dump (`Outline.dump`) and as JSON (`Outline.toJson`).

In JSON a structure is an object of its fields; a case of a type with several cases is an object
with the name of the case as its one key.
-/

namespace ScriptConsole

/-- A tree of names, fields and plain values. -/
inductive Outline where
  /-- A case without fields. -/
  | word (name : String)
  | int (n : Int)
  | float (x : Float)
  | char (c : Char)
  | text (s : String)
  | bool (b : Bool)
  | list (items : List Outline)
  /-- A case with unnamed fields. -/
  | tuple (name : String) (items : List Outline)
  /-- A structure, or a case with named fields. -/
  | record (isCase : Bool) (name : String) (fields : List (String × Outline))

namespace Outline

/-! ### The dump -/

/-- Lines between brackets, each indented one level deeper than the brackets and followed by a
comma. -/
def bracket (indent opening closing : String) (lines : List String) : String :=
  if lines.isEmpty then opening ++ closing
  else
    let line (l : String) := indent ++ "    " ++ l ++ ",\n"
    opening ++ "\n" ++ String.join (lines.map line) ++ indent ++ closing

mutual

/-- The dump at an indentation. -/
def dumpAt (indent : String) : Outline → String
  | word name => name
  | int n => toString n
  | float x => Number.FloatLayout.dump.write x
  | char c => Text.quotedChar c
  | text s => Text.quotedText s
  | bool b => if b then "true" else "false"
  | list items => bracket indent "[" "]" (dumpItems (indent ++ "    ") items)
  | tuple name items => name ++ bracket indent "(" ")" (dumpItems (indent ++ "    ") items)
  | record _ name fields =>
    name ++ " " ++ bracket indent "\x7b" "\x7d" (dumpFields (indent ++ "    ") fields)

/-- The dumps of items. -/
def dumpItems (indent : String) : List Outline → List String
  | [] => []
  | item :: rest => dumpAt indent item :: dumpItems indent rest

/-- The dumps of fields, with their names. -/
def dumpFields (indent : String) : List (String × Outline) → List String
  | [] => []
  | (name, item) :: rest => (name ++ ": " ++ dumpAt indent item) :: dumpFields indent rest

end

/-- The dump, over several lines. -/
def dump (o : Outline) : String := dumpAt "" o

/-! ### JSON -/

mutual

/-- The outline as a JSON document. -/
def toJson : Outline → Json
  | word name => .text name
  | int n => if n < 0 then .number (.negative (Int64.ofInt n)) else .ofNat n.toNat
  | float x => .ofFloat x
  | char c => .text (String.singleton c)
  | text s => .text s
  | bool b => .bool b
  | list items => .array (toJsonItems items)
  | tuple name [item] => .object [(name, toJson item)]
  | tuple name items => .object [(name, .array (toJsonItems items))]
  | record true name fields => .object [(name, .object (toJsonFields fields))]
  | record false _ fields => .object (toJsonFields fields)

/-- The documents of items. -/
def toJsonItems : List Outline → List Json
  | [] => []
  | item :: rest => toJson item :: toJsonItems rest

/-- The entries of fields. -/
def toJsonFields : List (String × Outline) → List (String × Json)
  | [] => []
  | (name, item) :: rest => (name, toJson item) :: toJsonFields rest

end

end Outline

/-! ### Outlines of the parts of a program -/

namespace Span

/-- The outline of a span. -/
def outline (s : Span) : Outline :=
  .record false "Span" [("start", .int s.start), ("end", .int s.stop)]

end Span

namespace Ident

/-- The outline of a name. -/
def outline (name : Ident) : Outline :=
  .record false "Ident" [("text", .text name.text), ("span", name.span.outline)]

end Ident

namespace Literal

/-- The outline of a literal. -/
def outline : Literal → Outline
  | int n => .tuple "Int" [.int n.toInt]
  | long n => .tuple "Long" [.int n.toInt]
  | float x => .tuple "Float" [.float x]
  | char c => .tuple "Char" [.char c]
  | text s => .tuple "Str" [.text s]
  | bool b => .tuple "Bool" [.bool b]
  | null => .word "Null"

end Literal

namespace UnaryOp

/-- The outline of an operator. -/
def outline : UnaryOp → Outline
  | not => .word "Not"
  | negate => .word "Neg"

end UnaryOp

namespace BinaryOp

/-- The outline of an operator. -/
def outline : BinaryOp → Outline
  | eitherOr => .word "Or"
  | bothAnd => .word "And"
  | equal => .word "Eq"
  | notEqual => .word "Ne"
  | less => .word "Lt"
  | lessEqual => .word "Le"
  | greater => .word "Gt"
  | greaterEqual => .word "Ge"
  | add => .word "Add"
  | subtract => .word "Sub"
  | multiply => .word "Mul"
  | divide => .word "Div"
  | remainder => .word "Rem"

end BinaryOp

namespace Expr

mutual

/-- The outline of an expression. -/
def outline : Expr → Outline
  | literal v s => .tuple "Lit" [v.outline, s.outline]
  | var name => .tuple "Var" [name.outline]
  | assign name value s =>
    .record true "Assign"
      [("name", name.outline), ("value", outline value), ("span", s.outline)]
  | func params body s =>
    .record true "Func"
      [("params", .list (params.map Ident.outline)), ("body", .list (outlines body)),
        ("span", s.outline)]
  | call callee args s =>
    .record true "Call"
      [("callee", outline callee), ("args", .list (outlines args)), ("span", s.outline)]
  | hostPath segments s =>
    .record true "HostPath"
      [("segments", .list (segments.map Ident.outline)), ("span", s.outline)]
  | member target name s =>
    .record true "Member"
      [("target", outline target), ("name", name.outline), ("span", s.outline)]
  | unary op operand s =>
    .record true "Unary" [("op", op.outline), ("expr", outline operand), ("span", s.outline)]
  | binary left op right s =>
    .record true "Binary"
      [("lhs", outline left), ("op", op.outline), ("rhs", outline right), ("span", s.outline)]
  | paren inner s => .record true "Paren" [("inner", outline inner), ("span", s.outline)]

/-- The outlines of expressions. -/
def outlines : List Expr → List Outline
  | [] => []
  | e :: rest => outline e :: outlines rest

end

end Expr

namespace Program

/-- The outline of a program. -/
def outline (p : Program) : Outline :=
  .record false "Program"
    [("stmts", .list (Expr.outlines p.statements)), ("span", p.span.outline)]

end Program

end ScriptConsole
