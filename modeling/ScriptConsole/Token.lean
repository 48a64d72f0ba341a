import ScriptConsole.Literal
import ScriptConsole.Number.Layout
import ScriptConsole.Span
import ScriptConsole.Text.Quoted

/-!
# Tokens

A token is the end of the input, a symbol of fixed form, a name, or a literal; the words `true`,
`false` and `null` are literals. `Token.Kind.describe` is the wording for a token in a message.
-/

namespace ScriptConsole

/-- Punctuation and operators. -/
inductive Token.Symbol where
  | leftParen
  | rightParen
  | leftBrace
  | rightBrace
  | comma
  | semicolon
  | dot
  | assign
  | plus
  | minus
  | star
  | slash
  | percent
  | equal
  | notEqual
  | less
  | lessEqual
  | greater
  | greaterEqual
  | bothAnd
  | eitherOr
  | bang
  deriving DecidableEq, Repr

/-- What a token is. -/
inductive Token.Kind where
  | eof
  | symbol (s : Token.Symbol)
  | name (text : String)
  | literal (value : Literal)
  deriving DecidableEq

/-- A token with its place in the source. -/
structure Token where
  kind : Token.Kind
  span : Span
  deriving DecidableEq

namespace Token

/-- How a symbol is written. -/
def Symbol.text : Symbol → String
  | .leftParen => "("
  | .rightParen => ")"
  | .leftBrace => "\x7b"
  | .rightBrace => "\x7d"
  | .comma => ","
  | .semicolon => ";"
  | .dot => "."
  | .assign => "="
  | .plus => "+"
  | .minus => "-"
  | .star => "*"
  | .slash => "/"
  | .percent => "%"
  | .equal => "=="
  | .notEqual => "!="
  | .less => "<"
  | .lessEqual => "<="
  | .greater => ">"
  | .greaterEqual => ">="
  | .bothAnd => "&&"
  | .eitherOr => "||"
  | .bang => "!"

namespace Kind

/-- The wording for a literal in a message. -/
def describeLiteral : Literal → String
  | .int n => s!"integer `{n.toInt}`"
  | .long n => s!"integer `{n.toInt}L`"
  | .float x => s!"float `{Number.FloatLayout.plain.write x}`"
  | .char c => s!"char {Text.quotedChar c}"
  | .text s => s!"string {Text.quotedText s}"
  | .bool true => "`true`"
  | .bool false => "`false`"
  | .null => "`null`"

/-- The wording for a token in a message. -/
def describe : Kind → String
  | .eof => "end of input"
  | .symbol s => s!"`{s.text}`"
  | .name s => s!"identifier `{s}`"
  | .literal v => describeLiteral v

/-- Whether a token ends the input. -/
def isEof : Kind → Bool
  | .eof => true
  | _ => false

/-- Whether a token is the given symbol. -/
def isSymbol (k : Kind) (s : Symbol) : Bool :=
  match k with
  | .symbol t => t = s
  | _ => false

/-- The text of a name. -/
def name? : Kind → Option String
  | .name s => some s
  | _ => none

end Kind

end Token

end ScriptConsole
