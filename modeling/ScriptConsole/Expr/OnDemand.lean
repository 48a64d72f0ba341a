import ScriptConsole.Expr.Parser
import ScriptConsole.Token.Feed

/-!
# Parsing on Demand

The grammar of `ScriptConsole.Expr.Parser`, read from a feed: tokens come one at a time, and no more
of them are asked for than the decision at hand needs. A source text is parsed while it is being
read, so a malformed token ends the parse when the parser gets to it and not before.

Loops repeat a round that says whether there was anything to read (`Drawing.many`). A round that
reads something takes a token, so that a feed bounds the number of rounds.

`Program.ofSource` is the program of a source text.
-/

namespace ScriptConsole

/-- A reader of tokens from a feed. -/
abbrev Drawing (σ : Type) (α : Type) := StateT (Feed σ) (Except SourceError) α

namespace Drawing

section

variable {σ α β : Type} {feed : Feed σ} {x : Drawing σ α} {f : α → Drawing σ β}

/-- Behind a result the second reader goes on. -/
theorem bind_ok {a : α} {rest : Feed σ} (h : x feed = .ok (a, rest)) :
    (x >>= f) feed = f a rest := by
  show (x feed >>= fun p => f p.1 p.2) = _
  rw [h]
  rfl

/-- What follows a reader that failed is not read. -/
theorem bind_error {e : SourceError} (h : x feed = .error e) : (x >>= f) feed = .error e := by
  show (x feed >>= fun p => f p.1 p.2) = _
  rw [h]
  rfl

end

variable {σ α : Type} [Supply σ]

/-- The token that stands `n` tokens behind the one in front. -/
def ahead (n : Nat) : Drawing σ Token := fun feed => (feed.peek n).mapError .lex

/-- The token in front. -/
def current : Drawing σ Token := ahead 0

/-- Takes the token in front. -/
def take : Drawing σ Token := fun feed => feed.take.mapError .lex

/-- The error that points at the token in front. -/
def refuse (wanted : Wanted) : Drawing σ α := do
  let t ← current
  throw (.parse (.unexpected wanted t))

/-- The error that points at the token in front and says that the levels are used up. -/
def refuseDepth : Drawing σ α := do
  let t ← current
  throw (.parse (.tooDeep t.span))

/-- What rounds read until there is nothing more to read. A round that took nothing is the last. -/
def many (round : Drawing σ (Option α)) : Drawing σ (List α) := fun feed =>
  match round feed with
  | .error e => .error e
  | .ok (none, rest) => .ok ([], rest)
  | .ok (some a, rest) =>
    if rest.size < feed.size then
      match many round rest with
      | .error e => .error e
      | .ok (more, rest) => .ok (a :: more, rest)
    else .ok ([a], rest)
termination_by feed => feed.size

/-! ### Single tokens and lists -/

/-- A symbol. -/
def symbol (s : Token.Symbol) : Drawing σ Token := do
  let t ← current
  if t.kind.isSymbol s then take else refuse (.symbol s)

/-- A name. -/
def ident : Drawing σ Ident := do
  let t ← current
  match t.kind.name? with
  | some text =>
    let t ← take
    return ⟨text, t.span⟩
  | none => refuse .identifier

/-- An item behind a comma, if there is a comma. -/
def commaItem (item : Drawing σ α) : Drawing σ (Option α) := do
  let t ← current
  if t.kind.isSymbol .comma then
    let _ ← symbol .comma
    let a ← item
    return some a
  else return none

/-- The items behind the first one, and the closing parenthesis. -/
def itemsBehind (item : Drawing σ α) (first : α) : Drawing σ (List α × Token) := do
  let more ← many (commaItem item)
  let close ← symbol .rightParen
  return (first :: more, close)

/-- Items with commas between them up to the closing parenthesis, which comes with them. -/
def items (item : Drawing σ α) : Drawing σ (List α × Token) := do
  let t ← current
  if t.kind.isSymbol .rightParen then
    let close ← symbol .rightParen
    return ([], close)
  else
    let first ← item
    itemsBehind item first

/-! ### Host paths -/

/-- One more segment of a path: a dot goes on only if a name follows it. -/
def segment : Drawing σ (Option Ident) := do
  let t ← current
  if t.kind.isSymbol .dot then
    let u ← ahead 1
    if u.kind.name?.isSome then
      let _ ← symbol .dot
      let name ← ident
      return some name
    else return none
  else return none

/-- A host path: names with a dot before each. -/
def hostPath : Drawing σ Expr := do
  let dot ← symbol .dot
  let first ← ident
  let more ← many segment
  let start := dot.span.start
  return .hostPath (first :: more) ⟨start, Parser.lastStop start (first :: more)⟩

/-! ### Statements and function literals -/

/-- Whether a statement starts with a name and `=`. -/
def isAssignment : Drawing σ Bool := do
  let t ← current
  if t.kind.name?.isNone then return false
  else
    let u ← ahead 1
    return u.kind.isSymbol .assign

/-- A statement without its semicolon. -/
def statement (expression : Drawing σ Expr) : Drawing σ Expr := do
  if ← isAssignment then
    let name ← ident
    let _ ← symbol .assign
    let value ← expression
    return .assign name value (name.span.join value.span)
  else expression

/-- A statement with its semicolon. -/
def closedStatement (expression : Drawing σ Expr) : Drawing σ Expr := do
  let s ← statement expression
  let _ ← symbol .semicolon
  return s

/-- One more statement, unless a token says that there are no more. -/
def statementUnless (ends : Token.Kind → Bool) (expression : Drawing σ Expr) :
    Drawing σ (Option Expr) := do
  let t ← current
  if ends t.kind then return none
  else
    let s ← closedStatement expression
    return some s

/-- Statements up to the closing brace, which comes with them. -/
def block (expression : Drawing σ Expr) : Drawing σ (List Expr × Token) := do
  let body ← many (statementUnless (fun k => k.isSymbol .rightBrace) expression)
  let close ← symbol .rightBrace
  return (body, close)

/-- Whether the parenthesis in front opens a function literal. -/
def isFunction : Drawing σ Bool := do
  let t ← ahead 1
  if t.kind.isSymbol .rightParen then return true
  else if t.kind.name?.isNone then return false
  else
    let u ← ahead 2
    if u.kind.isSymbol .comma then return true
    else if !u.kind.isSymbol .rightParen then return false
    else
      let v ← ahead 3
      return v.kind.isSymbol .leftBrace

/-- A function literal: parameters in parentheses and a block in braces. -/
def function (expression : Drawing σ Expr) : Drawing σ Expr := do
  let start ← symbol .leftParen
  let params ← items ident
  let _ ← symbol .leftBrace
  let body ← block expression
  return .func params.1 body.1 ⟨start.span.start, body.2.span.stop⟩

/-! ### Primaries -/

/-- An expression in parentheses. -/
def parenthesised (expression : Drawing σ Expr) : Drawing σ Expr := do
  let start ← symbol .leftParen
  let inner ← expression
  let close ← symbol .rightParen
  return .paren inner ⟨start.span.start, close.span.stop⟩

/-- A primary. `expression` reads the expressions inside it, from the precedence it is given. -/
def primary (expression : Nat → Drawing σ Expr) : Drawing σ Expr := do
  let t ← current
  match t.kind with
  | .literal v =>
    let t ← take
    return .literal v t.span
  | .name _ =>
    let name ← ident
    return .var name
  | .eof => refuse .expression
  | .symbol s =>
    match Parser.unaryOp? s with
    | some op =>
      let t ← take
      let operand ← expression Parser.tightest
      return .unary op operand (t.span.join operand.span)
    | none =>
      if s = .dot then hostPath
      else if s = .leftParen then
        if ← isFunction then function (expression 0) else parenthesised (expression 0)
      else refuse .expression

/-! ### Expressions -/

/-- An expression with one more link, which the token in front starts. -/
def extend (expression : Nat → Drawing σ Expr) (link : Parser.Link) (left : Expr) :
    Drawing σ Expr := do
  let _ ← take
  match link with
  | .call =>
    let args ← items (expression 0)
    return .call left args.1 ⟨left.span.start, args.2.span.stop⟩
  | .member =>
    let name ← ident
    return .member left name (left.span.join name.span)
  | .operator op =>
    let right ← expression (op.precedence + 1)
    return .binary left op right (left.span.join right.span)

mutual

/-- An expression whose operators bind at least as tightly as `least`, in at most `levels`
levels. -/
def expression : (levels least : Nat) → Drawing σ Expr
  | 0, _ => refuseDepth
  | levels + 1, least => do
    let left ← primary (expression levels)
    links levels least left

/-- An expression with all links that follow it and bind tightly enough, in at most `levels` more
levels. -/
def links : (levels least : Nat) → Expr → Drawing σ Expr
  | 0, least, left => do
    let t ← current
    match Parser.link? least t.kind with
    | none => return left
    | some _ => refuseDepth
  | levels + 1, least, left => do
    let t ← current
    match Parser.link? least t.kind with
    | none => return left
    | some link =>
      let longer ← extend (expression levels) link left
      links levels least longer

end

/-! ### Programs -/

/-- A program: statements up to the end of the input. -/
def program : Drawing σ Program := do
  let first ← current
  let body ← many (statementUnless Token.Kind.isEof (expression nestingLimit 0))
  let last ← current
  return ⟨body, ⟨first.span.start, last.span.stop⟩⟩

end Drawing

namespace Program

/-- The program that a supply of tokens gives. -/
def ofSupply {σ : Type} [Supply σ] (supply : σ) : Except SourceError Program :=
  (Drawing.program.run (.ofSupply supply)).map Prod.fst

/-- The program that a source text holds. -/
def ofSource (source : String) : Except SourceError Program := ofSupply (Lexer.ofText source)

end Program

end ScriptConsole
