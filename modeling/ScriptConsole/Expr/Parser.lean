import ScriptConsole.Expr
import ScriptConsole.Reading
import ScriptConsole.Token.Lexer

/-!
# Parsing

The grammar, with its one decision that looks ahead by more than a token:

* a program is a list of statements, each followed by `;`;
* a statement is an assignment if it starts with a name and `=`, and an expression otherwise;
* an expression is a primary followed by links: binary operators with their right operand, calls
  and members. A link by an operator that binds too loosely is left to the expression around;
  calls and members always bind;
* at `(`, a function literal starts if `)`, a name and `,`, or a name, `)` and `{` follow.

Expressions are nested in at most `nestingLimit` levels: every expression takes one level, and so
does every link of it for what comes after and for its own operand or arguments. The levels left
are the argument on which `expression` and `links` recurse. Loops over statements, arguments and
path segments end because each round takes a token (`ScriptConsole.Reading`).

Tokens come with a `Tail`, which says what a parser meets that looks past the last of them: a
malformed token of the source, reported only if the parser gets that far, or an endless supply of
`eof`.
-/

namespace ScriptConsole

/-- What a message says was wanted in place of a token. -/
inductive Wanted where
  | symbol (s : Token.Symbol)
  | identifier
  | expression
  deriving DecidableEq

/-- Why tokens are no program. -/
inductive ParseError where
  | unexpected (wanted : Wanted) (found : Token)
  | tooDeep (place : Span)
  deriving DecidableEq

/-- Why a source text is no program. -/
inductive SourceError where
  | lex (error : LexError)
  | parse (error : ParseError)
  deriving DecidableEq

/-- How many levels of expressions may be nested. -/
def nestingLimit : Nat := 128

/-- The wording for what was wanted. -/
def Wanted.describe : Wanted → String
  | .symbol s => s!"`{s.text}`"
  | .identifier => "identifier"
  | .expression => "expression"

namespace ParseError

/-- The place that the error points at. -/
def span : ParseError → Span
  | .unexpected _ found => found.span
  | .tooDeep place => place

/-- The wording of the error. -/
def message : ParseError → String
  | .unexpected wanted found =>
    let place := found.span
    s!"expected {wanted.describe}, found {found.kind.describe} at {place.start}..{place.stop}"
  | .tooDeep place => s!"expression nesting exceeds {nestingLimit} levels at {place.start}"

end ParseError

/-- The wording of the error itself, without saying which stage found it. -/
def SourceError.cause : SourceError → String
  | .lex e => e.message
  | .parse e => e.message

/-- The wording of the error. -/
def SourceError.message : SourceError → String
  | .lex e => s!"lex error: {e.message}"
  | .parse e => s!"parse error: {e.message}"

/-! ### The end of the tokens -/

/-- What stands behind the last token. -/
inductive Tail where
  | flaw (error : LexError)
  | padding (pos : Nat)

/-- What a parser meets that looks past the last token. -/
def Tail.token : Tail → Except SourceError Token
  | .flaw e => .error (.lex e)
  | .padding pos => .ok ⟨.eof, .empty pos⟩

/-- A reader of tokens. -/
abbrev TokenReader (α : Type) := Reader Token SourceError α

namespace Parser

section

variable (tail : Tail)

/-- The token in front. -/
def current : List Token → Except SourceError Token
  | t :: _ => .ok t
  | [] => tail.token

/-- The token that stands `n` tokens behind the one in front. -/
def ahead (tokens : List Token) (n : Nat) : Except SourceError Token :=
  current tail (tokens.drop n)

/-- The error that points at the token in front. -/
def refuse {α : Type} (wanted : Wanted) (tokens : List Token) : Except SourceError α :=
  match current tail tokens with
  | .error e => .error e
  | .ok t => .error (.parse (.unexpected wanted t))

/-- The error that points at the token in front and says that the levels are used up. -/
def refuseDepth {α : Type} (tokens : List Token) : Except SourceError α :=
  match current tail tokens with
  | .error e => .error e
  | .ok t => .error (.parse (.tooDeep t.span))

/-! ### Single tokens and lists -/

/-- A symbol. -/
def symbol (s : Token.Symbol) : TokenReader Token
  | [] => refuse tail (.symbol s) []
  | t :: rest =>
    if t.kind.isSymbol s then .ok (.first t rest) else refuse tail (.symbol s) (t :: rest)

/-- A name. -/
def ident : TokenReader Ident
  | [] => refuse tail .identifier []
  | t :: rest =>
    match t.kind.name? with
    | some text => .ok ((Reading.first t rest).map fun t => ⟨text, t.span⟩)
    | none => refuse tail .identifier (t :: rest)

/-- Items with commas between them up to the closing parenthesis, at least one of them. The last
token read is the parenthesis. -/
def itemsFrom {α : Type} (item : TokenReader α) (tokens : List Token) :
    Except SourceError (Reading tokens (List α × Token)) :=
  match item tokens with
  | .error e => .error e
  | .ok one =>
    match current tail one.rest with
    | .error e => .error e
    | .ok t =>
      if t.kind.isSymbol .comma then
        match symbol tail .comma one.rest with
        | .error e => .error e
        | .ok comma =>
          match itemsFrom item comma.rest with
          | .error e => .error e
          | .ok more => .ok ((one.after (comma.after more)).map fun m => (one.value :: m.1, m.2))
      else
        match symbol tail .rightParen one.rest with
        | .error e => .error e
        | .ok close => .ok ((one.after close).map fun t => ([one.value], t))
termination_by tokens.length
decreasing_by exact Nat.lt_trans comma.shorter one.shorter

/-- Items with commas between them up to the closing parenthesis. -/
def items {α : Type} (item : TokenReader α) : TokenReader (List α × Token) := fun tokens =>
  match current tail tokens with
  | .error e => .error e
  | .ok t =>
    if t.kind.isSymbol .rightParen then
      (symbol tail .rightParen tokens).map (·.map fun t => ([], t))
    else itemsFrom tail item tokens

/-! ### Host paths -/

/-- The segments of a path behind those read so far: a dot goes on only if a name follows it. -/
def moreSegments {origin : List Token} (segments : Reading origin (List Ident)) :
    Except SourceError (Reading origin (List Ident)) :=
  match h : segments.rest with
  | [] =>
    match tail.token with
    | .error e => .error e
    | .ok _ => .ok segments
  | [dot] =>
    if dot.kind.isSymbol .dot then
      match tail.token with
      | .error e => .error e
      | .ok _ => .ok segments
    else .ok segments
  | dot :: name :: rest =>
    match dot.kind.isSymbol .dot, name.kind.name? with
    | true, some text =>
      moreSegments ⟨segments.value ++ [⟨text, name.span⟩], rest, by
        have := segments.shorter
        simp only [h, List.length_cons] at this
        omega⟩
    | _, _ => .ok segments
termination_by segments.rest.length
decreasing_by simp only [h, List.length_cons]; omega

/-- The place where the last of some names ends. -/
def lastStop (default : Nat) : List Ident → Nat
  | [] => default
  | [name] => name.span.stop
  | _ :: rest => lastStop default rest

/-- A host path: names with a dot before each. -/
def hostPath : TokenReader Expr := fun tokens =>
  match symbol tail .dot tokens with
  | .error e => .error e
  | .ok dot =>
    match ident tail dot.rest with
    | .error e => .error e
    | .ok one =>
      match moreSegments tail ((dot.after one).map fun name => [name]) with
      | .error e => .error e
      | .ok path =>
        let start := dot.value.span.start
        .ok (path.map fun names => .hostPath names ⟨start, lastStop start names⟩)

/-! ### Statements and function literals -/

/-- Whether a statement starts with a name and `=`. -/
def isAssignment (tokens : List Token) : Except SourceError Bool :=
  match current tail tokens with
  | .error e => .error e
  | .ok t =>
    if t.kind.name?.isNone then .ok false
    else
      match ahead tail tokens 1 with
      | .error e => .error e
      | .ok u => .ok (u.kind.isSymbol .assign)

/-- A statement without its semicolon. -/
def statement (expression : TokenReader Expr) : TokenReader Expr := fun tokens =>
  match isAssignment tail tokens with
  | .error e => .error e
  | .ok false => expression tokens
  | .ok true =>
    match ident tail tokens with
    | .error e => .error e
    | .ok name =>
      match symbol tail .assign name.rest with
      | .error e => .error e
      | .ok sign =>
        match expression sign.rest with
        | .error e => .error e
        | .ok value =>
          .ok ((name.after (sign.after value)).map fun v =>
            .assign name.value v (name.value.span.join v.span))

/-- A statement with its semicolon. -/
def closedStatement (expression : TokenReader Expr) : TokenReader Expr := fun tokens =>
  match statement tail expression tokens with
  | .error e => .error e
  | .ok s =>
    match symbol tail .semicolon s.rest with
    | .error e => .error e
    | .ok semi => .ok ((s.after semi).map fun _ => s.value)

/-- Statements up to the closing brace, which is the last token read. -/
def block (expression : TokenReader Expr) (tokens : List Token) :
    Except SourceError (Reading tokens (List Expr × Token)) :=
  match current tail tokens with
  | .error e => .error e
  | .ok t =>
    if t.kind.isSymbol .rightBrace then
      (symbol tail .rightBrace tokens).map (·.map fun t => ([], t))
    else
      match closedStatement tail expression tokens with
      | .error e => .error e
      | .ok s =>
        match block expression s.rest with
        | .error e => .error e
        | .ok more => .ok ((s.after more).map fun m => (s.value :: m.1, m.2))
termination_by tokens.length
decreasing_by exact s.shorter

/-- Whether the parenthesis in front opens a function literal. -/
def isFunction (tokens : List Token) : Except SourceError Bool :=
  match ahead tail tokens 1 with
  | .error e => .error e
  | .ok t =>
    if t.kind.isSymbol .rightParen then .ok true
    else if t.kind.name?.isNone then .ok false
    else
      match ahead tail tokens 2 with
      | .error e => .error e
      | .ok u =>
        if u.kind.isSymbol .comma then .ok true
        else if !u.kind.isSymbol .rightParen then .ok false
        else
          match ahead tail tokens 3 with
          | .error e => .error e
          | .ok v => .ok (v.kind.isSymbol .leftBrace)

/-- A function literal: parameters in parentheses and a block in braces. -/
def function (expression : TokenReader Expr) : TokenReader Expr := fun tokens =>
  match symbol tail .leftParen tokens with
  | .error e => .error e
  | .ok start =>
    match items tail (ident tail) start.rest with
    | .error e => .error e
    | .ok params =>
      match symbol tail .leftBrace params.rest with
      | .error e => .error e
      | .ok brace =>
        match block tail expression brace.rest with
        | .error e => .error e
        | .ok body =>
          .ok ((start.after (params.after (brace.after body))).map fun b =>
            .func params.value.1 b.1 ⟨start.value.span.start, b.2.span.stop⟩)

/-! ### Primaries -/

/-- The operator before one operand that a symbol stands for. -/
def unaryOp? : Token.Symbol → Option UnaryOp
  | .bang => some .not
  | .minus => some .negate
  | _ => none

/-- The operator between two operands that a symbol stands for. -/
def binaryOp? : Token.Symbol → Option BinaryOp
  | .eitherOr => some .eitherOr
  | .bothAnd => some .bothAnd
  | .equal => some .equal
  | .notEqual => some .notEqual
  | .less => some .less
  | .lessEqual => some .lessEqual
  | .greater => some .greater
  | .greaterEqual => some .greaterEqual
  | .plus => some .add
  | .minus => some .subtract
  | .star => some .multiply
  | .slash => some .divide
  | .percent => some .remainder
  | _ => none

/-- The precedence at which no operator binds any more. -/
def tightest : Nat := 7

/-- An expression in parentheses. -/
def parenthesised (expression : TokenReader Expr) : TokenReader Expr := fun tokens =>
  match symbol tail .leftParen tokens with
  | .error e => .error e
  | .ok start =>
    match expression start.rest with
    | .error e => .error e
    | .ok inner =>
      match symbol tail .rightParen inner.rest with
      | .error e => .error e
      | .ok close =>
        .ok ((start.after (inner.after close)).map fun t =>
          .paren inner.value ⟨start.value.span.start, t.span.stop⟩)

/-- A primary. `expression` reads the expressions inside it, from the precedence it is given. -/
def primary (expression : Nat → TokenReader Expr) : TokenReader Expr
  | [] => refuse tail .expression []
  | t :: rest =>
    match t.kind with
    | .literal v => .ok ((Reading.first t rest).map fun t => .literal v t.span)
    | .name text => .ok ((Reading.first t rest).map fun t => .var ⟨text, t.span⟩)
    | .eof => refuse tail .expression (t :: rest)
    | .symbol s =>
      match unaryOp? s with
      | some op =>
        match expression tightest rest with
        | .error e => .error e
        | .ok operand =>
          .ok (((Reading.first t rest).after operand).map fun x =>
            .unary op x (t.span.join x.span))
      | none =>
        if s = .dot then hostPath tail (t :: rest)
        else if s = .leftParen then
          match isFunction tail (t :: rest) with
          | .error e => .error e
          | .ok true => function tail (expression 0) (t :: rest)
          | .ok false => parenthesised tail (expression 0) (t :: rest)
        else refuse tail .expression (t :: rest)

/-! ### Expressions -/

/-- What goes on an expression. -/
inductive Link where
  | call
  | member
  | operator (op : BinaryOp)
  deriving DecidableEq

/-- The link that a token starts, if it binds at least as tightly as asked. -/
def link? (least : Nat) : Token.Kind → Option Link
  | .symbol s =>
    if s = .leftParen then some .call
    else if s = .dot then some .member
    else
      match binaryOp? s with
      | some op => if least ≤ op.precedence then some (.operator op) else none
      | none => none
  | _ => none

/-- An expression with one more link. The first token read is the one that starts the link. -/
def extend (expression : Nat → TokenReader Expr) (link : Link) {origin : List Token}
    (left : Reading origin Expr) : Except SourceError (Reading origin Expr) :=
  match h : left.rest with
  | [] => refuse tail .expression []
  | t :: rest =>
    let start : Reading left.rest Token := ⟨t, rest, by rw [h]; exact Nat.lt_succ_self _⟩
    match link with
    | .call =>
      match items tail (expression 0) start.rest with
      | .error e => .error e
      | .ok args =>
        .ok ((left.after (start.after args)).map fun a =>
          .call left.value a.1 ⟨left.value.span.start, a.2.span.stop⟩)
    | .member =>
      match ident tail start.rest with
      | .error e => .error e
      | .ok name =>
        .ok ((left.after (start.after name)).map fun n =>
          .member left.value n (left.value.span.join n.span))
    | .operator op =>
      match expression (op.precedence + 1) start.rest with
      | .error e => .error e
      | .ok right =>
        .ok ((left.after (start.after right)).map fun r =>
          .binary left.value op r (left.value.span.join r.span))

mutual

/-- An expression whose operators bind at least as tightly as `least`, in at most `levels`
levels. -/
def expression : (levels least : Nat) → TokenReader Expr
  | 0, _, tokens => refuseDepth tail tokens
  | levels + 1, least, tokens =>
    match primary tail (expression levels) tokens with
    | .error e => .error e
    | .ok left => links levels least left

/-- An expression with all links that follow it and bind tightly enough, in at most `levels` more
levels. -/
def links : (levels least : Nat) → {origin : List Token} → Reading origin Expr →
    Except SourceError (Reading origin Expr)
  | 0, least, _, left =>
    match current tail left.rest with
    | .error e => .error e
    | .ok t =>
      match link? least t.kind with
      | none => .ok left
      | some _ => refuseDepth tail left.rest
  | levels + 1, least, _, left =>
    match current tail left.rest with
    | .error e => .error e
    | .ok t =>
      match link? least t.kind with
      | none => .ok left
      | some link =>
        match extend tail (expression levels) link left with
        | .error e => .error e
        | .ok longer => links levels least longer

end

/-! ### Programs -/

/-- Statements up to the end of the input, with the token that ends it. -/
def statements (expression : TokenReader Expr) (tokens : List Token) :
    Except SourceError (List Expr × Token) :=
  match current tail tokens with
  | .error e => .error e
  | .ok t =>
    if t.kind.isEof then .ok ([], t)
    else
      match closedStatement tail expression tokens with
      | .error e => .error e
      | .ok s =>
        match statements expression s.rest with
        | .error e => .error e
        | .ok (more, last) => .ok (s.value :: more, last)
termination_by tokens.length
decreasing_by exact s.shorter

/-- The program that some tokens make up. -/
def program (tokens : List Token) : Except SourceError Program :=
  match current tail tokens with
  | .error e => .error e
  | .ok first =>
    match statements tail (expression tail nestingLimit 0) tokens with
    | .error e => .error e
    | .ok (body, last) => .ok ⟨body, ⟨first.span.start, last.span.stop⟩⟩

end

end Parser

/-- The place where the last of some tokens ends. -/
def lastStop (tokens : List Token) : Nat :=
  match tokens.getLast? with
  | some t => t.span.stop
  | none => 0

namespace Program

/-- The program that some tokens make up. The tokens need not end with `eof`. -/
def ofTokens (tokens : List Token) : Except SourceError Program :=
  Parser.program (.padding (lastStop tokens)) tokens

/-- The program that the tokens of a text make up. A malformed token is reported only if nothing
before it is wrong. -/
def ofLexed (lexed : Lexed) : Except SourceError Program :=
  match lexed with
  | ⟨tokens, some e⟩ => Parser.program (.flaw e) tokens
  | ⟨tokens, none⟩ => ofTokens tokens

end Program

end ScriptConsole
