import ScriptConsole.Expr.Parser

/-!
# The Written Form of a Tree

Every tree has one written form, the kinds of the tokens that spell it out: each form of
expression in its own notation, parentheses where the tree has a node for them and nowhere else,
and a semicolon behind every statement. `Expr.written` and `Program.written` are the other side of
the parser, which `ScriptConsole.Proofs.Syntax.Soundness` and
`ScriptConsole.Proofs.Syntax.Completeness` compare with it.

A tree is **canonical** (`Expr.Canonical`) if its written form can mean nothing but the tree: an
operator has operands that bind tightly enough to do without parentheses, calls and members stand
behind expressions that need none, a path is followed by no member, which would prolong it, and
assignments are whole statements.

## Main results

* `Parser.binaryOp?_eq_some_iff`, `Parser.unaryOp?_eq_some_iff`: the parser knows the operators by
  the symbols with which they are written.
* `Expr.eof_notMem_written`: no written form contains the end of the input.
-/

namespace ScriptConsole

open Token (Kind)

/-! ### Kinds of tokens -/

/-- The kinds of some tokens. -/
abbrev kinds (tokens : List Token) : List Kind := tokens.map Token.kind

/-- Whether a kind of token goes on past the end of the input. -/
def Token.Kind.isMore (k : Kind) : Bool := !k.isEof

/-- The test for a symbol is right. -/
theorem Token.Kind.isSymbol_iff {k : Kind} {s : Token.Symbol} :
    k.isSymbol s = true ↔ k = .symbol s := by
  cases k <;> simp [isSymbol]

/-- So is the look for the text of a name. -/
theorem Token.Kind.name?_eq_some_iff {k : Kind} {text : String} :
    k.name? = some text ↔ k = .name text := by
  cases k <;> simp [name?]

/-- So is the test for the end. -/
theorem Token.Kind.isEof_iff {k : Kind} : k.isEof = true ↔ k = .eof := by
  cases k <;> simp [isEof]

/-! ### Operators -/

/-- The symbol with which the operator is written. -/
def UnaryOp.token : UnaryOp → Token.Symbol
  | not => .bang
  | negate => .minus

/-- The symbol with which the operator is written. -/
def BinaryOp.token : BinaryOp → Token.Symbol
  | eitherOr => .eitherOr
  | bothAnd => .bothAnd
  | equal => .equal
  | notEqual => .notEqual
  | less => .less
  | lessEqual => .lessEqual
  | greater => .greater
  | greaterEqual => .greaterEqual
  | add => .plus
  | subtract => .minus
  | multiply => .star
  | divide => .slash
  | remainder => .percent

/-- A unary operator is known by its symbol. -/
theorem Parser.unaryOp?_eq_some_iff {s : Token.Symbol} {op : UnaryOp} :
    unaryOp? s = some op ↔ s = op.token := by
  cases s <;> cases op <;> simp [unaryOp?, UnaryOp.token]

/-- So is a binary one. -/
theorem Parser.binaryOp?_eq_some_iff {s : Token.Symbol} {op : BinaryOp} :
    binaryOp? s = some op ↔ s = op.token := by
  cases s <;> cases op <;> simp [binaryOp?, BinaryOp.token]

/-- The symbol of a unary operator stands for it. -/
@[simp] theorem Parser.unaryOp?_token (op : UnaryOp) : unaryOp? op.token = some op :=
  unaryOp?_eq_some_iff.mpr rfl

/-- Operators bind more loosely than nothing does. -/
theorem BinaryOp.precedence_lt_tightest (op : BinaryOp) : op.precedence < Parser.tightest := by
  cases op <;> decide

/-! ### Written forms -/

/-- Written forms with commas between them. -/
def separated : List (List Kind) → List Kind
  | [] => []
  | [one] => one
  | one :: more => one ++ .symbol .comma :: separated more

/-- A comma stands between the first form and the others. -/
theorem separated_cons {one : List Kind} {more : List (List Kind)} (h : more ≠ []) :
    separated (one :: more) = one ++ .symbol .comma :: separated more := by
  cases more with
  | nil => exact absurd rfl h
  | cons two rest => rfl

/-- Written forms with a semicolon behind each. -/
def terminated (forms : List (List Kind)) : List Kind :=
  forms.flatMap fun form => form ++ [.symbol .semicolon]

/-- No statements are written as nothing. -/
@[simp] theorem terminated_nil : terminated [] = [] := rfl

/-- A semicolon stands behind each statement. -/
@[simp] theorem terminated_cons (one : List Kind) (more : List (List Kind)) :
    terminated (one :: more) = one ++ .symbol .semicolon :: terminated more := by
  simp [terminated]

/-- The written form of a name. -/
def Ident.written (name : Ident) : List Kind := [.name name.text]

/-- The written form of a path: a dot before each of its names. -/
def pathWritten (names : List Ident) : List Kind :=
  names.flatMap fun name => .symbol .dot :: name.written

/-- No segments are written as nothing. -/
@[simp] theorem pathWritten_nil : pathWritten [] = [] := rfl

/-- A dot stands in front of each segment. -/
@[simp] theorem pathWritten_cons (name : Ident) (more : List Ident) :
    pathWritten (name :: more) = .symbol .dot :: .name name.text :: pathWritten more := rfl

namespace Expr

mutual

/-- The written form of an expression. -/
def written : Expr → List Kind
  | literal v _ => [.literal v]
  | var name => name.written
  | assign name value _ => name.written ++ .symbol .assign :: value.written
  | func params body _ =>
    .symbol .leftParen :: (separated (params.map Ident.written) ++ .symbol .rightParen ::
      .symbol .leftBrace :: (terminated (writtenEach body) ++ [.symbol .rightBrace]))
  | call callee args _ =>
    callee.written ++ .symbol .leftParen :: (separated (writtenEach args) ++ [.symbol .rightParen])
  | hostPath segments _ => pathWritten segments
  | member target name _ => target.written ++ .symbol .dot :: name.written
  | unary op operand _ => .symbol op.token :: operand.written
  | binary left op right _ => left.written ++ .symbol op.token :: right.written
  | paren inner _ => .symbol .leftParen :: (inner.written ++ [.symbol .rightParen])

/-- The written forms of expressions, each on its own. -/
def writtenEach : List Expr → List (List Kind)
  | [] => []
  | e :: rest => e.written :: writtenEach rest

end

/-- Expressions are written one by one. -/
@[simp] theorem writtenEach_eq_map (es : List Expr) : writtenEach es = es.map written := by
  induction es with
  | nil => rfl
  | cons e rest ih => rw [writtenEach, ih, List.map_cons]

end Expr

/-- The written form of a program. -/
def Program.written (p : Program) : List Kind := terminated (p.statements.map Expr.written)

/-! ### No written form contains the end of the input -/

/-- Commas bring no `eof` in. -/
theorem eof_notMem_separated {forms : List (List Kind)} (h : ∀ form ∈ forms, Kind.eof ∉ form) :
    Kind.eof ∉ separated forms := by
  fun_induction separated forms with
  | case1 => simp
  | case2 one => exact h one (by simp)
  | case3 one more _ ih =>
      have head := h one (by simp)
      have tail := ih fun form mem => h form (by simp [mem])
      simp [head, tail]

/-- Nor do semicolons. -/
theorem eof_notMem_terminated {forms : List (List Kind)} (h : ∀ form ∈ forms, Kind.eof ∉ form) :
    Kind.eof ∉ terminated forms := by
  simp only [terminated, List.mem_flatMap, List.mem_append, not_exists, not_and, not_or]
  exact fun form mem => ⟨h form mem, by simp⟩

/-- Nor does a path. -/
theorem eof_notMem_pathWritten (names : List Ident) : Kind.eof ∉ pathWritten names := by
  simp [pathWritten, Ident.written]

mutual

/-- No expression is written with an `eof`, by recursion on its parts. -/
theorem Expr.eof_notMem_written : (e : Expr) → Kind.eof ∉ e.written
  | .literal _ _ => by simp [written]
  | .var _ => by simp [written, Ident.written]
  | .assign _ value _ => by simp [written, Ident.written, value.eof_notMem_written]
  | .func params body _ => by
      have names : Kind.eof ∉ separated (params.map Ident.written) :=
        eof_notMem_separated (by simp [Ident.written])
      have statements := eof_notMem_terminated (Expr.eof_notMem_writtenEach body)
      simp [written, names] at statements ⊢
      exact statements
  | .call callee args _ => by
      have operands := eof_notMem_separated (Expr.eof_notMem_writtenEach args)
      simp [written, callee.eof_notMem_written] at operands ⊢
      exact operands
  | .hostPath segments _ => by simpa [written] using eof_notMem_pathWritten segments
  | .member target _ _ => by simp [written, Ident.written, target.eof_notMem_written]
  | .unary _ operand _ => by simp [written, operand.eof_notMem_written]
  | .binary left _ right _ => by
      simp [written, left.eof_notMem_written, right.eof_notMem_written]
  | .paren inner _ => by simp [written, inner.eof_notMem_written]

/-- Nor are several. -/
theorem Expr.eof_notMem_writtenEach : (es : List Expr) → ∀ form ∈ writtenEach es, Kind.eof ∉ form
  | [] => by simp [writtenEach]
  | e :: rest => by
      have tail := Expr.eof_notMem_writtenEach rest
      simp only [writtenEach, List.mem_cons, forall_eq_or_imp]
      exact ⟨e.eof_notMem_written, tail⟩

end

/-- No written form of a program contains the end of the input. -/
theorem Program.eof_notMem_written (p : Program) : Kind.eof ∉ p.written :=
  eof_notMem_terminated (by simp [Expr.eof_notMem_written])

/-! ### Canonical trees -/

namespace Expr

/-- The operator of an expression that is a bare operation between two operands. -/
def operator? : Expr → Option BinaryOp
  | binary _ op _ _ => some op
  | _ => none

/-- Whether an expression is a bare operation on one or two operands. -/
def isOperation : Expr → Bool
  | unary _ _ _ => true
  | binary _ _ _ _ => true
  | _ => false

/-- Whether an expression is a bare path. -/
def isHostPath : Expr → Bool
  | hostPath _ _ => true
  | _ => false

/-- The expression in a statement: the value of an assignment, and else the statement itself. -/
def content : Expr → Expr
  | assign _ value _ => value
  | e => e

/-- Whether an expression may stand without parentheses where operators have to bind at least as
tightly as `least`. -/
def BindsAt (least : Nat) (e : Expr) : Prop :=
  ∀ op, e.operator? = some op → least ≤ op.precedence

/-- The **canonical** expressions. The left operand of an operator is no bare operation that binds
more loosely, and its right operand none that binds as loosely or more loosely. -/
inductive Canonical : Expr → Prop
  | literal {v : Literal} {s : Span} : Canonical (.literal v s)
  | var {name : Ident} : Canonical (.var name)
  | func {params : List Ident} {body : List Expr} {s : Span} :
      (∀ e ∈ body, Canonical e.content) → Canonical (.func params body s)
  | call {callee : Expr} {args : List Expr} {s : Span} :
      Canonical callee → callee.isOperation = false → (∀ e ∈ args, Canonical e) →
      Canonical (.call callee args s)
  | hostPath {segments : List Ident} {s : Span} :
      segments ≠ [] → Canonical (.hostPath segments s)
  | member {target : Expr} {name : Ident} {s : Span} :
      Canonical target → target.isOperation = false → target.isHostPath = false →
      Canonical (.member target name s)
  | unary {op : UnaryOp} {operand : Expr} {s : Span} :
      Canonical operand → operand.operator? = none → Canonical (.unary op operand s)
  | binary {left right : Expr} {op : BinaryOp} {s : Span} :
      Canonical left → left.BindsAt op.precedence →
      Canonical right → right.BindsAt (op.precedence + 1) →
      Canonical (.binary left op right s)
  | paren {inner : Expr} {s : Span} : Canonical inner → Canonical (.paren inner s)

/-- Every expression may stand where nothing binds. -/
theorem bindsAt_zero (e : Expr) : e.BindsAt 0 := fun _ _ => Nat.zero_le _

/-- Where no operator binds, no bare operation between two operands may stand. -/
theorem bindsAt_tightest_iff {e : Expr} : e.BindsAt Parser.tightest ↔ e.operator? = none := by
  constructor
  · intro h
    cases hop : e.operator? with
    | none => rfl
    | some op => exact absurd (h op hop) (Nat.not_le.mpr op.precedence_lt_tightest)
  · intro h op hop
    rw [h] at hop
    exact absurd hop (by simp)

/-- An expression without an operator binds everywhere. -/
theorem bindsAt_of_operator? {e : Expr} (h : e.operator? = none) (least : Nat) :
    e.BindsAt least := by
  intro op hop
  rw [h] at hop
  exact absurd hop (by simp)

/-- A canonical expression has no assignment around it. -/
theorem Canonical.content_eq {e : Expr} (h : e.Canonical) : e.content = e := by
  cases h <;> rfl

end Expr

/-- The **canonical** programs: every statement is a canonical expression or assigns one. -/
def Program.Canonical (p : Program) : Prop := ∀ e ∈ p.statements, e.content.Canonical

/-! ### Where an expression may end -/

namespace Parser

/-- An operator goes on with the expression if it binds strongly enough. -/
theorem link?_eq_some_operator_iff {least : Nat} {k : Kind} {op : BinaryOp} :
    link? least k = some (.operator op) ↔ k = .symbol op.token ∧ least ≤ op.precedence := by
  constructor
  · intro h
    cases k with
    | symbol s =>
        simp only [link?] at h
        split at h
        · simp at h
        split at h
        · simp at h
        split at h
        · next op' hop =>
          split at h
          · next hle =>
            obtain rfl : op' = op := by simpa using h
            exact ⟨by rw [binaryOp?_eq_some_iff.mp hop], hle⟩
          · simp at h
        · simp at h
    | _ => simp [link?] at h
  · rintro ⟨rfl, hle⟩
    cases op <;> simp_all [link?, BinaryOp.token, binaryOp?]

/-- So does a parenthesis, as a call. -/
theorem link?_eq_some_call_iff {least : Nat} {k : Kind} :
    link? least k = some .call ↔ k = .symbol .leftParen := by
  cases k with
  | symbol s => cases s <;> simp [link?, binaryOp?]
  | _ => simp [link?]

/-- So does a dot, as a member. -/
theorem link?_eq_some_member_iff {least : Nat} {k : Kind} :
    link? least k = some .member ↔ k = .symbol .dot := by
  cases k with
  | symbol s => cases s <;> simp [link?, binaryOp?]
  | _ => simp [link?]

/-- Whether tokens go on with a further segment of a path. -/
def startsSegment : List Kind → Bool
  | .symbol .dot :: .name _ :: _ => true
  | _ => false

/-- A segment starts with a dot and a name. -/
theorem startsSegment_iff {ks : List Kind} :
    startsSegment ks = true ↔ ∃ text rest, ks = .symbol .dot :: .name text :: rest := by
  constructor
  · intro h
    match ks, h with
    | .symbol .dot :: .name text :: rest, _ => exact ⟨text, rest, rfl⟩
  · rintro ⟨text, rest, rfl⟩
    rfl

end Parser

/-- Whether an expression is complete when `rest` stands behind it: no link there would go to its
last operand, and no segment to the path that it is. -/
def Expr.EndsBefore (rest : List Kind) : Expr → Prop
  | binary _ op _ _ => Parser.link? (op.precedence + 1) (rest.headD .eof) = none
  | unary _ _ _ => Parser.link? Parser.tightest (rest.headD .eof) = none
  | hostPath _ _ => Parser.startsSegment rest = false
  | _ => True

namespace Parser

/-- An operator ends the expression if it binds too weakly. -/
theorem link?_operator_eq_none_iff {least : Nat} {op : BinaryOp} :
    link? least (.symbol op.token) = none ↔ op.precedence < least := by
  cases op <;> simp [link?, BinaryOp.token, binaryOp?]

/-- What binds tightly enough in one place does so where less is asked. -/
theorem link?_eq_none_of_le {least more : Nat} {k : Kind} (h : link? least k = none)
    (le : least ≤ more) : link? more k = none := by
  cases hlink : link? more k with
  | none => rfl
  | some link =>
      cases link with
      | call =>
          obtain rfl := link?_eq_some_call_iff.mp hlink
          exact absurd h (by simp [link?])
      | member =>
          obtain rfl := link?_eq_some_member_iff.mp hlink
          exact absurd h (by simp [link?])
      | operator op =>
          obtain ⟨rfl, hle⟩ := link?_eq_some_operator_iff.mp hlink
          have := link?_operator_eq_none_iff.mp h
          omega

/-- An operator stands behind what may be its left operand. -/
theorem endsBefore_operator_iff {e : Expr} {op : BinaryOp} {rest : List Kind} :
    e.EndsBefore (.symbol op.token :: rest) ↔ e.BindsAt op.precedence := by
  cases e with
  | binary _ op' _ _ =>
      simp only [Expr.EndsBefore, List.headD_cons, link?_operator_eq_none_iff, Expr.BindsAt,
        Expr.operator?, Option.some.injEq, forall_eq']
      omega
  | unary _ _ _ =>
      simp [Expr.EndsBefore, link?_operator_eq_none_iff, Expr.BindsAt, Expr.operator?,
        op.precedence_lt_tightest]
  | hostPath _ _ =>
      cases op <;>
        simp [Expr.EndsBefore, startsSegment, BinaryOp.token, Expr.BindsAt, Expr.operator?]
  | _ => simp [Expr.EndsBefore, Expr.BindsAt, Expr.operator?]

/-- The arguments of a call stand behind what may be called. -/
theorem endsBefore_call_iff {e : Expr} {rest : List Kind} :
    e.EndsBefore (.symbol .leftParen :: rest) ↔ e.isOperation = false := by
  cases e <;> simp [Expr.EndsBefore, Expr.isOperation, link?, startsSegment]

/-- A member stands behind what may have members. -/
theorem endsBefore_member_iff {e : Expr} {text : String} {rest : List Kind} :
    e.EndsBefore (.symbol .dot :: .name text :: rest) ↔
      e.isOperation = false ∧ e.isHostPath = false := by
  cases e <;> simp [Expr.EndsBefore, Expr.isOperation, Expr.isHostPath, link?, startsSegment]

/-- Where no link follows that would bind, whatever may stand there is complete. -/
theorem endsBefore_of_link?_eq_none {e : Expr} {least : Nat} {rest : List Kind}
    (h : link? least (rest.headD .eof) = none) (binds : e.BindsAt least)
    (le : least ≤ tightest) : e.EndsBefore rest := by
  cases e with
  | binary _ op _ _ =>
      have := binds op rfl
      exact link?_eq_none_of_le h (by omega)
  | unary _ _ _ => exact link?_eq_none_of_le h le
  | hostPath _ _ =>
      refine Bool.eq_false_iff.mpr fun hs => ?_
      obtain ⟨text, more, rfl⟩ := startsSegment_iff.mp hs
      exact absurd h (by simp [link?])
  | _ => trivial

end Parser

end ScriptConsole
