import ScriptConsole.Proofs.Syntax.Locality

/-!
# What Readers Refuse, as Relations

The counterpart of `ScriptConsole.Proofs.Syntax.Readings`: a construct of the grammar is refused
where one of its parts is refused, behind those parts that have been read, with the error of that
part. Only single tokens are refused for themselves, and primaries whose first token opens no
expression.

A reader that has come to its end has looked at no more than the kind of the token behind it
(`Parser.Halts`), which is why a refusal there does not depend on anything further back.

## Main results

* `Parser.statement_error_iff`, `Parser.block_error_iff`, `Parser.primary_error_iff` and their like:
  one for each reader of the grammar.
* `Parser.expression_halts`, `Parser.statement_halts`: readers that halt.
-/

namespace ScriptConsole

open Token (Kind)

/-- The kind of the token in front. -/
abbrev front (tokens : List Token) : Kind := (kinds tokens).headD .eof

namespace Parser

variable {α : Type} {tokens rest : List Token} {pos : Nat} {e : SourceError}

/-- The token that a parser meets in front of some tokens. -/
def here (pos : Nat) (tokens : List Token) : Token := tokens.headD ⟨.eof, .empty pos⟩

/-- The error that something was wanted in place of the token in front. -/
def unexpectedAt (wanted : Wanted) (pos : Nat) (tokens : List Token) : SourceError :=
  .parse (.unexpected wanted (here pos tokens))

/-- There always is a current token where the end is padded. -/
theorem current_eq (pos : Nat) (tokens : List Token) :
    current (.padding pos) tokens = .ok (here pos tokens) := by
  cases tokens <;> rfl

/-- Its kind is that of the token in front. -/
theorem kind_here (pos : Nat) (tokens : List Token) : (here pos tokens).kind = front tokens := by
  cases tokens <;> rfl

/-- A refusal blames the token in front. -/
theorem refuse_eq (wanted : Wanted) (pos : Nat) (tokens : List Token) :
    (refuse (.padding pos) wanted tokens : Except SourceError α) =
      .error (unexpectedAt wanted pos tokens) := by
  rw [refuse, current_eq]
  rfl

/-! ### Single tokens -/

/-- A symbol is refused where another kind stands. -/
theorem symbol_error_iff {s : Token.Symbol} :
    symbol (.padding pos) s tokens = .error e ↔
      front tokens ≠ .symbol s ∧ e = unexpectedAt (.symbol s) pos tokens := by
  cases tokens with
  | nil => simp [symbol, refuse_eq, eq_comm]
  | cons t rest =>
      rw [symbol]
      by_cases hs : t.kind = .symbol s
      · simp [hs, Kind.isSymbol]
      · have other : t.kind.isSymbol s = false := Bool.eq_false_iff.mpr (mt Kind.isSymbol_iff.mp hs)
        simp [hs, other, refuse_eq, eq_comm]

/-- It is read where it stands. -/
theorem exists_symbol_of_front (pos : Nat) {s : Token.Symbol}
    (h : (front tokens).isSymbol s = true) :
    ∃ r, symbol (.padding pos) s tokens = .ok r := by
  cases hr : symbol (.padding pos) s tokens with
  | error e => exact absurd (Kind.isSymbol_iff.mp h) (symbol_error_iff.mp hr).1
  | ok r => exact ⟨r, rfl⟩

/-- A name is refused where no name stands. -/
theorem ident_error_iff :
    ident (.padding pos) tokens = .error e ↔
      (front tokens).name? = none ∧ e = unexpectedAt .identifier pos tokens := by
  cases tokens with
  | nil => simp [ident, refuse_eq, eq_comm, Kind.name?]
  | cons t rest =>
      rw [ident]
      cases hs : t.kind.name? with
      | some text => simp [hs]
      | none => simp [hs, refuse_eq, eq_comm]

section reads

variable {x : TokenReader α} {p : α → List Token → Prop}

/-- Where a reader succeeds, what it reads is settled. -/
theorem exists_reads_iff {r : Reading tokens α} (h : x tokens = .ok r) :
    (∃ a rest, Reads x tokens a rest ∧ p a rest) ↔ p r.value r.rest := by
  constructor
  · rintro ⟨_, _, ⟨r', h', rfl, rfl⟩, hp⟩
    obtain rfl := Except.ok.inj (h.symm.trans h')
    exact hp
  · exact fun hp => ⟨_, _, ⟨r, h, rfl, rfl⟩, hp⟩

/-- Where it is refused, it reads nothing. -/
theorem not_reads_of_error (h : x tokens = .error e) {a : α} : ¬Reads x tokens a rest := by
  rintro ⟨r, h', -, -⟩
  cases h.symm.trans h'

end reads

/-! ### Lists of items -/

section items

variable {item : TokenReader α}

/-- A list of items fails in its first item, behind a comma, or for want of the parenthesis. -/
theorem itemsFrom_error_iff :
    itemsFrom (.padding pos) item tokens = .error e ↔
      item tokens = .error e ∨ ∃ a behind, Reads item tokens a behind ∧
        if (front behind).isSymbol .comma then ∃ comma inside,
          Reads (symbol (.padding pos) .comma) behind comma inside ∧
          itemsFrom (.padding pos) item inside = .error e
        else symbol (.padding pos) .rightParen behind = .error e := by
  rw [itemsFrom]
  cases hone : item tokens with
  | error e' => simp [not_reads_of_error hone]
  | ok one =>
      rw [exists_reads_iff hone]
      simp only [current_eq, kind_here, reduceCtorEq, false_or]
      split
      · next comma =>
        obtain ⟨comma, hcomma⟩ := exists_symbol_of_front pos comma
        rw [exists_reads_iff hcomma, hcomma]
        cases hmore : itemsFrom (.padding pos) item comma.rest <;> simp [hmore]
      · cases hclose : symbol (.padding pos) .rightParen one.rest <;> simp

/-- A list that is not empty fails as its items do. -/
theorem items_error_iff :
    items (.padding pos) item tokens = .error e ↔
      (front tokens).isSymbol .rightParen = false ∧
        itemsFrom (.padding pos) item tokens = .error e := by
  simp only [items, current_eq, kind_here]
  cases closes : (front tokens).isSymbol .rightParen with
  | true =>
      cases hclose : symbol (.padding pos) .rightParen tokens with
      | error e' => exact absurd (Kind.isSymbol_iff.mp closes) (symbol_error_iff.mp hclose).1
      | ok close => simp [Except.map]
  | false => simp

end items

/-! ### Host paths -/

/-- A symbol in front is taken alone. -/
theorem symbol_first {s : Token.Symbol} {t : Token} (h : t.kind = .symbol s) :
    symbol (.padding pos) s (t :: rest) = .ok (.first t rest) := by
  rw [symbol, if_pos (Kind.isSymbol_iff.mpr h)]

/-- No token stops a path, which ends in front of whatever is no segment. -/
theorem exists_moreSegments (pos : Nat) {origin : List Token}
    (segments : Reading origin (List Ident)) :
    ∃ r, moreSegments (.padding pos) segments = .ok r := by
  fun_induction moreSegments (.padding pos) segments with
  | case1 segments hrest e h => cases h
  | case3 segments dot hrest hdot e h => cases h
  | case6 segments dot name more hrest text hname hdot ih => exact ih
  | case2 | case4 | case5 | case7 => exact ⟨_, rfl⟩

/-- A path fails for want of a name behind its first dot. -/
theorem hostPath_error_iff {dot : Token} {behind : List Token} (kind : dot.kind = .symbol .dot) :
    hostPath (.padding pos) (dot :: behind) = .error e ↔
      ident (.padding pos) behind = .error e := by
  have first : symbol (.padding pos) .dot (dot :: behind) = .ok (.first dot behind) :=
    symbol_first kind
  simp only [hostPath, first]
  dsimp only [Reading.first]
  cases hone : ident (.padding pos) behind with
  | error e' => simp
  | ok one =>
      obtain ⟨path, hpath⟩ := exists_moreSegments pos
        (((Reading.first dot behind).after one).map fun name => [name])
      simp only [Reading.first] at hpath
      simp [hpath]

/-! ### Statements and function literals -/

section expression

variable {expression : TokenReader Expr}

/-- What an assignment starts with. -/
theorem exists_of_opensAssignment (h : opensAssignment (kinds tokens) = true) :
    ∃ t u behind text, tokens = t :: u :: behind ∧ t.kind = .name text ∧
      u.kind = .symbol .assign := by
  match tokens with
  | [] => cases h
  | [t] =>
      rw [kinds, List.map_cons, opensAssignment_cons] at h
      simp [Kind.isSymbol] at h
  | t :: u :: behind =>
      rw [kinds, List.map_cons, opensAssignment_cons, Bool.and_eq_true, Option.isSome_iff_exists]
        at h
      obtain ⟨⟨text, named⟩, assigned⟩ := h
      exact ⟨t, u, behind, text, rfl, Kind.name?_eq_some_iff.mp named,
        Kind.isSymbol_iff.mp assigned⟩

/-- A statement fails in its one expression, behind the sign of an assignment or without it. -/
theorem statement_error_iff :
    statement (.padding pos) expression tokens = .error e ↔
      if opensAssignment (kinds tokens) then ∃ name behind,
        Reads (ident (.padding pos)) tokens name behind ∧ ∃ sign inside,
          Reads (symbol (.padding pos) .assign) behind sign inside ∧ expression inside = .error e
      else expression tokens = .error e := by
  simp only [statement, isAssignment_eq]
  cases opens : opensAssignment (kinds tokens) with
  | false => rfl
  | true =>
      obtain ⟨t, u, behind, text, rfl, named, assigned⟩ := exists_of_opensAssignment opens
      have hname : ident (.padding pos) (t :: u :: behind) =
          .ok ((Reading.first t (u :: behind)).map fun t => ⟨text, t.span⟩) := by
        rw [ident, Kind.name?_eq_some_iff.mpr named]
      rw [if_pos rfl, exists_reads_iff hname]
      simp only [hname]
      have hsign : symbol (.padding pos) .assign ((Reading.first t (u :: behind)).map
          fun t => (⟨text, t.span⟩ : Ident)).rest = .ok (.first u behind) := symbol_first assigned
      rw [exists_reads_iff hsign, hsign]
      cases hvalue : expression (Reading.first u behind).rest <;> simp [hvalue]

/-- A statement with its semicolon fails in the one or for want of the other. -/
theorem closedStatement_error_iff :
    closedStatement (.padding pos) expression tokens = .error e ↔
      statement (.padding pos) expression tokens = .error e ∨ ∃ s behind,
        Reads (statement (.padding pos) expression) tokens s behind ∧
        symbol (.padding pos) .semicolon behind = .error e := by
  rw [closedStatement]
  cases hs : statement (.padding pos) expression tokens with
  | error e' => simp [not_reads_of_error hs]
  | ok s =>
      rw [exists_reads_iff hs]
      cases hsemi : symbol (.padding pos) .semicolon s.rest <;> simp [hsemi]

/-- A block that does not end fails in its first statement or behind it. -/
theorem block_error_iff :
    block (.padding pos) expression tokens = .error e ↔
      (front tokens).isSymbol .rightBrace = false ∧
        (closedStatement (.padding pos) expression tokens = .error e ∨ ∃ s behind,
          Reads (closedStatement (.padding pos) expression) tokens s behind ∧
          block (.padding pos) expression behind = .error e) := by
  rw [block]
  simp only [current_eq, kind_here]
  cases closes : (front tokens).isSymbol .rightBrace with
  | true =>
      obtain ⟨close, hclose⟩ := exists_symbol_of_front pos closes
      simp [hclose, Except.map]
  | false =>
      cases hs : closedStatement (.padding pos) expression tokens with
      | error e' => simp [not_reads_of_error hs]
      | ok s =>
          rw [exists_reads_iff hs]
          cases hmore : block (.padding pos) expression s.rest <;> simp [hmore]

/-- A function fails in its parameters, for want of the brace, or in its body. -/
theorem function_error_iff {start : Token} {behind : List Token}
    (kind : start.kind = .symbol .leftParen) :
    function (.padding pos) expression (start :: behind) = .error e ↔
      items (.padding pos) (ident (.padding pos)) behind = .error e ∨ ∃ params more,
        Reads (items (.padding pos) (ident (.padding pos))) behind params more ∧
        (symbol (.padding pos) .leftBrace more = .error e ∨ ∃ brace inside,
          Reads (symbol (.padding pos) .leftBrace) more brace inside ∧
          block (.padding pos) expression inside = .error e) := by
  have first : symbol (.padding pos) .leftParen (start :: behind) = .ok (.first start behind) :=
    symbol_first kind
  simp only [function, first]
  dsimp only [Reading.first]
  cases hparams : items (.padding pos) (ident (.padding pos)) behind with
  | error e' => simp [not_reads_of_error hparams]
  | ok params =>
      rw [exists_reads_iff hparams]
      cases hbrace : symbol (.padding pos) .leftBrace params.rest with
      | error e' => simp [hbrace, not_reads_of_error hbrace]
      | ok brace =>
          rw [exists_reads_iff hbrace]
          cases hbody : block (.padding pos) expression brace.rest <;> simp [hbrace, hbody]

/-- An expression in parentheses fails in itself or for want of the second one. -/
theorem parenthesised_error_iff {start : Token} {behind : List Token}
    (kind : start.kind = .symbol .leftParen) :
    parenthesised (.padding pos) expression (start :: behind) = .error e ↔
      expression behind = .error e ∨ ∃ inner more, Reads expression behind inner more ∧
        symbol (.padding pos) .rightParen more = .error e := by
  have first : symbol (.padding pos) .leftParen (start :: behind) = .ok (.first start behind) :=
    symbol_first kind
  simp only [parenthesised, first]
  dsimp only [Reading.first]
  cases hinner : expression behind with
  | error e' => simp [not_reads_of_error hinner]
  | ok inner =>
      rw [exists_reads_iff hinner]
      cases hclose : symbol (.padding pos) .rightParen inner.rest <;> simp [hclose]

/-- Statements up to the end of the input. -/
theorem statements_error_iff :
    statements (.padding pos) expression tokens = .error e ↔
      (front tokens).isEof = false ∧
        (closedStatement (.padding pos) expression tokens = .error e ∨ ∃ s behind,
          Reads (closedStatement (.padding pos) expression) tokens s behind ∧
          statements (.padding pos) expression behind = .error e) := by
  rw [statements]
  simp only [current_eq, kind_here]
  cases ends : (front tokens).isEof with
  | true => simp
  | false =>
      cases hs : closedStatement (.padding pos) expression tokens with
      | error e' => simp [not_reads_of_error hs]
      | ok s =>
          rw [exists_reads_iff hs]
          cases hmore : statements (.padding pos) expression s.rest <;> simp [hmore]

end expression

/-! ### Expressions -/

section levels

variable {expression : Nat → TokenReader Expr}

/-- What a primary is refused for, by the kind of its first token. -/
theorem primary_error_iff :
    primary (.padding pos) expression tokens = .error e ↔
      ((front tokens).opensExpression = false ∧ e = unexpectedAt .expression pos tokens) ∨
        ∃ t behind s, tokens = t :: behind ∧ t.kind = .symbol s ∧
          match unaryOp? s with
          | some _ => expression tightest behind = .error e
          | none =>
            if s = .dot then hostPath (.padding pos) tokens = .error e
            else if s = .leftParen then
              if opensFunction (kinds behind) then
                function (.padding pos) (expression 0) tokens = .error e
              else parenthesised (.padding pos) (expression 0) tokens = .error e
            else False := by
  have refused : ∀ {tokens : List Token},
      (refuse (.padding pos) .expression tokens : Except SourceError (Reading tokens Expr)) =
        .error e ↔ e = unexpectedAt .expression pos tokens := by
    intro tokens
    rw [refuse_eq, Except.error.injEq, eq_comm]
  cases tokens with
  | nil => simp [primary, refused, Kind.opensExpression]
  | cons t behind =>
      rw [primary]
      cases hk : t.kind with
      | literal v => simp [hk, Kind.opensExpression]
      | name text => simp [hk, Kind.opensExpression]
      | eof => simp [hk, Kind.opensExpression, refused]
      | symbol s =>
          -- the token and its symbol that are asked for can only be the ones at hand
          have only : ∀ {p : Token → List Token → Token.Symbol → Prop},
              (∃ u more s', t :: behind = u :: more ∧ u.kind = .symbol s' ∧ p u more s') ↔
                p t behind s := by
            intro p
            constructor
            · rintro ⟨u, more, s', h, hu, hp⟩
              cases h
              obtain rfl := Kind.symbol.inj (hk.symm.trans hu)
              exact hp
            · exact fun hp => ⟨t, behind, s, rfl, hk, hp⟩
          have opens : front (t :: behind) = .symbol s := hk
          rw [only, opens]
          simp only
          cases hop : unaryOp? s with
          | some op =>
              have unary : (Kind.symbol s).opensExpression = true := by
                rw [unaryOp?_eq_some_iff.mp hop]
                cases op <;> rfl
              cases hoperand : expression tightest behind <;> simp [unary]
          | none =>
              simp only
              split
              · next dot => simp [dot, Kind.opensExpression]
              split
              · next paren =>
                have decided : isFunction (.padding pos) (t :: behind) =
                    .ok (opensFunction (kinds behind)) := isFunction_eq pos (t :: behind)
                rw [decided]
                cases opensFunction (kinds behind) <;> simp [paren, Kind.opensExpression]
              · next dot paren =>
                have other : (Kind.symbol s).opensExpression = false := by
                  cases s <;> simp_all [Kind.opensExpression, unaryOp?]
                simp [other, refused]

variable {origin : List Token} {left : Reading origin Expr}

/-- What the link of an expression is refused for, behind the token that starts it. -/
theorem extend_error_iff {link : Link} {t : Token} {behind : List Token}
    (h : left.rest = t :: behind) :
    extend (.padding pos) expression link left = .error e ↔
      match link with
      | .call => items (.padding pos) (expression 0) behind = .error e
      | .member => ident (.padding pos) behind = .error e
      | .operator op => expression (op.precedence + 1) behind = .error e := by
  obtain ⟨a, tokens, shorter⟩ := left
  subst h
  simp only [extend]
  cases link with
  | call => cases hargs : items (.padding pos) (expression 0) behind <;> simp
  | member => cases hname : ident (.padding pos) behind <;> simp
  | operator op => cases hright : expression (op.precedence + 1) behind <;> simp [hright]

end levels

section unexpected

variable {wanted : Wanted} {found : Token}

/-- A refusal for the depth blames no token. -/
theorem refuseDepth_ne_unexpected :
    (refuseDepth (.padding pos) tokens : Except SourceError α) ≠
      .error (.parse (.unexpected wanted found)) := by
  rw [refuseDepth, current_eq]
  simp

/-- The loop over links fails at a token in its first link or behind it. -/
theorem links_unexpected_iff {levels least : Nat} {origin : List Token}
    {left : Reading origin Expr} :
    links (.padding pos) levels least left = .error (.parse (.unexpected wanted found)) ↔
      ∃ link fewer, link? least (front left.rest) = some link ∧ levels = fewer + 1 ∧
        (extend (.padding pos) (expression (.padding pos) fewer) link left =
            .error (.parse (.unexpected wanted found)) ∨
          ∃ longer, extend (.padding pos) (expression (.padding pos) fewer) link left =
              .ok longer ∧
            links (.padding pos) fewer least longer =
              .error (.parse (.unexpected wanted found))) := by
  cases levels with
  | zero =>
      simp only [links, current_eq, kind_here]
      cases hlink : link? least (front left.rest) with
      | none => simp
      | some link => simp [refuseDepth_ne_unexpected]
  | succ levels =>
      simp only [links, current_eq, kind_here]
      cases hlink : link? least (front left.rest) with
      | none => simp
      | some link =>
          cases hlonger : extend (.padding pos) (expression (.padding pos) levels) link left <;>
            simp [hlonger]

/-- An expression fails at a token in its primary or in its links. -/
theorem expression_unexpected_iff {levels least : Nat} :
    expression (.padding pos) levels least tokens = .error (.parse (.unexpected wanted found)) ↔
      ∃ fewer, levels = fewer + 1 ∧
        (primary (.padding pos) (expression (.padding pos) fewer) tokens =
            .error (.parse (.unexpected wanted found)) ∨
          ∃ left, primary (.padding pos) (expression (.padding pos) fewer) tokens = .ok left ∧
            links (.padding pos) fewer least left =
              .error (.parse (.unexpected wanted found))) := by
  cases levels with
  | zero => simp [expression, refuseDepth_ne_unexpected]
  | succ levels =>
      rw [expression]
      cases hleft : primary (.padding pos) (expression (.padding pos) levels) tokens <;>
        simp [hleft]

end unexpected

/-! ### Readers that halt -/

/-- Whether what a reader reads depends on no more than the kind of the token behind it. -/
def Halts (x : Nat → TokenReader α) : Prop :=
  ∀ ⦃pos : Nat⦄ ⦃tokens rest : List Token⦄ ⦃a : α⦄, Reads (x pos) tokens a rest →
    ∃ taken, tokens = taken ++ rest ∧ taken ≠ [] ∧ ∀ (pos' : Nat) (rest' : List Token),
      front rest' = front rest → Reads (x pos') (taken ++ rest') a rest'

/-- A name is read whatever stands behind it. -/
theorem ident_halts : Halts fun pos => ident (.padding pos) := by
  intro pos tokens rest name h
  obtain ⟨t, rfl, kind, span⟩ := (reads_ident pos).mp h
  exact ⟨[t], rfl, List.cons_ne_nil t [], fun pos' rest' _ =>
    (reads_ident pos').mpr ⟨t, rfl, kind, span⟩⟩

/-- What stands in front of a token has the same front with anything behind that has. -/
theorem front_append {taken a b : List Token} (same : front a = front b) :
    front (taken ++ a) = front (taken ++ b) := by
  cases taken with
  | nil => exact same
  | cons t more => rfl

/-- Items are read alike in front of tokens of one kind, if each of them is. -/
theorem itemsFrom_halts {item : Nat → TokenReader α} (halts : Halts item) :
    Halts fun pos => itemsFrom (.padding pos) (item pos) := by
  intro pos tokens rest v h
  induction hn : tokens.length using Nat.strongRecOn generalizing tokens v with
  | _ n ih =>
  subst hn
  obtain ⟨a, behind, first, onward⟩ := (reads_itemsFrom pos).mp h
  have shorter := first.length_lt
  obtain ⟨run, rfl, some, goes⟩ := halts first
  split at onward
  · next comma =>
    obtain ⟨t, inside, more, sign, others, rfl⟩ := onward
    obtain ⟨run', rfl, -, goes'⟩ := ih _ (Nat.lt_trans sign.length_lt shorter) others rfl
    obtain ⟨rfl, kind⟩ := (reads_symbol pos).mp sign
    refine ⟨run ++ t :: run', by simp, by simp, fun pos' rest' same => ?_⟩
    refine (reads_itemsFrom pos').mpr ⟨a, t :: (run' ++ rest'), ?_, ?_⟩
    · simpa using goes pos' (t :: (run' ++ rest')) rfl
    · rw [if_pos (by exact comma)]
      exact ⟨t, _, more, (reads_symbol pos').mpr ⟨rfl, kind⟩, goes' pos' rest' same, rfl⟩
  · next other =>
    obtain ⟨close, closes, rfl⟩ := onward
    obtain ⟨rfl, kind⟩ := (reads_symbol pos).mp closes
    refine ⟨run ++ [close], by simp, by simp, fun pos' rest' same => ?_⟩
    refine (reads_itemsFrom pos').mpr ⟨a, close :: rest', ?_, ?_⟩
    · simpa using goes pos' (close :: rest') rfl
    · rw [if_neg (by exact other)]
      exact ⟨close, (reads_symbol pos').mpr ⟨rfl, kind⟩, rfl⟩

/-- A list of items is read alike in front of tokens of one kind. -/
theorem items_halts {item : Nat → TokenReader α} (halts : Halts item) :
    Halts fun pos => items (.padding pos) (item pos) := by
  intro pos tokens rest v h
  have decided := reads_items pos |>.mp h
  split at decided
  · next closes =>
    obtain ⟨close, closed, rfl⟩ := decided
    obtain ⟨rfl, kind⟩ := (reads_symbol pos).mp closed
    refine ⟨[close], rfl, List.cons_ne_nil close [], fun pos' rest' _ => (reads_items pos').mpr ?_⟩
    rw [if_pos (by exact closes)]
    exact ⟨close, (reads_symbol pos').mpr ⟨rfl, kind⟩, rfl⟩
  · next other =>
    obtain ⟨run, rfl, some, goes⟩ := itemsFrom_halts halts decided
    refine ⟨run, rfl, some, fun pos' rest' same => (reads_items pos').mpr ?_⟩
    obtain ⟨t, more, rfl⟩ := List.exists_cons_of_ne_nil some
    rw [if_neg (by exact other)]
    exact goes pos' rest' same

/-- A statement is read alike in front of tokens of one kind, if its expression is. -/
theorem statement_halts {expression : Nat → TokenReader Expr} (halts : Halts expression) :
    Halts fun pos => statement (.padding pos) (expression pos) := by
  intro pos tokens rest v h
  have decided := reads_statement pos |>.mp h
  split at decided
  · next opens =>
    obtain ⟨name, behind, sign, inside, value, named, assigned, valued, rfl⟩ := decided
    obtain ⟨t, rfl, kind, span⟩ := (reads_ident pos).mp named
    obtain ⟨rfl, kind'⟩ := (reads_symbol pos).mp assigned
    obtain ⟨run, rfl, -, goes⟩ := halts valued
    refine ⟨t :: sign :: run, rfl, List.cons_ne_nil t _, fun pos' rest' same => ?_⟩
    refine (reads_statement pos').mpr ?_
    have opens' : opensAssignment (kinds (t :: sign :: run ++ rest')) = true := by
      rw [← opens]
      exact opensAssignment_of_front (List.cons_ne_nil t _) same
    rw [if_pos opens']
    exact ⟨name, _, sign, _, value, (reads_ident pos').mpr ⟨t, rfl, kind, span⟩,
      (reads_symbol pos').mpr ⟨rfl, kind'⟩, goes pos' rest' same, rfl⟩
  · next other =>
    obtain ⟨run, rfl, some, goes⟩ := halts decided
    refine ⟨run, rfl, some, fun pos' rest' same => (reads_statement pos').mpr ?_⟩
    have other' : ¬opensAssignment (kinds (run ++ rest')) = true := by
      rwa [opensAssignment_of_front some same]
    rw [if_neg other']
    exact goes pos' rest' same

/-- Where no link starts, no segment of a path does. -/
theorem alike_of_no_link {least : Nat} {a b : List Token} (stops : link? least (front a) = none)
    (same : front b = front a) : Alike a b := by
  have none : ∀ {tokens : List Token}, link? least (front tokens) = none →
      startsSegment (kinds tokens) = false := by
    intro tokens stops
    refine Bool.eq_false_iff.mpr fun starts => ?_
    obtain ⟨text, ks, hks⟩ := startsSegment_iff.mp starts
    rw [front, hks] at stops
    cases stops
  exact ⟨same.symm, (none stops).trans (none (same ▸ stops)).symm⟩

/-- What goes the same way wherever the input ends. -/
theorem Same.all {goes : Nat → List Token → List Token → Prop}
    (h : ∀ pos, Same tokens rest (goes pos)) :
    Same tokens rest fun tokens' rest' => ∀ pos, goes pos tokens' rest' := by
  obtain ⟨taken, htokens, firm, -⟩ := h 0
  refine ⟨taken, htokens, firm, fun rest' alike pos => ?_⟩
  obtain ⟨taken', htokens', -, onward⟩ := h pos
  obtain rfl := List.append_cancel_right (htokens.symm.trans htokens')
  exact onward rest' alike

/-- An expression is read alike in front of tokens of one kind, by induction on the levels. -/
theorem expression_halts (levels least : Nat) :
    Halts fun pos => expression (.padding pos) levels least := by
  intro pos tokens rest v h
  obtain ⟨r, hr, rfl, rfl⟩ := id h
  have stops := (expression_ok levels least hr).2
  obtain ⟨taken, htokens, firm, goes⟩ := Same.all fun pos' => expression_stays pos' levels least h
  exact ⟨taken, htokens, firm.ne_nil, fun pos' rest' same =>
    goes rest' (alike_of_no_link stops same) pos'⟩

end Parser

end ScriptConsole
