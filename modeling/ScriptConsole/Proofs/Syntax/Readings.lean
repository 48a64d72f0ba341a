import ScriptConsole.Proofs.Syntax.Completeness
import ScriptConsole.Proofs.Syntax.Demand

/-!
# What Readers Read, as Relations

A reader reads a value off some tokens and leaves a rest (`Parser.Reads`). Each construct of the
grammar reads what its parts read, one after the other; which parts these are is decided by the
kinds of the tokens in front. The statements here say so, reader by reader, where only the end of
the input stands behind the last token.

## Main results

* `Parser.reads_statement`, `Parser.reads_block`, `Parser.reads_function`, `Parser.reads_primary`
  and their like: one for each reader of the grammar.
-/

namespace ScriptConsole.Parser

open Token (Kind)

variable {α : Type} {tokens rest : List Token} (pos : Nat)

/-- Whether a reader reads a value off some tokens and leaves a rest. -/
def Reads (reader : TokenReader α) (tokens : List Token) (a : α) (rest : List Token) : Prop :=
  ∃ r, reader tokens = .ok r ∧ r.value = a ∧ r.rest = rest

/-- A reader takes a token at least. -/
theorem Reads.length_lt {reader : TokenReader α} {a : α} (reads : Reads reader tokens a rest) :
    rest.length < tokens.length := by
  obtain ⟨r, -, -, rfl⟩ := reads
  exact r.shorter

section steps

variable {β γ : Type} {origin behind : List Token} {t : Token} {v : γ}

/-- What is read of one token. -/
theorem exists_first_iff {form : Token → γ} :
    (∃ r, (.ok ((Reading.first t behind).map form) : Except SourceError (Reading _ γ)) = .ok r ∧
      r.value = v ∧ r.rest = rest) ↔ rest = behind ∧ v = form t := by
  constructor
  · rintro ⟨r, h, rfl, rfl⟩
    cases h
    exact ⟨rfl, rfl⟩
  · rintro ⟨rfl, rfl⟩
    exact ⟨_, rfl, rfl, rfl⟩

/-- What is read where a reader goes on and something is made of what it reads. -/
theorem exists_made_iff {reader : TokenReader β} {form : β → γ}
    {outcome : Except SourceError (Reading origin γ)}
    (failed : ∀ e, reader behind = .error e → outcome = .error e)
    (made : ∀ r, reader behind = .ok r → ∃ shorter,
      outcome = .ok ⟨form r.value, r.rest, shorter⟩) :
    (∃ r, outcome = .ok r ∧ r.value = v ∧ r.rest = rest) ↔
      ∃ b, Reads reader behind b rest ∧ v = form b := by
  cases h : reader behind with
  | error e =>
      rw [failed e h]
      constructor
      · rintro ⟨_, h', -, -⟩
        cases h'
      · rintro ⟨_, ⟨_, h', -, -⟩, -⟩
        cases h.symm.trans h'
  | ok inner =>
      obtain ⟨shorter, done⟩ := made inner h
      rw [done]
      constructor
      · rintro ⟨r, h', rfl, rfl⟩
        cases h'
        exact ⟨_, ⟨inner, h, rfl, rfl⟩, rfl⟩
      · rintro ⟨_, ⟨r, h', rfl, rfl⟩, rfl⟩
        cases h.symm.trans h'
        exact ⟨_, rfl, rfl, rfl⟩

/-- A token in front is the one that stands there. -/
theorem exists_cons_iff {p : Token → List Token → Prop} :
    (∃ u more, t :: behind = u :: more ∧ p u more) ↔ p t behind := by
  constructor
  · rintro ⟨u, more, h, hp⟩
    cases h
    exact hp
  · exact fun hp => ⟨t, behind, rfl, hp⟩

end steps

/-! ### What readers read -/

/-- A symbol is read if it stands in front. -/
theorem reads_symbol {s : Token.Symbol} {t : Token} :
    Reads (symbol (.padding pos) s) tokens t rest ↔ tokens = t :: rest ∧ t.kind = .symbol s := by
  constructor
  · rintro ⟨r, h, rfl, rfl⟩
    cases tokens with
    | nil => cases h
    | cons t rest =>
        rw [symbol] at h
        split at h
        · next hs =>
          cases h
          exact ⟨rfl, Kind.isSymbol_iff.mp hs⟩
        · exact absurd h refuse_ne_ok
  · rintro ⟨rfl, kind⟩
    exact ⟨.first t rest, by rw [symbol, if_pos (Kind.isSymbol_iff.mpr kind)], rfl, rfl⟩

/-- So is a name. -/
theorem reads_ident {name : Ident} :
    Reads (ident (.padding pos)) tokens name rest ↔
      ∃ t, tokens = t :: rest ∧ t.kind = .name name.text ∧ t.span = name.span := by
  constructor
  · rintro ⟨r, h, rfl, rfl⟩
    cases tokens with
    | nil => cases h
    | cons t rest =>
        rw [ident] at h
        split at h
        · next text hs =>
          cases h
          exact ⟨t, rfl, Kind.name?_eq_some_iff.mp hs, rfl⟩
        · exact absurd h refuse_ne_ok
  · rintro ⟨t, rfl, kind, span⟩
    refine ⟨(Reading.first t rest).map fun t => ⟨name.text, t.span⟩, ?_, ?_, rfl⟩
    · rw [ident, Kind.name?_eq_some_iff.mpr kind]
    · show Ident.mk name.text t.span = name
      rw [span]

section items

variable {item : TokenReader α}

/-- Items are read up to the parenthesis, with commas between them. -/
theorem reads_itemsFrom {v : List α × Token} :
    Reads (itemsFrom (.padding pos) item) tokens v rest ↔ ∃ a behind,
      Reads item tokens a behind ∧
      if ((kinds behind).headD .eof).isSymbol .comma then ∃ comma inside more,
        Reads (symbol (.padding pos) .comma) behind comma inside ∧
        Reads (itemsFrom (.padding pos) item) inside more rest ∧ v = (a :: more.1, more.2)
      else ∃ close, Reads (symbol (.padding pos) .rightParen) behind close rest ∧
        v = ([a], close) := by
  constructor
  · rintro ⟨r, h, rfl, rfl⟩
    rw [itemsFrom] at h
    split at h
    · cases h
    next one hone =>
    refine ⟨_, _, ⟨one, hone, rfl, rfl⟩, ?_⟩
    split at h
    · cases h
    next t ht =>
    rw [← kind_of_current ht]
    split at h
    · next comma =>
      rw [if_pos comma]
      split at h
      · cases h
      next comma hcomma =>
      split at h
      · cases h
      next more hmore =>
      cases h
      exact ⟨_, _, _, ⟨comma, hcomma, rfl, rfl⟩, ⟨more, hmore, rfl, rfl⟩, rfl⟩
    · next other =>
      rw [if_neg other]
      split at h
      · cases h
      next close hclose =>
      cases h
      exact ⟨_, ⟨close, hclose, rfl, rfl⟩, rfl⟩
  · rintro ⟨_, _, ⟨one, hone, rfl, rfl⟩, h⟩
    obtain ⟨t, ht, kind⟩ := exists_current pos one.rest
    rw [← kind] at h
    split at h
    · next comma' =>
      obtain ⟨_, _, _, ⟨comma, hcomma, rfl, rfl⟩, ⟨more, hmore, rfl, rfl⟩, rfl⟩ := h
      refine ⟨(one.after (comma.after more)).map fun m => (one.value :: m.1, m.2), ?_, rfl, rfl⟩
      rw [itemsFrom]
      simp only [hone, ht, comma', if_true, hcomma, hmore]
    · next other =>
      obtain ⟨_, ⟨close, hclose, rfl, rfl⟩, rfl⟩ := h
      refine ⟨(one.after close).map fun t => ([one.value], t), ?_, rfl, rfl⟩
      rw [itemsFrom]
      simp only [hone, ht, other, Bool.false_eq_true, if_false, hclose]

/-- A list of items may be empty. -/
theorem reads_items {v : List α × Token} :
    Reads (items (.padding pos) item) tokens v rest ↔
      if ((kinds tokens).headD .eof).isSymbol .rightParen then ∃ close,
        Reads (symbol (.padding pos) .rightParen) tokens close rest ∧ v = ([], close)
      else Reads (itemsFrom (.padding pos) item) tokens v rest := by
  obtain ⟨t, ht, kind⟩ := exists_current pos tokens
  rw [← kind]
  unfold Reads
  simp only [items, ht]
  split
  · exact exists_made_iff (fun e h => by rw [h]; rfl) fun r h => ⟨r.shorter, by rw [h]; rfl⟩
  · rfl

end items

/-! ### Host paths -/

/-- Whether tokens are those of some segments of a path, with a dot before each, and a rest with
which no further segment starts. -/
def Segments : List Token → List Ident → List Token → Prop
  | tokens, [], rest => tokens = rest ∧ startsSegment (kinds rest) = false
  | tokens, name :: names, rest => ∃ dot t behind, tokens = dot :: t :: behind ∧
      dot.kind = .symbol .dot ∧ t.kind = .name name.text ∧ t.span = name.span ∧
      Segments behind names rest

/-- Further segments of a path are read behind those there are. -/
theorem segments_of_moreSegments {origin : List Token} {read r : Reading origin (List Ident)}
    (h : moreSegments (.padding pos) read = .ok r) :
    ∃ names, r.value = read.value ++ names ∧ Segments read.rest names r.rest := by
  fun_induction moreSegments (.padding pos) read with
  | case1 | case3 => cases h
  | case2 read hrest =>
      cases h
      exact ⟨[], (List.append_nil _).symm, rfl, by rw [hrest]; rfl⟩
  | case4 read dot hrest | case5 read dot hrest =>
      cases h
      refine ⟨[], (List.append_nil _).symm, rfl, ?_⟩
      rw [hrest]
      cases hk : dot.kind with
      | symbol s => cases s <;> simp [startsSegment, hk]
      | _ => simp [startsSegment, hk]
  | case6 read dot name more hrest text hname hdot ih =>
      obtain ⟨names, hvalue, segments⟩ := ih h
      refine ⟨⟨text, name.span⟩ :: names, ?_, dot, name, more, hrest, Kind.isSymbol_iff.mp hdot,
        Kind.name?_eq_some_iff.mp hname, rfl, segments⟩
      rw [hvalue, List.append_assoc]
      rfl
  | case7 read dot name more hrest hno =>
      cases h
      refine ⟨[], (List.append_nil _).symm, rfl, ?_⟩
      rw [Bool.eq_false_iff]
      intro starts
      obtain ⟨text, ks, hks⟩ := startsSegment_iff.mp starts
      rw [hrest] at hks
      obtain ⟨hdot, hks⟩ := List.cons.inj hks
      exact hno text (Kind.isSymbol_iff.mpr hdot)
        (Kind.name?_eq_some_iff.mpr (List.cons.inj hks).1)

/-- A dot and a name are one segment more. -/
theorem moreSegments_cons {origin : List Token} {read : Reading origin (List Ident)} {name : Ident}
    {dot t : Token} {behind : List Token} (hrest : read.rest = dot :: t :: behind)
    (hdot : dot.kind = .symbol .dot) (hname : t.kind = .name name.text)
    (span : t.span = name.span) :
    ∃ shorter, moreSegments (.padding pos) read =
      moreSegments (.padding pos) ⟨read.value ++ [name], behind, shorter⟩ := by
  have shorter : behind.length < origin.length := by
    have := read.shorter
    simp only [hrest, List.length_cons] at this
    omega
  have same : name = ⟨name.text, t.span⟩ := by rw [span]
  refine ⟨shorter, ?_⟩
  rw [moreSegments]
  split
  · next h => simp [hrest] at h
  · next h => simp [hrest] at h
  · next dot' t' behind' h =>
    obtain ⟨rfl, rfl, rfl⟩ : dot = dot' ∧ t = t' ∧ behind = behind' := by
      simpa [hrest] using h
    split
    · next text _ htext =>
      rw [Kind.name?_eq_some_iff.mpr hname] at htext
      obtain rfl := Option.some.inj htext
      rw [← same]
    · next no =>
      exact absurd (Kind.name?_eq_some_iff.mpr hname)
        (no name.text (Kind.isSymbol_iff.mpr hdot))

/-- Further segments are read as far as they go. -/
theorem moreSegments_iff {origin : List Token} (read : Reading origin (List Ident))
    {v : List Ident} :
    (∃ r, moreSegments (.padding pos) read = .ok r ∧ r.value = v ∧ r.rest = rest) ↔
      ∃ names, v = read.value ++ names ∧ Segments read.rest names rest := by
  constructor
  · rintro ⟨r, h, rfl, rfl⟩
    exact segments_of_moreSegments pos h
  · rintro ⟨names, rfl, segments⟩
    induction names generalizing read with
    | nil =>
        obtain ⟨rfl, stops⟩ : read.rest = rest ∧ _ := segments
        exact ⟨read, moreSegments_of_stops pos stops, (List.append_nil _).symm, rfl⟩
    | cons name names ih =>
        obtain ⟨dot, t, behind, hrest, hdot, hname, span, segments⟩ := segments
        obtain ⟨shorter, step⟩ := moreSegments_cons pos hrest hdot hname span
        obtain ⟨r, hr, hvalue, hlast⟩ := ih ⟨read.value ++ [name], behind, shorter⟩ segments
        exact ⟨r, step.trans hr, hvalue.trans (by simp), hlast⟩

/-- A path begins with a dot and a name. -/
theorem reads_hostPath {v : Expr} :
    Reads (hostPath (.padding pos)) tokens v rest ↔ ∃ dot behind one inside names,
      Reads (symbol (.padding pos) .dot) tokens dot behind ∧
      Reads (ident (.padding pos)) behind one inside ∧ Segments inside names rest ∧
      v = .hostPath (one :: names) ⟨dot.span.start, lastStop dot.span.start (one :: names)⟩ := by
  constructor
  · rintro ⟨r, h, rfl, rfl⟩
    simp only [hostPath] at h
    split at h
    · cases h
    next dot hdot =>
    split at h
    · cases h
    next one hone =>
    split at h
    · cases h
    next path hpath =>
    cases h
    obtain ⟨names, hvalue, segments⟩ := (moreSegments_iff pos _).mp ⟨path, hpath, rfl, rfl⟩
    have same : path.value = one.value :: names := hvalue
    refine ⟨_, _, _, _, names, ⟨dot, hdot, rfl, rfl⟩, ⟨one, hone, rfl, rfl⟩, segments, ?_⟩
    rw [← same]
    rfl
  · rintro ⟨_, _, _, _, names, ⟨dot, hdot, rfl, rfl⟩, ⟨one, hone, rfl, rfl⟩, segments, rfl⟩
    obtain ⟨path, hpath, hvalue, rfl⟩ :=
      (moreSegments_iff pos ((dot.after one).map fun name => [name])).mpr
        ⟨names, rfl, segments⟩
    have same : path.value = one.value :: names := hvalue
    refine ⟨path.map fun names => .hostPath names ⟨dot.value.span.start,
      lastStop dot.value.span.start names⟩, ?_, ?_, rfl⟩
    · simp only [hostPath, hdot, hone, hpath]
    · rw [← same]
      rfl

/-! ### Statements and function literals -/

section expression

variable {expression : TokenReader Expr}

/-- A statement is an assignment or an expression. -/
theorem reads_statement {v : Expr} :
    Reads (statement (.padding pos) expression) tokens v rest ↔
      if opensAssignment (kinds tokens) then ∃ name behind sign inside value,
        Reads (ident (.padding pos)) tokens name behind ∧
        Reads (symbol (.padding pos) .assign) behind sign inside ∧
        Reads expression inside value rest ∧ v = .assign name value (name.span.join value.span)
      else Reads expression tokens v rest := by
  unfold Reads
  simp only [statement, isAssignment_eq]
  cases opensAssignment (kinds tokens) with
  | false => rfl
  | true =>
      simp only [if_true]
      constructor
      · rintro ⟨r, h, rfl, rfl⟩
        split at h
        · cases h
        next name hname =>
        split at h
        · cases h
        next sign hsign =>
        split at h
        · cases h
        next value hvalue =>
        cases h
        exact ⟨_, _, _, _, _, ⟨name, hname, rfl, rfl⟩, ⟨sign, hsign, rfl, rfl⟩,
          ⟨value, hvalue, rfl, rfl⟩, rfl⟩
      · rintro ⟨_, _, _, _, _, ⟨name, hname, rfl, rfl⟩, ⟨sign, hsign, rfl, rfl⟩,
          ⟨value, hvalue, rfl, rfl⟩, rfl⟩
        refine ⟨(name.after (sign.after value)).map fun v =>
          .assign name.value v (name.value.span.join v.span), ?_, rfl, rfl⟩
        simp only [hname, hsign, hvalue]

/-- A semicolon stands behind it. -/
theorem reads_closedStatement {v : Expr} :
    Reads (closedStatement (.padding pos) expression) tokens v rest ↔ ∃ behind semi,
      Reads (statement (.padding pos) expression) tokens v behind ∧
      Reads (symbol (.padding pos) .semicolon) behind semi rest := by
  constructor
  · rintro ⟨r, h, rfl, rfl⟩
    simp only [closedStatement] at h
    split at h
    · cases h
    next s hs =>
    split at h
    · cases h
    next semi hsemi =>
    cases h
    exact ⟨_, _, ⟨s, hs, rfl, rfl⟩, ⟨semi, hsemi, rfl, rfl⟩⟩
  · rintro ⟨_, _, ⟨s, hs, rfl, rfl⟩, ⟨semi, hsemi, rfl, rfl⟩⟩
    refine ⟨(s.after semi).map fun _ => s.value, ?_, rfl, rfl⟩
    simp only [closedStatement, hs, hsemi]

/-- A block has statements up to its brace. -/
theorem reads_block {v : List Expr × Token} :
    Reads (block (.padding pos) expression) tokens v rest ↔
      if ((kinds tokens).headD .eof).isSymbol .rightBrace then ∃ close,
        Reads (symbol (.padding pos) .rightBrace) tokens close rest ∧ v = ([], close)
      else ∃ s behind more, Reads (closedStatement (.padding pos) expression) tokens s behind ∧
        Reads (block (.padding pos) expression) behind more rest ∧ v = (s :: more.1, more.2) := by
  obtain ⟨t, ht, kind⟩ := exists_current pos tokens
  rw [← kind]
  constructor
  · rintro ⟨r, h, rfl, rfl⟩
    rw [block] at h
    simp only [ht] at h
    split at h
    · next closes =>
      rw [if_pos closes]
      obtain ⟨close, hclose, rfl⟩ := map_ok h
      exact ⟨_, ⟨close, hclose, rfl, rfl⟩, rfl⟩
    · next other =>
      rw [if_neg other]
      split at h
      · cases h
      next s hs =>
      split at h
      · cases h
      next more hmore =>
      cases h
      exact ⟨_, _, _, ⟨s, hs, rfl, rfl⟩, ⟨more, hmore, rfl, rfl⟩, rfl⟩
  · intro h
    split at h
    · next closes =>
      obtain ⟨_, ⟨close, hclose, rfl, rfl⟩, rfl⟩ := h
      refine ⟨close.map fun t => ([], t), ?_, rfl, rfl⟩
      rw [block]
      simp only [ht, closes, if_true, hclose]
      rfl
    · next other =>
      obtain ⟨_, _, _, ⟨s, hs, rfl, rfl⟩, ⟨more, hmore, rfl, rfl⟩, rfl⟩ := h
      refine ⟨(s.after more).map fun m => (s.value :: m.1, m.2), ?_, rfl, rfl⟩
      rw [block]
      simp only [ht, other, Bool.false_eq_true, if_false, hs, hmore]

/-- A function has parameters and a body. -/
theorem reads_function {v : Expr} :
    Reads (function (.padding pos) expression) tokens v rest ↔
      ∃ start behind params a brace inside body,
        Reads (symbol (.padding pos) .leftParen) tokens start behind ∧
        Reads (items (.padding pos) (ident (.padding pos))) behind params a ∧
        Reads (symbol (.padding pos) .leftBrace) a brace inside ∧
        Reads (block (.padding pos) expression) inside body rest ∧
        v = .func params.1 body.1 ⟨start.span.start, body.2.span.stop⟩ := by
  constructor
  · rintro ⟨r, h, rfl, rfl⟩
    simp only [function] at h
    split at h
    · cases h
    next start hstart =>
    split at h
    · cases h
    next params hparams =>
    split at h
    · cases h
    next brace hbrace =>
    split at h
    · cases h
    next body hbody =>
    cases h
    exact ⟨_, _, _, _, _, _, _, ⟨start, hstart, rfl, rfl⟩, ⟨params, hparams, rfl, rfl⟩,
      ⟨brace, hbrace, rfl, rfl⟩, ⟨body, hbody, rfl, rfl⟩, rfl⟩
  · rintro ⟨_, _, _, _, _, _, _, ⟨start, hstart, rfl, rfl⟩, ⟨params, hparams, rfl, rfl⟩,
      ⟨brace, hbrace, rfl, rfl⟩, ⟨body, hbody, rfl, rfl⟩, rfl⟩
    refine ⟨(start.after (params.after (brace.after body))).map fun b =>
      .func params.value.1 b.1 ⟨start.value.span.start, b.2.span.stop⟩, ?_, rfl, rfl⟩
    simp only [function, hstart, hparams, hbrace, hbody]

/-- An expression in parentheses stands between two of them. -/
theorem reads_parenthesised {v : Expr} :
    Reads (parenthesised (.padding pos) expression) tokens v rest ↔
      ∃ start behind inner a close,
        Reads (symbol (.padding pos) .leftParen) tokens start behind ∧
        Reads expression behind inner a ∧
        Reads (symbol (.padding pos) .rightParen) a close rest ∧
        v = .paren inner ⟨start.span.start, close.span.stop⟩ := by
  constructor
  · rintro ⟨r, h, rfl, rfl⟩
    simp only [parenthesised] at h
    split at h
    · cases h
    next start hstart =>
    split at h
    · cases h
    next inner hinner =>
    split at h
    · cases h
    next close hclose =>
    cases h
    exact ⟨_, _, _, _, _, ⟨start, hstart, rfl, rfl⟩, ⟨inner, hinner, rfl, rfl⟩,
      ⟨close, hclose, rfl, rfl⟩, rfl⟩
  · rintro ⟨_, _, _, _, _, ⟨start, hstart, rfl, rfl⟩, ⟨inner, hinner, rfl, rfl⟩,
      ⟨close, hclose, rfl, rfl⟩, rfl⟩
    refine ⟨(start.after (inner.after close)).map fun t =>
      .paren inner.value ⟨start.value.span.start, t.span.stop⟩, ?_, rfl, rfl⟩
    simp only [parenthesised, hstart, hinner, hclose]

end expression

/-! ### Expressions -/

section levels

variable {expression : Nat → TokenReader Expr}

/-- What a primary is read as, by the kind of its first token. -/
theorem reads_primary {v : Expr} :
    Reads (primary (.padding pos) expression) tokens v rest ↔ ∃ t behind, tokens = t :: behind ∧
      match t.kind with
      | .literal c => rest = behind ∧ v = .literal c t.span
      | .name text => rest = behind ∧ v = .var ⟨text, t.span⟩
      | .eof => False
      | .symbol s =>
        match unaryOp? s with
        | some op => ∃ operand, Reads (expression tightest) behind operand rest ∧
            v = .unary op operand (t.span.join operand.span)
        | none =>
          if s = .dot then Reads (hostPath (.padding pos)) tokens v rest
          else if s = .leftParen then
            if opensFunction (kinds behind) then
              Reads (function (.padding pos) (expression 0)) tokens v rest
            else Reads (parenthesised (.padding pos) (expression 0)) tokens v rest
          else False := by
  cases tokens with
  | nil =>
      constructor
      · rintro ⟨r, h, -, -⟩
        cases h
      · rintro ⟨t, behind, h, -⟩
        cases h
  | cons t behind =>
      rw [exists_cons_iff]
      unfold Reads
      rw [primary]
      cases hk : t.kind with
      | literal c => exact exists_first_iff
      | name text => exact exists_first_iff
      | eof =>
          simp only
          constructor
          · rintro ⟨r, h, -, -⟩
            exact absurd h refuse_ne_ok
          · exact False.elim
      | symbol s =>
          simp only
          cases hop : unaryOp? s with
          | some op =>
              simp only
              exact exists_made_iff (fun e h => by rw [h]) fun r h => ⟨_, by rw [h]; rfl⟩
          | none =>
              simp only
              split
              · rfl
              split
              · rw [isFunction_eq, show (kinds (t :: behind)).drop 1 = kinds behind from rfl]
                cases opensFunction (kinds behind) <;> rfl
              · refine ⟨?_, False.elim⟩
                rintro ⟨r, h, -, -⟩
                exact absurd h refuse_ne_ok

/-- What the link of an expression adds to it. -/
theorem extend_iff {link : Link} {origin : List Token} {left : Reading origin Expr} {v : Expr} :
    (∃ r, extend (.padding pos) expression link left = .ok r ∧ r.value = v ∧ r.rest = rest) ↔
      ∃ t behind, left.rest = t :: behind ∧
        match link with
        | .call => ∃ args, Reads (items (.padding pos) (expression 0)) behind args rest ∧
            v = .call left.value args.1 ⟨left.value.span.start, args.2.span.stop⟩
        | .member => ∃ name, Reads (ident (.padding pos)) behind name rest ∧
            v = .member left.value name (left.value.span.join name.span)
        | .operator op => ∃ right, Reads (expression (op.precedence + 1)) behind right rest ∧
            v = .binary left.value op right (left.value.span.join right.span) := by
  obtain ⟨a, tokens, shorter⟩ := left
  cases tokens with
  | nil =>
      constructor
      · rintro ⟨r, h, -, -⟩
        cases h
      · rintro ⟨t, behind, h, -⟩
        cases h
  | cons t behind =>
      rw [exists_cons_iff]
      simp only [extend]
      cases link with
      | call =>
          simp only
          exact exists_made_iff (fun e h => by rw [h]) fun r h => ⟨_, by rw [h]; rfl⟩
      | member =>
          simp only
          exact exists_made_iff (fun e h => by rw [h]) fun r h => ⟨_, by rw [h]; rfl⟩
      | operator op =>
          simp only
          exact exists_made_iff (fun e h => by rw [h]) fun r h => ⟨_, by rw [h]; rfl⟩

end levels

end ScriptConsole.Parser
