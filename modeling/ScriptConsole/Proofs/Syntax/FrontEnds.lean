import ScriptConsole.Proofs.Lexing.Steps
import ScriptConsole.Proofs.Syntax.Demand
import ScriptConsole.Session

/-!
# Reading a Text While It Is Lexed

A text is parsed while its tokens are read on demand (`Program.ofSource`). Tokens that have been
read already are parsed as a list (`Program.ofTokens`) or drawn one by one (`Program.ofSupply`). All
of these come to the same.

A fresh feed holds the tokens of its supply: those of a list, with `eof` for ever behind them, or
those of a text up to its end or its first flaw. What is read from it is therefore what the list
makes up.

A text with a flaw is never a program, not even if a program stands in front of the flaw, because a
program ends with the end of the text. Either the parser gets to the flaw and reports it, or it
reports something before the flaw. Both follow from moving places: the tokens in front of the flaw
stay where they are when all places are cut off at the flaw, and so must the error stay.

## Main results

* `Program.ofSupply_list`, `Program.ofSource_eq_ofLexed`: the two ways to read come to the same.
* `Program.ofTokens_move`: tokens with other places make up the program with other places.
* `Program.ofSource_agrees`: the program of a text against that of its tokens, and the errors of
  texts with flaws.
-/

namespace ScriptConsole

open Placed (move)

/-! ### What fresh feeds hold -/

/-- The place where the last of some tokens ends, behind others that end at `default`. -/
def stopBehind (default : Nat) : List Token → Nat
  | [] => default
  | t :: rest => stopBehind t.span.stop rest

/-- The last stop is that of the last token. -/
theorem lastStop_eq (tokens : List Token) : lastStop tokens = stopBehind 0 tokens := by
  have behind : ∀ (t : Token) (rest : List Token), lastStop (t :: rest) =
      stopBehind t.span.stop rest := by
    intro t rest
    induction rest generalizing t with
    | nil => rfl
    | cons u rest ih => exact ih u
  cases tokens with
  | nil => rfl
  | cons t rest => exact behind t rest

/-- What stands behind the tokens of a text, which starts behind tokens that end at `default`. -/
def Lexed.tail (default : Nat) (l : Lexed) : Tail :=
  match l.flaw with
  | some e => .flaw e
  | none => .padding (stopBehind default l.tokens)

/-- What has been lexed is parsed with its tail. -/
theorem Program.ofLexed_eq (l : Lexed) :
    Program.ofLexed l = Parser.program (l.tail 0) l.tokens := by
  obtain ⟨tokens, _ | e⟩ := l
  · rw [ofLexed, ofTokens, lastStop_eq]
    rfl
  · rfl

/-- Behind all tokens stands the tail. -/
theorem Parser.ahead_nil (tail : Tail) (n : Nat) : ahead tail [] n = tail.token := by
  rw [ahead, List.drop_nil]
  rfl

/-- A list gives its tokens, and then `eof` where the last of them ends. -/
theorem Supply.upcoming_list {m : Motion} (tokens : List Token) (default n : Nat) :
    (upcoming (move m.place tokens) (m.place default) n).mapError .lex =
      m.outcome (Parser.ahead (.padding (stopBehind default tokens)) tokens n) := by
  induction tokens generalizing default n with
  | nil =>
      rw [Parser.ahead_nil]
      cases n <;> rfl
  | cons t rest ih =>
      cases n with
      | zero => rfl
      | succ n => exact ih t.span.stop n

/-- A text that has not come to its end gives the token in front. -/
theorem Supply.next_text {cursor place : Cursor} {t : Token}
    (h : cursor.next = (.ok t, place)) :
    Supply.next (⟨cursor, false⟩ : Lexer) = some (.ok (t, ⟨place, t.kind.isEof⟩)) := by
  show Lexer.next _ = _
  simp [Lexer.next, h]

/-- A text gives its tokens up to its end or its first flaw. -/
theorem Supply.upcoming_text (cursor : Cursor) (default n : Nat) :
    (upcoming (⟨cursor, false⟩ : Lexer) default n).mapError .lex =
      Parser.ahead (cursor.lexed.tail default) cursor.lexed.tokens n := by
  induction cursor using Cursor.lexed_induction generalizing default n with
  | flaw cursor e place hnext =>
      have first : Supply.next (⟨cursor, false⟩ : Lexer) = some (.error e) := by
        show Lexer.next _ = _
        simp [Lexer.next, hnext]
      rw [upcoming.eq_def, first, Cursor.lexed_of_error hnext, Parser.ahead_nil]
      rfl
  | last cursor t place hnext last =>
      rw [upcoming.eq_def]
      simp only [Supply.next_text hnext, Cursor.lexed_of_eof hnext last, last]
      cases n with
      | zero => rfl
      | succ n =>
          refine Eq.trans ?_ (Parser.ahead_nil _ n).symm
          cases n <;> rfl
  | token cursor t place hnext more ih =>
      rw [upcoming.eq_def]
      simp only [Supply.next_text hnext, Cursor.lexed_of_token hnext more, more]
      cases n with
      | zero => rfl
      | succ n =>
          refine (ih t.span.stop n).trans ?_
          unfold Lexed.tail
          cases hflaw : place.lexed.flaw <;> simp only [Lexed.behind, hflaw] <;> rfl

namespace Feed

/-- A feed of tokens with other places holds the tokens. -/
theorem holds_list {m : Motion} (tokens : List Token) (start : tokens = [] → m.place 0 = 0) :
    (ofSupply (move m.place tokens)).Holds m (.padding (stopBehind 0 tokens)) tokens := by
  intro n
  have shown : (ofSupply (move m.place tokens)).nth n =
      Supply.upcoming (move m.place tokens) (m.place 0) n := by
    cases tokens with
    | nil =>
        rw [start rfl]
        rfl
    | cons t rest => cases n <;> rfl
  rw [shown]
  exact Supply.upcoming_list tokens 0 n

/-- A feed of tokens holds them. -/
theorem holds_self (tokens : List Token) :
    (ofSupply tokens).Holds .none (.padding (ScriptConsole.lastStop tokens)) tokens := by
  have holds := holds_list (m := .none) tokens fun _ => rfl
  have same : move Motion.none.place tokens = tokens := Placed.move_list fun _ _ => rfl
  rwa [same, ← lastStop_eq] at holds

/-- A feed that shows some tokens where they are holds them. -/
theorem holds_of_shown {σ : Type} [Supply σ] {feed : Feed σ} {tail : Tail} {tokens : List Token}
    (shown : ∀ n, (feed.nth n).mapError .lex = Parser.ahead tail tokens n) :
    feed.Holds .none tail tokens := by
  intro n
  rw [shown]
  cases Parser.ahead tail tokens n with
  | error e => exact congrArg Except.error (Motion.error_none e).symm
  | ok t => rfl

/-- A feed of a text holds the tokens of the text. -/
theorem holds_text (source : String) :
    (ofSupply (Lexer.ofText source)).Holds .none ((lex source).tail 0) (lex source).tokens :=
  holds_of_shown fun n => Supply.upcoming_text (.ofText source) 0 n

end Feed

/-! ### Programs -/

namespace Program

/-- A supply is parsed as the tokens that it holds. -/
theorem ofSupply_eq {σ : Type} [Supply σ] {supply : σ} {m : Motion} {tail : Tail}
    {tokens : List Token} (mono : Monotone m.place)
    (holds : (Feed.ofSupply supply).Holds m tail tokens) :
    ofSupply supply = m.outcome (Parser.program tail tokens) :=
  (Drawing.program_gives mono holds).map_eq

/-- Tokens that are drawn one by one make up what they make up as a list. -/
theorem ofSupply_list (tokens : List Token) : ofSupply tokens = ofTokens tokens := by
  rw [ofSupply_eq monotone_id (Feed.holds_self tokens), Motion.outcome_none, ofTokens]

/-- A text that is parsed while it is lexed makes up what its tokens make up. -/
theorem ofSource_eq_ofLexed (source : String) : ofSource source = ofLexed (lex source) := by
  rw [ofSource, ofSupply_eq monotone_id (Feed.holds_text source), Motion.outcome_none, ofLexed_eq]

/-- Tokens with other places make up the program with other places. -/
theorem ofTokens_move {f : Nat → Nat} (mono : Monotone f) {tokens : List Token}
    (some : tokens ≠ []) :
    ofTokens (move f tokens) = (Motion.mk f id).outcome (ofTokens tokens) := by
  have holds := Feed.holds_list (m := ⟨f, id⟩) tokens fun none => absurd none some
  rw [← ofSupply_list, ofSupply_eq mono holds, ofTokens, lastStop_eq]

end Program

/-! ### Texts with a flaw -/

namespace Parser

variable {e : LexError} {tokens : List Token}

/-- Statements in front of a flaw end with an end of the input among the tokens. -/
theorem eof_mem_of_statements {expression : TokenReader Expr}
    (takes : TakesExpressions 0 expression) {p : List Expr × Token}
    (h : statements (.flaw e) expression tokens = .ok p) : Token.Kind.eof ∈ kinds tokens := by
  fun_induction statements (.flaw e) expression tokens generalizing p with
  | case1 | case3 | case4 => cases h
  | case2 tokens t ht last =>
      cases tokens with
      | nil => cases ht
      | cons u rest =>
          cases ht
          rw [← Token.Kind.isEof_iff.mp last]
          exact List.mem_cons_self
  | case5 tokens t ht more s hs body last hbody ih =>
      rw [(closedStatement_ok takes hs).1]
      exact List.mem_append_right _ (List.mem_cons_of_mem _ (ih hbody))

/-- Tokens in front of a flaw are no program. -/
theorem program_ne_ok (opens : ∀ t ∈ tokens, t.kind.isEof = false) (p : Program) :
    program (.flaw e) tokens ≠ .ok p := by
  intro h
  unfold program at h
  split at h
  · cases h
  split at h
  · cases h
  next body last hbody =>
  obtain ⟨t, mem, ht⟩ :=
    List.mem_map.mp (eof_mem_of_statements (expression_ok nestingLimit 0) hbody)
  have none := opens t mem
  rw [ht] at none
  cases none

end Parser

/-- Cutting off all places at a flaw, and taking no other flaw for it. -/
def Motion.upTo (e : LexError) : Motion := ⟨min e.pos, fun _ => e⟩

/-- Places up to a flaw stay in order. -/
theorem Motion.monotone_upTo (e : LexError) : Monotone (upTo e).place := by
  intro a b le
  show min e.pos a ≤ min e.pos b
  omega

/-- Where no token reaches beyond a flaw, nothing moves when places are cut off there. -/
theorem Feed.holds_upTo {σ : Type} [Supply σ] {feed : Feed σ} {e : LexError} {tokens : List Token}
    (before : ∀ t ∈ tokens, t.span.start ≤ e.pos ∧ t.span.stop ≤ e.pos)
    (holds : feed.Holds .none (.flaw e) tokens) : feed.Holds (.upTo e) (.flaw e) tokens := by
  intro n
  refine (holds n).trans ?_
  unfold Parser.ahead
  cases hrest : tokens.drop n with
  | nil => rfl
  | cons t rest =>
      obtain ⟨start, stop⟩ := before t (List.mem_of_mem_drop (hrest ▸ List.mem_cons_self))
      show Except.ok t = .ok ⟨t.kind, ⟨min e.pos t.span.start, min e.pos t.span.stop⟩⟩
      rw [Nat.min_eq_right start, Nat.min_eq_right stop]

/-- The span of an error moves with it. -/
theorem ParseError.span_move {f : Nat → Nat} (p : ParseError) :
    (move f p).span = move f p.span := by
  cases p <;> rfl

/-- A flawed source fails with its flaw, or with an error in front of it. -/
theorem Program.ofSource_of_flaw (source : String) {e : LexError}
    (flawed : (lex source).flaw = some e) :
    ∃ err, ofSource source = .error err ∧
      (err = .lex e ∨ ∃ p, err = .parse p ∧ p.span.stop ≤ e.pos) := by
  have before : ∀ t ∈ (lex source).tokens, _ := Cursor.stop_le_of_flaw (.ofText source) flawed
  have holds := Feed.holds_text source
  rw [Lexed.tail, flawed] at holds
  have cutOff := Feed.holds_upTo (fun t mem => (before t mem).2) holds
  have read : ofSource source = _ := ofSupply_eq monotone_id holds
  rw [Motion.outcome_none] at read
  -- the error stays as it is when all places are cut off at the flaw
  have fixed := (ofSupply_eq (Motion.monotone_upTo e) cutOff).symm.trans read
  rw [read]
  cases hprogram : Parser.program (.flaw e) (lex source).tokens with
  | ok p => exact absurd hprogram (Parser.program_ne_ok (fun t mem => (before t mem).1) p)
  | error err =>
      refine ⟨err, rfl, ?_⟩
      rw [hprogram] at fixed
      have same : (Motion.upTo e).error err = err := Except.error.inj fixed
      cases err with
      | lex e' => exact .inl same.symm
      | parse p =>
          refine .inr ⟨p, rfl, ?_⟩
          have place : move (min e.pos) p = p := SourceError.parse.inj same
          have stop : min e.pos p.span.stop = p.span.stop := by
            have := congrArg (·.span.stop) place
            rwa [ParseError.span_move] at this
          omega

/-- A text without a flaw makes up what its tokens make up. -/
theorem Program.ofSource_of_tokens? {source : String} {tokens : List Token}
    (h : tokens? source = .ok tokens) : ofSource source = ofTokens tokens := by
  rw [ofSource_eq_ofLexed]
  unfold tokens? at h
  split at h
  · cases h
  · next tokens' hlex =>
    cases h
    rw [hlex]
    rfl

/-- A text with a flaw is no program. Wrong with it is the flaw, or something in front of it. -/
theorem Program.ofSource_of_malformed {source : String} {e : LexError}
    (h : tokens? source = .error e) :
    ∃ err, ofSource source = .error err ∧
      (err = .lex e ∨ ∃ p, err = .parse p ∧ p.span.stop ≤ e.pos) := by
  unfold tokens? at h
  split at h
  · next tokens e' hlex =>
    cases h
    exact ofSource_of_flaw source (by rw [hlex])
  · cases h

/-- The tokens of a program. -/
theorem Program.exists_tokens {source : String} {p : Program} (h : ofSource source = .ok p) :
    ∃ tokens, tokens? source = .ok tokens ∧ ofTokens tokens = .ok p := by
  cases htokens : tokens? source with
  | error e =>
      obtain ⟨err, herr, -⟩ := ofSource_of_malformed htokens
      cases h.symm.trans herr
  | ok tokens => exact ⟨tokens, rfl, (ofSource_of_tokens? htokens).symm.trans h⟩

/-- **Parsing while lexing.** A text without a flaw makes up what its tokens make up, as a list or
one by one: the same program with the same places, or the same error. A text with a flaw fails to
parse: with the flaw, or with an error that ends where the flaw starts or before. No session
evaluates anything of it. -/
theorem Program.ofSource_agrees (source : String) :
    match tokens? source with
    | .ok tokens => ofSource source = ofTokens tokens ∧ ofSource source = ofSupply tokens
    | .error e => ∃ err, ofSource source = .error err ∧
        (err = .lex e ∨ ∃ p, err = .parse p ∧ p.span.stop ≤ e.pos) ∧
        ∀ (fuel : Nat) (s : Session), ∃ failure, s.eval fuel source = (.error failure, s) ∧
          (source.utf8ByteSize ≤ s.config.maxSourceSize → failure = .source err) := by
  cases htokens : tokens? source with
  | ok tokens =>
      have read := ofSource_of_tokens? htokens
      exact ⟨read, read.trans (ofSupply_list tokens).symm⟩
  | error e =>
      obtain ⟨err, herr, why⟩ := ofSource_of_malformed htokens
      refine ⟨err, herr, why, fun fuel s => ?_⟩
      unfold Session.eval
      split
      · next large => exact ⟨_, rfl, fun fits => absurd fits (Nat.not_le.mpr large)⟩
      · rw [herr]
        exact ⟨_, rfl, fun _ => rfl⟩

end ScriptConsole
