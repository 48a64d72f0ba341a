import ScriptConsole.Proofs.Syntax.Written

/-!
# What the Parser Reads

Whatever the parser reads is the written form of the tree that it makes, and the tree is canonical.
Every reader takes exactly the written form of its value off the front of its input; for an
expression the reader also leaves a rest that no link at its level could take up.

Links are put on an expression from the inside out, and each has to find an operand to its left that
may stand there without parentheses. What carries the induction is `Expr.EndsBefore`: behind a bare
operation stands nothing that binds more tightly than the operation, since the reader of its last
operand would have taken it, and behind a bare path no member, since the path would have.

## Main results

* `Parser.expression_ok`: what an expression is read from, by induction on the levels left.
* `Parser.program_ok`: the same for whole programs, whatever stands behind the last token.
* `Program.ofTokens_sound`: **soundness**. The written form of an accepted program is the kinds of
  its tokens up to the first end of the input, and the program is canonical.
-/

namespace ScriptConsole

open Token (Kind)

namespace Parser

variable {tail : Tail}

/-! ### Single tokens -/

/-- The token in front is the first one, or the end of the input where there are no more. -/
theorem kind_of_current {tokens : List Token} {t : Token} (h : current tail tokens = .ok t) :
    t.kind = (kinds tokens).headD .eof := by
  cases tokens with
  | cons u rest =>
      obtain rfl : u = t := by simpa [current] using h
      rfl
  | nil =>
      cases tail with
      | flaw e => simp [current, Tail.token] at h
      | padding pos =>
          obtain rfl : (⟨.eof, .empty pos⟩ : Token) = t := by
            simpa [current, Tail.token] using h
          rfl

/-- A refusal is no reading. -/
theorem refuse_ne_ok {α : Type} {wanted : Wanted} {tokens : List Token} {a : α} :
    refuse tail wanted tokens ≠ .ok a := by
  unfold refuse
  split <;> simp

/-- Nor is one for the depth. -/
theorem refuseDepth_ne_ok {α : Type} {tokens : List Token} {a : α} :
    refuseDepth tail tokens ≠ .ok a := by
  unfold refuseDepth
  split <;> simp

/-- A symbol that is read stands in front. -/
theorem symbol_ok {s : Token.Symbol} {tokens : List Token} {r : Reading tokens Token}
    (h : symbol tail s tokens = .ok r) : kinds tokens = .symbol s :: kinds r.rest := by
  cases tokens with
  | nil => exact absurd h refuse_ne_ok
  | cons t rest =>
      rw [symbol] at h
      split at h
      · next hs =>
        obtain rfl : Reading.first t rest = r := by simpa using h
        simp [Reading.first, Kind.isSymbol_iff.mp hs]
      · exact absurd h refuse_ne_ok

/-- So does a name. -/
theorem ident_ok {tokens : List Token} {r : Reading tokens Ident}
    (h : ident tail tokens = .ok r) : kinds tokens = r.value.written ++ kinds r.rest := by
  cases tokens with
  | nil => exact absurd h refuse_ne_ok
  | cons t rest =>
      rw [ident] at h
      split at h
      · next text hs =>
        obtain rfl : (Reading.first t rest).map (fun t => ⟨text, t.span⟩) = r := by simpa using h
        simp [Reading.first, Reading.map, Ident.written, Kind.name?_eq_some_iff.mp hs]
      · exact absurd h refuse_ne_ok

/-! ### Lists of items -/

section items

variable {α : Type} {item : TokenReader α} {form : α → List Kind} {good : α → Prop}

/-- A reader takes the written form of its value, which is good, off the front of its input. -/
def Takes (item : TokenReader α) (form : α → List Kind) (good : α → Prop) : Prop :=
  ∀ ⦃tokens : List Token⦄ ⦃r : Reading tokens α⦄, item tokens = .ok r →
    kinds tokens = form r.value ++ kinds r.rest ∧ good r.value

/-- Items that are read stand in front, with commas between them. -/
theorem itemsFrom_ok (takes : Takes item form good) {tokens : List Token}
    {r : Reading tokens (List α × Token)} (h : itemsFrom tail item tokens = .ok r) :
    kinds tokens = separated (r.value.1.map form) ++ .symbol .rightParen :: kinds r.rest ∧
      (∀ a ∈ r.value.1, good a) ∧ r.value.1 ≠ [] := by
  fun_induction itemsFrom tail item tokens with
  | case1 | case2 | case3 | case4 | case6 => simp at h
  | case5 tokens one hone t ht hcomma comma hc more hm ih =>
      obtain rfl := Except.ok.inj h
      obtain ⟨hkinds, hgood⟩ := takes hone
      obtain ⟨hmore, hall, hne⟩ := ih hm
      have hsep : separated (form one.value :: more.value.1.map form) =
          form one.value ++ .symbol .comma :: separated (more.value.1.map form) :=
        separated_cons (by simpa using hne)
      refine ⟨?_, ?_, by simp [Reading.map]⟩
      · simp only [Reading.map, Reading.after, List.map_cons, hsep]
        rw [hkinds, symbol_ok hc, hmore]
        simp
      · simpa [Reading.map, Reading.after] using ⟨hgood, hall⟩
  | case7 tokens one hone t ht hcomma close hc =>
      obtain rfl := Except.ok.inj h
      obtain ⟨hkinds, hgood⟩ := takes hone
      refine ⟨?_, by simpa [Reading.map] using hgood, by simp [Reading.map]⟩
      rw [hkinds, symbol_ok hc]
      rfl

/-- The value of a reading with another value comes from the reading. -/
theorem map_ok {β : Type} {tokens : List Token} {x : Except SourceError (Reading tokens α)}
    {f : Reading tokens α → Reading tokens β} {r : Reading tokens β} (h : x.map f = .ok r) :
    ∃ a, x = .ok a ∧ f a = r := by
  cases x with
  | error e => simp [Except.map] at h
  | ok a => exact ⟨a, rfl, Except.ok.inj h⟩

/-- A list of items that is read stands in front. -/
theorem items_ok (takes : Takes item form good) {tokens : List Token}
    {r : Reading tokens (List α × Token)} (h : items tail item tokens = .ok r) :
    kinds tokens = separated (r.value.1.map form) ++ .symbol .rightParen :: kinds r.rest ∧
      ∀ a ∈ r.value.1, good a := by
  simp only [items] at h
  split at h
  · simp at h
  split at h
  · obtain ⟨close, hclose, rfl⟩ := map_ok h
    exact ⟨symbol_ok hclose, by simp [Reading.map]⟩
  · obtain ⟨hkinds, hgood, -⟩ := itemsFrom_ok takes h
    exact ⟨hkinds, hgood⟩

end items

/-! ### Host paths -/

/-- A path takes all segments there are. -/
theorem moreSegments_ok {origin : List Token} {names r : Reading origin (List Ident)}
    (h : moreSegments tail names = .ok r) :
    pathWritten names.value ++ kinds names.rest = pathWritten r.value ++ kinds r.rest ∧
      (names.value ≠ [] → r.value ≠ []) ∧ startsSegment (kinds r.rest) = false := by
  fun_induction moreSegments tail names with
  | case1 | case3 => simp at h
  | case2 names hrest =>
      obtain rfl := Except.ok.inj h
      exact ⟨rfl, id, by simp [hrest, startsSegment]⟩
  | case4 names dot hrest =>
      obtain rfl := Except.ok.inj h
      refine ⟨rfl, id, ?_⟩
      rw [hrest]
      cases hk : dot.kind <;> simp [startsSegment, hk]
  | case5 names dot hrest =>
      obtain rfl := Except.ok.inj h
      refine ⟨rfl, id, ?_⟩
      rw [hrest]
      cases hk : dot.kind <;> simp [startsSegment, hk]
  | case6 names dot name rest hrest text hname hdot ih =>
      obtain ⟨hkinds, hne, hstop⟩ := ih h
      refine ⟨?_, fun _ => hne (by simp), hstop⟩
      rw [← hkinds, hrest]
      simp [pathWritten, Ident.written, Kind.isSymbol_iff.mp hdot, Kind.name?_eq_some_iff.mp hname]
  | case7 names dot name rest hrest hno =>
      obtain rfl := Except.ok.inj h
      refine ⟨rfl, id, ?_⟩
      rw [hrest]
      refine Bool.eq_false_iff.mpr fun hs => ?_
      obtain ⟨text, ks, heq⟩ := startsSegment_iff.mp hs
      simp only [List.map_cons, List.cons.injEq] at heq
      exact hno text (Kind.isSymbol_iff.mpr heq.1) (Kind.name?_eq_some_iff.mpr heq.2.1)

/-- A path that is read stands in front, up to the last segment there is. -/
theorem hostPath_ok {tokens : List Token} {r : Reading tokens Expr}
    (h : hostPath tail tokens = .ok r) :
    ∃ names span, r.value = .hostPath names span ∧ names ≠ [] ∧
      kinds tokens = pathWritten names ++ kinds r.rest ∧ startsSegment (kinds r.rest) = false := by
  simp only [hostPath] at h
  split at h
  · simp at h
  next dot hdot =>
  split at h
  · simp at h
  next one hone =>
  split at h
  · simp at h
  next path hpath =>
  obtain rfl := Except.ok.inj h
  obtain ⟨hkinds, hne, hstop⟩ := moreSegments_ok hpath
  refine ⟨_, _, rfl, hne (by simp [Reading.map]), ?_, hstop⟩
  rw [symbol_ok hdot, ident_ok hone]
  simpa [Reading.map, Reading.after, pathWritten, Ident.written] using hkinds

/-! ### What has been read -/

end Parser

namespace Expr

/-- An expression that has been read off the front of `input`, up to `rest`, where operators have to
bind at least as tightly as `least`. -/
structure ReadAs (least : Nat) (input rest : List Kind) (e : Expr) : Prop where
  written : input = e.written ++ rest
  canonical : e.Canonical
  binds : e.BindsAt least
  ends : e.EndsBefore rest

end Expr

namespace Parser

/-- A reader of expressions that takes their written forms and all links that bind tightly enough.
-/
def TakesExpressions (least : Nat) (expression : TokenReader Expr) : Prop :=
  ∀ ⦃tokens : List Token⦄ ⦃r : Reading tokens Expr⦄, expression tokens = .ok r →
    r.value.ReadAs least (kinds tokens) (kinds r.rest) ∧
      link? least ((kinds r.rest).headD .eof) = none

/-! ### Statements and function literals -/

section statements

variable {expression : TokenReader Expr}

/-- A statement that is read stands in front and is canonical. -/
theorem statement_ok (takes : TakesExpressions 0 expression) {tokens : List Token}
    {r : Reading tokens Expr} (h : statement tail expression tokens = .ok r) :
    kinds tokens = r.value.written ++ kinds r.rest ∧ r.value.content.Canonical := by
  simp only [statement] at h
  split at h
  · simp at h
  · obtain ⟨read, -⟩ := takes h
    rw [read.canonical.content_eq]
    exact ⟨read.written, read.canonical⟩
  · split at h
    · simp at h
    next name hname =>
    split at h
    · simp at h
    next sign hsign =>
    split at h
    · simp at h
    next value hvalue =>
    obtain rfl := Except.ok.inj h
    obtain ⟨read, -⟩ := takes hvalue
    refine ⟨?_, read.canonical⟩
    rw [ident_ok hname, symbol_ok hsign, read.written]
    simp [Reading.map, Reading.after, Expr.written]

/-- A statement that is read with its semicolon stands in front of that. -/
theorem closedStatement_ok (takes : TakesExpressions 0 expression) {tokens : List Token}
    {r : Reading tokens Expr} (h : closedStatement tail expression tokens = .ok r) :
    kinds tokens = r.value.written ++ .symbol .semicolon :: kinds r.rest ∧
      r.value.content.Canonical := by
  simp only [closedStatement] at h
  split at h
  · simp at h
  next s hs =>
  split at h
  · simp at h
  next semi hsemi =>
  obtain rfl := Except.ok.inj h
  obtain ⟨hkinds, hcanonical⟩ := statement_ok takes hs
  refine ⟨?_, hcanonical⟩
  rw [hkinds, symbol_ok hsemi]
  rfl

/-- So does a block. -/
theorem block_ok (takes : TakesExpressions 0 expression) {tokens : List Token}
    {r : Reading tokens (List Expr × Token)} (h : block tail expression tokens = .ok r) :
    kinds tokens = terminated (r.value.1.map Expr.written) ++ .symbol .rightBrace :: kinds r.rest ∧
      ∀ e ∈ r.value.1, e.content.Canonical := by
  fun_induction block tail expression tokens with
  | case1 | case3 | case4 => simp at h
  | case2 tokens t ht hbrace =>
      obtain ⟨close, hclose, rfl⟩ := map_ok h
      exact ⟨symbol_ok hclose, by simp [Reading.map]⟩
  | case5 tokens t ht hbrace s hs more hmore ih =>
      obtain rfl := Except.ok.inj h
      obtain ⟨hkinds, hcanonical⟩ := closedStatement_ok takes hs
      obtain ⟨hmore, hall⟩ := ih hmore
      refine ⟨?_, by simpa [Reading.map, Reading.after] using ⟨hcanonical, hall⟩⟩
      rw [hkinds, hmore]
      simp [Reading.map, Reading.after]

/-- So does a function. -/
theorem function_ok (takes : TakesExpressions 0 expression) {tokens : List Token}
    {r : Reading tokens Expr} (h : function tail expression tokens = .ok r) :
    kinds tokens = r.value.written ++ kinds r.rest ∧ r.value.Canonical ∧
      r.value.operator? = none ∧ r.value.EndsBefore (kinds r.rest) := by
  simp only [function] at h
  split at h
  · simp at h
  next start hstart =>
  split at h
  · simp at h
  next params hparams =>
  split at h
  · simp at h
  next brace hbrace =>
  split at h
  · simp at h
  next body hbody =>
  obtain rfl := Except.ok.inj h
  have names : Takes (ident tail) Ident.written (fun _ => True) :=
    fun _ _ h => ⟨ident_ok h, trivial⟩
  obtain ⟨hnames, -⟩ := items_ok names hparams
  obtain ⟨hkinds, hcanonical⟩ := block_ok takes hbody
  refine ⟨?_, .func hcanonical, rfl, trivial⟩
  rw [symbol_ok hstart, hnames, symbol_ok hbrace, hkinds]
  simp [Reading.map, Reading.after, Expr.written]

/-- So does an expression in parentheses. -/
theorem parenthesised_ok (takes : TakesExpressions 0 expression) {tokens : List Token}
    {r : Reading tokens Expr} (h : parenthesised tail expression tokens = .ok r) :
    kinds tokens = r.value.written ++ kinds r.rest ∧ r.value.Canonical ∧
      r.value.operator? = none ∧ r.value.EndsBefore (kinds r.rest) := by
  simp only [parenthesised] at h
  split at h
  · simp at h
  next start hstart =>
  split at h
  · simp at h
  next inner hinner =>
  split at h
  · simp at h
  next close hclose =>
  obtain rfl := Except.ok.inj h
  obtain ⟨read, -⟩ := takes hinner
  refine ⟨?_, .paren read.canonical, rfl, trivial⟩
  rw [symbol_ok hstart, read.written, symbol_ok hclose]
  simp [Reading.map, Reading.after, Expr.written]

end statements

/-! ### Primaries, links and expressions -/

section expressions

variable {expression : Nat → TokenReader Expr}

/-- A primary that is read stands in front, however strongly it has to bind. -/
theorem primary_ok (takes : ∀ least, TakesExpressions least (expression least))
    {tokens : List Token} {r : Reading tokens Expr} (h : primary tail expression tokens = .ok r)
    (least : Nat) : r.value.ReadAs least (kinds tokens) (kinds r.rest) := by
  suffices hread : kinds tokens = r.value.written ++ kinds r.rest ∧ r.value.Canonical ∧
      r.value.operator? = none ∧ r.value.EndsBefore (kinds r.rest) from
    ⟨hread.1, hread.2.1, Expr.bindsAt_of_operator? hread.2.2.1 least, hread.2.2.2⟩
  cases tokens with
  | nil => exact absurd h refuse_ne_ok
  | cons t rest =>
      simp only [primary] at h
      split at h
      · next v hv =>
        obtain rfl := Except.ok.inj h
        exact ⟨by simp [Reading.map, Reading.first, Expr.written, hv], .literal, rfl, trivial⟩
      · next text htext =>
        obtain rfl := Except.ok.inj h
        exact ⟨by simp [Reading.map, Reading.first, Expr.written, Ident.written, htext], .var, rfl,
          trivial⟩
      · exact absurd h refuse_ne_ok
      · next s hs =>
        split at h
        · next op hop =>
          split at h
          · simp at h
          next operand hoperand =>
          obtain rfl := Except.ok.inj h
          obtain ⟨read, hstop⟩ := takes tightest hoperand
          have hkinds : kinds (t :: rest) =
              .symbol op.token :: (operand.value.written ++ kinds operand.rest) := by
            simp [hs, unaryOp?_eq_some_iff.mp hop, ← read.written]
          have binds := Expr.bindsAt_tightest_iff.mp read.binds
          exact ⟨hkinds, .unary read.canonical binds, rfl, hstop⟩
        · split at h
          · obtain ⟨names, span, hvalue, hne, hkinds, hstop⟩ := hostPath_ok h
            rw [hvalue]
            exact ⟨by simpa [Expr.written] using hkinds, .hostPath hne, rfl, hstop⟩
          · split at h
            · split at h
              · simp at h
              · exact function_ok (takes 0) h
              · exact parenthesised_ok (takes 0) h
            · exact absurd h refuse_ne_ok

/-- So does an expression with one more link. -/
theorem extend_ok (takes : ∀ least, TakesExpressions least (expression least)) {link : Link}
    {origin : List Token} {least : Nat} {left r : Reading origin Expr}
    (read : left.value.ReadAs least (kinds origin) (kinds left.rest))
    (starts : link? least ((kinds left.rest).headD .eof) = some link)
    (h : extend tail expression link left = .ok r) :
    r.value.ReadAs least (kinds origin) (kinds r.rest) := by
  simp only [extend] at h
  split at h
  · exact absurd h refuse_ne_ok
  next t rest hrest =>
  obtain ⟨hwritten, hcanonical, hbinds, hends⟩ := read
  have hk : kinds left.rest = t.kind :: kinds rest := by rw [hrest]; rfl
  rw [hk] at starts hends hwritten
  cases link with
  | call =>
      rw [List.headD_cons, link?_eq_some_call_iff] at starts
      rw [starts] at hends hwritten
      simp only at h
      split at h
      · simp at h
      next args hargs =>
      obtain rfl := Except.ok.inj h
      have item : Takes (expression 0) Expr.written Expr.Canonical := fun _ _ h =>
        ⟨(takes 0 h).1.written, (takes 0 h).1.canonical⟩
      obtain ⟨hkinds, hall⟩ := items_ok item hargs
      refine ⟨?_, .call hcanonical ?_ hall, Expr.bindsAt_of_operator? rfl least, trivial⟩
      · rw [hwritten, hkinds]
        simp [Reading.map, Reading.after, Expr.written]
      · exact endsBefore_call_iff.mp hends
  | member =>
      rw [List.headD_cons, link?_eq_some_member_iff] at starts
      rw [starts] at hends hwritten
      simp only at h
      split at h
      · simp at h
      next name hname =>
      obtain rfl := Except.ok.inj h
      have hkinds := ident_ok hname
      -- A path in front of the dot would have taken the name behind it.
      rw [hkinds] at hends
      obtain ⟨hoperation, hpath⟩ := endsBefore_member_iff.mp hends
      refine ⟨?_, .member hcanonical hoperation hpath, Expr.bindsAt_of_operator? rfl least, trivial⟩
      rw [hwritten, hkinds]
      simp [Reading.map, Reading.after, Expr.written]
  | operator op =>
      rw [List.headD_cons, link?_eq_some_operator_iff] at starts
      obtain ⟨hop, hle⟩ := starts
      rw [hop] at hends hwritten
      simp only at h
      split at h
      · simp at h
      next right hright =>
      obtain rfl := Except.ok.inj h
      obtain ⟨readRight, hstop⟩ := takes (op.precedence + 1) hright
      refine ⟨?_, .binary hcanonical (endsBefore_operator_iff.mp hends) readRight.canonical
        readRight.binds, ?_, hstop⟩
      · rw [hwritten, readRight.written]
        simp [Reading.map, Reading.after, Expr.written]
      · rintro op' hop'
        obtain rfl : op = op' := Option.some.inj hop'
        exact hle

end expressions

mutual

/-- What an expression is read from. The levels left bound the depth of the recursion. -/
theorem expression_ok : (levels least : Nat) → TakesExpressions least (expression tail levels least)
  | 0, _, _, _, h => absurd h (by rw [expression]; exact refuseDepth_ne_ok)
  | levels + 1, least, tokens, r, h => by
      rw [expression] at h
      split at h
      · simp at h
      next left hleft =>
      exact links_ok levels least (primary_ok (expression_ok levels) hleft least) h

/-- What an expression with further links is read from. -/
theorem links_ok : (levels least : Nat) → {origin : List Token} → {left r : Reading origin Expr} →
    left.value.ReadAs least (kinds origin) (kinds left.rest) →
    links tail levels least left = .ok r →
    r.value.ReadAs least (kinds origin) (kinds r.rest) ∧
      link? least ((kinds r.rest).headD .eof) = none
  | 0, least, origin, left, r, read, h => by
      rw [links] at h
      split at h
      · simp at h
      next t ht =>
      rw [kind_of_current ht] at h
      split at h
      · next hnone =>
        obtain rfl := Except.ok.inj h
        exact ⟨read, hnone⟩
      · exact absurd h refuseDepth_ne_ok
  | levels + 1, least, origin, left, r, read, h => by
      rw [links] at h
      split at h
      · simp at h
      next t ht =>
      rw [kind_of_current ht] at h
      split at h
      · next hnone =>
        obtain rfl := Except.ok.inj h
        exact ⟨read, hnone⟩
      next link hlink =>
      split at h
      · simp at h
      next longer hlonger =>
      exact links_ok levels least (extend_ok (expression_ok levels) read hlink hlonger) h

end

/-! ### Programs -/

/-- The statements of a program that is read stand in front of its end. -/
theorem statements_ok {expression : TokenReader Expr} (takes : TakesExpressions 0 expression)
    {tokens : List Token} {body : List Expr} {last : Token}
    (h : statements tail expression tokens = .ok (body, last)) :
    (∃ rest, kinds tokens = terminated (body.map Expr.written) ++ rest ∧ rest.headD .eof = .eof) ∧
      ∀ e ∈ body, e.content.Canonical := by
  fun_induction statements tail expression tokens generalizing body last with
  | case1 | case3 | case4 => simp at h
  | case2 tokens t ht heof =>
      obtain ⟨rfl, rfl⟩ := Prod.mk.inj (Except.ok.inj h)
      refine ⟨⟨kinds tokens, rfl, ?_⟩, by simp⟩
      rw [← kind_of_current ht, Kind.isEof_iff.mp heof]
  | case5 tokens t ht heof s hs more last' hmore ih =>
      obtain ⟨rfl, rfl⟩ := Prod.mk.inj (Except.ok.inj h)
      obtain ⟨hkinds, hcanonical⟩ := closedStatement_ok takes hs
      obtain ⟨⟨rest, hrest, hlast⟩, hall⟩ := ih hmore
      refine ⟨⟨rest, ?_, hlast⟩, by simpa using ⟨hcanonical, hall⟩⟩
      rw [hkinds, hrest]
      simp

/-- The statements of a program are read from the front of its tokens, up to the end of the input.
-/
theorem program_ok {tokens : List Token} {p : Program} (h : program tail tokens = .ok p) :
    (∃ rest, kinds tokens = p.written ++ rest ∧ rest.headD .eof = .eof) ∧ p.Canonical := by
  simp only [program] at h
  split at h
  · simp at h
  split at h
  · simp at h
  next body last hbody =>
  obtain rfl := Except.ok.inj h
  exact statements_ok (expression_ok nestingLimit 0) hbody

end Parser

/-- **Soundness.** The written form of an accepted program is the kinds of its tokens up to the
first end of the input, and the program is canonical. -/
theorem Program.ofTokens_sound {tokens : List Token} {p : Program}
    (h : Program.ofTokens tokens = .ok p) :
    p.written = (kinds tokens).takeWhile Kind.isMore ∧ p.Canonical := by
  obtain ⟨⟨rest, hkinds, hrest⟩, hcanonical⟩ := Parser.program_ok h
  refine ⟨?_, hcanonical⟩
  have hmore : ∀ k ∈ p.written, k.isMore = true := by
    intro k hk
    have hne : k ≠ .eof := fun heq => p.eof_notMem_written (heq ▸ hk)
    simpa [Kind.isMore, Bool.eq_false_iff, Kind.isEof_iff] using hne
  have hstop : rest.takeWhile Kind.isMore = [] := by
    cases rest with
    | nil => rfl
    | cons k ks =>
        obtain rfl : k = .eof := hrest
        rfl
  rw [hkinds, List.takeWhile_append_of_pos hmore, hstop, List.append_nil]

/-- What is read from `f = (a) { a; }; !f(null + a * b).c;`, whatever stands behind the end of the
input. -/
theorem Program.ofTokens_sound_function_and_call :
    ∃ p : Program,
      p.written = [.name "f", .symbol .assign, .symbol .leftParen, .name "a", .symbol .rightParen,
        .symbol .leftBrace, .name "a", .symbol .semicolon, .symbol .rightBrace, .symbol .semicolon,
        .symbol .bang, .name "f", .symbol .leftParen, .literal .null, .symbol .plus, .name "a",
        .symbol .star, .name "b", .symbol .rightParen, .symbol .dot, .name "c",
        .symbol .semicolon] ∧ p.Canonical := by
  have accepted : (Program.ofTokens (([.name "f", .symbol .assign, .symbol .leftParen, .name "a",
      .symbol .rightParen, .symbol .leftBrace, .name "a", .symbol .semicolon, .symbol .rightBrace,
      .symbol .semicolon, .symbol .bang, .name "f", .symbol .leftParen, .literal .null,
      .symbol .plus, .name "a", .symbol .star, .name "b", .symbol .rightParen, .symbol .dot,
      .name "c", .symbol .semicolon, .eof, .symbol .comma] : List Kind).map
        (⟨·, .empty 0⟩))).toOption.isSome = true := by
    decide +kernel
  have read : ∀ {x : Except SourceError Program}, x.toOption.isSome = true → ∃ p, x = .ok p := by
    intro x some
    cases x with
    | error e => cases some
    | ok p => exact ⟨p, rfl⟩
  obtain ⟨p, hp⟩ := read accepted
  exact ⟨p, Program.ofTokens_sound hp⟩

end ScriptConsole
