import ScriptConsole.Proofs.Syntax.Lookahead
import ScriptConsole.Proofs.Syntax.Nesting

/-!
# The Parser Reads Whatever Is Written

The written form of a canonical tree is read as that tree again, up to spans, as long as the
levels of nesting suffice; where they do not, the parser says so and says nothing else. Spans, the
place of the end of the input and whatever stands behind it play no part.

An expression is entered with a number of levels left. Reading it comes down to going on behind
it, in the loop over links, with the levels that its own links have left over (`Expr.GoesOn`):
what carries the induction over canonical trees is that a link is put on what stands to its left
by the same loop that goes on behind the longer expression.

## Main results

* `Expr.Canonical.goesOn`: reading an expression and then what stands behind it, by induction on
  canonical expressions.
* `Parser.program_settles`: the tokens of a program are read as the program or refused for its
  depth.
* `Program.ofTokens_complete`: **completeness**, with the exact limit of nesting.
-/

namespace ScriptConsole

open Token (Kind)

/-! ### Trees up to spans -/

/-- A name without its place. -/
def Ident.shape (name : Ident) : Ident := ⟨name.text, .empty 0⟩

namespace Expr

mutual

/-- An expression without the places of its parts. -/
def shape : Expr → Expr
  | literal v _ => literal v (.empty 0)
  | var name => var name.shape
  | assign name value _ => assign name.shape value.shape (.empty 0)
  | func params body _ => func (params.map Ident.shape) (shapeEach body) (.empty 0)
  | call callee args _ => call callee.shape (shapeEach args) (.empty 0)
  | hostPath segments _ => hostPath (segments.map Ident.shape) (.empty 0)
  | member target name _ => member target.shape name.shape (.empty 0)
  | unary op operand _ => unary op operand.shape (.empty 0)
  | binary left op right _ => binary left.shape op right.shape (.empty 0)
  | paren inner _ => paren inner.shape (.empty 0)

/-- Expressions without the places of their parts. -/
def shapeEach : List Expr → List Expr
  | [] => []
  | e :: rest => e.shape :: shapeEach rest

end

/-- The shapes of some expressions are taken one by one. -/
@[simp] theorem shapeEach_eq_map (es : List Expr) : shapeEach es = es.map shape := by
  induction es with
  | nil => rfl
  | cons e rest ih => rw [shapeEach, ih, List.map_cons]

end Expr

/-- A program without the places of its parts. -/
def Program.shape (p : Program) : Program := ⟨p.statements.map Expr.shape, .empty 0⟩

/-! ### Readings that take levels -/

/-- An outcome that says that the levels are used up, and nothing else. -/
def TooDeep {α : Type} (x : Except SourceError α) : Prop :=
  ∃ place, x = .error (.parse (.tooDeep place))

/-- An outcome that is good if the levels suffice, and says that they are used up otherwise. -/
def Settles {α : Type} (enough : Prop) (good : α → Prop) (x : Except SourceError α) : Prop :=
  (enough ∧ ∃ a, x = .ok a ∧ good a) ∨ (¬enough ∧ TooDeep x)

namespace Parser

variable (pos : Nat) {tokens : List Token} {ks : List Kind}

/-! ### Single tokens -/

/-- A refusal for the depth says that the levels are used up. -/
theorem refuseDepth_tooDeep {α : Type} (tokens : List Token) :
    TooDeep (refuseDepth (.padding pos) tokens : Except SourceError α) := by
  cases tokens with
  | nil => exact ⟨_, rfl⟩
  | cons t rest => exact ⟨t.span, rfl⟩

/-- A symbol is read where it is written. -/
theorem exists_symbol {s : Token.Symbol} (h : kinds tokens = .symbol s :: ks) :
    ∃ r, symbol (.padding pos) s tokens = .ok r ∧ kinds r.rest = ks := by
  cases tokens with
  | nil => simp at h
  | cons t rest =>
      obtain ⟨ht, hrest⟩ := List.cons.inj h
      exact ⟨.first t rest, by rw [symbol, if_pos (Kind.isSymbol_iff.mpr ht)], hrest⟩

/-- So is a name. -/
theorem exists_ident {name : Ident} (h : kinds tokens = name.written ++ ks) :
    ∃ r, ident (.padding pos) tokens = .ok r ∧ r.value.shape = name.shape ∧ kinds r.rest = ks := by
  cases tokens with
  | nil => simp [Ident.written] at h
  | cons t rest =>
      obtain ⟨ht, hrest⟩ := List.cons.inj h
      refine ⟨(Reading.first t rest).map fun t => ⟨name.text, t.span⟩, ?_, rfl, hrest⟩
      rw [ident, Kind.name?_eq_some_iff.mpr ht]

/-! ### Lists of items -/

section items

variable {α : Type} {item : TokenReader α} {form : α → List Kind} {shape : α → α}
  {enough : α → Prop}

/-- A reader finds a value by its written form, up to its shape, wherever that is closed off. -/
def Finds (item : TokenReader α) (form : α → List Kind) (shape : α → α) (enough : Prop) (a : α) :
    Prop :=
  ∀ ⦃tokens : List Token⦄ ⦃ks : List Kind⦄, kinds tokens = form a ++ ks →
    (ks.headD .eof).closesExpression = true →
    Settles enough (fun r : Reading tokens α => shape r.value = shape a ∧ kinds r.rest = ks)
      (item tokens)

/-- Items are read with their commas if each of them is, by induction on them. -/
theorem itemsFrom_settles {as : List α}
    (finds : ∀ a ∈ as, Finds item form shape (enough a) a) (hne : as ≠ [])
    (h : kinds tokens = separated (as.map form) ++ .symbol .rightParen :: ks) :
    Settles (∀ a ∈ as, enough a)
      (fun r : Reading tokens (List α × Token) =>
        r.value.1.map shape = as.map shape ∧ kinds r.rest = ks)
      (itemsFrom (.padding pos) item tokens) := by
  induction as generalizing tokens with
  | nil => exact absurd rfl hne
  | cons a more ih =>
      -- The item in front is closed off by a comma or by the parenthesis.
      have settled : ∀ {behind : List Kind}, kinds tokens = form a ++ behind →
          (behind.headD .eof).closesExpression = true → Settles (enough a) _ (item tokens) :=
        fun h closed => finds a (by simp) h closed
      cases more with
      | nil =>
          rcases settled h rfl with ⟨hfit, one, hone, hshape, hrest⟩ | ⟨hno, place, herr⟩
          · obtain ⟨t, ht, hkind⟩ := exists_current pos one.rest
            obtain ⟨close, hclose, hks⟩ := exists_symbol pos hrest
            rw [hrest, List.headD_cons] at hkind
            refine .inl ⟨by simpa using hfit,
              (one.after close).map fun t => ([one.value], t), ?_, ?_⟩
            · rw [itemsFrom, hone]
              simp only [ht, hkind, hclose]
              rfl
            · exact ⟨by simpa [Reading.map] using hshape, hks⟩
          · refine .inr ⟨by simpa using hno, place, ?_⟩
            rw [itemsFrom, herr]
      | cons b rest =>
          rw [List.map_cons, separated_cons (by simp), List.append_assoc, List.cons_append] at h
          rcases settled h rfl with ⟨hfit, one, hone, hshape, hrest⟩ | ⟨hno, place, herr⟩
          · obtain ⟨t, ht, hkind⟩ := exists_current pos one.rest
            obtain ⟨comma, hcomma, hks⟩ := exists_symbol pos hrest
            rw [hrest, List.headD_cons] at hkind
            rcases ih (fun a mem => finds a (by simp [mem])) (by simp) hks with
              ⟨hall, more, hmore, hshapes, hlast⟩ | ⟨hno, place, herr⟩
            · refine .inl ⟨List.forall_mem_cons.mpr ⟨hfit, hall⟩,
                (one.after (comma.after more)).map fun m => (one.value :: m.1, m.2), ?_, ?_⟩
              · rw [itemsFrom, hone]
                simp only [ht, hkind, hcomma, hmore]
                rfl
              · exact ⟨by simpa [Reading.map, Reading.after, hshape] using hshapes, hlast⟩
            · refine .inr ⟨fun hall => hno (List.forall_mem_cons.mp hall).2, place, ?_⟩
              rw [itemsFrom, hone]
              simp only [ht, hkind, hcomma, herr]
              rfl
          · refine .inr ⟨fun hall => hno (hall a (by simp)), place, ?_⟩
            rw [itemsFrom, herr]

/-- So is a list of items, an empty one included. -/
theorem items_settles {as : List α} (finds : ∀ a ∈ as, Finds item form shape (enough a) a)
    (starts : ∀ a ∈ as, StartsExpression (form a))
    (h : kinds tokens = separated (as.map form) ++ .symbol .rightParen :: ks) :
    Settles (∀ a ∈ as, enough a)
      (fun r : Reading tokens (List α × Token) =>
        r.value.1.map shape = as.map shape ∧ kinds r.rest = ks)
      (items (.padding pos) item tokens) := by
  obtain ⟨t, ht, hkind⟩ := exists_current pos tokens
  cases as with
  | nil =>
      obtain ⟨close, hclose, hks⟩ := exists_symbol pos h
      rw [h] at hkind
      refine .inl ⟨by simp, close.map fun t => ([], t), ?_, by simp [Reading.map], hks⟩
      simp only [items, ht, hkind, hclose]
      rfl
  | cons a more =>
      have front : t.kind.opensExpression = true := by
        obtain ⟨k, rest, hform, hk⟩ := (starts a (by simp)).opens
        have : ∃ behind, kinds tokens = k :: behind := by
          cases more with
          | nil => exact ⟨rest ++ .symbol .rightParen :: ks, by simp [h, separated, hform]⟩
          | cons b others =>
              rw [List.map_cons, separated_cons (by simp), hform] at h
              exact ⟨_, by rw [h]; rfl⟩
        obtain ⟨behind, heq⟩ := this
        rw [hkind, heq, List.headD_cons, hk]
      have same : items (.padding pos) item tokens = itemsFrom (.padding pos) item tokens := by
        have : t.kind.isSymbol .rightParen = false := by
          refine Bool.eq_false_iff.mpr fun hs => ?_
          rw [Kind.isSymbol_iff.mp hs] at front
          exact absurd front (by decide)
        simp only [items, ht, this]
        rfl
      rw [same]
      exact itemsFrom_settles pos finds (by simp) h

end items

/-! ### Host paths -/

/-- Where no segment starts, a path is complete. -/
theorem moreSegments_of_stops {origin : List Token} {names : Reading origin (List Ident)}
    (stops : startsSegment (kinds names.rest) = false) :
    moreSegments (.padding pos) names = .ok names := by
  rw [moreSegments]
  split
  · rfl
  · split
    · rfl
    · rfl
  · next dot name rest hrest =>
    split
    · next text hdot hname =>
      have starts : startsSegment (kinds names.rest) = true :=
        startsSegment_iff.mpr ⟨text, kinds rest, by
          rw [hrest, kinds, List.map_cons, List.map_cons, Kind.isSymbol_iff.mp hdot,
            Kind.name?_eq_some_iff.mp hname]⟩
      exact absurd starts (by simp [stops])
    · rfl

/-- Further segments of a path are all read. -/
theorem moreSegments_finds {origin : List Token} (names : Reading origin (List Ident))
    {more : List Ident} (h : kinds names.rest = pathWritten more ++ ks)
    (stops : startsSegment ks = false) :
    ∃ r, moreSegments (.padding pos) names = .ok r ∧
      r.value.map Ident.shape = (names.value ++ more).map Ident.shape ∧ kinds r.rest = ks := by
  induction more generalizing names with
  | nil =>
      refine ⟨names, moreSegments_of_stops pos ?_, by simp, h⟩
      rw [h]
      exact stops
  | cons one others ih =>
      match hrest : names.rest, h with
      | [_], h => simp at h
      | dot :: name :: rest, h =>
          simp only [List.map_cons, pathWritten_cons, List.cons_append, List.cons.injEq] at h
          obtain ⟨hdot, hname, hks⟩ := h
          have hlt : rest.length < origin.length := by
            have := names.shorter
            simp only [hrest, List.length_cons] at this
            omega
          obtain ⟨r, hr, hvalue, hlast⟩ :=
            ih ⟨names.value ++ [⟨one.text, name.span⟩], rest, hlt⟩ hks
          refine ⟨r, ?_, by simpa [Ident.shape] using hvalue, hlast⟩
          rw [← hr, moreSegments]
          split
          · next heq => simp [hrest] at heq
          · next heq => simp [hrest] at heq
          · next dot' name' rest' heq =>
            obtain ⟨rfl, rfl, rfl⟩ : dot = dot' ∧ name = name' ∧ rest = rest' := by
              simpa [hrest] using heq
            split
            · next text _ htext =>
              rw [hname] at htext
              obtain rfl := Option.some.inj htext
              rfl
            · next hno =>
              exact absurd (Kind.name?_eq_some_iff.mpr hname)
                (hno one.text (Kind.isSymbol_iff.mpr hdot))

/-- So is a path. -/
theorem hostPath_finds {names : List Ident} (hne : names ≠ [])
    (h : kinds tokens = pathWritten names ++ ks) (stops : startsSegment ks = false) :
    ∃ r, hostPath (.padding pos) tokens = .ok r ∧
      (∃ names' span, r.value = .hostPath names' span ∧
        names'.map Ident.shape = names.map Ident.shape) ∧ kinds r.rest = ks := by
  cases names with
  | nil => exact absurd rfl hne
  | cons one more =>
      obtain ⟨dot, hdot, hbehind⟩ := exists_symbol pos h
      have hnames : kinds dot.rest = one.written ++ (pathWritten more ++ ks) := hbehind
      obtain ⟨name, hname, htext, hrest⟩ := exists_ident pos hnames
      obtain ⟨path, hpath, hvalue, hlast⟩ :=
        moreSegments_finds pos ((dot.after name).map fun name => [name]) hrest stops
      refine ⟨path.map fun names => .hostPath names
          ⟨dot.value.span.start, lastStop dot.value.span.start names⟩, ?_,
        ⟨path.value, _, rfl, ?_⟩, hlast⟩
      · simp only [hostPath, hdot, hname, hpath]
      · simpa [Reading.map, Reading.after, htext] using hvalue

/-! ### Statements -/

section statements

variable {expression : TokenReader Expr}

/-- A statement is read with its semicolon if it is read. -/
theorem closedStatement_settles {e : Expr} {enough : Prop} (canonical : e.content.Canonical)
    (finds : Finds expression Expr.written Expr.shape enough e.content)
    (h : kinds tokens = e.written ++ .symbol .semicolon :: ks) :
    Settles enough (fun r : Reading tokens Expr => r.value.shape = e.shape ∧ kinds r.rest = ks)
      (closedStatement (.padding pos) expression tokens) := by
  -- An assignment is told apart by its first two tokens.
  have settled : Settles enough
      (fun r : Reading tokens Expr =>
        r.value.shape = e.shape ∧ kinds r.rest = .symbol .semicolon :: ks)
      (statement (.padding pos) expression tokens) := by
    rcases e.eq_assign_or_content_eq with ⟨name, value, s, rfl⟩ | heq
    · have isAssign : isAssignment (.padding pos) tokens = .ok true := by
        rw [isAssignment_eq pos, h]
        rfl
      rw [Expr.written, List.append_assoc] at h
      obtain ⟨target, htarget, hname, hbehind⟩ := exists_ident pos h
      obtain ⟨sign, hsign, hvalue⟩ := exists_symbol pos hbehind
      rcases finds hvalue rfl with ⟨hfit, v, hv, hshape, hrest⟩ | ⟨hno, place, herr⟩
      · refine .inl ⟨hfit, (target.after (sign.after v)).map fun v =>
          .assign target.value v (target.value.span.join v.span), ?_, ?_, hrest⟩
        · simp only [statement, isAssign, htarget, hsign, hv]
        · rw [Expr.content] at hshape
          simp [Reading.map, Reading.after, Expr.shape, hname, hshape]
      · exact .inr ⟨hno, place, by simp only [statement, isAssign, htarget, hsign, herr]⟩
    · rw [heq] at canonical finds
      have isExpression : isAssignment (.padding pos) tokens = .ok false := by
        rw [isAssignment_eq pos, h, canonical.starts.opensAssignment (by simp)]
      simp only [statement, isExpression]
      exact finds h rfl
  rcases settled with ⟨hfit, s, hs, hshape, hrest⟩ | ⟨hno, place, herr⟩
  · obtain ⟨semi, hsemi, hks⟩ := exists_symbol pos hrest
    refine .inl ⟨hfit, (s.after semi).map fun _ => s.value, ?_, hshape, hks⟩
    simp only [closedStatement, hs, hsemi]
  · refine .inr ⟨hno, place, ?_⟩
    simp only [closedStatement, herr]

/-- In front of the written form of a statement stands a token that opens an expression. -/
theorem exists_opening {e : Expr} (canonical : e.content.Canonical)
    (h : kinds tokens = e.written ++ ks) :
    ∃ t, current (.padding pos) tokens = .ok t ∧ t.kind.opensExpression = true := by
  obtain ⟨t, ht, hkind⟩ := exists_current pos tokens
  obtain ⟨k, rest, hform, opens⟩ := statement_opens canonical
  rw [h, hform, List.cons_append, List.headD_cons] at hkind
  exact ⟨t, ht, hkind ▸ opens⟩

/-- Every statement of a body is found, and starts as one. -/
def FindsEach (expression : TokenReader Expr) (enough : Expr → Prop) (body : List Expr) : Prop :=
  ∀ e ∈ body, e.content.Canonical ∧
    Finds expression Expr.written Expr.shape (enough e) e.content

/-- A block is read with its brace if its statements are. -/
theorem block_settles {body : List Expr} {enough : Expr → Prop}
    (finds : FindsEach expression enough body)
    (h : kinds tokens = terminated (body.map Expr.written) ++ .symbol .rightBrace :: ks) :
    Settles (∀ e ∈ body, enough e)
      (fun r : Reading tokens (List Expr × Token) =>
        r.value.1.map Expr.shape = body.map Expr.shape ∧ kinds r.rest = ks)
      (block (.padding pos) expression tokens) := by
  induction body generalizing tokens with
  | nil =>
      obtain ⟨t, ht, hkind⟩ := exists_current pos tokens
      obtain ⟨close, hclose, hks⟩ := exists_symbol pos h
      rw [h] at hkind
      refine .inl ⟨by simp, close.map fun t => ([], t), ?_, by simp [Reading.map], hks⟩
      rw [block, ht]
      simp only [hkind, hclose]
      rfl
  | cons e more ih =>
      obtain ⟨canonical, found⟩ := finds e (by simp)
      rw [List.map_cons, terminated_cons, List.append_assoc, List.cons_append] at h
      obtain ⟨t, ht, opens⟩ := exists_opening pos canonical h
      have notClosed : t.kind.isSymbol .rightBrace = false := by
        refine Bool.eq_false_iff.mpr fun hs => ?_
        rw [Kind.isSymbol_iff.mp hs] at opens
        exact absurd opens (by decide)
      rcases closedStatement_settles pos canonical found h with
        ⟨hfit, s, hs, hshape, hrest⟩ | ⟨hno, place, herr⟩
      · rcases ih (fun e mem => finds e (by simp [mem])) hrest with
          ⟨hall, others, hothers, hshapes, hlast⟩ | ⟨hno, place, herr⟩
        · refine .inl ⟨List.forall_mem_cons.mpr ⟨hfit, hall⟩,
            (s.after others).map fun m => (s.value :: m.1, m.2), ?_, ?_, hlast⟩
          · rw [block, ht]
            simp only [notClosed, hs, hothers]
            rfl
          · simpa [Reading.map, Reading.after, hshape] using hshapes
        · refine .inr ⟨fun hall => hno (List.forall_mem_cons.mp hall).2, place, ?_⟩
          rw [block, ht]
          simp only [notClosed, hs, herr]
          rfl
      · refine .inr ⟨fun hall => hno (hall e (by simp)), place, ?_⟩
        rw [block, ht]
        simp only [notClosed, herr]
        rfl

/-- A function is read if its statements are. -/
theorem function_settles {params : List Ident} {body : List Expr} {span : Span}
    {enough : Expr → Prop} (finds : FindsEach expression enough body)
    (h : kinds tokens = (Expr.func params body span).written ++ ks) :
    Settles (∀ e ∈ body, enough e)
      (fun r : Reading tokens Expr =>
        r.value.shape = (Expr.func params body span).shape ∧ kinds r.rest = ks)
      (function (.padding pos) expression tokens) := by
  simp only [Expr.written, List.cons_append, List.append_assoc, Expr.writtenEach_eq_map] at h
  have names : ∀ name ∈ params,
      Finds (ident (.padding pos)) Ident.written Ident.shape True name := by
    intro name _ tokens ks h _
    obtain ⟨r, hr, hshape, hrest⟩ := exists_ident pos h
    exact .inl ⟨trivial, r, hr, hshape, hrest⟩
  obtain ⟨start, hstart, hinside⟩ := exists_symbol pos h
  obtain ⟨-, ps, hps, hparams, hbrace⟩ | ⟨hno, -⟩ :=
    items_settles pos names (fun _ _ => .name) hinside
  · obtain ⟨brace, hopen, hbody⟩ := exists_symbol pos hbrace
    rcases block_settles pos finds hbody with
      ⟨hfit, b, hb, hshapes, hlast⟩ | ⟨hno, place, herr⟩
    · refine .inl ⟨hfit, (start.after (ps.after (brace.after b))).map fun b =>
        .func ps.value.1 b.1 ⟨start.value.span.start, b.2.span.stop⟩, ?_, ?_, hlast⟩
      · simp only [function, hstart, hps, hopen, hb]
      · simp [Reading.map, Reading.after, Expr.shape, hparams, hshapes]
    · exact .inr ⟨hno, place, by simp only [function, hstart, hps, hopen, herr]⟩
  · exact absurd (fun _ _ => trivial) hno

/-- An expression in parentheses is read if what is inside is. -/
theorem parenthesised_settles {inner : Expr} {span : Span} {enough : Prop}
    (finds : Finds expression Expr.written Expr.shape enough inner)
    (h : kinds tokens = (Expr.paren inner span).written ++ ks) :
    Settles enough
      (fun r : Reading tokens Expr =>
        r.value.shape = (Expr.paren inner span).shape ∧ kinds r.rest = ks)
      (parenthesised (.padding pos) expression tokens) := by
  simp only [Expr.written, List.cons_append, List.append_assoc] at h
  obtain ⟨start, hstart, hinside⟩ := exists_symbol pos h
  rcases finds hinside rfl with ⟨hfit, e, he, hshape, hrest⟩ | ⟨hno, place, herr⟩
  · obtain ⟨close, hclose, hlast⟩ := exists_symbol pos hrest
    refine .inl ⟨hfit, (start.after (e.after close)).map fun t =>
      .paren e.value ⟨start.value.span.start, t.span.stop⟩, ?_, ?_, hlast⟩
    · simp only [parenthesised, hstart, he, hclose]
    · simp [Reading.map, Reading.after, Expr.shape, hshape]
  · exact .inr ⟨hno, place, by simp only [parenthesised, hstart, herr]⟩

/-- A program is read to its end if its statements are. -/
theorem statements_settles {body : List Expr} {enough : Expr → Prop}
    (finds : FindsEach expression enough body)
    (h : kinds tokens = terminated (body.map Expr.written) ++ ks) (hks : ks.headD .eof = .eof) :
    Settles (∀ e ∈ body, enough e)
      (fun r : List Expr × Token => r.1.map Expr.shape = body.map Expr.shape)
      (statements (.padding pos) expression tokens) := by
  induction body generalizing tokens with
  | nil =>
      obtain ⟨t, ht, hkind⟩ := exists_current pos tokens
      rw [h, List.map_nil, terminated_nil, List.nil_append, hks] at hkind
      refine .inl ⟨by simp, ([], t), ?_, rfl⟩
      rw [statements, ht]
      simp only [Kind.isEof_iff.mpr hkind]
      rfl
  | cons e more ih =>
      obtain ⟨canonical, found⟩ := finds e (by simp)
      rw [List.map_cons, terminated_cons, List.append_assoc, List.cons_append] at h
      obtain ⟨t, ht, opens⟩ := exists_opening pos canonical h
      have notEof : t.kind.isEof = false := by
        refine Bool.eq_false_iff.mpr fun hs => ?_
        rw [Kind.isEof_iff.mp hs] at opens
        exact absurd opens (by decide)
      rcases closedStatement_settles pos canonical found h with
        ⟨hfit, s, hs, hshape, hrest⟩ | ⟨hno, place, herr⟩
      · rcases ih (fun e mem => finds e (by simp [mem])) hrest with
          ⟨hall, others, hothers, hshapes⟩ | ⟨hno, place, herr⟩
        · refine .inl
            ⟨List.forall_mem_cons.mpr ⟨hfit, hall⟩, (s.value :: others.1, others.2), ?_, ?_⟩
          · rw [statements, ht]
            simp only [notEof, hs, hothers]
            rfl
          · simpa [hshape] using hshapes
        · refine .inr ⟨fun hall => hno (List.forall_mem_cons.mp hall).2, place, ?_⟩
          rw [statements, ht]
          simp only [notEof, hs, herr]
          rfl
      · refine .inr ⟨fun hall => hno (hall e (by simp)), place, ?_⟩
        rw [statements, ht]
        simp only [notEof, herr]
        rfl

end statements

/-! ### Expressions -/

variable {pos}

/-- What has been read is an expression, up to spans, and `ks` stands behind it. -/
def IsReading (e : Expr) (ks : List Kind) {origin : List Token} (r : Reading origin Expr) : Prop :=
  r.value.shape = e.shape ∧ kinds r.rest = ks

end Parser

/-- To read an expression where it may stand is to **go on** behind it, with the levels that its
links have left, and to be refused for its depth if it takes more levels than there are. -/
def Expr.GoesOn (pos : Nat) (e : Expr) : Prop :=
  ∀ ⦃levels least : Nat⦄ ⦃tokens : List Token⦄ ⦃ks : List Kind⦄, e.BindsAt least →
    kinds tokens = e.written ++ ks → e.EndsBefore ks → ks.headD .eof ≠ .symbol .leftBrace →
    (e.height ≤ levels + 1 ∧ ∃ left : Reading tokens Expr, Parser.IsReading e ks left ∧
      Parser.expression (.padding pos) (levels + 1) least tokens =
        Parser.links (.padding pos) (levels - e.linkCount) least left) ∨
    (¬e.height ≤ levels + 1 ∧ TooDeep (Parser.expression (.padding pos) (levels + 1) least tokens))

namespace Parser

/-- Where no link follows, an expression that goes on has been read. -/
theorem finds_of_goesOn {e : Expr} (goesOn : e.GoesOn pos) {levels least : Nat}
    (binds : e.BindsAt least) (le : least ≤ tightest) (h : kinds tokens = e.written ++ ks)
    (ends : link? least (ks.headD .eof) = none) (hks : ks.headD .eof ≠ .symbol .leftBrace) :
    Settles (e.height ≤ levels) (IsReading e ks)
      (expression (.padding pos) levels least tokens) := by
  cases levels with
  | zero =>
      have := e.linkCount_lt_height
      refine .inr ⟨by omega, ?_⟩
      rw [expression]
      exact refuseDepth_tooDeep pos tokens
  | succ levels =>
      rcases goesOn binds h (endsBefore_of_link?_eq_none ends binds le) hks with
        ⟨hfit, left, hread, heq⟩ | deep
      · refine .inl ⟨hfit, left, ?_, hread⟩
        obtain ⟨t, ht, hkind⟩ := exists_current pos left.rest
        rw [hread.2] at hkind
        rw [heq]
        cases levels - e.linkCount with
        | zero => simp only [links, ht, hkind, ends]
        | succ n => simp only [links, ht, hkind, ends]
      · exact .inr deep

/-- Inside brackets and in statements, an expression that goes on is found. -/
theorem closed_of_goesOn {e : Expr} (goesOn : e.GoesOn pos) (levels : Nat) :
    Finds (expression (.padding pos) levels 0) Expr.written Expr.shape (e.height ≤ levels) e := by
  intro tokens ks h closed
  refine finds_of_goesOn goesOn e.bindsAt_zero (Nat.zero_le _) h (closesExpression_link? closed) ?_
  intro heq
  rw [heq] at closed
  exact absurd closed (by decide)

/-- A primary goes on if it is read as one. -/
theorem goesOn_of_primary {e : Expr} (count : e.linkCount = 0)
    (settled : ∀ ⦃levels : Nat⦄ ⦃tokens : List Token⦄ ⦃ks : List Kind⦄,
      kinds tokens = e.written ++ ks → e.EndsBefore ks → ks.headD .eof ≠ .symbol .leftBrace →
      Settles (e.height ≤ levels + 1) (IsReading e ks)
        (primary (.padding pos) (expression (.padding pos) levels) tokens)) :
    e.GoesOn pos := by
  intro levels least tokens ks _ h ends hks
  rw [expression, count, Nat.sub_zero]
  rcases settled h ends hks with ⟨hfit, left, hleft, hread⟩ | ⟨hno, place, herr⟩
  · exact .inl ⟨hfit, left, hread, by rw [hleft]⟩
  · exact .inr ⟨hno, place, by rw [herr]⟩

/-- An expression with a link goes on if the one to the left of the link does and the link is put
on it. -/
theorem goesOn_of_link (link : Link) {e left : Expr} {k : Kind} {operand : List Kind} {inside : Nat}
    (goesOn : left.GoesOn pos) (written : e.written = left.written ++ k :: operand)
    (hk : k ≠ .symbol .leftBrace)
    (count : e.linkCount = left.linkCount + 1)
    (height : e.height = max left.height (left.linkCount + 2 + inside))
    (binds : ∀ least, e.BindsAt least → left.BindsAt least ∧ link? least k = some link)
    (ends : ∀ ks, left.EndsBefore (k :: (operand ++ ks)))
    (settled : ∀ (levels : Nat) ⦃origin : List Token⦄ ⦃r : Reading origin Expr⦄ ⦃ks : List Kind⦄,
      IsReading left (k :: (operand ++ ks)) r → e.EndsBefore ks →
      ks.headD .eof ≠ .symbol .leftBrace →
      Settles (inside ≤ levels) (IsReading e ks)
        (extend (.padding pos) (expression (.padding pos) levels) link r)) :
    e.GoesOn pos := by
  intro levels least tokens ks hbinds h hends hks
  obtain ⟨bindsLeft, starts⟩ := binds least hbinds
  rw [written, List.append_assoc, List.cons_append] at h
  -- the left side is read first; the link then takes one of the levels that are left
  rcases goesOn bindsLeft h (ends ks) hk with ⟨hfit, r, hread, heq⟩ | ⟨hno, deep⟩
  · obtain ⟨t, ht, hkind⟩ := exists_current pos r.rest
    rw [hread.2, List.headD_cons] at hkind
    have := left.linkCount_lt_height
    cases hleft : levels - left.linkCount with
    | zero =>
        refine .inr ⟨by omega, ?_⟩
        rw [heq, hleft, links, ht]
        simp only [hkind, starts]
        exact refuseDepth_tooDeep pos r.rest
    | succ rest =>
        rw [heq, hleft, links, ht]
        simp only [hkind, starts]
        rcases settled rest hread hends hks with ⟨hin, longer, hlonger, hread'⟩ | ⟨hno, place, herr⟩
        · refine .inl ⟨by omega, longer, hread', ?_⟩
          simp only [hlonger, count, show levels - (left.linkCount + 1) = rest by omega]
        · exact .inr ⟨by omega, place, by simp only [herr]⟩
  · exact .inr ⟨by omega, deep⟩

/-- A call goes on where its callee and its arguments do. -/
theorem goesOn_call {callee : Expr} {args : List Expr} {span : Span} (goesOn : callee.GoesOn pos)
    (operation : callee.isOperation = false)
    (inside : ∀ e ∈ args, e.Canonical ∧ e.GoesOn pos) :
    (Expr.call callee args span).GoesOn pos := by
  refine goesOn_of_link .call goesOn (by rw [Expr.written]) (by simp) rfl (by rw [Expr.height])
    (fun least binds => ⟨?_, rfl⟩) (fun ks => endsBefore_call_iff.mpr operation) ?_
  · refine Expr.bindsAt_of_operator? ?_ least
    cases callee <;> simp_all [Expr.isOperation, Expr.operator?]
  rintro levels origin r ks ⟨hshape, hrest⟩ _ _
  have item : ∀ e ∈ args, Finds (expression (.padding pos) levels 0) Expr.written Expr.shape
      (e.height ≤ levels) e := fun e mem => closed_of_goesOn (inside e mem).2 levels
  simp only [extend]
  split
  · next heq => simp [heq] at hrest
  next t rest heq =>
  rw [heq] at hrest
  have hargs : kinds rest = separated (args.map Expr.written) ++ .symbol .rightParen :: ks := by
    simpa using (List.cons.inj hrest).2
  rcases items_settles pos item (fun e mem => (inside e mem).1.starts) hargs with
    ⟨hfit, found, hfound, hshapes, hlast⟩ | ⟨hno, place, herr⟩
  · refine .inl ⟨Expr.heightEach_le_iff.mpr hfit, _, by simp only [hfound]; rfl, ?_, hlast⟩
    simp [Reading.map, Reading.after, Expr.shape, hshape, hshapes]
  · refine .inr ⟨fun hle => hno (Expr.heightEach_le_iff.mp hle), place, ?_⟩
    simp only [herr]

/-- A member goes on where its target does. -/
theorem goesOn_member {target : Expr} {name : Ident} {span : Span} (goesOn : target.GoesOn pos)
    (operation : target.isOperation = false) (path : target.isHostPath = false) :
    (Expr.member target name span).GoesOn pos := by
  refine goesOn_of_link .member goesOn (by rw [Expr.written]) (by simp) rfl
    (by rw [Expr.height, Nat.add_zero]) (fun least binds => ⟨?_, rfl⟩)
    (fun ks => endsBefore_member_iff.mpr ⟨operation, path⟩) ?_
  · refine Expr.bindsAt_of_operator? ?_ least
    cases target <;> simp_all [Expr.isOperation, Expr.operator?]
  rintro levels origin r ks ⟨hshape, hrest⟩ _ _
  simp only [extend]
  split
  · next heq => simp [heq] at hrest
  next t rest heq =>
  rw [heq] at hrest
  obtain ⟨found, hfound, hname, hlast⟩ := exists_ident pos (List.cons.inj hrest).2
  refine .inl ⟨Nat.zero_le _, _, by simp only [hfound]; rfl, ?_, hlast⟩
  simp [Reading.map, Reading.after, Expr.shape, hshape, hname]

/-- An operation goes on where its operands do, and bind strongly enough. -/
theorem goesOn_binary {left right : Expr} {op : BinaryOp} {span : Span}
    (goesOn : left.GoesOn pos) (bindsLeft : left.BindsAt op.precedence)
    (inside : right.GoesOn pos) (bindsRight : right.BindsAt (op.precedence + 1)) :
    (Expr.binary left op right span).GoesOn pos := by
  refine goesOn_of_link (.operator op) goesOn (by rw [Expr.written])
    (by cases op <;> simp [BinaryOp.token]) rfl (by rw [Expr.height]) (fun least binds => ⟨?_, ?_⟩)
    (fun ks => endsBefore_operator_iff.mpr bindsLeft) ?_
  · exact fun op' hop => Nat.le_trans (binds op rfl) (bindsLeft op' hop)
  · exact link?_eq_some_operator_iff.mpr ⟨rfl, binds op rfl⟩
  rintro levels origin r ks ⟨hshape, hrest⟩ ends hks
  simp only [extend]
  split
  · next heq => simp [heq] at hrest
  next t rest heq =>
  rw [heq] at hrest
  have front := (List.cons.inj hrest).2
  rcases finds_of_goesOn inside bindsRight op.precedence_lt_tightest front ends hks
    with ⟨hfit, found, hfound, hright, hlast⟩ | ⟨hno, place, herr⟩
  · refine .inl ⟨hfit, _, by simp only [hfound]; rfl, ?_, hlast⟩
    simp [Reading.map, Reading.after, Expr.shape, hshape, hright]
  · exact .inr ⟨hno, place, by simp only [herr]⟩

/-! ### Primaries -/

/-- A literal goes on. -/
theorem goesOn_literal {v : Literal} {span : Span} : (Expr.literal v span).GoesOn pos := by
  refine goesOn_of_primary rfl fun levels tokens ks h _ _ => ?_
  cases tokens with
  | nil => simp [Expr.written] at h
  | cons t rest =>
      obtain ⟨hkind, hrest⟩ := List.cons.inj h
      refine .inl ⟨Nat.le_add_left _ _,
        (Reading.first t rest).map fun t => .literal v t.span, ?_, rfl, hrest⟩
      simp only [primary, hkind]

/-- A variable goes on. -/
theorem goesOn_var {name : Ident} : (Expr.var name).GoesOn pos := by
  refine goesOn_of_primary rfl fun levels tokens ks h _ _ => ?_
  cases tokens with
  | nil => simp [Expr.written, Ident.written] at h
  | cons t rest =>
      obtain ⟨hkind, hrest⟩ := List.cons.inj h
      refine .inl ⟨Nat.le_add_left _ _,
        (Reading.first t rest).map fun t => .var ⟨name.text, t.span⟩, ?_, rfl, hrest⟩
      simp only [primary, hkind]

/-- A path of the host goes on. -/
theorem goesOn_hostPath {segments : List Ident} {span : Span} (hne : segments ≠ []) :
    (Expr.hostPath segments span).GoesOn pos := by
  refine goesOn_of_primary rfl fun levels tokens ks h ends _ => ?_
  obtain ⟨r, hr, ⟨names, place, hvalue, hshape⟩, hlast⟩ := hostPath_finds pos hne h ends
  refine .inl ⟨Nat.le_add_left _ _, r, ?_, ?_, hlast⟩
  · cases segments with
    | nil => exact absurd rfl hne
    | cons name more =>
        cases tokens with
        | nil => simp [Expr.written] at h
        | cons t rest =>
            obtain ⟨hkind, -⟩ := List.cons.inj h
            simp only [primary, hkind, hr]
            rfl
  · rw [hvalue, Expr.shape, hshape, Expr.shape]

/-- A unary operation goes on where its operand does. -/
theorem goesOn_unary {op : UnaryOp} {operand : Expr} {span : Span} (inside : operand.GoesOn pos)
    (operator : operand.operator? = none) : (Expr.unary op operand span).GoesOn pos := by
  refine goesOn_of_primary rfl fun levels tokens ks h ends hks => ?_
  cases tokens with
  | nil => simp [Expr.written] at h
  | cons t rest =>
      obtain ⟨hkind, hrest⟩ := List.cons.inj h
      rcases finds_of_goesOn inside (Expr.bindsAt_tightest_iff.mpr operator) Nat.le.refl hrest ends
        hks with ⟨hfit, found, hfound, hshape, hlast⟩ | ⟨hno, place, herr⟩
      · refine .inl ⟨Nat.succ_le_succ hfit,
          ((Reading.first t rest).after found).map fun x => .unary op x (t.span.join x.span),
          ?_, ?_, hlast⟩
        · simp only [primary, hkind, unaryOp?_token, hfound]
        · simp [Reading.map, Reading.after, Expr.shape, hshape]
      · refine .inr ⟨fun hle => hno (Nat.le_of_succ_le_succ hle), place, ?_⟩
        simp only [primary, hkind, unaryOp?_token, herr]

/-- A function goes on where the statements of its body do. -/
theorem goesOn_func {params : List Ident} {body : List Expr} {span : Span}
    (inside : ∀ e ∈ body, e.content.Canonical ∧ e.content.GoesOn pos) :
    (Expr.func params body span).GoesOn pos := by
  refine goesOn_of_primary rfl fun levels tokens ks h _ _ => ?_
  have finds :
      FindsEach (expression (.padding pos) levels 0) (fun e => e.height ≤ levels) body := by
    intro e mem
    refine ⟨(inside e mem).1, ?_⟩
    have := closed_of_goesOn (inside e mem).2 levels
    rwa [e.height_content] at this
  have front := h
  rw [Expr.written, List.cons_append, List.append_assoc, List.cons_append, List.cons_append]
    at front
  rw [primary_leftParen pos front, if_pos opensFunction_params, Expr.height]
  rcases function_settles pos finds h with ⟨hfit, settled⟩ | ⟨hno, deep⟩
  · exact .inl ⟨Nat.succ_le_succ (Expr.heightEach_le_iff.mpr hfit), settled⟩
  · exact .inr ⟨fun hle => hno (Expr.heightEach_le_iff.mp (Nat.le_of_succ_le_succ hle)), deep⟩

/-- An expression in parentheses goes on where the inner one does. -/
theorem goesOn_paren {inner : Expr} {span : Span} (canonical : inner.Canonical)
    (inside : inner.GoesOn pos) : (Expr.paren inner span).GoesOn pos := by
  refine goesOn_of_primary rfl fun levels tokens ks h _ hks => ?_
  have front := h
  rw [Expr.written, List.cons_append, List.append_assoc, List.singleton_append] at front
  rw [primary_leftParen pos front, canonical.starts.opensFunction hks, Expr.height]
  rcases parenthesised_settles pos (closed_of_goesOn inside levels) h with
    ⟨hfit, settled⟩ | ⟨hno, deep⟩
  · exact .inl ⟨Nat.succ_le_succ hfit, settled⟩
  · exact .inr ⟨fun hle => hno (Nat.le_of_succ_le_succ hle), deep⟩

end Parser

namespace Expr

/-- Canonical expressions go on wherever they may stand. -/
theorem Canonical.goesOn {e : Expr} (h : e.Canonical) (pos : Nat) : e.GoesOn pos := by
  induction h with
  | literal => exact Parser.goesOn_literal
  | var => exact Parser.goesOn_var
  | func canonical ih => exact Parser.goesOn_func fun e mem => ⟨canonical e mem, ih e mem⟩
  | call _ operation canonical ih ihArgs =>
      exact Parser.goesOn_call ih operation fun e mem => ⟨canonical e mem, ihArgs e mem⟩
  | hostPath hne => exact Parser.goesOn_hostPath hne
  | member _ operation path ih => exact Parser.goesOn_member ih operation path
  | unary _ operator ih => exact Parser.goesOn_unary ih operator
  | binary _ bindsLeft _ bindsRight ihLeft ihRight =>
      exact Parser.goesOn_binary ihLeft bindsLeft ihRight bindsRight
  | paren canonical ih => exact Parser.goesOn_paren canonical ih

end Expr

/-! ### Programs -/

/-- The statements of a program are read up to the end of the input, and refused for their depth
if one of them takes more levels than there are. -/
theorem Parser.program_settles (pos : Nat) {tokens : List Token} {p : Program}
    (canonical : p.Canonical) {ks : List Kind} (h : kinds tokens = p.written ++ ks)
    (hks : ks.headD .eof = .eof) :
    Settles (∀ n ∈ p.levels, n ≤ nestingLimit) (fun q : Program => q.shape = p.shape)
      (program (.padding pos) tokens) := by
  have finds : FindsEach (expression (.padding pos) nestingLimit 0)
      (fun e => e.height ≤ nestingLimit) p.statements := by
    intro e mem
    refine ⟨canonical e mem, ?_⟩
    have := closed_of_goesOn ((canonical e mem).goesOn pos) nestingLimit
    rwa [e.height_content] at this
  obtain ⟨first, hfirst, -⟩ := exists_current pos tokens
  rw [Program.levels_le_iff]
  rcases statements_settles pos finds h hks with
    ⟨hfit, ⟨body, last⟩, hbody, hshape⟩ | ⟨hno, place, herr⟩
  · refine .inl ⟨hfit, ⟨body, ⟨first.span.start, last.span.stop⟩⟩, ?_, ?_⟩
    · simp only [program, hfirst, hbody]
    · exact congrArg (Program.mk · (.empty 0)) hshape
  · exact .inr ⟨hno, place, by simp only [program, hfirst, herr]⟩

/-- **Completeness**, with the exact limit of nesting. A canonical program is read, up to spans,
from every list of tokens whose kinds up to the first end of the input are its written form, if it
occupies no level beyond the limit. If it does, the parser says that it is nested too deeply. -/
theorem Program.ofTokens_complete {tokens : List Token} {p : Program} (canonical : p.Canonical)
    (written : (kinds tokens).takeWhile Kind.isMore = p.written) :
    ((∀ n ∈ p.levels, n ≤ nestingLimit) →
      ∃ q, Program.ofTokens tokens = .ok q ∧ q.shape = p.shape) ∧
    ((∃ n ∈ p.levels, nestingLimit < n) →
      ∃ place, Program.ofTokens tokens = .error (.parse (.tooDeep place))) := by
  have split : kinds tokens = p.written ++ (kinds tokens).dropWhile Kind.isMore := by
    rw [← written, List.takeWhile_append_dropWhile]
  have last : ((kinds tokens).dropWhile Kind.isMore).headD .eof = .eof := by
    cases hdrop : (kinds tokens).dropWhile Kind.isMore with
    | nil => rfl
    | cons k rest =>
        have := List.head?_dropWhile_not Kind.isMore (kinds tokens)
        rw [hdrop] at this
        simpa [Kind.isMore, Kind.isEof_iff] using this
  rcases Parser.program_settles (lastStop tokens) canonical split last with
    ⟨hfit, settled⟩ | ⟨hno, deep⟩
  · refine ⟨fun _ => settled, ?_⟩
    rintro ⟨n, mem, hlt⟩
    exact absurd (hfit n mem) (Nat.not_le.mpr hlt)
  · exact ⟨fun hfit => absurd hfit hno, fun _ => deep⟩

/-- What is read from `a = f(-b);`. -/
theorem Program.ofTokens_complete_assignment :
    ∃ q, Program.ofTokens (([.name "a", .symbol .assign, .name "f", .symbol .leftParen,
        .symbol .minus, .name "b", .symbol .rightParen, .symbol .semicolon] : List Kind).map
          (⟨·, .empty 0⟩)) = .ok q ∧
      q.shape = ⟨[.assign ⟨"a", .empty 0⟩ (.call (.var ⟨"f", .empty 0⟩)
        [.unary .negate (.var ⟨"b", .empty 0⟩) (.empty 0)] (.empty 0)) (.empty 0)], .empty 0⟩ := by
  have canonical : Program.Canonical ⟨[.assign ⟨"a", .empty 0⟩ (.call (.var ⟨"f", .empty 0⟩)
      [.unary .negate (.var ⟨"b", .empty 0⟩) (.empty 0)] (.empty 0)) (.empty 0)], .empty 0⟩ := by
    intro e mem
    rw [List.mem_singleton.mp mem]
    refine .call .var rfl fun e mem => ?_
    rw [List.mem_singleton.mp mem]
    exact .unary .var rfl
  exact (Program.ofTokens_complete canonical rfl).1 (by decide)

end ScriptConsole
