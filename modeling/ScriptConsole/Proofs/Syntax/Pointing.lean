import ScriptConsole.Proofs.Syntax.Heights
import ScriptConsole.Proofs.Syntax.Refusals

/-!
# Readers That Point at What They Refuse

A refusal **points** at a token (`Parser.Pointed`): what has been taken in front of it can be
completed to a form that the reader reads, and whatever goes on with that kind of token is refused
in the same place, for the same reason.

The second half is why looking ahead does no harm. Where a decision would look beyond the token
refused, tokens of that kind are let in, so that it has looked no further
(`Parser.opensFunction_points`, `Parser.opensAssignment_points`).

## Main results

* `Parser.items_careful`, `Parser.closedStatement_careful`: readers that go on behind careful ones.
* `Parser.block_points`, `Parser.function_points`, `Parser.parenthesised_points`: what stands inside
  braces and parentheses, if expressions are read with care.
-/

namespace ScriptConsole

open Token (Kind)

/-- The kinds of tokens behind tokens. -/
theorem kinds_append (a b : List Token) : kinds (a ++ b) = kinds a ++ kinds b := List.map_append

namespace Parser

variable {α : Type} {tokens rest : List Token} {pos : Nat} {wanted : Wanted} {found : Token}

/-- The error tells what was wanted and where. -/
theorem unexpectedAt_inj {wanted' : Wanted}
    (h : .parse (.unexpected wanted found) = unexpectedAt wanted' pos tokens) :
    wanted = wanted' ∧ found = here pos tokens :=
  ParseError.unexpected.inj (SourceError.parse.inj h)

/-! ### Pointing -/

/-- Which tokens are refused with which error, for the place where the input ends. -/
abbrev Refusal := Nat → List Token → SourceError → Prop

/-- What a reader refuses. -/
def Refuses (x : Nat → TokenReader α) : Refusal := fun pos tokens e => x pos tokens = .error e

/-- What is known of a refusal behind the tokens in `taken`, in front of `rest`. -/
structure PointsAt (refuses : Refusal) (forms : List Kind → Prop) (wanted : Wanted)
    (taken rest : List Token) : Prop where
  /-- They can be completed to a form. -/
  completes : ∃ more, forms (kinds taken ++ more)
  /-- Whatever goes on with the same kind of token is refused there. -/
  refused : ∀ (pos' : Nat) (rest' : List Token), front rest' = front rest →
    refuses pos' (taken ++ rest') (unexpectedAt wanted pos' rest')

/-- Whether a refusal of some tokens points at the one that was found. -/
def Pointed (refuses : Refusal) (forms : List Kind → Prop) (pos : Nat) (tokens : List Token)
    (wanted : Wanted) (found : Token) : Prop :=
  ∃ taken rest, tokens = taken ++ rest ∧ found = here pos rest ∧
    PointsAt refuses forms wanted taken rest

/-- Whether all refusals of a reader point. -/
def Points (x : Nat → TokenReader α) (forms : List Kind → Prop) : Prop :=
  ∀ ⦃pos : Nat⦄ ⦃tokens : List Token⦄ ⦃wanted : Wanted⦄ ⦃found : Token⦄,
    x pos tokens = .error (.parse (.unexpected wanted found)) →
      Pointed (Refuses x) forms pos tokens wanted found

section lead

variable {part whole : Refusal} {forms forms' : List Kind → Prop} {taken behind : List Token}

/-- A refusal behind a run of tokens points if that of the part there does. -/
theorem PointsAt.lead (h : PointsAt part forms' wanted taken rest) (run : List Token)
    (completes : ∀ w, forms' w → ∃ after, forms (kinds run ++ (w ++ after)))
    (step : ∀ (pos' : Nat) (rest' : List Token) (found' : Token), front rest' = front rest →
      part pos' (taken ++ rest') (.parse (.unexpected wanted found')) →
      whole pos' (run ++ (taken ++ rest')) (.parse (.unexpected wanted found'))) :
    PointsAt whole forms wanted (run ++ taken) rest := by
  obtain ⟨more, form⟩ := h.completes
  obtain ⟨after, form⟩ := completes _ form
  refine ⟨⟨more ++ after, ?_⟩, fun pos' rest' same => ?_⟩
  · rw [kinds_append]
    simpa using form
  · rw [List.append_assoc]
    exact step pos' rest' _ same (h.refused pos' rest' same)

/-- The same where only the kind of the token behind the run matters. -/
theorem Pointed.lead (h : Pointed part forms' pos behind wanted found) (run : List Token)
    (completes : ∀ w, forms' w → ∃ after, forms (kinds run ++ (w ++ after)))
    (step : ∀ (pos' : Nat) (behind' : List Token) (found' : Token), front behind' = front behind →
      part pos' behind' (.parse (.unexpected wanted found')) →
      whole pos' (run ++ behind') (.parse (.unexpected wanted found'))) :
    Pointed whole forms pos (run ++ behind) wanted found := by
  obtain ⟨taken, rest, rfl, hfound, points⟩ := h
  refine ⟨run ++ taken, rest, (List.append_assoc _ _ _).symm, hfound, ?_⟩
  exact points.lead run completes fun pos' rest' found' same refused =>
    step pos' _ found' (front_append same) refused

end lead

/-- A symbol that is refused would have been read. -/
theorem symbol_points (s : Token.Symbol) :
    Points (fun pos => symbol (.padding pos) s) (· = [.symbol s]) := by
  intro pos tokens wanted found h
  obtain ⟨other, he⟩ := symbol_error_iff.mp h
  obtain ⟨rfl, rfl⟩ := unexpectedAt_inj he
  refine ⟨[], tokens, rfl, rfl, ⟨[.symbol s], rfl⟩, fun pos' rest' same => ?_⟩
  exact symbol_error_iff.mpr ⟨same ▸ other, rfl⟩

/-! ### Careful readers -/

/-- A reader that takes the written forms of good values, halts behind them and points at what it
refuses. -/
structure Careful (x : Nat → TokenReader α) (form : α → List Kind) (good : α → Prop) : Prop where
  takes : ∀ pos, Takes (x pos) form good
  halts : Halts x
  points : Points x fun w => ∃ a, good a ∧ form a = w

/-- A name is read as it is written, and where it is refused another token would have been read. -/
theorem ident_careful :
    Careful (fun pos => ident (.padding pos)) Ident.written fun _ => True where
  takes _ _ _ h := ⟨ident_ok h, trivial⟩
  halts := ident_halts
  points := by
    intro pos tokens wanted found h
    obtain ⟨other, he⟩ := ident_error_iff.mp h
    obtain ⟨rfl, rfl⟩ := unexpectedAt_inj he
    refine ⟨[], tokens, rfl, rfl, ⟨[.name ""], ⟨"", .empty 0⟩, trivial, rfl⟩, ?_⟩
    exact fun pos' rest' same => ident_error_iff.mpr ⟨same ▸ other, rfl⟩

/-- What a careful reader has read. -/
theorem Careful.read {x : Nat → TokenReader α} {form : α → List Kind} {good : α → Prop}
    (careful : Careful x form good) {a : α} (h : Reads (x pos) tokens a rest) :
    ∃ run, tokens = run ++ rest ∧ run ≠ [] ∧ kinds run = form a ∧ good a ∧
      ∀ (pos' : Nat) (rest' : List Token), front rest' = front rest →
        Reads (x pos') (run ++ rest') a rest' := by
  obtain ⟨run, htokens, some, goes⟩ := careful.halts h
  obtain ⟨r, hr, rfl, rfl⟩ := h
  obtain ⟨hkinds, hgood⟩ := careful.takes pos hr
  have whole : kinds tokens = kinds run ++ kinds r.rest := by rw [← kinds_append, ← htokens]
  exact ⟨run, htokens, some, List.append_cancel_right (whole.symm.trans hkinds), hgood, goes⟩

/-! ### Lists of items -/

section items

variable {item : Nat → TokenReader α} {form : α → List Kind} {good : α → Prop}

/-- The written form of items and the parenthesis that closes them. -/
def closedList (form : α → List Kind) (v : List α × Token) : List Kind :=
  separated (v.1.map form) ++ [.symbol .rightParen]

/-- Items that are refused would have been read with other tokens. -/
theorem itemsFrom_points (careful : Careful item form good) :
    Points (fun pos => itemsFrom (.padding pos) (item pos)) fun w =>
      ∃ v, (v.1 ≠ [] ∧ ∀ a ∈ v.1, good a) ∧ closedList form v = w := by
  intro pos tokens wanted found h
  induction hn : tokens.length using Nat.strongRecOn generalizing tokens with
  | _ n ih =>
  subst hn
  have one : ∀ a, good a → (([a], here 0 []) : List α × Token).1 ≠ [] ∧ ∀ b ∈ [a], good b :=
    fun a hgood => ⟨List.cons_ne_nil a [], by simpa using hgood⟩
  rcases itemsFrom_error_iff.mp h with first | ⟨a, behind, reads, onward⟩
  · refine (careful.points first).lead [] ?_ fun pos' behind' found' _ refused => ?_
    · rintro w ⟨a, hgood, rfl⟩
      exact ⟨[.symbol .rightParen], ([a], _), one a hgood, rfl⟩
    · exact itemsFrom_error_iff.mpr (.inl refused)
  · -- refused behind the first item: in the items that follow, or where the closing token should be
    have shorter := reads.length_lt
    obtain ⟨run, rfl, -, hrun, hgood, goes⟩ := careful.read reads
    split at onward
    · next comma =>
      obtain ⟨sign, inside, signs, others⟩ := onward
      have inner := ih _ (Nat.lt_trans signs.length_lt shorter) others rfl
      obtain ⟨rfl, kind⟩ := (reads_symbol pos).mp signs
      rw [← List.singleton_append, ← List.append_assoc]
      refine inner.lead (run ++ [sign]) ?_ fun pos' behind' found' _ refused => ?_
      · rintro w ⟨v, ⟨some, all⟩, rfl⟩
        refine ⟨[], (a :: v.1, v.2), ⟨List.cons_ne_nil a _,
          List.forall_mem_cons.mpr ⟨hgood, all⟩⟩, ?_⟩
        rw [closedList, List.map_cons, separated_cons (by simpa using some), kinds_append, hrun]
        simp [kind, closedList]
      · rw [List.append_assoc]
        refine itemsFrom_error_iff.mpr (.inr ⟨a, sign :: behind', goes pos' _ rfl, ?_⟩)
        rw [if_pos (by exact comma)]
        exact ⟨sign, behind', (reads_symbol pos').mpr ⟨rfl, kind⟩, refused⟩
    · next other =>
      refine (symbol_points _ onward).lead run ?_ fun pos' behind' found' same refused => ?_
      · rintro w rfl
        exact ⟨[], ([a], here 0 []), one a hgood, by rw [hrun]; rfl⟩
      · refine itemsFrom_error_iff.mpr (.inr ⟨a, behind', goes pos' behind' same, ?_⟩)
        rw [same, if_neg other]
        exact refused

/-- A list of items is read carefully if its items are. -/
theorem items_careful (careful : Careful item form good) :
    Careful (fun pos => items (.padding pos) (item pos)) (closedList form)
      fun v => ∀ a ∈ v.1, good a where
  takes pos tokens r h := by
    obtain ⟨hkinds, all⟩ := items_ok (careful.takes pos) h
    exact ⟨by rw [hkinds]; simp [closedList], all⟩
  halts := items_halts careful.halts
  points := by
    intro pos tokens wanted found h
    obtain ⟨some, first⟩ := items_error_iff.mp h
    refine (itemsFrom_points careful first).lead [] ?_ fun pos' behind' found' same refused => ?_
    · rintro w ⟨v, ⟨-, all⟩, rfl⟩
      exact ⟨[], v, all, (List.append_nil _).symm⟩
    · exact items_error_iff.mpr ⟨same ▸ some, refused⟩

end items

/-! ### Decisions -/

/-- Some tokens of the given kinds. -/
def tokensOf (ks : List Kind) : List Token := ks.map (⟨·, .empty 0⟩)

/-- Kinds can be made into tokens. -/
@[simp] theorem kinds_tokensOf (ks : List Kind) : kinds (tokensOf ks) = ks := by
  simp [tokensOf, kinds, Function.comp_def]

/-- What comes to a good end or is nested too deeply refuses no token. -/
theorem Settles.ne_unexpected {enough : Prop} {good : α → Prop} {x : Except SourceError α}
    (h : Settles enough good x) : x ≠ .error (.parse (.unexpected wanted found)) := by
  rcases h with ⟨-, a, rfl, -⟩ | ⟨-, place, rfl⟩ <;> simp

/-- An assignment begins with a name. -/
theorem opensAssignment_of_nameless (none : (front tokens).name? = none) :
    opensAssignment (kinds tokens) = false := by
  cases tokens with
  | nil => rfl
  | cons t more =>
      have none : t.kind.name? = .none := none
      rw [kinds, List.map_cons, opensAssignment_cons, none]
      rfl

/-- A function whose head has no name ends it at once. -/
theorem opensFunction_of_nameless (none : (front tokens).name? = none) :
    opensFunction (kinds tokens) = (front tokens).isSymbol .rightParen := by
  match tokens with
  | [] => rfl
  | [t] =>
      show opensFunction [t.kind] = t.kind.isSymbol .rightParen
      cases t.kind with
      | symbol s => cases s <;> rfl
      | _ => rfl
  | t :: u :: more =>
      have none : t.kind.name? = .none := none
      rw [kinds, List.map_cons, List.map_cons, opensFunction_cons, none]
      exact Bool.or_false _

/-- One with a name goes on with a comma or the end of the head. -/
theorem opensFunction_of_name {t : Token} {text : String} (named : t.kind = .name text)
    (more : front tokens ≠ .symbol .rightParen) :
    opensFunction (kinds (t :: tokens)) = (front tokens).isSymbol .comma := by
  rw [kinds, List.map_cons, named]
  cases tokens with
  | nil => rfl
  | cons u behind =>
      have other : u.kind.isSymbol .rightParen = false :=
        Bool.eq_false_iff.mpr (mt Kind.isSymbol_iff.mp more)
      rw [List.map_cons, opensFunction_cons, other]
      exact Bool.or_false _

section decisions

variable {refuses : Refusal} {forms : List Kind → Prop} {taken rest' : List Token}

/-- What takes a name in front of a parenthesis decides on assignments by the token refused. -/
theorem opensAssignment_points
    (names : ∀ text wanted found,
      ¬refuses 0 (tokensOf [.name text, .symbol .rightParen]) (.parse (.unexpected wanted found)))
    (points : PointsAt refuses forms wanted taken rest) (same : front rest' = front rest) :
    opensAssignment (kinds (taken ++ rest')) = opensAssignment (kinds (taken ++ rest)) := by
  by_cases some : taken = []
  · subst some
    have none : (front rest).name? = none := by
      refine Option.eq_none_iff_forall_ne_some.mpr fun text named => ?_
      exact names text _ _ (points.refused 0 _ (Kind.name?_eq_some_iff.mp named).symm)
    rw [List.nil_append, List.nil_append, opensAssignment_of_nameless none,
      opensAssignment_of_nameless (same ▸ none)]
  · exact opensAssignment_of_front some same

/-- What takes a name in parentheses in front of a brace decides on functions by the token
refused. -/
theorem opensFunction_points
    (names : ∀ (t : Token) text wanted found, t.kind = .name text →
      ¬refuses 0 (t :: tokensOf [.symbol .rightParen, .symbol .leftBrace, .symbol .rightBrace])
        (.parse (.unexpected wanted found)))
    (points : PointsAt refuses forms wanted taken rest) (same : front rest' = front rest) :
    opensFunction (kinds (taken ++ rest')) = opensFunction (kinds (taken ++ rest)) := by
  match taken with
  | [] =>
      have none : (front rest).name? = none := by
        refine Option.eq_none_iff_forall_ne_some.mpr fun text named => ?_
        exact names ⟨.name text, .empty 0⟩ text _ _ rfl
          (points.refused 0 _ (Kind.name?_eq_some_iff.mp named).symm)
      rw [List.nil_append, List.nil_append, opensFunction_of_nameless none,
        opensFunction_of_nameless (same ▸ none), same]
  | [t] =>
      by_cases none : t.kind.name? = none
      · have decided : ∀ ts, opensFunction (kinds (t :: ts)) = t.kind.isSymbol .rightParen :=
          fun ts => opensFunction_of_nameless none
        exact (decided rest').trans (decided rest).symm
      · obtain ⟨text, named⟩ := Option.ne_none_iff_exists'.mp none
        have named := Kind.name?_eq_some_iff.mp named
        -- a parenthesis behind the name would have been taken
        have more : front rest ≠ .symbol .rightParen := fun closes =>
          names t text _ _ named (points.refused 0 _ closes.symm)
        rw [List.singleton_append, List.singleton_append, opensFunction_of_name named more,
          opensFunction_of_name named (same ▸ more), same]
  | t :: u :: more => exact opensFunction_of_front (by simp) same

/-- So it points as well if it is only read where that has been decided in its favour. -/
theorem Pointed.decided {whole : Refusal} {behind : List Token}
    (h : Pointed refuses forms pos behind wanted found)
    (names : ∀ (t : Token) text wanted found, t.kind = .name text →
      ¬refuses 0 (t :: tokensOf [.symbol .rightParen, .symbol .leftBrace, .symbol .rightBrace])
        (.parse (.unexpected wanted found)))
    (chosen : ∀ pos' behind' e, opensFunction (kinds behind') = opensFunction (kinds behind) →
      refuses pos' behind' e → whole pos' behind' e) :
    Pointed whole forms pos behind wanted found := by
  obtain ⟨taken, rest, rfl, hfound, points⟩ := h
  exact ⟨taken, rest, rfl, hfound, points.completes, fun pos' rest' same =>
    chosen pos' _ _ (opensFunction_points names points same) (points.refused pos' rest' same)⟩

end decisions

end Parser

/-- What fits into some levels where operators have to bind at least as tightly as `least`. -/
structure Expr.Fits (levels least : Nat) (e : Expr) : Prop where
  canonical : e.Canonical
  binds : e.BindsAt least
  low : e.height ≤ levels

namespace Parser

/-! ### Statements and function literals -/

/-- Whether the expressions of some levels are read with care. -/
abbrev CarefulAt (levels : Nat) : Prop :=
  ∀ least, Careful (fun pos => expression (.padding pos) levels least) Expr.written
    (Expr.Fits levels least)

section statements

variable {levels : Nat} {expr : Nat → TokenReader Expr}

/-- A name is an expression, if there is a level. -/
theorem expression_finds_name (levels : Nat) (name : Ident) :
    Finds (expression (.padding pos) levels 0) Expr.written Expr.shape (1 ≤ levels) (.var name) :=
  closed_of_goesOn (Expr.Canonical.var.goesOn pos) levels

/-- A statement is read carefully if its expression is. -/
theorem statement_careful (careful : CarefulAt levels) :
    Careful (fun pos => statement (.padding pos) (expression (.padding pos) levels 0)) Expr.written
      fun e => e.content.Fits levels 0 where
  takes pos tokens r h := by
    obtain ⟨hkinds, canonical⟩ := statement_ok (expression_ok levels 0) h
    refine ⟨hkinds, canonical, Expr.bindsAt_zero _, ?_⟩
    rw [Expr.height_content]
    exact statement_height (expression_height levels 0) h
  halts := statement_halts (careful 0).halts
  points := by
    intro pos tokens wanted found h
    have decided := statement_error_iff.mp h
    split at decided
    · next opens =>
      obtain ⟨name, behind, named, sign, inside, signs, value⟩ := decided
      obtain ⟨t, rfl, kind, span⟩ := (reads_ident pos).mp named
      obtain ⟨rfl, kind'⟩ := (reads_symbol pos).mp signs
      refine ((careful 0).points value).lead [t, sign] ?_ fun pos' behind' found' _ refused => ?_
      · rintro w ⟨e, fits, rfl⟩
        refine ⟨[], .assign name e (.empty 0), fits, ?_⟩
        simp [Expr.written, Ident.written, kind, kind']
      · refine statement_error_iff.mpr ?_
        rw [if_pos (by simp [kind, kind', opensAssignment])]
        exact ⟨name, _, (reads_ident pos').mpr ⟨t, rfl, kind, span⟩, sign, behind',
          (reads_symbol pos').mpr ⟨rfl, kind'⟩, refused⟩
    · next other =>
      obtain ⟨taken, rest, rfl, hfound, points⟩ := (careful 0).points decided
      -- a name is let in, so deciding on `name =` has looked no further than the token refused
      have names : ∀ text wanted found, ¬Refuses (fun pos => expression (.padding pos) levels 0) 0
          (tokensOf [.name text, .symbol .rightParen]) (.parse (.unexpected wanted found)) :=
        fun text _ _ => Settles.ne_unexpected
          (expression_finds_name levels ⟨text, .empty 0⟩ (kinds_tokensOf _) rfl)
      refine ⟨taken, rest, rfl, hfound, points.lead [] ?_ fun pos' rest' found' same refused => ?_⟩
      · rintro w ⟨e, fits, rfl⟩
        exact ⟨[], e, by rwa [fits.canonical.content_eq], (List.append_nil _).symm⟩
      · refine statement_error_iff.mpr ?_
        rw [List.nil_append, opensAssignment_points names points same, if_neg other]
        exact refused

/-- The written form of a statement with its semicolon. -/
def withSemicolon (e : Expr) : List Kind := e.written ++ [.symbol .semicolon]

/-- A statement with its semicolon is read carefully if its expression is. -/
theorem closedStatement_careful (careful : CarefulAt levels) :
    Careful (fun pos => closedStatement (.padding pos) (expression (.padding pos) levels 0))
      withSemicolon fun e => e.content.Fits levels 0 where
  takes pos tokens r h := by
    obtain ⟨hkinds, canonical⟩ := closedStatement_ok (expression_ok levels 0) h
    refine ⟨by rw [hkinds]; simp [withSemicolon], canonical, Expr.bindsAt_zero _, ?_⟩
    rw [Expr.height_content]
    exact closedStatement_height (expression_height levels 0) h
  halts := by
    intro pos tokens rest v h
    obtain ⟨behind, semi, s, closes⟩ := (reads_closedStatement pos).mp h
    obtain ⟨rfl, kind⟩ := (reads_symbol pos).mp closes
    obtain ⟨run, rfl, -, goes⟩ := (statement_careful careful).halts s
    refine ⟨run ++ [semi], by simp, by simp, fun pos' rest' _ => ?_⟩
    rw [List.append_assoc, List.singleton_append]
    exact (reads_closedStatement pos').mpr
      ⟨semi :: rest', semi, goes pos' _ rfl, (reads_symbol pos').mpr ⟨rfl, kind⟩⟩
  points := by
    intro pos tokens wanted found h
    rcases closedStatement_error_iff.mp h with inside | ⟨s, behind, reads, closes⟩
    · refine ((statement_careful careful).points inside).lead [] ?_
        fun pos' behind' found' _ refused => closedStatement_error_iff.mpr (.inl refused)
      rintro w ⟨e, fits, rfl⟩
      exact ⟨[.symbol .semicolon], e, fits, rfl⟩
    · obtain ⟨run, rfl, -, hrun, fits, goes⟩ := (statement_careful careful).read reads
      refine (symbol_points _ closes).lead run ?_ fun pos' behind' found' same refused => ?_
      · rintro w rfl
        exact ⟨[], s, fits, by rw [hrun]; rfl⟩
      · exact closedStatement_error_iff.mpr (.inr ⟨s, behind', goes pos' behind' same, refused⟩)

/-- A block that is refused would have been read with other tokens. -/
theorem block_points (careful : CarefulAt levels) :
    Points (fun pos => block (.padding pos) (expression (.padding pos) levels 0)) fun w =>
      ∃ body : List Expr, (∀ e ∈ body, e.content.Fits levels 0) ∧
        terminated (body.map Expr.written) ++ [.symbol .rightBrace] = w := by
  intro pos tokens wanted found h
  induction hn : tokens.length using Nat.strongRecOn generalizing tokens with
  | _ n ih =>
  subst hn
  obtain ⟨opens, first | ⟨s, behind, reads, others⟩⟩ := block_error_iff.mp h
  · refine ((closedStatement_careful careful).points first).lead [] ?_
      fun pos' behind' found' same refused => block_error_iff.mpr ⟨same ▸ opens, .inl refused⟩
    rintro w ⟨e, fits, rfl⟩
    exact ⟨[.symbol .rightBrace], [e], by simpa using fits, by simp [withSemicolon]⟩
  · have inner := ih _ reads.length_lt others rfl
    obtain ⟨run, rfl, some, hrun, fits, goes⟩ := (closedStatement_careful careful).read reads
    obtain ⟨t, run, rfl⟩ := List.exists_cons_of_ne_nil some
    refine inner.lead (t :: run) ?_ fun pos' behind' found' same refused => ?_
    · rintro w ⟨body, all, rfl⟩
      refine ⟨[], s :: body, List.forall_mem_cons.mpr ⟨fits, all⟩, ?_⟩
      rw [hrun]
      simp [withSemicolon]
    · exact block_error_iff.mpr ⟨opens, .inr ⟨s, behind', goes pos' behind' same, refused⟩⟩

/-- Whether kinds complete a primary behind its first token. -/
def PrimaryBehind (k : Kind) (levels : Nat) (w : List Kind) : Prop :=
  ∃ e : Expr, e.Canonical ∧ e.operator? = none ∧ e.height ≤ levels + 1 ∧ e.written = k :: w

/-- A function that is refused would have been read with other tokens. -/
theorem function_points (careful : CarefulAt levels) {start : Token}
    (kind : start.kind = .symbol .leftParen) {behind : List Token}
    (h : function (.padding pos) (expression (.padding pos) levels 0) (start :: behind) =
      .error (.parse (.unexpected wanted found))) :
    Pointed (fun pos behind e =>
        function (.padding pos) (expression (.padding pos) levels 0) (start :: behind) = .error e)
      (PrimaryBehind start.kind levels) pos behind wanted found := by
  have fits : ∀ (params : List Ident) (body : List Expr), (∀ e ∈ body, e.content.Fits levels 0) →
      PrimaryBehind start.kind levels (separated (params.map Ident.written) ++
        .symbol .rightParen :: .symbol .leftBrace ::
          (terminated (body.map Expr.written) ++ [.symbol .rightBrace])) := by
    intro params body all
    refine ⟨.func params body (.empty 0), .func fun e mem => (all e mem).canonical, rfl,
      Nat.succ_le_succ (Expr.heightEach_le_iff.mpr fun e mem => ?_), ?_⟩
    · rw [← e.height_content]
      exact (all e mem).low
    · rw [kind, Expr.written, Expr.writtenEach_eq_map]
  -- refused in the parameters, at the brace, or in the body
  rcases (function_error_iff kind).mp h with inside | ⟨params, more, reads, onward⟩
  · refine ((items_careful ident_careful).points inside).lead [] ?_
      fun pos' behind' found' _ refused => (function_error_iff kind).mpr (.inl refused)
    rintro w ⟨v, -, rfl⟩
    refine ⟨[.symbol .leftBrace, .symbol .rightBrace], ?_⟩
    simpa [closedList] using fits v.1 [] (by simp)
  obtain ⟨run, rfl, -, hrun, -, goes⟩ := (items_careful ident_careful).read reads
  rcases onward with opens | ⟨brace, inside, braces, body⟩
  · refine (symbol_points _ opens).lead run ?_ fun pos' behind' found' same refused =>
      (function_error_iff kind).mpr (.inr ⟨params, behind', goes pos' behind' same, .inl refused⟩)
    rintro w rfl
    refine ⟨[.symbol .rightBrace], ?_⟩
    rw [hrun]
    simpa [closedList] using fits params.1 [] (by simp)
  · obtain ⟨rfl, kind'⟩ := (reads_symbol pos).mp braces
    rw [← List.singleton_append, ← List.append_assoc]
    refine (block_points careful body).lead (run ++ [brace]) ?_
      fun pos' behind' found' _ refused => ?_
    · rintro w ⟨body, all, rfl⟩
      refine ⟨[], ?_⟩
      rw [kinds_append, hrun]
      simpa [closedList, kind'] using fits params.1 body all
    · rw [List.append_assoc]
      exact (function_error_iff kind).mpr (.inr ⟨params, brace :: behind', goes pos' _ rfl, .inr
        ⟨brace, behind', (reads_symbol pos').mpr ⟨rfl, kind'⟩, refused⟩⟩)

/-- An expression in parentheses that is refused would have been read with other tokens. -/
theorem parenthesised_points (careful : CarefulAt levels) {start : Token}
    (kind : start.kind = .symbol .leftParen) {behind : List Token}
    (h : parenthesised (.padding pos) (expression (.padding pos) levels 0) (start :: behind) =
      .error (.parse (.unexpected wanted found))) :
    Pointed (fun pos behind e =>
        parenthesised (.padding pos) (expression (.padding pos) levels 0) (start :: behind) =
          .error e)
      (PrimaryBehind start.kind levels) pos behind wanted found := by
  have fits : ∀ {e : Expr}, e.Fits levels 0 →
      PrimaryBehind start.kind levels (e.written ++ [.symbol .rightParen]) := fun {e} fits =>
    ⟨.paren e (.empty 0), .paren fits.canonical, rfl, Nat.succ_le_succ fits.low, by
      rw [kind, Expr.written]⟩
  rcases (parenthesised_error_iff kind).mp h with inside | ⟨inner, more, reads, closes⟩
  · refine ((careful 0).points inside).lead [] ?_
      fun pos' behind' found' _ refused => (parenthesised_error_iff kind).mpr (.inl refused)
    rintro w ⟨e, he, rfl⟩
    exact ⟨[.symbol .rightParen], fits he⟩
  · obtain ⟨run, rfl, -, hrun, he, goes⟩ := (careful 0).read reads
    refine (symbol_points _ closes).lead run ?_ fun pos' behind' found' same refused =>
      (parenthesised_error_iff kind).mpr (.inr ⟨inner, behind', goes pos' behind' same, refused⟩)
    rintro w rfl
    exact ⟨[], by rw [hrun]; exact fits he⟩

end statements

end Parser

end ScriptConsole
