import Mathlib.Data.List.TakeWhile
import ScriptConsole.Proofs.Syntax.Pointing

/-!
# Refusals Point at the First Hopeless Token

Where the parser refuses a token, the tokens in front of it are the start of a program, and with
that kind of token behind them they are not, whatever follows. So a refusal comes neither late nor
early, although function literals are told apart by looking up to three tokens ahead.

What completes the tokens in front has to keep within the levels of nesting that are left there. A
place that is refused for its token, and not for its depth, has a level left, and a completion takes
no more than that: a literal for an expression, a name for a name, and else a closing token.

## Main results

* `Parser.expression_careful`: expressions are read with care, by induction on the levels.
* `Parser.statements_points`: what statements up to the end of the input are refused for.
* `Program.refusal_points`: the first hopeless token.
-/

namespace ScriptConsole

open Token (Kind)

namespace Parser

variable {tokens rest : List Token} {pos : Nat} {wanted : Wanted} {found : Token} {levels : Nat}

/-! ### Primaries -/

/-- Whether kinds are those of a primary, which binds among any operators. -/
def IsPrimary (levels : Nat) (w : List Kind) : Prop :=
  ∃ e : Expr, e.Canonical ∧ e.operator? = none ∧ e.height ≤ levels + 1 ∧ e.written = w

/-- A name behind a parenthesis may be a parameter. -/
theorem function_reads_name {start : Token} (kind : start.kind = .symbol .leftParen) (t : Token)
    (text : String) (named : t.kind = .name text) :
    function (.padding pos) (expression (.padding pos) levels 0)
        (start :: t :: tokensOf [.symbol .rightParen, .symbol .leftBrace, .symbol .rightBrace]) ≠
      .error (.parse (.unexpected wanted found)) := by
  have finds : FindsEach (expression (.padding pos) levels 0) (fun _ => True) [] := nofun
  have written : kinds (start :: t :: tokensOf
      [.symbol .rightParen, .symbol .leftBrace, .symbol .rightBrace]) =
        (Expr.func [⟨text, .empty 0⟩] [] (.empty 0)).written ++ [] := by
    simp [kinds, kind, named, tokensOf, Expr.written, Expr.writtenEach, separated, Ident.written]
  exact Settles.ne_unexpected (function_settles pos finds written)

/-- It may be an expression as well. -/
theorem parenthesised_reads_name {start : Token} (kind : start.kind = .symbol .leftParen)
    (t : Token) (text : String) (named : t.kind = .name text) :
    parenthesised (.padding pos) (expression (.padding pos) levels 0)
        (start :: t :: tokensOf [.symbol .rightParen, .symbol .leftBrace, .symbol .rightBrace]) ≠
      .error (.parse (.unexpected wanted found)) := by
  have written : kinds (start :: t :: tokensOf
      [.symbol .rightParen, .symbol .leftBrace, .symbol .rightBrace]) =
        (Expr.paren (.var ⟨text, .empty 0⟩) (.empty 0)).written ++
          [.symbol .leftBrace, .symbol .rightBrace] := by
    simp [kinds, kind, named, tokensOf, Expr.written, Ident.written]
  exact Settles.ne_unexpected
    (parenthesised_settles pos (expression_finds_name levels _) written)

/-- What stands behind a parenthesis, whichever of the two it opens. -/
theorem parens_points (careful : CarefulAt levels) {start : Token}
    (kind : start.kind = .symbol .leftParen) {behind : List Token}
    (h : if opensFunction (kinds behind) then
        function (.padding pos) (expression (.padding pos) levels 0) (start :: behind) =
          .error (.parse (.unexpected wanted found))
      else parenthesised (.padding pos) (expression (.padding pos) levels 0) (start :: behind) =
        .error (.parse (.unexpected wanted found))) :
    Pointed (fun pos behind e => if opensFunction (kinds behind) then
        function (.padding pos) (expression (.padding pos) levels 0) (start :: behind) = .error e
      else
        parenthesised (.padding pos) (expression (.padding pos) levels 0) (start :: behind) =
          .error e)
      (PrimaryBehind start.kind levels) pos behind wanted found := by
  split at h
  · next opens =>
    refine (function_points careful kind h).decided
      (fun t text _ _ named => function_reads_name kind t text named)
      fun pos' behind' e same refused => ?_
    rw [if_pos (same.trans opens)]
    exact refused
  · next opens =>
    refine (parenthesised_points careful kind h).decided
      (fun t text _ _ named => parenthesised_reads_name kind t text named)
      fun pos' behind' e same refused => ?_
    rw [if_neg (same ▸ opens)]
    exact refused

/-- A primary that is refused would have been read with other tokens. -/
theorem primary_points (careful : CarefulAt levels) :
    Points (fun pos => primary (.padding pos) (expression (.padding pos) levels))
      (IsPrimary levels) := by
  intro pos tokens wanted found h
  rcases primary_error_iff.mp h with ⟨opens, he⟩ | ⟨t, behind, s, rfl, kind, parts⟩
  · obtain ⟨rfl, rfl⟩ := unexpectedAt_inj he
    -- nothing is taken, and `null` would do in its place
    refine ⟨[], tokens, rfl, rfl, ⟨[.literal .null], .literal .null (.empty 0), .literal, rfl,
      Nat.le_add_left 1 levels, rfl⟩, fun pos' rest' same => primary_error_iff.mpr (.inl ⟨?_, rfl⟩)⟩
    rw [List.nil_append, same]
    exact opens
  rw [← List.singleton_append]
  cases hop : unaryOp? s with
  | some op =>
      simp only [hop] at parts
      refine ((careful tightest).points parts).lead [t] ?_ fun pos' behind' found' _ refused => ?_
      · rintro w ⟨e, fits, rfl⟩
        refine ⟨[], .unary op e (.empty 0),
          .unary fits.canonical (Expr.bindsAt_tightest_iff.mp fits.binds), rfl,
          Nat.succ_le_succ fits.low, ?_⟩
        simp [Expr.written, kind, unaryOp?_eq_some_iff.mp hop]
      · refine primary_error_iff.mpr (.inr ⟨t, behind', s, rfl, kind, ?_⟩)
        simp only [hop]
        exact refused
  | none =>
      simp only [hop] at parts
      split at parts
      · next dot =>
        subst dot
        have name := (hostPath_error_iff kind).mp parts
        refine (ident_careful.points name).lead [t] ?_ fun pos' behind' found' _ refused => ?_
        · rintro w ⟨one, -, rfl⟩
          refine ⟨[], .hostPath [one] (.empty 0), .hostPath (List.cons_ne_nil one []), rfl,
            Nat.le_add_left 1 levels, ?_⟩
          simp [Expr.written, kind, Ident.written]
        · refine primary_error_iff.mpr (.inr ⟨t, behind', .dot, rfl, kind, ?_⟩)
          simp only [hop, if_true]
          exact (hostPath_error_iff kind).mpr refused
      split at parts
      · next other paren =>
        subst paren
        refine (parens_points careful kind parts).lead [t] ?_ fun pos' behind' found' _ refused =>
          primary_error_iff.mpr (.inr ⟨t, behind', .leftParen, rfl, kind, refused⟩)
        rintro w ⟨e, canonical, operator, low, written⟩
        exact ⟨[], e, canonical, operator, low, by rw [written, List.append_nil]; rfl⟩
      · exact parts.elim

/-! ### Links -/

/-- What goes on behind an expression: the rests that are refused there. -/
def RefusesBehind (v : Expr) (x : Nat → {origin : List Token} → Reading origin Expr →
    Except SourceError (Reading origin Expr)) : Refusal :=
  fun pos tokens e => ∀ {origin : List Token} (left : Reading origin Expr), left.value = v →
    left.rest = tokens → x pos left = .error e

/-- The rest of an expression that goes on behind another. -/
def GoesOnBehind (v : Expr) (levels least : Nat) (w : List Kind) : Prop :=
  ∃ e : Expr, e.Fits levels least ∧ e.written = v.written ++ w

/-- What a dot can follow is no operation. -/
theorem isOperation_of_dot {e : Expr} {ks : List Kind} (ends : e.EndsBefore (.symbol .dot :: ks)) :
    e.isOperation = false := by
  cases e with
  | unary | binary => cases ends
  | _ => rfl

/-- What the part of a link behind its first token is refused for. -/
def Link.Refuses (levels : Nat) : Link → Refusal
  | .call => Parser.Refuses fun pos => items (.padding pos) (expression (.padding pos) levels 0)
  | .member => Parser.Refuses fun pos => ident (.padding pos)
  | .operator op =>
    Parser.Refuses fun pos => expression (.padding pos) levels (op.precedence + 1)

/-- The forms of that part. -/
def Link.Form (levels : Nat) : Link → List Kind → Prop
  | .call, w => ∃ args, (∀ e ∈ args.1, e.Fits levels 0) ∧ closedList Expr.written args = w
  | .member, w => ∃ name : Ident, True ∧ name.written = w
  | .operator op, w => ∃ e : Expr, e.Fits levels (op.precedence + 1) ∧ e.written = w

/-- A link that is refused would have been read with other tokens. -/
theorem Link.points (careful : CarefulAt levels) {link : Link}
    (h : link.Refuses levels pos tokens (.parse (.unexpected wanted found))) :
    Pointed (link.Refuses levels) (link.Form levels) pos tokens wanted found := by
  cases link with
  | call => exact (items_careful (careful 0)).points h
  | member => exact ident_careful.points h
  | operator op => exact (careful (op.precedence + 1)).points h

section extend

variable {n least : Nat} {link : Link}

/-- A link is completed by its part, and a path by a further segment. -/
theorem Link.completes {v : Expr} {k : Kind} {ks w : List Kind} (fits : v.Fits n least)
    (used : v.linkCount + 2 + levels = n) (ends : v.EndsBefore (k :: ks))
    (starts : link? least k = some link) (form : link.Form levels w) :
    GoesOnBehind v n least (k :: w) := by
  have low := fits.low
  have height : ∀ {inside : Nat}, inside ≤ levels →
      max v.height (v.linkCount + 2 + inside) ≤ n := by
    intro inside le
    omega
  cases link with
  | call =>
      obtain rfl := link?_eq_some_call_iff.mp starts
      obtain ⟨args, all, rfl⟩ := form
      refine ⟨.call v args.1 (.empty 0), ⟨.call fits.canonical (endsBefore_call_iff.mp ends)
        fun e mem => (all e mem).canonical, Expr.bindsAt_of_operator? rfl least,
        height (Expr.heightEach_le_iff.mpr fun e mem => (all e mem).low)⟩, ?_⟩
      simp [Expr.written, closedList]
  | member =>
      obtain rfl := link?_eq_some_member_iff.mp starts
      obtain ⟨name, -, rfl⟩ := form
      -- behind a path, a name is one more of its segments
      cases path : v.isHostPath with
      | false =>
          exact ⟨.member v name (.empty 0), ⟨.member fits.canonical (isOperation_of_dot ends) path,
            Expr.bindsAt_of_operator? rfl least, height (Nat.zero_le levels)⟩, rfl⟩
      | true =>
          obtain ⟨names, place, rfl⟩ : ∃ names place, v = .hostPath names place := by
            cases v <;> simp_all [Expr.isHostPath]
          refine ⟨.hostPath (names ++ [name]) (.empty 0), ⟨.hostPath (by simp),
            Expr.bindsAt_of_operator? rfl least, low⟩, ?_⟩
          simp [Expr.written, pathWritten, Ident.written]
  | operator op =>
      obtain ⟨rfl, le⟩ := link?_eq_some_operator_iff.mp starts
      obtain ⟨e, right, rfl⟩ := form
      refine ⟨.binary v op e (.empty 0), ⟨.binary fits.canonical (endsBefore_operator_iff.mp ends)
        right.canonical right.binds, ?_, height right.low⟩, rfl⟩
      rintro op' hop
      cases hop
      exact le

/-- A link is refused for what stands behind its first token. -/
theorem Link.refuses_iff {origin : List Token} {left : Reading origin Expr} {t : Token}
    {behind : List Token} {e : SourceError} (h : left.rest = t :: behind) :
    extend (.padding pos) (expression (.padding pos) levels) link left = .error e ↔
      link.Refuses levels pos behind e := by
  rw [extend_error_iff h]
  cases link <;> rfl

/-- An expression with a refused link would have been read with other tokens. -/
theorem extend_points (careful : CarefulAt levels) {origin : List Token}
    {left : Reading origin Expr} (fits : left.value.Fits n least)
    (used : left.value.linkCount + 2 + levels = n)
    (ends : left.value.EndsBefore (kinds left.rest))
    (starts : link? least (front left.rest) = some link)
    (h : extend (.padding pos) (expression (.padding pos) levels) link left =
      .error (.parse (.unexpected wanted found))) :
    ∃ taken rest, left.rest = taken ++ rest ∧ taken ≠ [] ∧ found = here pos rest ∧
      PointsAt (RefusesBehind left.value fun pos _ left =>
          extend (.padding pos) (expression (.padding pos) levels) link left)
        (GoesOnBehind left.value n least) wanted taken rest := by
  obtain ⟨t, behind, hrest⟩ : ∃ t behind, left.rest = t :: behind := by
    refine List.exists_cons_of_ne_nil fun none => ?_
    rw [none] at starts
    cases starts
  obtain ⟨taken, rest, rfl, hfound, points⟩ := Link.points careful ((Link.refuses_iff hrest).mp h)
  rw [hrest] at ends starts
  refine ⟨t :: taken, rest, hrest, List.cons_ne_nil t taken, hfound, points.lead [t] ?_
    fun pos' rest' found' _ refused _ left' _ hrest' => (Link.refuses_iff hrest').mpr refused⟩
  exact fun w form => ⟨[], by rw [List.append_nil]; exact Link.completes fits used ends starts form⟩

end extend

/-! ### Expressions -/

/-- Two tokens tell whether a segment starts. -/
theorem startsSegment_cons (k : Kind) (behind : List Token) :
    startsSegment (k :: kinds behind) = (k.isSymbol .dot && (front behind).name?.isSome) := by
  cases k with
  | symbol s =>
      cases behind with
      | nil => cases s <;> rfl
      | cons t more =>
          show startsSegment (.symbol s :: t.kind :: kinds more) = (_ && t.kind.name?.isSome)
          cases s with
          | dot => cases t.kind <;> rfl
          | _ => rfl
  | _ => cases behind <;> rfl

/-- Behind a token that has been taken, what has the same front looks alike. -/
theorem alike_append {taken a b : List Token} (some : taken ≠ []) (same : front a = front b) :
    Alike (taken ++ a) (taken ++ b) := by
  refine ⟨front_append same, ?_⟩
  obtain ⟨t, more, rfl⟩ := List.exists_cons_of_ne_nil some
  show startsSegment (t.kind :: kinds (more ++ a)) = startsSegment (t.kind :: kinds (more ++ b))
  rw [startsSegment_cons, startsSegment_cons, front_append same]

/-- What is refused at a token and read as it is written is read carefully. -/
theorem careful_of_points {least : Nat}
    (points : Points (fun pos => expression (.padding pos) levels least) fun w =>
      ∃ e : Expr, e.Fits levels least ∧ e.written = w) :
    Careful (fun pos => expression (.padding pos) levels least) Expr.written
      (Expr.Fits levels least) where
  takes _ _ _ h :=
    have read := (expression_ok levels least h).1
    ⟨read.written, read.canonical, read.binds, expression_height levels least h⟩
  halts := expression_halts levels least
  points := points

/-- A primary that has been read, seen as what it takes. -/
theorem primary_taken {left : Reading tokens Expr}
    (h : primary (.padding pos) (expression (.padding pos) levels) tokens = .ok left) :
    ∃ run, tokens = run ++ left.rest ∧ kinds run = left.value.written ∧
      ∀ rest', Alike left.rest rest' → ∀ pos',
        Reads (primary (.padding pos') (expression (.padding pos') levels)) (run ++ rest')
          left.value rest' := by
  have written := (primary_ok (expression_ok levels) h 0).written
  obtain ⟨run, htokens, -, goes⟩ := Same.all fun pos' =>
    primary_stays pos' (expression_stays pos' levels) ⟨left, h, rfl, rfl⟩
  have whole : kinds tokens = kinds run ++ kinds left.rest := by rw [← kinds_append, ← htokens]
  exact ⟨run, htokens, List.append_cancel_right (whole.symm.trans written), goes⟩

/-- The same for a link that has been added. -/
theorem extend_taken {link : Link} {least : Nat} {origin : List Token}
    {left longer : Reading origin Expr}
    (read : left.value.ReadAs least (kinds origin) (kinds left.rest))
    (read' : longer.value.ReadAs least (kinds origin) (kinds longer.rest))
    (h : extend (.padding pos) (expression (.padding pos) levels) link left = .ok longer) :
    ∃ run, left.rest = run ++ longer.rest ∧
      longer.value.written = left.value.written ++ kinds run ∧
      ∀ rest', Alike longer.rest rest' → ∀ (pos' : Nat) {origin' : List Token}
        (left' : Reading origin' Expr), left'.value = left.value → left'.rest = run ++ rest' →
        ∃ longer', extend (.padding pos') (expression (.padding pos') levels) link left' =
          .ok longer' ∧ longer'.value = longer.value ∧ longer'.rest = rest' := by
  obtain ⟨run, hrest, -, goes⟩ : Same left.rest longer.rest fun tokens' rest' =>
      ∀ (pos' : Nat) {origin' : List Token} (left' : Reading origin' Expr),
        left'.value = left.value → left'.rest = tokens' →
        ∃ longer', extend (.padding pos') (expression (.padding pos') levels) link left' =
          .ok longer' ∧ longer'.value = longer.value ∧ longer'.rest = rest' :=
    Same.all fun pos' => extend_stays pos' (expression_stays pos' levels) h
  refine ⟨run, hrest, ?_, goes⟩
  have whole : longer.value.written ++ kinds longer.rest =
      left.value.written ++ kinds run ++ kinds longer.rest := by
    rw [← read'.written, read.written, hrest, kinds_append, List.append_assoc]
  exact List.append_cancel_right whole

mutual

/-- What an expression is refused for. -/
theorem expression_points : (levels least : Nat) →
    Points (fun pos => expression (.padding pos) levels least) fun w =>
      ∃ e : Expr, e.Fits levels least ∧ e.written = w
  | 0, _ => by
      intro pos tokens wanted found h
      obtain ⟨_, none, -⟩ := expression_unexpected_iff.mp h
      cases none
  | levels + 1, least => by
      intro pos tokens wanted found h
      have careful : CarefulAt levels := fun least =>
        careful_of_points (expression_points levels least)
      obtain ⟨_, same, parts⟩ := expression_unexpected_iff.mp h
      obtain rfl := Nat.succ.inj same
      rcases parts with first | ⟨left, hleft, onward⟩
      · refine (primary_points careful first).lead [] ?_ fun pos' tokens' found' _ refused =>
          expression_unexpected_iff.mpr ⟨levels, rfl, .inl refused⟩
        rintro w ⟨e, canonical, operator, low, rfl⟩
        exact ⟨[], e, ⟨canonical, Expr.bindsAt_of_operator? operator least, low⟩, by simp⟩
      · have read := primary_ok (expression_ok levels) hleft least
        obtain ⟨low, count⟩ := primary_height (expression_height levels) hleft
        obtain ⟨taken, rest, hrest, some, hfound, points⟩ := links_points levels read low
          (by omega) onward
        obtain ⟨run, htokens, hrun, goes⟩ := primary_taken hleft
        rw [hrest] at htokens goes
        refine ⟨run ++ taken, rest, by rw [htokens, List.append_assoc], hfound, points.lead run ?_
          fun pos' rest' found' same refused => ?_⟩
        · rintro w ⟨e, fits, he⟩
          exact ⟨[], e, fits, by rw [he, hrun, List.append_nil]⟩
        · obtain ⟨left', hleft', hvalue, hrest'⟩ := goes _ (alike_append some same.symm) pos'
          exact expression_unexpected_iff.mpr
            ⟨levels, rfl, .inr ⟨left', hleft', refused left' hvalue hrest'⟩⟩

/-- What an expression with further links is refused for. -/
theorem links_points {n : Nat} : (levels : Nat) → {least pos : Nat} → {origin : List Token} →
    {left : Reading origin Expr} → {wanted : Wanted} → {found : Token} →
    left.value.ReadAs least (kinds origin) (kinds left.rest) →
    left.value.height ≤ n → left.value.linkCount + 1 + levels = n →
    links (.padding pos) levels least left = .error (.parse (.unexpected wanted found)) →
    ∃ taken rest, left.rest = taken ++ rest ∧ taken ≠ [] ∧ found = here pos rest ∧
      PointsAt (RefusesBehind left.value fun pos _ left => links (.padding pos) levels least left)
        (GoesOnBehind left.value n least) wanted taken rest
  | 0, _, _, _, _, _, _, _, _, _, h => by
      obtain ⟨_, _, -, none, -⟩ := links_unexpected_iff.mp h
      cases none
  | levels + 1, least, pos, origin, left, wanted, found, read, low, used, h => by
      obtain ⟨link, _, starts, same, parts⟩ := links_unexpected_iff.mp h
      obtain rfl := Nat.succ.inj same
      have careful : CarefulAt levels := fun least =>
        careful_of_points (expression_points levels least)
      rcases parts with inside | ⟨longer, hlonger, onward⟩
      · obtain ⟨taken, rest, hrest, some, hfound, points⟩ := extend_points careful
          ⟨read.canonical, read.binds, low⟩ (by omega) read.ends starts inside
        refine ⟨taken, rest, hrest, some, hfound, points.lead [] ?_
          fun pos' rest' found' same refused _ left' hvalue hrest' => ?_⟩
        · exact fun w form => ⟨[], by simpa using form⟩
        · refine links_unexpected_iff.mpr
            ⟨link, levels, ?_, rfl, .inl (refused left' hvalue hrest')⟩
          rw [hrest', List.nil_append, front_append same, ← hrest]
          exact starts
      · have read' := extend_ok (expression_ok levels) read starts hlonger
        obtain ⟨low', count⟩ :=
          extend_height (expression_ok levels) (expression_height levels) hlonger
        obtain ⟨taken, rest, hrest, some, hfound, points⟩ := links_points (n := n) levels read'
          (by omega) (by omega) onward
        -- the link that was read goes on in front of every completion and every other rest
        obtain ⟨run, hrun, written, goes⟩ := extend_taken read read' hlonger
        rw [hrest] at hrun goes
        refine ⟨run ++ taken, rest, by rw [hrun, List.append_assoc], by simp [some], hfound,
          points.lead run ?_ fun pos' rest' found' same refused _ left' hvalue hrest' => ?_⟩
        · rintro w ⟨e, fits, he⟩
          exact ⟨[], e, fits, by rw [he, written, List.append_nil, List.append_assoc]⟩
        · obtain ⟨longer', hlonger', hvalue', hlast⟩ :=
            goes _ (alike_append some same.symm) pos' left' hvalue hrest'
          have looks : front (run ++ (taken ++ rest')) = front left.rest :=
            hrun ▸ front_append (front_append same)
          refine links_unexpected_iff.mpr
            ⟨link, levels, ?_, rfl, .inr ⟨longer', hlonger', refused longer' hvalue' hlast⟩⟩
          rw [hrest', looks, starts]

end

/-- Expressions are read carefully, by induction on the levels. -/
theorem expression_careful (levels : Nat) : CarefulAt levels := fun least =>
  careful_of_points (expression_points levels least)

/-! ### Programs -/

/-- What statements up to the end of the input are refused for. -/
theorem statements_points
    (h : statements (.padding pos) (expression (.padding pos) levels 0) tokens =
      .error (.parse (.unexpected wanted found))) :
    Pointed (fun pos tokens e =>
        statements (.padding pos) (expression (.padding pos) levels 0) tokens = .error e)
      (fun w => ∃ body : List Expr, (∀ e ∈ body, e.content.Fits levels 0) ∧
        terminated (body.map Expr.written) = w) pos tokens wanted found := by
  have careful := closedStatement_careful (expression_careful levels)
  induction hn : tokens.length using Nat.strongRecOn generalizing tokens with
  | _ n ih =>
  subst hn
  obtain ⟨goes, first | ⟨s, behind, reads, others⟩⟩ := statements_error_iff.mp h
  · refine (careful.points first).lead [] ?_ fun pos' behind' found' same refused =>
      statements_error_iff.mpr ⟨same ▸ goes, .inl refused⟩
    rintro w ⟨e, fits, rfl⟩
    exact ⟨[], [e], by simpa using fits, by simp [withSemicolon]⟩
  · have inner := ih _ reads.length_lt others rfl
    obtain ⟨run, rfl, some, hrun, fits, onward⟩ := careful.read reads
    obtain ⟨t, run, rfl⟩ := List.exists_cons_of_ne_nil some
    refine inner.lead (t :: run) ?_ fun pos' behind' found' same refused => ?_
    · rintro w ⟨body, all, rfl⟩
      refine ⟨[], s :: body, List.forall_mem_cons.mpr ⟨fits, all⟩, ?_⟩
      rw [hrun]
      simp [withSemicolon]
    · exact statements_error_iff.mpr ⟨goes, .inr ⟨s, behind', onward pos' behind' same, refused⟩⟩

end Parser

/-- The token at an index, where the end of the input stands behind the last one. -/
def tokenAt (tokens : List Token) (i : Nat) : Token :=
  Parser.here (lastStop tokens) (tokens.drop i)

namespace Program

variable {tokens : List Token}

/-- Behind the last token stands an `eof`. -/
theorem kind_tokenAt (tokens : List Token) (i : Nat) :
    (tokenAt tokens i).kind = ((kinds tokens)[i]?).getD .eof := by
  rw [tokenAt, Parser.kind_here, front, kinds, List.map_drop, List.headD_eq_head?_getD,
    List.head?_drop]

/-- A list of tokens is refused as its statements are. -/
theorem ofTokens_eq_error_iff {e : SourceError} :
    ofTokens tokens = .error e ↔ Parser.statements (.padding (lastStop tokens))
      (Parser.expression (.padding (lastStop tokens)) nestingLimit 0) tokens = .error e := by
  rw [ofTokens, Parser.program, Parser.current_eq]
  simp only
  split <;> simp_all

/-- Whether tokens are a program is a matter of their kinds. -/
theorem exists_ofTokens_of_kinds {others : List Token} {p : Program}
    (h : ofTokens tokens = .ok p) (same : kinds others = kinds tokens) :
    ∃ q, ofTokens others = .ok q := by
  obtain ⟨written, canonical⟩ := ofTokens_sound h
  have low := levels_le_iff.mpr (Parser.program_height h)
  obtain ⟨q, hq, -⟩ := (ofTokens_complete canonical (same ▸ written.symm)).1 low
  exact ⟨q, hq⟩

/-- Kinds that agree with some in front, none of which is the end of the input, start with them. -/
theorem take_of_agree {before others : List Kind} (goes : Kind.eof ∉ before)
    (agree : ∀ j < before.length, (others[j]?).getD .eof = (before[j]?).getD .eof) :
    others.take before.length = before := by
  induction before generalizing others with
  | nil => rfl
  | cons k more ih =>
      obtain ⟨here, onward⟩ := not_or.mp (mt List.mem_cons.mpr goes)
      have first := agree 0 (Nat.succ_pos _)
      cases others with
      | nil => exact absurd first here
      | cons l behind =>
          obtain rfl : l = k := first
          have rest := ih onward fun j lt => agree (j + 1) (Nat.succ_lt_succ lt)
          rw [List.length_cons, List.take_succ_cons, rest]

/-- **Refusals point at the first hopeless token.** The kinds of the tokens in front of it are those
in front of a program that is not nested too deeply; no tokens with these kinds up to and including
its own are a program. -/
theorem refusal_points {wanted : Wanted} {found : Token}
    (h : ofTokens tokens = .error (.parse (.unexpected wanted found))) :
    ∃ i ≤ tokens.length, found = tokenAt tokens i ∧
      (∃ more p, ofTokens (tokens.take i ++ more) = .ok p) ∧
      ∀ others, (∀ j ≤ i, (tokenAt others j).kind = (tokenAt tokens j).kind) →
        ∀ p, ofTokens others ≠ .ok p := by
  obtain ⟨taken, rest, rfl, hfound, points⟩ :=
    Parser.statements_points (ofTokens_eq_error_iff.mp h)
  obtain ⟨more, body, fits, written⟩ := points.completes
  let program : Program := ⟨body, .empty 0⟩
  have goes : Kind.eof ∉ kinds taken ++ more := written ▸ program.eof_notMem_written
  refine ⟨taken.length, by simp, by rw [tokenAt, List.drop_left, hfound], ?_, ?_⟩
  · have form : (kinds (taken ++ Parser.tokensOf more)).takeWhile Kind.isMore =
        program.written := by
      rw [kinds_append, Parser.kinds_tokensOf]
      refine (List.takeWhile_eq_self_iff.mpr fun k mem => ?_).trans written.symm
      have other : k ≠ .eof := by
        rintro rfl
        exact goes mem
      simpa [Kind.isMore, Bool.eq_false_iff, Kind.isEof_iff] using other
    have low : ∀ n ∈ program.levels, n ≤ nestingLimit :=
      levels_le_iff.mpr fun e mem => e.height_content ▸ (fits e mem).low
    obtain ⟨q, hq, -⟩ := (ofTokens_complete (fun e mem => (fits e mem).canonical) form).1 low
    exact ⟨_, q, by rwa [List.take_left]⟩
  · intro others agree p hp
    have same : (kinds others).take taken.length = kinds taken := by
      rw [← List.length_map Token.kind]
      refine take_of_agree (fun mem => goes (List.mem_append_left _ mem)) fun j lt => ?_
      rw [List.length_map] at lt
      have := agree j (Nat.le_of_lt lt)
      rwa [kind_tokenAt, kind_tokenAt, kinds_append, List.getElem?_append_left] at this
      rwa [List.length_map]
    have behind : front (others.drop taken.length) = front rest := by
      have := agree taken.length (Nat.le_refl _)
      rwa [tokenAt, tokenAt, Parser.kind_here, Parser.kind_here, List.drop_left] at this
    -- with the tokens of the one in front of those of the other
    have mixed : kinds (taken ++ others.drop taken.length) = kinds others := by
      rw [kinds_append, ← same, ← List.map_take, ← kinds_append, List.take_append_drop]
    obtain ⟨q, hq⟩ := exists_ofTokens_of_kinds hp mixed
    have refused := ofTokens_eq_error_iff.mpr (points.refused _ _ behind)
    cases hq.symm.trans refused

/-- The semicolon in `(a, b;`, in place of which parameters end or go on. -/
theorem refusal_points_parameters :
    ∃ i ≤ 5, (⟨.symbol .semicolon, .empty 0⟩ : Token) = tokenAt (Parser.tokensOf
        [.symbol .leftParen, .name "a", .symbol .comma, .name "b", .symbol .semicolon]) i ∧
      (∃ more p, ofTokens ((Parser.tokensOf [.symbol .leftParen, .name "a", .symbol .comma,
        .name "b", .symbol .semicolon]).take i ++ more) = .ok p) ∧
      ∀ others, (∀ j ≤ i, (tokenAt others j).kind = (tokenAt (Parser.tokensOf [.symbol .leftParen,
        .name "a", .symbol .comma, .name "b", .symbol .semicolon]) j).kind) →
        ∀ p, ofTokens others ≠ .ok p := by
  have h : ofTokens (Parser.tokensOf [.symbol .leftParen, .name "a", .symbol .comma, .name "b",
      .symbol .semicolon]) =
        .error (.parse (.unexpected (.symbol .rightParen) ⟨.symbol .semicolon, .empty 0⟩)) := by
    decide +kernel
  exact refusal_points h

end Program

end ScriptConsole
