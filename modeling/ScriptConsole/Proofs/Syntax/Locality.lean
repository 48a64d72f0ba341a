import ScriptConsole.Proofs.Syntax.Readings

/-!
# Readers Look No Further Than They Take

What a reader takes off the front of some tokens, and what it makes of that, does not depend on the
tokens behind, as long as they look alike to it: they start with the same kind of token and, where
that is a dot, both or neither go on with a name (`Parser.Alike`). A statement that is closed off by
its semicolon depends on nothing behind it at all.

## Main results

* `Parser.expression_stays`: expressions, by induction on the levels.
* `Parser.closedStatement_stays`: statements with their semicolon.
* `Program.ofTokens_append`: programs one behind the other.
-/

namespace ScriptConsole

namespace Parser

open Token (Kind)

variable {α : Type} {tokens rest : List Token} {pos : Nat}

/-! ### Tokens behind a reader -/

/-- Whether tokens look alike to a reader that stops in front of them. -/
structure Alike (a b : List Token) : Prop where
  front : (kinds a).headD .eof = (kinds b).headD .eof
  segment : startsSegment (kinds a) = startsSegment (kinds b)

/-- Whether a reader that stops in front of some tokens does not look behind them. -/
def Firm (taken : List Token) : Prop := ∀ a b, Alike (taken ++ a) (taken ++ b)

/-- A reader does not look further for having more tokens taken. -/
theorem Firm.append {taken : List Token} (firm : Firm taken) (more : List Token) :
    Firm (taken ++ more) := by
  intro a b
  rw [List.append_assoc, List.append_assoc]
  exact firm _ _

/-- No tokens at all hold nobody back. -/
theorem Firm.ne_nil {taken : List Token} (firm : Firm taken) : taken ≠ [] := by
  rintro rfl
  have := (firm [] [⟨.literal .null, .empty 0⟩]).front
  cases this

/-- One token other than a dot is enough. -/
theorem firm_of_ne_dot {t : Token} (other : t.kind ≠ .symbol .dot) (more : List Token) :
    Firm (t :: more) := by
  refine fun a b => ⟨rfl, ?_⟩
  have none : ∀ ks, startsSegment (t.kind :: ks) = false := by
    intro ks
    unfold startsSegment
    split
    · next h => exact absurd (List.cons.inj h).1 other
    · rfl
  exact (none _).trans (none _).symm

/-- Two tokens are enough. -/
theorem firm_of_two (t u : Token) (more : List Token) : Firm (t :: u :: more) := by
  by_cases dot : t.kind = .symbol .dot
  · refine fun a b => ⟨rfl, ?_⟩
    show startsSegment (t.kind :: u.kind :: kinds (more ++ a)) =
      startsSegment (t.kind :: u.kind :: kinds (more ++ b))
    rw [dot]
    cases u.kind <;> rfl
  · exact firm_of_ne_dot dot (u :: more)

/-- Another token in front does no harm. -/
theorem Firm.cons {taken : List Token} (firm : Firm taken) (t : Token) : Firm (t :: taken) := by
  obtain ⟨u, more, rfl⟩ := List.exists_cons_of_ne_nil firm.ne_nil
  exact firm_of_two t u more

/-! ### What stays the same -/

/-- Whether something goes from some tokens to a rest, and goes in the same way from what it takes
to any other rest that looks alike. -/
def Same (tokens rest : List Token) (goes : List Token → List Token → Prop) : Prop :=
  ∃ taken, tokens = taken ++ rest ∧ Firm taken ∧
    ∀ rest', Alike rest rest' → goes (taken ++ rest') rest'

namespace Same

variable {behind : List Token} {p q : List Token → List Token → Prop}

/-- One thing after another. -/
theorem trans (first : Same tokens behind p) (second : Same behind rest q) :
    Same tokens rest fun tokens' rest' =>
      ∃ behind', Alike behind behind' ∧ p tokens' behind' ∧ q behind' rest' := by
  obtain ⟨taken, rfl, firm, hp⟩ := first
  obtain ⟨more, rfl, firmly, hq⟩ := second
  refine ⟨taken ++ more, (List.append_assoc _ _ _).symm, firm.append _, fun rest' alike => ?_⟩
  rw [List.append_assoc]
  exact ⟨_, firmly _ _, hp _ (firmly _ _), hq _ alike⟩

/-- What goes the same way, under something weaker. -/
theorem imp (same : Same tokens rest p)
    (h : ∀ tokens' rest', Alike tokens tokens' → p tokens' rest' → q tokens' rest') :
    Same tokens rest q := by
  obtain ⟨taken, rfl, firm, hp⟩ := same
  exact ⟨taken, rfl, firm, fun rest' alike => h _ _ (firm _ _) (hp rest' alike)⟩

end Same

/-- Whether what one reader reads is the same to another, whatever stands behind it that looks
alike. -/
def Stays (x y : TokenReader α) : Prop :=
  ∀ ⦃tokens rest : List Token⦄ ⦃a : α⦄, Reads x tokens a rest →
    Same tokens rest fun tokens' rest' => Reads y tokens' a rest'

/-! ### Single tokens and lists of items -/

/-- A symbol other than a dot is read without a look behind it. -/
theorem symbol_stays (pos' : Nat) {s : Token.Symbol} (other : s ≠ .dot) :
    Stays (symbol (.padding pos) s) (symbol (.padding pos') s) := by
  intro tokens rest t h
  obtain ⟨rfl, kind⟩ := (reads_symbol pos).mp h
  refine ⟨[t], rfl, firm_of_ne_dot (by simpa [kind] using other) [], fun rest' _ => ?_⟩
  exact (reads_symbol pos').mpr ⟨rfl, kind⟩

/-- So is a name. -/
theorem ident_stays (pos' : Nat) : Stays (ident (.padding pos)) (ident (.padding pos')) := by
  intro tokens rest name h
  obtain ⟨t, rfl, kind, span⟩ := (reads_ident pos).mp h
  refine ⟨[t], rfl, firm_of_ne_dot (by simp [kind]) [], fun rest' _ => ?_⟩
  exact (reads_ident pos').mpr ⟨t, rfl, kind, span⟩

/-- So are the items behind a comma. -/
theorem itemsFrom_stays (pos' : Nat) {item item' : TokenReader α} (stays : Stays item item') :
    Stays (itemsFrom (.padding pos) item) (itemsFrom (.padding pos') item') := by
  intro tokens rest v h
  induction hn : tokens.length using Nat.strongRecOn generalizing tokens v with
  | _ n ih =>
  subst hn
  obtain ⟨a, behind, first, h⟩ := (reads_itemsFrom pos).mp h
  split at h
  · next comma =>
    obtain ⟨t, inside, more, sign, others, rfl⟩ := h
    have onward := ih _ (Nat.lt_trans sign.length_lt first.length_lt) others rfl
    refine ((stays first).trans ((symbol_stays pos' (by decide) sign).trans onward)).imp ?_
    rintro tokens' rest' - ⟨behind', alike, first', inside', -, sign', others'⟩
    refine (reads_itemsFrom pos').mpr ⟨a, behind', first', ?_⟩
    rw [← alike.front, if_pos comma]
    exact ⟨t, inside', more, sign', others', rfl⟩
  · next other =>
    obtain ⟨close, closes, rfl⟩ := h
    refine ((stays first).trans (symbol_stays pos' (by decide) closes)).imp ?_
    rintro tokens' rest' - ⟨behind', alike, first', closes'⟩
    refine (reads_itemsFrom pos').mpr ⟨a, behind', first', ?_⟩
    rw [← alike.front, if_neg other]
    exact ⟨close, closes', rfl⟩

/-- So is a list of items. -/
theorem items_stays (pos' : Nat) {item item' : TokenReader α} (stays : Stays item item') :
    Stays (items (.padding pos) item) (items (.padding pos') item') := by
  intro tokens rest v h
  rw [reads_items] at h
  split at h
  · next empty =>
    obtain ⟨close, closes, rfl⟩ := h
    refine (symbol_stays pos' (by decide) closes).imp fun tokens' rest' alike closes' => ?_
    rw [reads_items, ← alike.front, if_pos empty]
    exact ⟨close, closes', rfl⟩
  · next some =>
    refine (itemsFrom_stays pos' stays h).imp fun tokens' rest' alike h' => ?_
    rw [reads_items, ← alike.front, if_neg some]
    exact h'

/-! ### Host paths -/

/-- Segments of a path are the same in front of whatever looks alike. -/
theorem segments_stay {names : List Ident} (h : Segments tokens names rest) :
    ∃ taken, tokens = taken ++ rest ∧
      ∀ rest', Alike rest rest' → Segments (taken ++ rest') names rest' := by
  induction names generalizing tokens with
  | nil =>
      obtain ⟨rfl, stops⟩ : tokens = rest ∧ _ := h
      exact ⟨[], rfl, fun rest' alike => ⟨rfl, alike.segment.symm.trans stops⟩⟩
  | cons name names ih =>
      obtain ⟨dot, t, behind, rfl, hdot, hname, span, h⟩ := h
      obtain ⟨taken, rfl, onward⟩ := ih h
      exact ⟨dot :: t :: taken, rfl, fun rest' alike =>
        ⟨dot, t, taken ++ rest', rfl, hdot, hname, span, onward rest' alike⟩⟩

/-- So is a path of the host. -/
theorem hostPath_stays (pos' : Nat) :
    Stays (hostPath (.padding pos)) (hostPath (.padding pos')) := by
  intro tokens rest v h
  obtain ⟨dot, behind, one, inside, names, hdot, hone, segments, rfl⟩ := (reads_hostPath pos).mp h
  obtain ⟨rfl, kind⟩ := (reads_symbol pos).mp hdot
  obtain ⟨t, rfl, named, span⟩ := (reads_ident pos).mp hone
  obtain ⟨taken, rfl, onward⟩ := segments_stay segments
  refine ⟨dot :: t :: taken, rfl, firm_of_two dot t taken, fun rest' alike => ?_⟩
  refine (reads_hostPath pos').mpr ⟨dot, _, one, _, names, (reads_symbol pos').mpr ⟨rfl, kind⟩,
    (reads_ident pos').mpr ⟨t, rfl, named, span⟩, onward rest' alike, rfl⟩

/-! ### Statements and function literals -/

/-- Two tokens tell whether an assignment begins. -/
theorem opensAssignment_cons (k : Kind) (ks : List Kind) :
    opensAssignment (k :: ks) = (k.name?.isSome && (ks.headD .eof).isSymbol .assign) := by
  cases ks with
  | nil => cases k <;> rfl
  | cons l more =>
      cases k with
      | name text =>
          cases l with
          | symbol s => cases s <;> rfl
          | _ => rfl
      | _ => rfl

/-- Whether tokens start an assignment is the same with another rest that has the same front. -/
theorem opensAssignment_of_front {taken a b : List Token} (some : taken ≠ [])
    (same : (kinds a).headD .eof = (kinds b).headD .eof) :
    opensAssignment (kinds (taken ++ a)) = opensAssignment (kinds (taken ++ b)) := by
  match taken with
  | [] => exact absurd rfl some
  | [t] =>
      show opensAssignment (t.kind :: kinds a) = opensAssignment (t.kind :: kinds b)
      rw [opensAssignment_cons, opensAssignment_cons, same]
  | t :: u :: more =>
      show opensAssignment (t.kind :: u.kind :: _) = opensAssignment (t.kind :: u.kind :: _)
      rw [opensAssignment_cons, opensAssignment_cons]
      rfl

/-- Three tokens tell whether a function begins. -/
theorem opensFunction_cons (k l : Kind) (ks : List Kind) :
    opensFunction (k :: l :: ks) = (k.isSymbol .rightParen || (k.name?.isSome &&
      (l.isSymbol .comma || (l.isSymbol .rightParen && (ks.headD .eof).isSymbol .leftBrace)))) := by
  cases k with
  | symbol s => cases s <;> rfl
  | name text =>
      cases l with
      | symbol s =>
          cases s with
          | rightParen =>
              cases ks with
              | nil => rfl
              | cons v more =>
                  cases v with
                  | symbol s => cases s <;> rfl
                  | _ => rfl
          | _ => rfl
      | _ => rfl
  | _ => rfl

/-- So is whether they open a function literal, behind the parenthesis and two more of them. -/
theorem opensFunction_of_front {taken a b : List Token} (two : 2 ≤ taken.length)
    (same : (kinds a).headD .eof = (kinds b).headD .eof) :
    opensFunction (kinds (taken ++ a)) = opensFunction (kinds (taken ++ b)) := by
  match taken with
  | t :: u :: more =>
      have front : (kinds (more ++ a)).headD .eof = (kinds (more ++ b)).headD .eof := by
        cases more with
        | nil => exact same
        | cons v more => rfl
      show opensFunction (t.kind :: u.kind :: kinds (more ++ a)) =
        opensFunction (t.kind :: u.kind :: kinds (more ++ b))
      rw [opensFunction_cons, opensFunction_cons, front]

section expression

variable {expr expr' : TokenReader Expr}

/-- A statement is read without a look behind it. -/
theorem statement_stays (pos' : Nat) (stays : Stays expr expr') :
    Stays (statement (.padding pos) expr) (statement (.padding pos') expr') := by
  intro tokens rest v h
  rw [reads_statement] at h
  split at h
  · next opens =>
    obtain ⟨name, behind, sign, inside, value, named, assigned, valued, rfl⟩ := h
    obtain ⟨taken, rfl, firm, goes⟩ := (ident_stays pos' named).trans
      ((symbol_stays pos' (by decide) assigned).trans (stays valued))
    refine ⟨taken, rfl, firm, fun rest' alike => ?_⟩
    obtain ⟨behind', -, named', inside', -, assigned', valued'⟩ := goes rest' alike
    rw [reads_statement, ← opensAssignment_of_front firm.ne_nil alike.front, if_pos opens]
    exact ⟨name, behind', sign, inside', value, named', assigned', valued', rfl⟩
  · next other =>
    obtain ⟨taken, rfl, firm, goes⟩ := stays h
    refine ⟨taken, rfl, firm, fun rest' alike => ?_⟩
    show Reads _ _ _ _
    rw [reads_statement, ← opensAssignment_of_front firm.ne_nil alike.front, if_neg other]
    exact goes rest' alike

/-- A statement is the same whatever stands behind its semicolon, and wherever that stands. -/
theorem closedStatement_stays (pos' : Nat) (stays : Stays expr expr') {v : Expr}
    (h : Reads (closedStatement (.padding pos) expr) tokens v rest) :
    ∃ taken semi, tokens = taken ++ semi :: rest ∧ semi.kind = .symbol .semicolon ∧
      Firm taken ∧ ∀ {semi' rest'}, semi'.kind = .symbol .semicolon →
        Reads (closedStatement (.padding pos') expr') (taken ++ semi' :: rest') v rest' := by
  obtain ⟨behind, semi, s, closes⟩ := (reads_closedStatement pos).mp h
  obtain ⟨rfl, kind⟩ := (reads_symbol pos).mp closes
  obtain ⟨taken, rfl, firm, hs⟩ := statement_stays pos' stays s
  refine ⟨taken, semi, rfl, kind, firm, fun {semi' rest'} kind' => ?_⟩
  have alike : Alike (semi :: rest) (semi' :: rest') := by
    constructor
    · exact kind.trans kind'.symm
    · simp [kinds, kind, kind', startsSegment]
  refine (reads_closedStatement pos').mpr ⟨semi' :: rest', semi', hs _ alike, ?_⟩
  exact (reads_symbol pos').mpr ⟨rfl, kind'⟩

/-- A block is read without a look behind it. -/
theorem block_stays (pos' : Nat) (stays : Stays expr expr') :
    Stays (block (.padding pos) expr) (block (.padding pos') expr') := by
  intro tokens rest v h
  induction hn : tokens.length using Nat.strongRecOn generalizing tokens v with
  | _ n ih =>
  subst hn
  rw [reads_block] at h
  split at h
  · next closes =>
    obtain ⟨close, closed, rfl⟩ := h
    refine (symbol_stays pos' (by decide) closed).imp fun tokens' rest' alike closed' => ?_
    rw [reads_block, ← alike.front, if_pos closes]
    exact ⟨close, closed', rfl⟩
  · next other =>
    obtain ⟨s, behind, more, first, others, rfl⟩ := h
    obtain ⟨taken, semi, rfl, kind, firm, first'⟩ := closedStatement_stays pos' stays first
    have same : Same (taken ++ semi :: behind) behind fun tokens' rest' =>
        Reads (closedStatement (.padding pos') expr') tokens' s rest' :=
      ⟨taken ++ [semi], by simp, firm.append _, fun rest' _ => by simpa using first' kind⟩
    refine (same.trans (ih _ first.length_lt others rfl)).imp ?_
    rintro tokens' rest' alike ⟨behind', -, first', others'⟩
    rw [reads_block, ← alike.front, if_neg other]
    exact ⟨s, behind', more, first', others', rfl⟩

/-- A function is read without a look behind it. -/
theorem function_stays (pos' : Nat) (stays : Stays expr expr') :
    Stays (function (.padding pos) expr) (function (.padding pos') expr') := by
  intro tokens rest v h
  obtain ⟨start, behind, params, a, brace, inside, body, starts, taken, opens, reads, rfl⟩ :=
    (reads_function pos).mp h
  refine ((symbol_stays pos' (by decide) starts).trans
    ((items_stays pos' (ident_stays pos') taken).trans
      ((symbol_stays pos' (by decide) opens).trans (block_stays pos' stays reads)))).imp ?_
  rintro tokens' rest' - ⟨behind', -, starts', a', -, taken', inside', -, opens', reads'⟩
  exact (reads_function pos').mpr
    ⟨start, behind', params, a', brace, inside', body, starts', taken', opens', reads', rfl⟩

/-- An expression in parentheses is read without a look behind it. -/
theorem parenthesised_stays (pos' : Nat) (stays : Stays expr expr') :
    Stays (parenthesised (.padding pos) expr) (parenthesised (.padding pos') expr') := by
  intro tokens rest v h
  obtain ⟨start, behind, inner, a, close, starts, reads, closes, rfl⟩ :=
    (reads_parenthesised pos).mp h
  refine ((symbol_stays pos' (by decide) starts).trans ((stays reads).trans
    (symbol_stays pos' (by decide) closes))).imp ?_
  rintro tokens' rest' - ⟨behind', -, starts', a', -, reads', closes'⟩
  exact (reads_parenthesised pos').mpr
    ⟨start, behind', inner, a', close, starts', reads', closes', rfl⟩

/-- Where a function literal or an expression in parentheses ends, three tokens have been taken. -/
theorem length_of_function {v : Expr} (h : Reads (function (.padding pos) expr) tokens v rest) :
    rest.length + 3 ≤ tokens.length := by
  obtain ⟨_, _, _, _, _, _, _, starts, taken, opens, reads, -⟩ := (reads_function pos).mp h
  have := starts.length_lt
  have := taken.length_lt
  have := opens.length_lt
  have := reads.length_lt
  omega

/-- Parentheses with an expression in them are at least three tokens. -/
theorem length_of_parenthesised {v : Expr}
    (h : Reads (parenthesised (.padding pos) expr) tokens v rest) :
    rest.length + 3 ≤ tokens.length := by
  obtain ⟨_, _, _, _, _, starts, reads, closes, -⟩ := (reads_parenthesised pos).mp h
  have := starts.length_lt
  have := reads.length_lt
  have := closes.length_lt
  omega

end expression

/-! ### Expressions -/

section levels

variable {expr expr' : Nat → TokenReader Expr}

/-- The first token is one of those that were taken. -/
theorem exists_cons_of_firm {taken behind : List Token} {t : Token} (firm : Firm taken)
    (h : t :: behind = taken ++ rest) : ∃ more, taken = t :: more ∧ behind = more ++ rest := by
  obtain ⟨u, more, rfl⟩ := List.exists_cons_of_ne_nil firm.ne_nil
  obtain ⟨rfl, rfl⟩ := List.cons.inj h
  exact ⟨more, rfl, rfl⟩

/-- Behind the first of three tokens stand two more. -/
theorem two_le_of_three {t : Token} {more : List Token}
    (h : rest.length + 3 ≤ (t :: (more ++ rest)).length) : 2 ≤ more.length := by
  rw [List.length_cons, List.length_append] at h
  omega

/-- A primary is read without a look behind it. -/
theorem primary_stays (pos' : Nat) (stays : ∀ least, Stays (expr least) (expr' least)) :
    Stays (primary (.padding pos) expr) (primary (.padding pos') expr') := by
  intro tokens rest v h
  obtain ⟨t, behind, rfl, h⟩ := (reads_primary pos).mp h
  cases hk : t.kind with
  | literal c =>
      simp only [hk] at h
      obtain ⟨rfl, rfl⟩ := h
      refine ⟨[t], rfl, firm_of_ne_dot (by simp [hk]) [], fun rest' _ => ?_⟩
      exact (reads_primary pos').mpr ⟨t, rest', rfl, by simp only [hk, and_self]⟩
  | name text =>
      simp only [hk] at h
      obtain ⟨rfl, rfl⟩ := h
      refine ⟨[t], rfl, firm_of_ne_dot (by simp [hk]) [], fun rest' _ => ?_⟩
      exact (reads_primary pos').mpr ⟨t, rest', rfl, by simp only [hk, and_self]⟩
  | eof =>
      simp only [hk] at h
  | symbol s =>
      simp only [hk] at h
      split at h
      · next op hop =>
        obtain ⟨operand, reads, rfl⟩ := h
        obtain ⟨taken, rfl, firm, goes⟩ := stays tightest reads
        refine ⟨t :: taken, rfl, firm.cons t, fun rest' alike => ?_⟩
        refine (reads_primary pos').mpr ⟨t, taken ++ rest', rfl, ?_⟩
        simp only [hk, hop]
        exact ⟨operand, goes rest' alike, rfl⟩
      next hop =>
      split at h
      · next dot =>
        obtain ⟨taken, htaken, firm, goes⟩ := hostPath_stays pos' h
        obtain ⟨more, rfl, rfl⟩ := exists_cons_of_firm firm htaken
        refine ⟨t :: more, rfl, firm, fun rest' alike => ?_⟩
        refine (reads_primary pos').mpr ⟨t, more ++ rest', rfl, ?_⟩
        simp only [hk, hop, if_pos dot]
        exact goes rest' alike
      next other =>
      split at h
      · next opens =>
        split at h
        · next function =>
          obtain ⟨taken, htaken, firm, goes⟩ := function_stays pos' (stays 0) h
          obtain ⟨more, rfl, rfl⟩ := exists_cons_of_firm firm htaken
          refine ⟨t :: more, rfl, firm, fun rest' alike => ?_⟩
          -- what is taken is long enough to tell a function, whatever comes behind it
          have same := opensFunction_of_front (two_le_of_three (length_of_function h)) alike.front
          refine (reads_primary pos').mpr ⟨t, more ++ rest', rfl, ?_⟩
          simp only [hk, hop, if_neg other, if_pos opens, ← same, if_pos function]
          exact goes rest' alike
        · next parens =>
          obtain ⟨taken, htaken, firm, goes⟩ := parenthesised_stays pos' (stays 0) h
          obtain ⟨more, rfl, rfl⟩ := exists_cons_of_firm firm htaken
          refine ⟨t :: more, rfl, firm, fun rest' alike => ?_⟩
          have same :=
            opensFunction_of_front (two_le_of_three (length_of_parenthesised h)) alike.front
          refine (reads_primary pos').mpr ⟨t, more ++ rest', rfl, ?_⟩
          simp only [hk, hop, if_neg other, if_pos opens, ← same, if_neg parens]
          exact goes rest' alike
      · exact h.elim

variable {origin : List Token} {left : Reading origin Expr}

/-- What a link adds to an expression is the same to the same expression elsewhere. -/
theorem extend_stays (pos' : Nat) (stays : ∀ least, Stays (expr least) (expr' least)) {link : Link}
    {longer : Reading origin Expr} (h : extend (.padding pos) expr link left = .ok longer) :
    ∃ taken, left.rest = taken ++ longer.rest ∧ Firm taken ∧ ∀ rest', Alike longer.rest rest' →
      ∀ {origin' : List Token} (left' : Reading origin' Expr), left'.value = left.value →
        left'.rest = taken ++ rest' →
        ∃ longer', extend (.padding pos') expr' link left' = .ok longer' ∧
          longer'.value = longer.value ∧ longer'.rest = rest' := by
  obtain ⟨t, behind, hrest, parts⟩ := (extend_iff pos).mp ⟨longer, h, rfl, rfl⟩
  cases link with
  | call =>
      obtain ⟨args, reads, hvalue⟩ := parts
      obtain ⟨taken, rfl, firm, goes⟩ := items_stays pos' (stays 0) reads
      refine ⟨t :: taken, hrest, firm.cons t, fun rest' alike _ left' same hrest' => ?_⟩
      refine (extend_iff pos').mpr ⟨t, _, hrest', args, goes rest' alike, ?_⟩
      rw [hvalue, same]
  | member =>
      obtain ⟨name, reads, hvalue⟩ := parts
      obtain ⟨taken, rfl, firm, goes⟩ := ident_stays pos' reads
      refine ⟨t :: taken, hrest, firm.cons t, fun rest' alike _ left' same hrest' => ?_⟩
      refine (extend_iff pos').mpr ⟨t, _, hrest', name, goes rest' alike, ?_⟩
      rw [hvalue, same]
  | operator op =>
      obtain ⟨right, reads, hvalue⟩ := parts
      obtain ⟨taken, rfl, firm, goes⟩ := stays (op.precedence + 1) reads
      refine ⟨t :: taken, hrest, firm.cons t, fun rest' alike _ left' same hrest' => ?_⟩
      refine (extend_iff pos').mpr ⟨t, _, hrest', right, goes rest' alike, ?_⟩
      rw [hvalue, same]

end levels

/-- No links are added where none starts. -/
theorem links_of_none {levels least : Nat} {origin : List Token} {left : Reading origin Expr}
    (none : link? least ((kinds left.rest).headD .eof) = none) :
    links (.padding pos) levels least left = .ok left := by
  obtain ⟨t, ht, kind⟩ := exists_current pos left.rest
  rw [← kind] at none
  cases levels <;> simp only [links, ht, none]

/-- The loop over links ends where the token in front calls for none. -/
theorem links_iff {levels least : Nat} {origin : List Token} {left r : Reading origin Expr} :
    links (.padding pos) levels least left = .ok r ↔
      match link? least ((kinds left.rest).headD .eof) with
      | none => r = left
      | some link => ∃ fewer, levels = fewer + 1 ∧ ∃ longer,
          extend (.padding pos) (expression (.padding pos) fewer) link left = .ok longer ∧
          links (.padding pos) fewer least longer = .ok r := by
  obtain ⟨t, ht, kind⟩ := exists_current pos left.rest
  rw [← kind]
  cases hlink : link? least t.kind with
  | none =>
      rw [links_of_none (kind ▸ hlink)]
      exact ⟨fun h => (Except.ok.inj h).symm, fun h => congrArg Except.ok h.symm⟩
  | some link =>
      cases levels with
      | zero =>
          simp only [links, ht, hlink]
          exact ⟨fun h => absurd h refuseDepth_ne_ok, fun ⟨_, h, _⟩ => by cases h⟩
      | succ levels =>
          simp only [links, ht, hlink]
          constructor
          · intro h
            split at h
            · cases h
            · next longer hlonger => exact ⟨levels, rfl, longer, hlonger, h⟩
          · rintro ⟨_, h, longer, hlonger, hr⟩
            cases h
            rw [hlonger]
            exact hr

mutual

/-- An expression is the same whatever stands behind it that looks alike. -/
theorem expression_stays (pos' : Nat) : (levels least : Nat) →
    Stays (expression (.padding pos) levels least) (expression (.padding pos') levels least)
  | 0, _ => by
      rintro tokens rest v ⟨r, h, -, -⟩
      exact absurd h (by rw [expression]; exact refuseDepth_ne_ok)
  | levels + 1, least => by
      rintro tokens rest v ⟨r, h, rfl, rfl⟩
      rw [expression] at h
      split at h
      · cases h
      next left hleft =>
      obtain ⟨taken, htokens, firm, first⟩ := primary_stays pos' (expression_stays pos' levels)
        ⟨left, hleft, rfl, rfl⟩
      obtain ⟨more, hrest, onward⟩ := links_stay pos' levels h
      rw [hrest, ← List.append_assoc] at htokens
      refine ⟨taken ++ more, htokens, firm.append more, fun rest' alike => ?_⟩
      obtain ⟨looks, goes⟩ := onward rest' alike
      obtain ⟨left', hleft', same, hrest'⟩ := first _ looks
      obtain ⟨r', hr, hvalue, hlast⟩ := goes left' same hrest'
      rw [List.append_assoc]
      refine ⟨r', ?_, hvalue, hlast⟩
      rw [expression, hleft']
      exact hr

/-- So are the links of an expression. -/
theorem links_stay (pos' : Nat) : (levels : Nat) → {least : Nat} → {origin : List Token} →
    {left r : Reading origin Expr} → links (.padding pos) levels least left = .ok r →
    ∃ taken, left.rest = taken ++ r.rest ∧ ∀ rest', Alike r.rest rest' →
      Alike left.rest (taken ++ rest') ∧ ∀ {origin' : List Token} (left' : Reading origin' Expr),
        left'.value = left.value → left'.rest = taken ++ rest' →
        ∃ r', links (.padding pos') levels least left' = .ok r' ∧
          r'.value = r.value ∧ r'.rest = rest'
  | levels, least, origin, left, r, h => by
      have step := (links_iff).mp h
      cases hlink : link? least ((kinds left.rest).headD .eof) with
      | none =>
          rw [hlink] at step
          obtain rfl : r = left := step
          refine ⟨[], rfl, fun rest' alike => ⟨alike, fun left' same hrest' => ?_⟩⟩
          refine ⟨left', links_of_none ?_, same, hrest'⟩
          rw [hrest', List.nil_append, ← alike.front]
          exact hlink
      | some link =>
          rw [hlink] at step
          obtain ⟨fewer, rfl, longer, hlonger, hr⟩ := step
          obtain ⟨taken, hrest, firm, first⟩ :=
            extend_stays pos' (expression_stays pos' fewer) hlonger
          obtain ⟨more, hmore, onward⟩ := links_stay pos' fewer hr
          rw [hmore, ← List.append_assoc] at hrest
          refine ⟨taken ++ more, hrest, fun rest' alike => ?_⟩
          have looks : Alike left.rest (taken ++ more ++ rest') := by
            rw [hrest]
            exact firm.append more _ _
          refine ⟨looks, fun left' same hrest' => ?_⟩
          obtain ⟨looks', goes⟩ := onward rest' alike
          rw [List.append_assoc] at hrest'
          obtain ⟨longer', hlonger', same', hmore'⟩ := first _ looks' left' same hrest'
          obtain ⟨r', hr', hvalue, hlast⟩ := goes longer' same' hmore'
          refine ⟨r', (links_iff).mpr ?_, hvalue, hlast⟩
          rw [hrest', ← List.append_assoc, ← looks.front, hlink]
          exact ⟨fewer, rfl, longer', hlonger', hr'⟩

end

/-! ### Statements up to the end -/

/-- What statements up to the end of the input are read from. -/
theorem statements_iff {expr : TokenReader Expr} {v : List Expr × Token} :
    statements (.padding pos) expr tokens = .ok v ↔
      if ((kinds tokens).headD .eof).isEof then v.1 = [] ∧ current (.padding pos) tokens = .ok v.2
      else ∃ s behind more, Reads (closedStatement (.padding pos) expr) tokens s behind ∧
        statements (.padding pos) expr behind = .ok more ∧ v = (s :: more.1, more.2) := by
  obtain ⟨t, ht, kind⟩ := exists_current pos tokens
  rw [← kind, statements, ht]
  dsimp only
  split
  · rw [Except.ok.injEq, Except.ok.injEq]
    exact ⟨fun h => h ▸ ⟨rfl, rfl⟩, fun h => Prod.ext h.1.symm h.2⟩
  · constructor
    · intro h
      split at h
      · cases h
      next s hs =>
      split at h
      · cases h
      next more last hmore =>
      cases h
      exact ⟨_, _, _, ⟨s, hs, rfl, rfl⟩, hmore, rfl⟩
    · rintro ⟨_, _, more, ⟨s, hs, rfl, rfl⟩, hmore, rfl⟩
      simp only [hs, hmore]

section statements

variable {expr expr' : TokenReader Expr} {front : List Token} {last : Token}
  {body : List Expr × Token}

/-- Statements consist of a first one, closed off by its semicolon, and those behind it. -/
theorem statements_cons (pos' : Nat) (stays : Stays expr expr')
    (some : ((kinds tokens).headD .eof).isEof = false)
    (h : statements (.padding pos) expr tokens = .ok body) :
    ∃ taken semi behind s more, tokens = taken ++ semi :: behind ∧ taken ≠ [] ∧
      semi.kind = .symbol .semicolon ∧
      (∀ {semi' rest'}, semi'.kind = .symbol .semicolon →
        Reads (closedStatement (.padding pos') expr') (taken ++ semi' :: rest') s rest') ∧
      statements (.padding pos) expr behind = .ok more ∧ body = (s :: more.1, more.2) := by
  rw [statements_iff, some] at h
  obtain ⟨s, behind, more, hs, onward, hbody⟩ := h
  obtain ⟨taken, semi, htokens, kind, firm, goes⟩ := closedStatement_stays pos' stays hs
  exact ⟨taken, semi, behind, s, more, htokens, firm.ne_nil, kind, goes, onward, hbody⟩

/-- The token in front of what has no `eof` is none. -/
theorem isEof_headD (opens : ∀ t ∈ front, t.kind.isEof = false) (some : front ≠ []) :
    ((kinds (front ++ rest)).headD .eof).isEof = false := by
  obtain ⟨t, others, rfl⟩ := List.exists_cons_of_ne_nil some
  exact opens t List.mem_cons_self

/-- What stands in front of a last token, split where a semicolon stands: the semicolon is the last
token or among those in front of it. -/
theorem split_before_last {taken behind : List Token} {semi : Token}
    (h : front ++ [last] = taken ++ semi :: behind) :
    (front = taken ∧ last = semi ∧ behind = []) ∨
      ∃ inside, behind = inside ++ [last] ∧ front = taken ++ semi :: inside := by
  rcases List.eq_nil_or_concat behind with rfl | ⟨inside, t, rfl⟩
  · obtain ⟨rfl, same⟩ := List.append_inj' h rfl
    exact .inl ⟨rfl, (List.cons.inj same).1, rfl⟩
  · rw [List.concat_eq_append, ← List.cons_append, ← List.append_assoc] at h
    obtain ⟨rfl, same⟩ := List.append_inj' h rfl
    refine .inr ⟨inside, ?_, rfl⟩
    rw [List.concat_eq_append, (List.cons.inj same).1]

/-- What is left of a front that starts with a statement. -/
theorem opens_of_inside {taken inside : List Token} {semi : Token}
    (opens : ∀ t ∈ taken ++ semi :: inside, t.kind.isEof = false) :
    ∀ t ∈ inside, t.kind.isEof = false :=
  fun t mem => opens t (List.mem_append_right _ (List.mem_cons_of_mem _ mem))

/-- What is left inside is shorter than the whole. -/
theorem length_inside_lt {taken inside : List Token} {semi : Token} :
    inside.length < (taken ++ semi :: inside).length := by
  simp only [List.length_append, List.length_cons]
  omega

/-- Statements behind others: those that each of them make up. -/
theorem statements_append (pos' : Nat) (stays : Stays expr expr')
    (opens : ∀ t ∈ front, t.kind.isEof = false) (eof : last.kind = .eof)
    (h : statements (.padding pos) expr (front ++ [last]) = .ok body) {more : List Expr × Token}
    (h' : statements (.padding pos') expr' rest = .ok more) :
    statements (.padding pos') expr' (front ++ rest) = .ok (body.1 ++ more.1, more.2) := by
  induction hn : front.length using Nat.strongRecOn generalizing front body with
  | _ n ih =>
  subst hn
  by_cases none : front = []
  · subst none
    rw [List.nil_append, statements_iff, if_pos (by simp [kinds, eof, Kind.isEof])] at h
    rw [h.1]
    exact h'
  obtain ⟨taken, semi, behind, s, others, htokens, -, kind, goes, onward, rfl⟩ :=
    statements_cons pos' stays (isEof_headD opens none) h
  rcases split_before_last htokens with ⟨-, same, -⟩ | ⟨inside, rfl, rfl⟩
  · -- the end of the input is no semicolon
    cases kind.symm.trans ((congrArg Token.kind same).symm.trans eof)
  · have all := ih _ length_inside_lt (opens_of_inside opens) onward rfl
    rw [statements_iff, isEof_headD opens none, List.append_assoc, List.cons_append]
    exact ⟨s, inside ++ rest, _, goes kind, all, rfl⟩

/-- The last token of some statements is a semicolon. -/
theorem getLast_of_statements (stays : Stays expr expr)
    (opens : ∀ t ∈ front, t.kind.isEof = false) (eof : last.kind = .eof)
    (h : statements (.padding pos) expr (front ++ [last]) = .ok body) {t : Token}
    (ht : front.getLast? = some t) : t.kind = .symbol .semicolon := by
  induction hn : front.length using Nat.strongRecOn generalizing front body with
  | _ n ih =>
  subst hn
  have some : front ≠ [] := by
    rintro rfl
    cases ht
  obtain ⟨taken, semi, behind, s, others, htokens, -, kind, -, onward, -⟩ :=
    statements_cons pos stays (isEof_headD opens some) h
  rcases split_before_last htokens with ⟨-, same, -⟩ | ⟨inside, rfl, rfl⟩
  · exact absurd (kind.symm.trans ((congrArg Token.kind same).symm.trans eof)) nofun
  · cases inside with
    | nil =>
        rw [List.getLast?_concat] at ht
        exact Option.some.inj ht ▸ kind
    | cons u more =>
        refine ih _ length_inside_lt (opens_of_inside opens) onward ?_ rfl
        rw [List.getLast?_append, List.getLast?_cons_cons] at ht
        rw [← ht, List.getLast?_cons]
        rfl

/-- Statements are the same wherever the semicolon of the last one stands. -/
theorem statements_semicolon (pos' : Nat) (stays : Stays expr expr')
    (opens : ∀ t ∈ front, t.kind.isEof = false) (closes : last.kind = .symbol .semicolon)
    (h : statements (.padding pos) expr (front ++ [last]) = .ok body) {semi : Token}
    (kind : semi.kind = .symbol .semicolon) :
    ∃ eof, statements (.padding pos') expr' (front ++ [semi]) = .ok (body.1, eof) := by
  induction hn : front.length using Nat.strongRecOn generalizing front body with
  | _ n ih =>
  subst hn
  have starts : ∀ {t : Token}, t.kind = .symbol .semicolon →
      ((kinds (front ++ [t])).headD .eof).isEof = false := by
    intro t ht
    cases front with
    | nil => simp [kinds, ht, Kind.isEof]
    | cons u _ => exact opens u List.mem_cons_self
  obtain ⟨taken, semi', behind, s, others, htokens, some, kind', goes, onward, rfl⟩ :=
    statements_cons pos' stays (starts closes) h
  rcases split_before_last htokens with ⟨rfl, -, rfl⟩ | ⟨inside, rfl, rfl⟩
  · have nothing : others.1 = [] := (statements_iff.mp onward).1
    refine ⟨⟨.eof, .empty pos'⟩, statements_iff.mpr ?_⟩
    rw [starts kind]
    exact ⟨s, [], ([], _), goes kind, statements_iff.mpr ⟨rfl, rfl⟩, by rw [nothing]⟩
  · obtain ⟨eof, all⟩ := ih _ length_inside_lt (opens_of_inside opens) onward rfl
    refine ⟨eof, statements_iff.mpr ?_⟩
    rw [starts kind, List.append_assoc, List.cons_append]
    exact ⟨s, inside ++ [semi], _, goes kind', all, rfl⟩

end statements

end Parser

namespace Program

open Token (Kind)

variable {front : List Token} {last : Token} {p : Program}

/-- A list of tokens is a program if its statements are, over the span from first to last token. -/
theorem ofTokens_eq_ok_iff {tokens : List Token} :
    ofTokens tokens = .ok p ↔ ∃ body first,
      Parser.statements (.padding (lastStop tokens))
        (Parser.expression (.padding (lastStop tokens)) nestingLimit 0) tokens = .ok body ∧
      Parser.current (.padding (lastStop tokens)) tokens = .ok first ∧
      p = ⟨body.1, ⟨first.span.start, body.2.span.stop⟩⟩ := by
  obtain ⟨first, hfirst, -⟩ := Parser.exists_current (lastStop tokens) tokens
  rw [ofTokens, Parser.program, hfirst]
  simp only
  constructor
  · intro h
    split at h
    · cases h
    · next body last hbody =>
      cases h
      exact ⟨_, first, hbody, rfl, rfl⟩
  · rintro ⟨body, _, hbody, hfirst, rfl⟩
    cases hfirst
    rw [hbody]

/-- Programs one behind the other make up a program: the statements of the one, and then those of
the other. -/
theorem ofTokens_append (opens : ∀ t ∈ front, t.kind.isEof = false) (eof : last.kind = .eof)
    (hp : ofTokens (front ++ [last]) = .ok p) {rest : List Token} {q : Program} (some : rest ≠ [])
    (hq : ofTokens rest = .ok q) :
    ∃ r, ofTokens (front ++ rest) = .ok r ∧ r.statements = p.statements ++ q.statements := by
  obtain ⟨body, _, hbody, -, rfl⟩ := ofTokens_eq_ok_iff.mp hp
  obtain ⟨more, _, hmore, -, rfl⟩ := ofTokens_eq_ok_iff.mp hq
  have stop : lastStop (front ++ rest) = lastStop rest := by
    obtain ⟨t, ht⟩ := List.getLast?_isSome.mpr some |> Option.isSome_iff_exists.mp
    rw [lastStop, lastStop, List.getLast?_append, ht]
    rfl
  obtain ⟨first, hfirst, -⟩ := Parser.exists_current (lastStop rest) (front ++ rest)
  rw [← stop] at hfirst hmore
  have all := Parser.statements_append _ (Parser.expression_stays _ _ 0) opens eof hbody hmore
  exact ⟨_, ofTokens_eq_ok_iff.mpr ⟨_, first, all, hfirst, rfl⟩, rfl⟩

/-- The last token of a program is a semicolon. -/
theorem getLast_of_ofTokens (opens : ∀ t ∈ front, t.kind.isEof = false) (eof : last.kind = .eof)
    (hp : ofTokens (front ++ [last]) = .ok p) {t : Token} (ht : front.getLast? = some t) :
    t.kind = .symbol .semicolon := by
  obtain ⟨body, _, hbody, -, rfl⟩ := ofTokens_eq_ok_iff.mp hp
  exact Parser.getLast_of_statements (Parser.expression_stays _ _ 0) opens eof hbody ht

/-- The statements of a program are the same wherever its last semicolon stands. -/
theorem ofTokens_semicolon (opens : ∀ t ∈ front, t.kind.isEof = false)
    (closes : last.kind = .symbol .semicolon) (hp : ofTokens (front ++ [last]) = .ok p)
    {semi : Token} (kind : semi.kind = .symbol .semicolon) :
    ∃ q, ofTokens (front ++ [semi]) = .ok q ∧ q.statements = p.statements := by
  obtain ⟨body, _, hbody, -, rfl⟩ := ofTokens_eq_ok_iff.mp hp
  obtain ⟨eof, all⟩ := Parser.statements_semicolon (lastStop (front ++ [semi]))
    (Parser.expression_stays _ _ 0) opens closes hbody kind
  obtain ⟨first, hfirst, -⟩ := Parser.exists_current (lastStop (front ++ [semi])) (front ++ [semi])
  exact ⟨_, ofTokens_eq_ok_iff.mpr ⟨_, first, all, hfirst, rfl⟩, rfl⟩

end Program

end ScriptConsole
