import ScriptConsole.Proofs.Lexing.Tiling
import ScriptConsole.Proofs.Syntax.Nodes

/-!
# Exact Spans

A reader of the grammar takes the tokens that spell what it reads, so that every node of the tree
has the span from the start of its first token to the end of its last one, whichever way the span
is put together: from the spans of the parts, from a token that was kept, or from the last token
read. Since the tokens of a source stand in order and between characters, so do the nodes.

## Main results

* `Parser.expression_exact`: expressions, by induction on the levels.
* `Program.spans_exact`: the spans of an accepted program.
-/

namespace ScriptConsole

namespace Parser

open Token (Kind)

variable {α : Type} {tokens rest : List Token} {pos : Nat}

/-- Whether a reader takes the tokens that spell what it reads. -/
def Exact (node : α → Node) (reader : TokenReader α) : Prop :=
  ∀ ⦃tokens rest : List Token⦄ ⦃a : α⦄, InOrder tokens → Reads reader tokens a rest →
    ∃ own, tokens = own ++ rest ∧ Spelled own (node a)

/-! ### Names and lists of items -/

/-- A name spans its token. -/
theorem ident_exact : Exact .name (ident (.padding pos)) := by
  intro tokens rest name _ h
  obtain ⟨t, rfl, kind, span⟩ := (reads_ident pos).mp h
  exact ⟨[t], rfl, .of_name kind span⟩

section items

variable {item : TokenReader α} {node : α → Node}

/-- A comma stands between the first node and the others. -/
theorem listed_cons {one : Node} {more : List Node} (some : more ≠ []) :
    listed (one :: more) = .node one :: .symbol .comma :: listed more := by
  cases more with
  | nil => exact absurd rfl some
  | cons two rest => rfl

/-- Items are spelled by the tokens in front of the parenthesis, by induction on those. -/
theorem itemsFrom_exact (exact : Exact node item) {v : List α × Token} (ordered : InOrder tokens)
    (h : Reads (itemsFrom (.padding pos) item) tokens v rest) :
    v.1 ≠ [] ∧ v.2.kind = .symbol .rightParen ∧
      ∃ own, tokens = own ++ v.2 :: rest ∧ Spells own (listed (v.1.map node)) := by
  induction hn : tokens.length using Nat.strongRecOn generalizing tokens v with
  | _ n ih =>
  subst hn
  obtain ⟨a, behind, first, onward⟩ := (reads_itemsFrom pos).mp h
  have shorter := first.length_lt
  obtain ⟨run, rfl, spelled⟩ := exact ordered first
  split at onward
  · obtain ⟨comma, inside, more, sign, others, rfl⟩ := onward
    obtain ⟨rfl, kind⟩ := (reads_symbol pos).mp sign
    obtain ⟨some, closes, own, rfl, spells⟩ :=
      ih _ (Nat.lt_trans sign.length_lt shorter) ordered.right.tail others rfl
    refine ⟨List.cons_ne_nil _ _, closes, run ++ comma :: own, by simp, ?_⟩
    rw [List.map_cons, listed_cons (by simpa using some)]
    refine .node spelled.parts spelled.covers ?_
    exact (Spells.one kind).append spells
  · obtain ⟨close, closes, rfl⟩ := onward
    obtain ⟨rfl, kind⟩ := (reads_symbol pos).mp closes
    exact ⟨List.cons_ne_nil _ _, kind, run, rfl, .of_node spelled⟩

/-- So is a list of items. -/
theorem items_exact (exact : Exact node item) {v : List α × Token} (ordered : InOrder tokens)
    (h : Reads (items (.padding pos) item) tokens v rest) :
    v.2.kind = .symbol .rightParen ∧
      ∃ own, tokens = own ++ v.2 :: rest ∧ Spells own (listed (v.1.map node)) := by
  rw [reads_items] at h
  split at h
  · obtain ⟨close, closes, rfl⟩ := h
    obtain ⟨rfl, kind⟩ := (reads_symbol pos).mp closes
    exact ⟨kind, [], rfl, .nil⟩
  · exact (itemsFrom_exact exact ordered h).2

end items

/-! ### Host paths -/

/-- The segments of a path are covered from the dot in front of the first to the end of the last.
-/
theorem segments_exact {one : Ident} {names : List Ident}
    (h : Segments tokens (one :: names) rest) (default : Nat) :
    ∃ dot more, tokens = dot :: (more ++ rest) ∧ Spells (dot :: more) (dotted (one :: names)) ∧
      Covers ⟨dot.span.start, lastStop default (one :: names)⟩ (dot :: more) := by
  induction names generalizing tokens one with
  | nil =>
      obtain ⟨dot, t, behind, rfl, hdot, hname, span, rfl, -⟩ := h
      have named := Spelled.of_name hname span
      refine ⟨dot, [t], rfl, (Spells.one hdot).append (.of_node named), ?_⟩
      exact (Covers.single dot).hull (m := []) named.covers
  | cons two names ih =>
      obtain ⟨dot, t, behind, rfl, hdot, hname, span, others⟩ := h
      have named := Spelled.of_name hname span
      obtain ⟨dot', more, rfl, spells, covers⟩ := ih others
      refine ⟨dot, t :: dot' :: more, rfl, ?_, ?_⟩
      · exact (Spells.one hdot).append (.node named.parts named.covers spells)
      · exact (Covers.single dot).hull (m := [t]) covers

/-- A path spans its tokens. -/
theorem hostPath_exact : Exact .expr (hostPath (.padding pos)) := by
  intro tokens rest v _ h
  obtain ⟨dot, behind, one, inside, names, hdot, hone, segments, rfl⟩ := (reads_hostPath pos).mp h
  obtain ⟨rfl, kind⟩ := (reads_symbol pos).mp hdot
  obtain ⟨t, rfl, named, span⟩ := (reads_ident pos).mp hone
  have all : Segments (dot :: t :: inside) (one :: names) rest :=
    ⟨dot, t, inside, rfl, kind, named, span, segments⟩
  obtain ⟨_, more, htokens, spells, covers⟩ := segments_exact all dot.span.start
  obtain ⟨rfl, hmore⟩ := List.cons.inj htokens
  exact ⟨dot :: more, by rw [hmore]; rfl, spells, covers⟩

/-! ### Statements and function literals -/

/-- A statement with its semicolon, in front of others. -/
theorem spells_closedOff_cons {own more : List Token} {semi : Token} {s : Expr}
    {others : List Expr} (kind : semi.kind = .symbol .semicolon) (spelled : Spelled own (.expr s))
    (spells : Spells more (closedOff others)) :
    Spells (own ++ semi :: more) (closedOff (s :: others)) :=
  .node spelled.parts spelled.covers ((Spells.one kind).append spells)

section expression

variable {expression : TokenReader Expr} (exact : Exact .expr expression)

include exact

/-- A statement spans its tokens. -/
theorem statement_exact : Exact .expr (statement (.padding pos) expression) := by
  intro tokens rest v ordered h
  rw [reads_statement] at h
  split at h
  · obtain ⟨name, behind, sign, inside, value, named, assigned, valued, rfl⟩ := h
    obtain ⟨run, rfl, hname⟩ := ident_exact ordered named
    obtain ⟨rfl, kind⟩ := (reads_symbol pos).mp assigned
    obtain ⟨run', rfl, hvalue⟩ := exact ordered.right.tail valued
    refine ⟨run ++ ([sign] ++ run'), by simp, ?_, hname.covers.join hvalue.covers ordered.linked⟩
    exact (Spells.of_node hname).append ((Spells.one kind).append (.of_node hvalue))
  · exact exact ordered h

/-- A statement spans its tokens in front of the semicolon. -/
theorem closedStatement_exact {v : Expr} (ordered : InOrder tokens)
    (h : Reads (closedStatement (.padding pos) expression) tokens v rest) :
    ∃ own semi, tokens = own ++ semi :: rest ∧ semi.kind = .symbol .semicolon ∧
      Spelled own (.expr v) := by
  obtain ⟨behind, semi, s, closes⟩ := (reads_closedStatement pos).mp h
  obtain ⟨rfl, kind⟩ := (reads_symbol pos).mp closes
  obtain ⟨own, rfl, spelled⟩ := statement_exact exact ordered s
  exact ⟨own, semi, rfl, kind, spelled⟩

/-- A block spells its statements, by induction on the tokens. -/
theorem block_exact {v : List Expr × Token} (ordered : InOrder tokens)
    (h : Reads (block (.padding pos) expression) tokens v rest) :
    v.2.kind = .symbol .rightBrace ∧
      ∃ own, tokens = own ++ v.2 :: rest ∧ Spells own (closedOff v.1) := by
  induction hn : tokens.length using Nat.strongRecOn generalizing tokens v with
  | _ n ih =>
  subst hn
  rw [reads_block] at h
  split at h
  · obtain ⟨close, closes, rfl⟩ := h
    obtain ⟨rfl, kind⟩ := (reads_symbol pos).mp closes
    exact ⟨kind, [], rfl, .nil⟩
  · obtain ⟨s, behind, more, first, others, rfl⟩ := h
    have shorter := first.length_lt
    obtain ⟨run, semi, rfl, kind, spelled⟩ := closedStatement_exact exact ordered first
    obtain ⟨closes, own, rfl, spells⟩ := ih _ shorter ordered.right.tail others rfl
    exact ⟨closes, run ++ semi :: own, by simp, spells_closedOff_cons kind spelled spells⟩

/-- A function spans its tokens. -/
theorem function_exact : Exact .expr (function (.padding pos) expression) := by
  intro tokens rest v ordered h
  obtain ⟨start, behind, params, a, brace, inside, body, starts, taken, opens, reads, rfl⟩ :=
    (reads_function pos).mp h
  obtain ⟨rfl, hstart⟩ := (reads_symbol pos).mp starts
  have inParens : InOrder behind := ordered.tail
  obtain ⟨hclose, run, rfl, names⟩ := items_exact ident_exact inParens taken
  obtain ⟨rfl, hbrace⟩ := (reads_symbol pos).mp opens
  have inBraces : InOrder inside := inParens.right.tail.tail
  obtain ⟨hend, run', rfl, statements⟩ := block_exact exact inBraces reads
  refine ⟨start :: (run ++ params.2 :: brace :: run' ++ [body.2]), by simp, ?_, .between _ _ _⟩
  have spells := (Spells.one hstart).append (names.append ((Spells.one hclose).append
    ((Spells.one hbrace).append (statements.append (Spells.one hend)))))
  simpa [Node.parts, Part.symbol] using spells

/-- So does an expression in parentheses. -/
theorem parenthesised_exact : Exact .expr (parenthesised (.padding pos) expression) := by
  intro tokens rest v ordered h
  obtain ⟨start, behind, inner, a, close, starts, reads, closes, rfl⟩ :=
    (reads_parenthesised pos).mp h
  obtain ⟨rfl, hstart⟩ := (reads_symbol pos).mp starts
  obtain ⟨run, rfl, spelled⟩ := exact ordered.tail reads
  obtain ⟨rfl, hclose⟩ := (reads_symbol pos).mp closes
  refine ⟨start :: (run ++ [close]), by simp, ?_, .between _ _ _⟩
  exact (Spells.one hstart).append ((Spells.of_node spelled).append (Spells.one hclose))

end expression

/-! ### Expressions -/

section levels

variable {expression : Nat → TokenReader Expr} (exact : ∀ least, Exact .expr (expression least))

include exact

/-- A primary spans its tokens. -/
theorem primary_exact : Exact .expr (primary (.padding pos) expression) := by
  intro tokens rest v ordered h
  obtain ⟨t, behind, rfl, parts⟩ := (reads_primary pos).mp h
  cases hk : t.kind with
  | literal c =>
      simp only [hk] at parts
      obtain ⟨rfl, rfl⟩ := parts
      exact ⟨[t], rfl, Spells.one hk, .single t⟩
  | name text =>
      simp only [hk] at parts
      obtain ⟨rfl, rfl⟩ := parts
      have named : Spelled [t] (.name ⟨text, t.span⟩) := .of_name hk rfl
      exact ⟨[t], rfl, .of_node named, .single t⟩
  | eof =>
      simp only [hk] at parts
  | symbol s =>
      simp only [hk] at parts
      split at parts
      · next op hop =>
        obtain ⟨operand, reads, rfl⟩ := parts
        obtain ⟨run, rfl, spelled⟩ := exact tightest ordered.tail reads
        have own : InOrder ([t] ++ ([] ++ run)) := @InOrder.left (t :: run) rest ordered
        refine ⟨t :: run, rfl, ?_, (Covers.single t).join spelled.covers own⟩
        rw [unaryOp?_eq_some_iff.mp hop] at hk
        exact (Spells.one hk).append (.of_node spelled)
      split at parts
      · exact hostPath_exact ordered parts
      split at parts
      · split at parts
        · exact function_exact (exact 0) ordered parts
        · exact parenthesised_exact (exact 0) ordered parts
      · exact parts.elim

variable {origin : List Token} {left : Reading origin Expr}

/-- With one more link, the tokens of an expression are still all that was taken. -/
theorem extend_exact {link : Link} {least : Nat}
    (starts : link? least ((kinds left.rest).headD .eof) = some link) (ordered : InOrder origin)
    {longer : Reading origin Expr} (h : extend (.padding pos) expression link left = .ok longer)
    (read : ∃ own, origin = own ++ left.rest ∧ Spelled own (.expr left.value)) :
    ∃ own, origin = own ++ longer.rest ∧ Spelled own (.expr longer.value) := by
  obtain ⟨run, horigin, spelled⟩ := read
  obtain ⟨t, behind, hrest, parts⟩ := (extend_iff pos).mp ⟨longer, h, rfl, rfl⟩
  rw [hrest] at horigin starts
  -- all tokens of the link stand behind those of the left side, so the spans join
  rw [horigin] at ordered
  cases link with
  | call =>
      obtain ⟨args, reads, hvalue⟩ := parts
      obtain ⟨hclose, own, rfl, spells⟩ := items_exact (exact 0) ordered.right.tail reads
      have hopen := link?_eq_some_call_iff.mp starts
      refine ⟨run ++ (t :: own ++ [args.2]), by simp [horigin], ?_⟩
      rw [hvalue]
      refine ⟨?_, spelled.covers.hull (Covers.single args.2)⟩
      exact (Spells.of_node spelled).append ((Spells.one hopen).append
        (spells.append (Spells.one hclose)))
  | member =>
      obtain ⟨name, reads, hvalue⟩ := parts
      obtain ⟨own, rfl, named⟩ := ident_exact ordered.right.tail reads
      have hdot := link?_eq_some_member_iff.mp starts
      refine ⟨run ++ ([t] ++ own), by simp [horigin], ?_⟩
      rw [hvalue]
      refine ⟨?_, spelled.covers.join named.covers ordered.linked⟩
      exact (Spells.of_node spelled).append ((Spells.one hdot).append (.of_node named))
  | operator op =>
      obtain ⟨right, reads, hvalue⟩ := parts
      obtain ⟨own, rfl, spelled'⟩ := exact (op.precedence + 1) ordered.right.tail reads
      have hop := (link?_eq_some_operator_iff.mp starts).1
      refine ⟨run ++ ([t] ++ own), by simp [horigin], ?_⟩
      rw [hvalue]
      refine ⟨?_, spelled.covers.join spelled'.covers ordered.linked⟩
      exact (Spells.of_node spelled).append ((Spells.one hop).append (.of_node spelled'))

end levels

mutual

/-- Expressions have exact spans. -/
theorem expression_exact : (levels least : Nat) →
    Exact .expr (expression (.padding pos) levels least)
  | 0, _ => by
      rintro tokens rest v - ⟨r, h, -, -⟩
      exact absurd h (by rw [expression]; exact refuseDepth_ne_ok)
  | levels + 1, least => by
      rintro tokens rest v ordered ⟨r, h, rfl, rfl⟩
      rw [expression] at h
      split at h
      · cases h
      next left hleft =>
      exact links_exact levels ordered h
        (primary_exact (expression_exact levels) ordered ⟨left, hleft, rfl, rfl⟩)

/-- So have expressions with their links. -/
theorem links_exact : (levels : Nat) → {least : Nat} → {origin : List Token} →
    {left r : Reading origin Expr} → InOrder origin →
    links (.padding pos) levels least left = .ok r →
    (∃ own, origin = own ++ left.rest ∧ Spelled own (.expr left.value)) →
    ∃ own, origin = own ++ r.rest ∧ Spelled own (.expr r.value)
  | levels, least, origin, left, r, ordered, h, read => by
      have step := links_iff.mp h
      cases hlink : link? least ((kinds left.rest).headD .eof) with
      | none =>
          rw [hlink] at step
          obtain rfl : r = left := step
          exact read
      | some link =>
          rw [hlink] at step
          obtain ⟨fewer, rfl, longer, hlonger, hr⟩ := step
          exact links_exact fewer ordered hr
            (extend_exact (expression_exact fewer) hlink ordered hlonger read)

end

/-- Statements up to the end of the input. -/
theorem statements_exact {expression : TokenReader Expr} (exact : Exact .expr expression)
    {v : List Expr × Token} (ordered : InOrder tokens)
    (h : statements (.padding pos) expression tokens = .ok v) :
    ∃ own last, tokens = own ++ last ∧ Spells own (closedOff v.1) ∧
      current (.padding pos) last = .ok v.2 := by
  induction hn : tokens.length using Nat.strongRecOn generalizing tokens v with
  | _ n ih =>
  subst hn
  have step := statements_iff.mp h
  split at step
  · obtain ⟨none, last⟩ := step
    refine ⟨[], tokens, rfl, ?_, last⟩
    rw [none]
    exact .nil
  · obtain ⟨s, behind, more, first, others, rfl⟩ := step
    have shorter := first.length_lt
    obtain ⟨run, semi, rfl, kind, spelled⟩ := closedStatement_exact exact ordered first
    obtain ⟨own, last, rfl, spells, ended⟩ := ih _ shorter ordered.right.tail others rfl
    exact ⟨run ++ semi :: own, last, by simp, spells_closedOff_cons kind spelled spells, ended⟩

end Parser

/-! ### Programs -/

/-- The nodes of a program. -/
def Program.Has (p : Program) (n : Node) : Prop := Node.Below (p.statements.map .expr) n

/-- What is promised of the spans of a program and the tokens in front of the end of its source:
the tokens spell the statements, where every node has the span of its own run of tokens. So the
nodes are not empty and end between characters, the nodes inside a node lie inside its span, one
behind the other, and so do the statements. The program goes from its first token to the end of the
source. -/
structure Program.SpansExact (source : String) (front : List Token) (p : Program) : Prop where
  spelled : Spells front (closedOff p.statements)
  runs : ∀ n, p.Has n → ∃ before own behind, front = before ++ own ++ behind ∧
    kinds own = n.written ∧ Covers n.span own
  solid : ∀ n, p.Has n → n.span.start < n.span.stop ∧ ∃ text, Slice source n.span text
  inside : ∀ n, p.Has n → ∀ m ∈ n.children,
    n.span.start ≤ m.span.start ∧ m.span.stop ≤ n.span.stop
  apart : ∀ n, p.Has n → n.children.Pairwise fun m m' => m.span.stop ≤ m'.span.start
  statements : p.statements.Pairwise fun d e => d.span.stop ≤ e.span.start
  whole : ∃ first, (front ++ [Token.mk .eof (.empty source.utf8ByteSize)]).head? = some first ∧
    p.span = ⟨first.span.start, source.utf8ByteSize⟩

/-- The nodes of a block are its statements. -/
theorem filterMap_node?_closedOff (body : List Expr) :
    (closedOff body).filterMap Part.node? = body.map .expr := by
  induction body with
  | nil => rfl
  | cons e rest ih =>
      rw [List.map_cons, ← ih]
      rfl

namespace Program

variable {source : String} {p : Program} {front : List Token}

/-- The tokens of a source without a flaw stand in order. -/
theorem inOrder_of_tiling {tokens : List Token} (tiling : Tiling source tokens) :
    InOrder tokens := by
  refine ⟨tiling.apart, fun t mem => ?_⟩
  obtain ⟨front, rfl, tiles⟩ := tiling.tiles
  rcases List.mem_append.mp mem with inside | last
  · exact Nat.le_of_lt (tiles t inside).solid
  · rw [List.mem_singleton.mp last]
    exact Nat.le_refl _

/-- An accepted program takes the tokens in front of the end of its source. -/
theorem spells_of_ofTokens (opens : ∀ t ∈ front, t.kind.isEof = false) {last : Token}
    (eof : last.kind = .eof) (ordered : InOrder (front ++ [last]))
    (h : ofTokens (front ++ [last]) = .ok p) :
    Spells front (closedOff p.statements) ∧
      ∃ first, (front ++ [last]).head? = some first ∧
        p.span = ⟨first.span.start, last.span.stop⟩ := by
  have sound := (ofTokens_sound h).1
  obtain ⟨body, first, hbody, hfirst, rfl⟩ := ofTokens_eq_ok_iff.mp h
  obtain ⟨own, behind, htokens, spells, ended⟩ :=
    Parser.statements_exact (Parser.expression_exact nestingLimit 0) ordered hbody
  have more : ∀ k ∈ kinds front, k.isMore = true := by
    intro k mem
    obtain ⟨t, ht, rfl⟩ := List.mem_map.mp mem
    rw [Token.Kind.isMore, opens t ht]
    rfl
  have taken : kinds own = kinds front := by
    have all : kinds own = (kinds (front ++ [last])).takeWhile Token.Kind.isMore :=
      (spells.kinds_eq.trans (written_closedOff body.1)).trans sound
    rw [all, kinds, List.map_append, List.takeWhile_append_of_pos more]
    simp [eof, Token.Kind.isMore, Token.Kind.isEof]
  have long : front.length = own.length := by
    have := congrArg List.length taken
    simpa using this.symm
  obtain ⟨rfl, rfl⟩ := List.append_inj htokens long
  obtain rfl : last = body.2 := Except.ok.inj ended
  refine ⟨spells, first, ?_, rfl⟩
  cases front with
  | nil => exact congrArg some (Except.ok.inj hfirst)
  | cons t rest => exact congrArg some (Except.ok.inj hfirst)

/-- A run of tokens of a source goes from one character to another, further back. -/
theorem solid_of_covers {own : List Token} {s : Span} (ordered : InOrder own)
    (tiles : ∀ t ∈ own, Tile source t) (covers : Covers s own) :
    s.start < s.stop ∧ ∃ text, Slice source s text := by
  obtain ⟨first, last, hfirst, hlast, rfl⟩ := id covers
  have around := covers.around ordered (List.mem_of_head? hfirst)
  have tile := tiles first (List.mem_of_head? hfirst)
  obtain ⟨text, slice, -⟩ := tile.alone
  obtain ⟨text', slice', -⟩ := (tiles last (List.mem_of_getLast? hlast)).alone
  have onward : first.span.start < last.span.stop := Nat.lt_of_lt_of_le tile.solid around.2
  exact ⟨onward, slice.hull slice' (Nat.le_of_lt onward)⟩

/-- **Exact spans.** In a program that is accepted, every node has the span from the start of the
first of its tokens to the end of the last. -/
theorem spans_exact (h : ofSource source = .ok p) :
    ∃ front, tokens? source = .ok (front ++ [⟨.eof, .empty source.utf8ByteSize⟩]) ∧
      p.SpansExact source front := by
  obtain ⟨tokens, htokens, hp⟩ := exists_tokens h
  obtain ⟨-, parts, opens⟩ := exists_of_tokens? htokens
  have tiling := tiling_of_tokens? htokens
  have ordered := inOrder_of_tiling tiling
  obtain ⟨front', hfront', tiles⟩ := tiling.tiles
  generalize ownTokens tokens = front at parts opens
  subst parts
  obtain rfl := List.append_cancel_right hfront'
  obtain ⟨spells, whole⟩ := spells_of_ofTokens opens rfl ordered hp
  have roots := filterMap_node?_closedOff p.statements
  have run : ∀ n, p.Has n → ∃ before own behind, front = before ++ own ++ behind ∧
      Spelled own n := fun n has => spells.of_below (by rwa [roots])
  have orderly : ∀ {before own behind}, front = before ++ own ++ behind → InOrder own := by
    rintro before own behind rfl
    exact ordered.left.left.right
  refine ⟨front, htokens, spells, fun n has => ?_, fun n has => ?_, fun n has m mem => ?_,
    fun n has => ?_, ?_, whole⟩
  · obtain ⟨before, own, behind, hfront, spelled⟩ := run n has
    exact ⟨before, own, behind, hfront, spelled.parts.kinds_eq.trans n.written_parts,
      spelled.covers⟩
  · obtain ⟨before, own, behind, hfront, spelled⟩ := run n has
    refine solid_of_covers (orderly hfront) (fun t mem => tiles t ?_) spelled.covers
    rw [hfront]
    exact List.mem_append_left _ (List.mem_append_right _ mem)
  · obtain ⟨before, own, behind, hfront, spelled⟩ := run n has
    exact spelled.inside (orderly hfront) mem
  · obtain ⟨before, own, behind, hfront, spelled⟩ := run n has
    exact spelled.parts.apart (orderly hfront)
  · have row := spells.apart ordered.left
    rw [roots] at row
    exact List.pairwise_map.mp row

/-- A function literal with a path in it, and an operator before a chain of links. -/
theorem spans_exact_function :
    ∃ p front, ofSource "f = (a) { .x.y(a); }; -f(1).z;" = .ok p ∧ p.statements.length = 2 ∧
      p.SpansExact "f = (a) { .x.y(a); }; -f(1).z;" front := by
  have two : (ofSource "f = (a) { .x.y(a); }; -f(1).z;").toOption.map (·.statements.length) =
      some 2 := by decide +kernel
  cases h : ofSource "f = (a) { .x.y(a); }; -f(1).z;" with
  | error e =>
      rw [h] at two
      cases two
  | ok p =>
      rw [h] at two
      obtain ⟨front, -, exact⟩ := spans_exact h
      exact ⟨p, front, rfl, Option.some.inj two, exact⟩

end Program

end ScriptConsole
