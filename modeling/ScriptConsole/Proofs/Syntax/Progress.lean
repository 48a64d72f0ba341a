import ScriptConsole.Proofs.Syntax.FrontEnds

/-!
# Progress of the Parser

A feed never ends: behind the tokens of its supply stands one `eof` after the other. That the parser
ends all the same is because it takes tokens, and never an `eof`.

`Drawing.Takes` is the ledger of a reader: the tokens that it takes until it ends or fails. A reader
advances (`Drawing.Advances`) if these are tokens that stood in front, none of them an `eof`, and at
least so many of them as its result calls for. Where it fails, the token that it blames is the one
behind those that it has taken, so that the ledger of a failure can be told from its error. Readers
that follow one another advance, and what the first has taken counts for both.

A round of a loop has to take a token only if the loop is to go on behind it. The guard of
`Drawing.many`, which ends a loop whose round has taken nothing, is therefore never used.

## Main results

* `Drawing.Advances.bind`: one reader after another.
* `Drawing.many_eq`, `Drawing.advances_many`: loops.
* `Drawing.advances_expression`: expressions, by induction on the levels.
* `Drawing.parser_progresses`: what that comes to for lists of tokens.
-/

namespace ScriptConsole

namespace Drawing

variable {σ α β : Type} [Supply σ]

/-! ### Ledgers -/

/-- The tokens that a reader takes from a feed until it ends or fails. -/
inductive Takes : {α : Type} → Drawing σ α → Feed σ → List Token →
    Except SourceError (α × Feed σ) → Prop
  | pure {α : Type} (a : α) (feed : Feed σ) : Takes (pure a) feed [] (.ok (a, feed))
  | throw {α : Type} (e : SourceError) (feed : Feed σ) :
      Takes (throw e : Drawing σ α) feed [] (.error e)
  | ahead {n : Nat} {feed : Feed σ} {outcome : Except SourceError (Token × Feed σ)} :
      ahead n feed = outcome → Takes (ahead n) feed [] outcome
  | take {feed rest : Feed σ} {t : Token} : take feed = .ok (t, rest) →
      Takes take feed [t] (.ok (t, rest))
  | take_error {feed : Feed σ} {e : SourceError} : take feed = .error e →
      Takes take feed [] (.error e)
  | bind {α β : Type} {x : Drawing σ α} {f : α → Drawing σ β} {feed mid : Feed σ} {a : α}
      {ts us : List Token} {outcome : Except SourceError (β × Feed σ)} :
      Takes x feed ts (.ok (a, mid)) → Takes (f a) mid us outcome →
      Takes (x >>= f) feed (ts ++ us) outcome
  | bind_error {α β : Type} {x : Drawing σ α} {f : α → Drawing σ β} {feed : Feed σ}
      {ts : List Token} {e : SourceError} : Takes x feed ts (.error e) →
      Takes (x >>= f) feed ts (.error e)

/-- Whether an error blames the token that stands `k` tokens behind the one in front, or a flaw
there or behind it. -/
inductive Blames (feed : Feed σ) : SourceError → (k : Nat) → Prop
  | unexpected {k : Nat} {t : Token} (wanted : Wanted) : feed.nth k = .ok t →
      Blames feed (.parse (.unexpected wanted t)) k
  | tooDeep {k : Nat} {t : Token} : feed.nth k = .ok t → Blames feed (.parse (.tooDeep t.span)) k
  | flaw {k n : Nat} {e : LexError} : feed.nth (k + n) = .error e → Blames feed (.lex e) k

/-- What is blamed behind some tokens stands so much further behind the whole. -/
theorem Blames.behind {feed mid : Feed σ} {e : SourceError} {j k : Nat} (blames : Blames mid e j)
    (left : ∀ n, mid.nth n = feed.nth (k + n)) : Blames feed e (k + j) := by
  cases blames with
  | unexpected wanted h => exact .unexpected wanted (left _ ▸ h)
  | tooDeep h => exact .tooDeep (left _ ▸ h)
  | flaw h => exact .flaw (by rw [Nat.add_assoc, ← left]; exact h)

/-- Whether `rest` is a feed from which `n` tokens have been taken. -/
structure Left (feed rest : Feed σ) (n : Nat) : Prop where
  nth : ∀ i, rest.nth i = feed.nth (n + i)
  size : rest.size + n ≤ feed.size

/-- Tokens taken one after the other. -/
theorem Left.trans {feed mid rest : Feed σ} {m n : Nat} (h : Left feed mid m)
    (h' : Left mid rest n) : Left feed rest (m + n) where
  nth i := by rw [h'.nth, h.nth, Nat.add_assoc]
  size := by
    have := h.size
    have := h'.size
    omega

/-- What an outcome has to be behind so many tokens: enough for the result, which leaves the others,
or blame for the one behind them. -/
def Follows (least : α → Nat) (feed : Feed σ) (n : Nat) : Except SourceError (α × Feed σ) → Prop
  | .ok (a, rest) => least a ≤ n ∧ Left feed rest n
  | .error e => Blames feed e n

/-- Whether some tokens stand in front, and none of them is an `eof`. -/
def Opens (feed : Feed σ) (ts : List Token) : Prop :=
  ∀ {i : Nat} {t : Token}, ts[i]? = some t → feed.nth i = .ok t ∧ t.kind.isEof = false

/-- Whether a reader takes tokens that stand in front without an `eof`, as many as its outcome calls
for. -/
def Advances (least : α → Nat) (x : Drawing σ α) (feed : Feed σ) : Prop :=
  ∃ ts, Takes x feed ts (x feed) ∧ Opens feed ts ∧ Follows least feed ts.length (x feed)

/-- Tokens in front, and those behind them. -/
theorem Opens.append {feed mid : Feed σ} {ts us : List Token} (opens : Opens feed ts)
    (left : Left feed mid ts.length) (more : Opens mid us) : Opens feed (ts ++ us) := by
  intro i t ht
  rw [List.getElem?_append] at ht
  split at ht
  · exact opens ht
  · obtain ⟨shown, some⟩ := more ht
    rw [left.nth, Nat.add_sub_cancel' (by omega)] at shown
    exact ⟨shown, some⟩

namespace Advances

variable {feed : Feed σ} {t : Token}

/-- A reader advances if its tokens stand in front and its outcome follows them. -/
theorem of_eq {least : α → Nat} {x : Drawing σ α} {ts : List Token}
    {outcome : Except SourceError (α × Feed σ)} (h : x feed = outcome)
    (takes : Takes x feed ts outcome) (opens : Opens feed ts)
    (follows : Follows least feed ts.length outcome) : Advances least x feed := by
  subst h
  exact ⟨ts, takes, opens, follows⟩

/-- A result that takes nothing needs no token. -/
theorem pure {least : α → Nat} {a : α} (h : least a = 0) :
    Advances least (pure a : Drawing σ α) feed :=
  ⟨[], .pure a feed, nofun, Nat.le_of_eq h, fun i => by rw [List.length_nil, Nat.zero_add],
    Nat.le_refl _⟩

/-- A reader that fails at once blames what stands in front. -/
theorem throw (least : α → Nat) {e : SourceError} (blames : Blames feed e 0) :
    Advances least (throw e : Drawing σ α) feed :=
  ⟨[], .throw e feed, nofun, blames⟩

/-- One reader after another. What the first takes counts for both. -/
theorem bind {first : α → Nat} {least : β → Nat} {x : Drawing σ α} {f : α → Drawing σ β}
    (hx : Advances first x feed)
    (next : ∀ a mid, x feed = .ok (a, mid) → mid.size + first a ≤ feed.size →
      Advances (fun b => least b - first a) (f a) mid) :
    Advances least (x >>= f) feed := by
  obtain ⟨ts, takes, opens, follows⟩ := hx
  cases h : x feed with
  | error e =>
      rw [h] at takes follows
      exact of_eq (bind_error h) (.bind_error takes) opens follows
  | ok p =>
      obtain ⟨a, mid⟩ := p
      rw [h] at takes follows
      obtain ⟨enough, left⟩ := follows
      have shorter := left.size
      obtain ⟨us, takes', opens', follows'⟩ := next a mid h (by omega)
      refine of_eq (bind_ok h) (.bind takes takes') (opens.append left opens') ?_
      rw [List.length_append]
      cases h' : f a mid with
      | error e =>
          rw [h'] at follows'
          exact follows'.behind left.nth
      | ok q =>
          rw [h'] at follows'
          have more : least q.1 - first a ≤ us.length := follows'.1
          exact ⟨by omega, left.trans follows'.2⟩

/-- After a look at a token. -/
theorem ahead_bind {least : α → Nat} {k : Token → Drawing σ α} (n : Nat)
    (next : ∀ t mid, mid.nth n = .ok t → Advances least (k t) mid) :
    Advances least (ahead n >>= k) feed := by
  cases h : feed.nth n with
  | error e =>
      have failed : (ahead n : Drawing σ Token) feed = .error (.lex e) := by
        show (feed.peek n).mapError _ = _
        rw [Feed.peek_of_nth_error h]
        rfl
      refine of_eq (bind_error failed) (.bind_error (.ahead failed)) nofun ?_
      exact .flaw (n := n) (by rwa [List.length_nil, Nat.zero_add])
  | ok t =>
      obtain ⟨mid, hpeek, same, size, -⟩ := Feed.peek_of_nth h
      have looked : (ahead n : Drawing σ Token) feed = .ok (t, mid) := by
        show (feed.peek n).mapError _ = _
        rw [hpeek]
        rfl
      have seen : Advances (fun _ => 0) (ahead n) feed :=
        of_eq looked (.ahead looked) nofun
          ⟨Nat.le_refl 0, fun i => by rw [List.length_nil, Nat.zero_add, same], size⟩
      refine seen.bind fun u rest hu _ => ?_
      cases looked.symm.trans hu
      exact next t mid (same ▸ h)

/-- After a look at the token in front. -/
theorem current_bind {least : α → Nat} {k : Token → Drawing σ α}
    (next : ∀ t mid, mid.nth 0 = .ok t → Advances least (k t) mid) :
    Advances least (current >>= k) feed :=
  ahead_bind 0 next

/-- The token in front is taken. -/
theorem take_front (h : feed.nth 0 = .ok t) (more : t.kind.isEof = false) :
    Advances (fun _ => 1) (take : Drawing σ Token) feed := by
  obtain ⟨rest, htake, behind, shorter⟩ := Feed.take_of_nth h
  have taken : (take : Drawing σ Token) feed = .ok (t, rest) := by
    show feed.take.mapError _ = _
    rw [htake]
    rfl
  refine of_eq taken (.take taken) ?_ ⟨Nat.le_refl 1, fun i => ?_, shorter more⟩
  · intro i u hu
    cases i with
    | zero =>
        cases hu
        exact ⟨h, more⟩
    | succ i => cases hu
  · rw [behind, Nat.add_comm]
    rfl

end Advances

/-! ### Loops -/

/-- How many tokens a round of a loop has to take: one if the loop is to go on. -/
def turn : Option α → Nat
  | some _ => 1
  | none => 0

section

variable {round : Drawing σ (Option α)} (rounds : ∀ feed, Advances turn round feed)

include rounds

/-- A loop goes on behind every round that reads something. -/
theorem many_eq : many round = (do
    match ← round with
    | none => return []
    | some a =>
      let more ← many round
      return a :: more) := by
  funext feed
  cases h : round feed with
  | error e => rw [many_error h, bind_error h]
  | ok p =>
      obtain ⟨_ | a, mid⟩ := p
      · rw [many_none h, bind_ok h]
        rfl
      · -- the round has taken a token, so the guard lets the loop go on
        have shorter : mid.size < feed.size := by
          obtain ⟨ts, -, -, follows⟩ := rounds feed
          rw [h] at follows
          have enough : 1 ≤ ts.length := follows.1
          have := follows.2.size
          omega
        have onward := many_some (k := pure) h shorter
        rw [bind_pure] at onward
        rw [onward, bind_ok h]

/-- A loop advances if its rounds do, by induction on the tokens it has taken. -/
theorem advances_many (feed : Feed σ) : Advances (fun _ => 0) (many round) feed := by
  -- by induction on what can still be taken, of which every round but the last takes some
  induction hn : feed.size using Nat.strongRecOn generalizing feed with
  | ind n ih =>
  rw [many_eq rounds]
  refine (rounds feed).bind fun o mid _ shorter => ?_
  cases o with
  | none => exact .pure rfl
  | some a =>
      have less : mid.size + 1 ≤ feed.size := shorter
      exact (ih mid.size (by omega) mid rfl).bind fun more _ _ _ => .pure rfl

end

/-! ### Single tokens and lists -/

section

variable {feed : Feed σ}

/-- A refusal blames the token in front. -/
theorem advances_refuse (wanted : Wanted) (least : α → Nat) :
    Advances least (refuse wanted : Drawing σ α) feed :=
  .current_bind fun _ _ ht => .throw _ (.unexpected wanted ht)

/-- So does a refusal for the depth. -/
theorem advances_refuseDepth (least : α → Nat) :
    Advances least (refuseDepth : Drawing σ α) feed :=
  .current_bind fun _ _ ht => .throw _ (.tooDeep ht)

/-- A symbol is one token. -/
theorem advances_symbol (s : Token.Symbol) :
    Advances (fun _ => 1) (symbol s : Drawing σ Token) feed := by
  refine .current_bind fun t mid ht => ?_
  split
  · next hs => exact .take_front ht (by rw [Token.Kind.isSymbol_iff.mp hs]; rfl)
  · exact advances_refuse _ _

/-- A name is one token. -/
theorem advances_ident : Advances (fun _ => 1) (ident : Drawing σ Ident) feed := by
  refine .current_bind fun t mid ht => ?_
  split
  · next text hname =>
    have more : t.kind.isEof = false := by
      rw [Token.Kind.name?_eq_some_iff.mp hname]
      rfl
    exact (Advances.take_front ht more).bind fun _ _ _ _ => .pure rfl
  · exact advances_refuse _ _

section items

variable {item : Drawing σ α} (takes : ∀ feed, Advances (fun _ => 1) item feed)

include takes

/-- Behind a comma stands another item. -/
theorem advances_commaItem : Advances turn (commaItem item) feed := by
  refine .current_bind fun t mid ht => ?_
  split
  · exact (advances_symbol .comma).bind fun _ _ _ _ =>
      (takes _).bind fun _ _ _ _ => .pure rfl
  · exact .pure rfl

/-- A list of items has at least the first. -/
theorem advances_items : Advances (fun _ => 1) (items item) feed := by
  refine .current_bind fun t mid ht => ?_
  split
  · exact (advances_symbol .rightParen).bind fun _ _ _ _ => .pure rfl
  · refine (takes _).bind fun first _ _ _ => ?_
    refine (advances_many (fun _ => advances_commaItem takes) _).bind fun more _ _ _ => ?_
    exact (advances_symbol .rightParen).bind fun _ _ _ _ => .pure rfl

end items

/-! ### Host paths -/

/-- A segment of a path is a dot and a name. -/
theorem advances_segment : Advances turn (segment : Drawing σ (Option Ident)) feed := by
  refine .current_bind fun t mid ht => ?_
  split
  · refine .ahead_bind 1 fun u mid hu => ?_
    split
    · exact (advances_symbol .dot).bind fun _ _ _ _ =>
        advances_ident.bind fun _ _ _ _ => .pure rfl
    · exact .pure rfl
  · exact .pure rfl

/-- A path of the host begins with a dot. -/
theorem advances_hostPath : Advances (fun _ => 1) (hostPath : Drawing σ Expr) feed :=
  (advances_symbol .dot).bind fun _ _ _ _ => advances_ident.bind fun _ _ _ _ =>
    (advances_many (fun _ => advances_segment) _).bind fun _ _ _ _ => .pure rfl

/-! ### Statements and function literals -/

/-- The look for an assignment takes nothing. -/
theorem advances_isAssignment :
    Advances (fun _ => 0) (isAssignment : Drawing σ Bool) feed := by
  refine .current_bind fun t mid ht => ?_
  split
  · exact .pure rfl
  · exact .ahead_bind 1 fun _ _ _ => .pure rfl

/-- The look for a function takes nothing. -/
theorem advances_isFunction : Advances (fun _ => 0) (isFunction : Drawing σ Bool) feed := by
  refine .ahead_bind 1 fun t mid ht => ?_
  split
  · exact .pure rfl
  split
  · exact .pure rfl
  refine .ahead_bind 2 fun u mid hu => ?_
  split
  · exact .pure rfl
  split
  · exact .pure rfl
  exact .ahead_bind 3 fun _ _ _ => .pure rfl

section expression

variable {expr : Drawing σ Expr} (takes : ∀ feed, Advances (fun _ => 1) expr feed)

include takes

/-- A statement takes a token. -/
theorem advances_statement : Advances (fun _ => 1) (statement expr) feed := by
  refine advances_isAssignment.bind fun assigns mid _ _ => ?_
  cases assigns with
  | false => exact takes _
  | true =>
      exact advances_ident.bind fun _ _ _ _ => (advances_symbol .assign).bind fun _ _ _ _ =>
        (takes _).bind fun _ _ _ _ => .pure rfl

/-- So does a statement with its semicolon. -/
theorem advances_closedStatement : Advances (fun _ => 1) (closedStatement expr) feed :=
  (advances_statement takes).bind fun _ _ _ _ =>
    (advances_symbol .semicolon).bind fun _ _ _ _ => .pure rfl

/-- A round of the loop over statements takes one, or ends in front of what ends the loop. -/
theorem advances_statementUnless (ends : Token.Kind → Bool) :
    Advances turn (statementUnless ends expr) feed := by
  refine .current_bind fun t mid ht => ?_
  split
  · exact .pure rfl
  · exact (advances_closedStatement takes).bind fun _ _ _ _ => .pure rfl

/-- A block begins with a brace. -/
theorem advances_block : Advances (fun _ => 1) (block expr) feed :=
  (advances_many (fun _ => advances_statementUnless takes _) _).bind fun _ _ _ _ =>
    (advances_symbol .rightBrace).bind fun _ _ _ _ => .pure rfl

/-- A function begins with a parenthesis. -/
theorem advances_function : Advances (fun _ => 1) (function expr) feed :=
  (advances_symbol .leftParen).bind fun _ _ _ _ =>
    (advances_items fun _ => advances_ident).bind fun _ _ _ _ =>
      (advances_symbol .leftBrace).bind fun _ _ _ _ =>
        (advances_block takes).bind fun _ _ _ _ => .pure rfl

/-- So does an expression in parentheses. -/
theorem advances_parenthesised : Advances (fun _ => 1) (parenthesised expr) feed :=
  (advances_symbol .leftParen).bind fun _ _ _ _ => (takes _).bind fun _ _ _ _ =>
    (advances_symbol .rightParen).bind fun _ _ _ _ => .pure rfl

end expression

/-! ### Primaries and links -/

section levels

variable {expr : Nat → Drawing σ Expr}
  (takes : ∀ least feed, Advances (fun _ => 1) (expr least) feed)

include takes

/-- A primary takes a token, whichever it is. -/
theorem advances_primary : Advances (fun _ => 1) (primary expr) feed := by
  refine .current_bind fun t mid ht => ?_
  split
  · next v hk => exact (Advances.take_front ht (by rw [hk]; rfl)).bind fun _ _ _ _ => .pure rfl
  · exact advances_ident.bind fun _ _ _ _ => .pure rfl
  · exact advances_refuse _ _
  · next s hk =>
    split
    · exact (Advances.take_front ht (by rw [hk]; rfl)).bind fun _ _ _ _ =>
        (takes _ _).bind fun _ _ _ _ => .pure rfl
    split
    · exact advances_hostPath
    split
    · refine advances_isFunction.bind fun opens mid _ _ => ?_
      cases opens with
      | true => exact advances_function (takes 0)
      | false => exact advances_parenthesised (takes 0)
    · exact advances_refuse _ _

/-- A link takes at least the token that starts it. -/
theorem advances_extend {t : Token} (ht : feed.nth 0 = .ok t) (more : t.kind.isEof = false)
    (link : Parser.Link) (left : Expr) :
    Advances (fun _ => 1) (extend expr link left) feed := by
  refine (Advances.take_front ht more).bind fun _ mid _ _ => ?_
  cases link with
  | call => exact (advances_items (takes 0)).bind fun _ _ _ _ => .pure rfl
  | member => exact advances_ident.bind fun _ _ _ _ => .pure rfl
  | operator op => exact (takes _ _).bind fun _ _ _ _ => .pure rfl

/-- One round of the loop over links: the expression with one more link, if there is one. -/
def linkRound (expr : Nat → Drawing σ Expr) (least : Nat) (left : Expr) :
    Drawing σ (Option Expr) := do
  let t ← current
  match Parser.link? least t.kind with
  | none => return none
  | some link =>
    let longer ← extend expr link left
    return some longer

/-- A round of the loop over links takes an operator, an index or a call, or ends the loop. -/
theorem advances_linkRound (least : Nat) (left : Expr) :
    Advances turn (linkRound expr least left) feed := by
  refine .current_bind fun t mid ht => ?_
  split
  · exact .pure rfl
  · next link hlink =>
    exact (advances_extend takes ht (isEof_of_link? hlink) link left).bind fun _ _ _ _ => .pure rfl

end levels

/-- The loop over links repeats its round, with one level less for each link. -/
theorem links_eq (levels least : Nat) (left : Expr) :
    (links (levels + 1) least left : Drawing σ Expr) = (do
      match ← linkRound (expression levels) least left with
      | none => return left
      | some longer => links levels least longer) := by
  rw [links]
  unfold linkRound
  rw [bind_assoc]
  congr
  funext t
  cases Parser.link? least t.kind with
  | none => rfl
  | some link => simp only [bind_assoc, pure_bind]

/-! ### Expressions and programs -/

-- by induction on the levels: what is inside a primary or a link has one level less
mutual

/-- An expression takes a token, by induction on the levels that are left. -/
theorem advances_expression : (levels least : Nat) → (feed : Feed σ) →
    Advances (fun _ => 1) (expression levels least) feed
  | 0, least, feed => by
      rw [expression]
      exact advances_refuseDepth _
  | levels + 1, least, feed => by
      rw [expression]
      exact (advances_primary (advances_expression levels)).bind fun left mid _ _ =>
        advances_links levels least left mid

/-- Links may take nothing. -/
theorem advances_links : (levels least : Nat) → (left : Expr) → (feed : Feed σ) →
    Advances (fun _ => 0) (links levels least left) feed
  | 0, least, left, feed => by
      rw [links]
      refine .current_bind fun t mid ht => ?_
      split
      · exact .pure rfl
      · exact advances_refuseDepth _
  | levels + 1, least, left, feed => by
      rw [links_eq]
      refine (advances_linkRound (advances_expression levels) least left).bind fun o mid _ _ => ?_
      cases o with
      | none => exact .pure rfl
      | some longer => exact advances_links levels least longer mid

end

/-- A program may be empty. -/
theorem advances_program (feed : Feed σ) : Advances (fun _ => 0) program feed := by
  refine .current_bind fun first mid _ => ?_
  refine (advances_many (fun _ => advances_statementUnless
    (advances_expression nestingLimit 0) _) _).bind fun body mid _ _ => ?_
  exact .current_bind fun last mid _ => .pure rfl

end

/-! ### Lists of tokens -/

/-- The tokens in front of the first `eof`. -/
def beforeEof (tokens : List Token) : List Token := tokens.takeWhile fun t => !t.kind.isEof

/-- The tokens that a feed has in front of the first `eof`, drawn or not. -/
def pending (feed : Feed (List Token)) : List Token := beforeEof (feed.buffer ++ feed.supply)

/-- Tokens other than `eof` come from the list, and not from behind it. -/
theorem upcoming_eq_iff {tokens : List Token} {default n : Nat} {t : Token}
    (more : t.kind.isEof = false) :
    Supply.upcoming tokens default n = .ok t ↔ tokens[n]? = some t := by
  induction tokens generalizing default n with
  | nil =>
      have padding : Supply.upcoming ([] : List Token) default n = .ok ⟨.eof, .empty default⟩ := by
        cases n <;> rfl
      rw [padding]
      refine ⟨fun h => ?_, nofun⟩
      cases h
      cases more
  | cons u rest ih =>
      cases n with
      | zero => exact ⟨fun h => congrArg some (Except.ok.inj h), fun h => by cases h; rfl⟩
      | succ n => exact ih

/-- A token of a feed from a list is the one that stands there. -/
theorem nth_eq_iff {feed : Feed (List Token)} {n : Nat} {t : Token}
    (more : t.kind.isEof = false) :
    feed.nth n = .ok t ↔ (feed.buffer ++ feed.supply)[n]? = some t := by
  rcases Nat.lt_or_ge n feed.buffer.length with lt | le
  · rw [Feed.nth, List.getElem?_append_left lt, List.getElem?_eq_getElem lt]
    exact ⟨fun h => congrArg some (Except.ok.inj h), fun h => by cases h; rfl⟩
  · rw [Feed.nth_of_length_le le, List.getElem?_append_right le]
    exact upcoming_eq_iff more

section

variable {feed rest : Feed (List Token)} {ts : List Token}

/-- What a feed has in front of the first `eof` stands in front. -/
theorem opens_pending (feed : Feed (List Token)) : Opens feed (pending feed) := by
  intro i t ht
  have each := List.all_eq_true.mp (List.all_takeWhile (l := feed.buffer ++ feed.supply)) t
    (List.mem_of_getElem? ht)
  have more : t.kind.isEof = false := Bool.not_eq_true' _ ▸ each
  refine ⟨(nth_eq_iff more).mpr ?_, more⟩
  obtain ⟨behind, whole⟩ := List.takeWhile_prefix (l := feed.buffer ++ feed.supply)
    fun t => !t.kind.isEof
  rw [← whole]
  exact (List.getElem?_append_left (List.getElem?_eq_some_iff.mp ht).1).trans ht

/-- Tokens that stand in front without an `eof` are the first of those in front of it. -/
theorem prefix_pending (opens : Opens feed ts) : ts <+: pending feed := by
  obtain ⟨behind, whole⟩ : ts <+: feed.buffer ++ feed.supply :=
    List.prefix_iff_getElem?.mpr fun i lt =>
      (nth_eq_iff (opens (List.getElem?_eq_getElem lt)).2).mp
        (opens (List.getElem?_eq_getElem lt)).1
  have each : ∀ t ∈ ts, (!t.kind.isEof) = true := by
    intro t mem
    obtain ⟨i, ht⟩ := List.getElem?_of_mem mem
    rw [(opens ht).2]
    rfl
  exact ⟨beforeEof behind, by rw [pending, ← whole, beforeEof, beforeEof,
    List.takeWhile_append_of_pos each]⟩

/-- What is left in front of the first `eof`. -/
theorem Left.pending_eq (left : Left feed rest ts.length) (opens : Opens feed ts) :
    pending feed = ts ++ pending rest := by
  obtain ⟨us, hus⟩ := prefix_pending opens
  have still : Opens rest us := by
    intro i t ht
    rw [left.nth]
    refine opens_pending feed ?_
    rw [← hus, List.getElem?_append_right (Nat.le_add_right _ _), Nat.add_sub_cancel_left]
    exact ht
  have there : ts ++ pending rest <+: ts ++ us :=
    hus ▸ prefix_pending (opens.append left (opens_pending rest))
  rw [← hus, (prefix_pending still).eq_of_length_le
    ((List.prefix_append_right_inj ts).mp there).length_le]

end

/-! ### The parser of tokens -/

/-- Whether a reader of tokens makes progress: wherever it is, it takes some of the tokens in front
of the first `eof`, at least so many as its result calls for, and leaves the others. Where it fails,
it has taken some of them too, and blames the token behind those. -/
def Progresses (least : α → Nat) (x : Drawing (List Token) α) : Prop :=
  ∀ feed, ∃ ts, Takes x feed ts (x feed) ∧
    match x feed with
    | .ok (a, rest) => least a ≤ ts.length ∧ pending feed = ts ++ pending rest
    | .error e => ts <+: pending feed ∧ Blames feed e ts.length

/-- A reader of tokens that advances everywhere makes progress. -/
theorem progresses_of_advances {least : α → Nat} {x : Drawing (List Token) α}
    (h : ∀ feed, Advances least x feed) : Progresses least x := by
  intro feed
  obtain ⟨ts, takes, opens, follows⟩ := h feed
  refine ⟨ts, takes, ?_⟩
  cases hx : x feed with
  | ok p =>
      rw [hx] at follows
      exact ⟨follows.1, follows.2.pending_eq opens⟩
  | error e =>
      rw [hx] at follows
      exact ⟨prefix_pending opens, follows⟩

/-- Whether every round of a loop takes a token or is the last, and the loop goes on behind each of
them but the last. -/
structure Loops (round : Drawing (List Token) (Option α)) : Prop where
  turns : Progresses turn round
  goesOn : many round = (do
    match ← round with
    | none => return []
    | some a =>
      let more ← many round
      return a :: more)

/-- A loop makes progress if its rounds advance. -/
theorem loops_of_advances {round : Drawing (List Token) (Option α)}
    (rounds : ∀ feed, Advances turn round feed) : Loops round :=
  ⟨progresses_of_advances rounds, many_eq rounds⟩

/-- What makes the parser of tokens end. -/
structure ParserProgress : Prop where
  statements : ∀ levels, Progresses (fun _ => 1) (statement (expression levels 0))
  expressions : ∀ levels least, Progresses (fun _ => 1) (expression levels least)
  primaries : ∀ levels, Progresses (fun _ => 1) (primary (expression levels))
  functions : ∀ levels, Progresses (fun _ => 1) (function (expression levels 0))
  arguments : ∀ levels, Progresses (fun _ => 1) (items (expression levels 0))
  programLoop : Loops (statementUnless Token.Kind.isEof (expression nestingLimit 0))
  blockLoop : ∀ levels,
    Loops (statementUnless (fun k => k.isSymbol .rightBrace) (expression levels 0))
  parameterLoop : Loops (commaItem ident)
  argumentLoop : ∀ levels, Loops (commaItem (expression levels 0))
  pathLoop : Loops segment
  linkLoop : ∀ levels least left,
    Progresses turn (linkRound (expression levels) least left) ∧
      links (levels + 1) least left = (do
        match ← linkRound (expression levels) least left with
        | none => return left
        | some longer => links levels least longer : Drawing (List Token) Expr)
  /-- The parser takes some of the tokens in front of the first `eof`, so no more than there are.
  -/
  programs : ∀ tokens, ∃ ts, Takes program (.ofSupply tokens) ts (program (.ofSupply tokens)) ∧
    ts <+: beforeEof tokens ∧
    (∀ e, program (.ofSupply tokens) = .error e → Blames (.ofSupply tokens) e ts.length) ∧
    Program.ofTokens tokens = (program (.ofSupply tokens)).map Prod.fst

/-- The parser takes a token wherever it goes on, and never an `eof`. It ends when it has taken the
tokens in front of the first `eof`, or before. -/
theorem parser_progresses : ParserProgress where
  statements levels := progresses_of_advances fun _ =>
    advances_statement (advances_expression levels 0)
  expressions levels least := progresses_of_advances (advances_expression levels least)
  primaries levels := progresses_of_advances fun _ => advances_primary (advances_expression levels)
  functions levels := progresses_of_advances fun _ =>
    advances_function (advances_expression levels 0)
  arguments levels := progresses_of_advances fun _ =>
    advances_items (advances_expression levels 0)
  programLoop := loops_of_advances fun _ =>
    advances_statementUnless (advances_expression nestingLimit 0) _
  blockLoop levels := loops_of_advances fun _ =>
    advances_statementUnless (advances_expression levels 0) _
  parameterLoop := loops_of_advances fun _ => advances_commaItem fun _ => advances_ident
  argumentLoop levels := loops_of_advances fun _ =>
    advances_commaItem (advances_expression levels 0)
  pathLoop := loops_of_advances fun _ => advances_segment
  linkLoop levels least left := ⟨progresses_of_advances fun _ =>
    advances_linkRound (advances_expression levels) least left, links_eq levels least left⟩
  programs tokens := by
    obtain ⟨ts, takes, opens, follows⟩ := advances_program (.ofSupply tokens)
    refine ⟨ts, takes, prefix_pending opens, fun e he => ?_, (Program.ofSupply_list tokens).symm⟩
    rw [he] at follows
    exact follows

end Drawing

end ScriptConsole
