import ScriptConsole.Proofs.Syntax.Feeds
import ScriptConsole.Proofs.Syntax.Soundness

/-!
# Reading on Demand Is Reading

The readers of the grammar on demand agree with those on lists (`Drawing.Agrees`), construct by
construct. What has been drawn ahead of a decision plays no part: the decision sees what a feed
holds. Whatever reads something leaves less to be taken, which is why no loop is cut short.

As a feed may hold tokens with other places and another flaw behind them, the agreement says at once
that the parser invents no places and does not look into flaws.

## Main results

* `Drawing.expression_agrees`: the readers of expressions agree, by induction on the levels.
* `Drawing.program_gives`: so do those of programs.
-/

namespace ScriptConsole

open Placed (move)

namespace Drawing

variable {σ α : Type} [Supply σ] [Placed α] {m : Motion} {feed : Feed σ} {tail : Tail}
  {tokens : List Token}

/-! ### Loops -/

section many

variable {β : Type} {round : Drawing σ (Option α)} {k : List α → Drawing σ β} {rest : Feed σ}

omit [Placed α] in
/-- A loop fails with its first round. -/
theorem many_error {e : SourceError} (h : round feed = .error e) : many round feed = .error e := by
  rw [many.eq_def, h]

omit [Placed α] in
/-- A loop ends with the round in which there is nothing to read. -/
theorem many_none (h : round feed = .ok (none, rest)) : many round feed = .ok ([], rest) := by
  rw [many.eq_def, h]

omit [Placed α] in
/-- A loop goes on behind a round that has read something. -/
theorem many_some {a : α} (h : round feed = .ok (some a, rest)) (shorter : rest.size < feed.size) :
    (many round >>= k) feed = (many round >>= fun more => k (a :: more)) rest := by
  cases hmore : many round rest with
  | error e =>
      have once : many round feed = .error e := by
        rw [many.eq_def, h]
        exact (if_pos shorter).trans (by rw [hmore])
      rw [bind_error once, bind_error hmore]
  | ok more =>
      have once : many round feed = .ok (a :: more.1, more.2) := by
        rw [many.eq_def, h]
        exact (if_pos shorter).trans (by rw [hmore])
      rw [bind_ok once, bind_ok hmore]

end many

/-! ### Lists of items -/

section items

variable {item : Drawing σ α} {reader : TokenReader α}

/-- Whatever is read leaves less to be taken. -/
theorem Agrees.shorter (agrees : Agrees m tail item reader) (holds : feed.Holds m tail tokens)
    {a : α} {rest : Feed σ} (h : item feed = .ok (a, rest)) : rest.size < feed.size := by
  cases hreader : reader tokens with
  | error e =>
      rw [(agrees holds).error hreader] at h
      cases h
  | ok r =>
      obtain ⟨rest', hrest, -, lt⟩ := (agrees holds).ok hreader
      rw [hrest] at h
      cases h
      exact lt

omit [Placed α] in
/-- Behind a comma, the items start anew. -/
theorem itemsBehind_comma {first : α} {t c : Token} {front rest : Feed σ}
    (hfront : current feed = .ok (t, front)) (comma : t.kind.isSymbol .comma = true)
    (hcomma : symbol .comma front = .ok (c, rest)) (shorter : rest.size < feed.size)
    (progress : ∀ a rest', item rest = .ok (a, rest') → rest'.size < rest.size) :
    itemsBehind item first feed =
      (item >>= itemsBehind item >>= fun p => pure (first :: p.1, p.2)) rest := by
  have round : commaItem item feed = (item >>= fun a => pure (some a)) rest := by
    rw [commaItem, bind_ok hfront, if_pos comma, bind_ok hcomma]
  rw [itemsBehind]
  cases hitem : item rest with
  | error e =>
      rw [bind_error hitem] at round
      rw [bind_error (many_error round), bind_error (bind_error hitem)]
  | ok p =>
      obtain ⟨a, rest'⟩ := p
      rw [bind_ok hitem] at round
      rw [many_some round (Nat.lt_trans (progress a rest' hitem) shorter), bind_assoc,
        bind_ok hitem]
      simp only [itemsBehind, bind_assoc, pure_bind]

omit [Placed α] in
/-- Where no comma follows, the items end. -/
theorem itemsBehind_end {first : α} {t : Token} {front : Feed σ}
    (hfront : current feed = .ok (t, front)) (other : ¬t.kind.isSymbol .comma = true) :
    itemsBehind item first feed =
      (symbol .rightParen >>= fun close => pure ([first], close)) front := by
  have round : commaItem item feed = .ok (none, front) := by
    rw [commaItem, bind_ok hfront, if_neg other]
    rfl
  rw [itemsBehind, bind_ok (many_none round)]

/-- Both parsers read the items behind a comma alike. -/
theorem itemsFrom_agrees (agrees : Agrees m tail item reader) :
    Agrees m tail (item >>= itemsBehind item) (Parser.itemsFrom tail reader) := by
  intro feed tokens holds
  fun_induction Parser.itemsFrom tail reader tokens generalizing feed with
  | case1 tokens e he => exact bind_error ((agrees holds).error he)
  | case2 tokens one hone e he =>
      obtain ⟨behind, hf, holds', -⟩ := (agrees holds).ok hone
      refine (bind_ok hf).trans (bind_error (many_error ?_))
      exact bind_error ((current_sees holds').error he)
  | case3 tokens one hone t ht comma e he =>
      obtain ⟨behind, hf, holds₁, -⟩ := (agrees holds).ok hone
      obtain ⟨front, hfront, holds₂, -⟩ := (current_sees holds₁).ok ht
      refine (bind_ok hf).trans (bind_error (many_error ?_))
      have same : (move m.place t).kind.isSymbol .comma = true := comma
      rw [commaItem, bind_ok hfront, if_pos same,
        bind_error ((symbol_agrees .comma holds₂).error he)]
  | case4 tokens one hone t ht comma sign hsign e he ih =>
      obtain ⟨behind, hf, holds₁, -⟩ := (agrees holds).ok hone
      obtain ⟨front, hfront, holds₂, le⟩ := (current_sees holds₁).ok ht
      obtain ⟨rest, hrest, holds₃, lt⟩ := (symbol_agrees .comma holds₂).ok hsign
      refine (bind_ok hf).trans ?_
      rw [itemsBehind_comma hfront comma hrest (Nat.lt_of_lt_of_le lt le)
        fun _ _ => agrees.shorter holds₃]
      exact bind_error ((ih holds₃).error he)
  | case5 tokens one hone t ht comma sign hsign more hmore ih =>
      obtain ⟨behind, hf, holds₁, lt₁⟩ := (agrees holds).ok hone
      obtain ⟨front, hfront, holds₂, le⟩ := (current_sees holds₁).ok ht
      obtain ⟨rest, hrest, holds₃, lt₂⟩ := (symbol_agrees .comma holds₂).ok hsign
      obtain ⟨last, hlast, holds₄, lt₃⟩ := (ih holds₃).ok hmore
      refine ⟨last, (bind_ok hf).trans ?_, holds₄, by omega⟩
      rw [itemsBehind_comma hfront comma hrest (Nat.lt_of_lt_of_le lt₂ le)
        fun _ _ => agrees.shorter holds₃, bind_ok hlast]
      rfl
  | case6 tokens one hone t ht other e he =>
      obtain ⟨behind, hf, holds₁, -⟩ := (agrees holds).ok hone
      obtain ⟨front, hfront, holds₂, -⟩ := (current_sees holds₁).ok ht
      refine (bind_ok hf).trans ?_
      rw [itemsBehind_end hfront other]
      exact bind_error ((symbol_agrees .rightParen holds₂).error he)
  | case7 tokens one hone t ht other close hclose =>
      obtain ⟨behind, hf, holds₁, lt₁⟩ := (agrees holds).ok hone
      obtain ⟨front, hfront, holds₂, le⟩ := (current_sees holds₁).ok ht
      obtain ⟨rest, hrest, holds₃, lt₂⟩ := (symbol_agrees .rightParen holds₂).ok hclose
      refine ⟨rest, (bind_ok hf).trans ?_, holds₃, by omega⟩
      rw [itemsBehind_end hfront other, bind_ok hrest]
      rfl

/-- Both parsers read a list of items alike. -/
theorem items_agrees (agrees : Agrees m tail item reader) :
    Agrees m tail (items item) (Parser.items tail reader) := by
  intro feed tokens holds
  unfold Parser.items
  refine (current_sees holds).read (fun e he => by rw [he]) fun t front ht holds' le => ?_
  simp only [ht]
  by_cases empty : t.kind.isSymbol .rightParen = true
  · have same : (move m.place t).kind.isSymbol .rightParen = true := empty
    rw [if_pos empty, if_pos same]
    refine (symbol_agrees .rightParen holds').bind (fun e he => by rw [he]; rfl)
      fun close rest hclose behind lt => ?_
    rw [hclose]
    exact ⟨rest, rfl, behind, by omega⟩
  · have same : ¬(move m.place t).kind.isSymbol .rightParen = true := empty
    rw [if_neg empty, if_neg same]
    exact (itemsFrom_agrees agrees holds').mono le

end items

/-! ### Host paths -/

/-- There is no segment where no dot follows. -/
theorem segment_end {t : Token} (holds : feed.Holds m tail tokens)
    (ht : Parser.current tail tokens = .ok t) (other : ¬t.kind.isSymbol .dot = true) :
    ∃ rest, segment feed = .ok (none, rest) ∧ rest.Holds m tail tokens ∧
      rest.size ≤ feed.size := by
  obtain ⟨front, hfront, holds', le⟩ := (current_sees holds).ok ht
  refine ⟨front, ?_, holds', le⟩
  have same : ¬(move m.place t).kind.isSymbol .dot = true := other
  rw [segment, bind_ok hfront, if_neg same]
  rfl

/-- There is no segment where no name stands behind the dot. -/
theorem segment_dot_end {dot t : Token} {ts : List Token} (holds : feed.Holds m tail (dot :: ts))
    (hdot : dot.kind.isSymbol .dot = true) (ht : Parser.current tail ts = .ok t)
    (other : t.kind.name? = none) :
    ∃ rest, segment feed = .ok (none, rest) ∧ rest.Holds m tail (dot :: ts) ∧
      rest.size ≤ feed.size := by
  have here : Parser.current tail (dot :: ts) = .ok dot := rfl
  obtain ⟨front, hfront, holds₁, le₁⟩ := (current_sees holds).ok here
  have behind : Parser.ahead tail (dot :: ts) 1 = .ok t := ht
  obtain ⟨second, hsecond, holds₂, le₂⟩ := (ahead_sees holds₁ 1).ok behind
  refine ⟨second, ?_, holds₂, by omega⟩
  have same : (move m.place dot).kind.isSymbol .dot = true := hdot
  have same' : (move m.place t).kind.name? = none := other
  rw [segment, bind_ok hfront, if_pos same, bind_ok hsecond, same']
  rfl

/-- A dot with a name behind it is a segment. -/
theorem segment_dot_name {dot name : Token} {ts : List Token} {text : String}
    (holds : feed.Holds m tail (dot :: name :: ts)) (hdot : dot.kind.isSymbol .dot = true)
    (hname : name.kind.name? = some text) :
    ∃ rest, segment feed = .ok (some (move m.place ⟨text, name.span⟩), rest) ∧
      rest.Holds m tail ts ∧ rest.size < feed.size := by
  have here : Parser.current tail (dot :: name :: ts) = .ok dot := rfl
  have behind : Parser.ahead tail (dot :: name :: ts) 1 = .ok name := rfl
  obtain ⟨front, hfront, holds₁, le₁⟩ := (current_sees holds).ok here
  obtain ⟨second, hsecond, holds₂, le₂⟩ := (ahead_sees holds₁ 1).ok behind
  have taken : Parser.symbol tail .dot (dot :: name :: ts) =
      .ok (Reading.first dot (name :: ts)) := by rw [Parser.symbol, if_pos hdot]
  obtain ⟨sign, hsign, holds₃, lt₃⟩ := (symbol_agrees .dot holds₂).ok taken
  have named : Parser.ident tail (name :: ts) =
      .ok ((Reading.first name ts).map fun t => ⟨text, t.span⟩) := by
    simp only [Parser.ident, hname]
  obtain ⟨rest, hrest, holds₄, lt₄⟩ := (ident_agrees holds₃).ok named
  refine ⟨rest, ?_, holds₄, by omega⟩
  have same : (move m.place dot).kind.isSymbol .dot = true := hdot
  have same' : (move m.place name).kind.name? = some text := hname
  rw [segment, bind_ok hfront, if_pos same, bind_ok hsecond, same', if_pos Option.isSome_some,
    bind_ok hsign, bind_ok hrest]
  rfl

/-- What a loop over segments adds to those read before. -/
theorem moreSegments_agrees {origin : List Token} (segments : Reading origin (List Ident))
    (holds : feed.Holds m tail segments.rest) :
    match Parser.moreSegments tail segments with
    | .error e => many segment feed = .error (m.error e)
    | .ok r => ∃ names rest, many segment feed = .ok (names, rest) ∧
        move m.place r.value = move m.place segments.value ++ names ∧ rest.Holds m tail r.rest ∧
        rest.size ≤ feed.size := by
  fun_induction Parser.moreSegments tail segments generalizing feed with
  | case1 segments hrest e he =>
      have front : Parser.current tail segments.rest = .error e := by rw [hrest]; exact he
      exact many_error (bind_error ((current_sees holds).error front))
  | case2 segments hrest t ht =>
      have front : Parser.current tail segments.rest = .ok t := by rw [hrest]; exact ht
      have other : ¬t.kind.isSymbol .dot = true := by
        rw [hrest] at front
        simp [current_nil front, Token.Kind.isSymbol]
      obtain ⟨rest, hround, holds', le⟩ := segment_end holds front other
      exact ⟨[], rest, many_none hround, (List.append_nil _).symm, holds', le⟩
  | case3 segments dot hrest hdot e he =>
      rw [hrest] at holds
      have here : Parser.current tail [dot] = .ok dot := rfl
      obtain ⟨front, hfront, holds', -⟩ := (current_sees holds).ok here
      refine many_error ?_
      have same : (move m.place dot).kind.isSymbol .dot = true := hdot
      rw [segment, bind_ok hfront, if_pos same]
      exact bind_error ((ahead_sees holds' 1).error he)
  | case4 segments dot hrest hdot t ht =>
      rw [hrest] at holds
      have front : Parser.current tail [] = .ok t := ht
      have none : t.kind.name? = none := by rw [current_nil front]; rfl
      obtain ⟨rest, hround, holds', le⟩ := segment_dot_end holds hdot ht none
      exact ⟨[], rest, many_none hround, (List.append_nil _).symm, by rwa [hrest], le⟩
  | case5 segments dot hrest hdot =>
      have front : Parser.current tail segments.rest = .ok dot := by rw [hrest]; rfl
      obtain ⟨rest, hround, holds', le⟩ := segment_end holds front hdot
      exact ⟨[], rest, many_none hround, (List.append_nil _).symm, holds', le⟩
  | case6 segments dot name ts hrest text hname hdot ih =>
      rw [hrest] at holds
      obtain ⟨behind, round, holds', lt⟩ := segment_dot_name holds hdot hname
      have onward := many_some (k := pure) round lt
      rw [bind_pure] at onward
      have inside := ih holds'
      generalize Parser.moreSegments tail _ = outcome at inside ⊢
      cases outcome with
      | error e => exact onward.trans (bind_error inside)
      | ok r =>
        obtain ⟨names, rest, hmany, hvalue, held, le⟩ := inside
        refine ⟨_, rest, onward.trans (bind_ok hmany), ?_, held, by omega⟩
        rw [hvalue]
        show (segments.value ++ [_]).map (move m.place) ++ names = _
        rw [List.map_append, List.append_assoc]
        rfl
  | case7 segments dot name ts hrest hno =>
      -- either there is no name behind the dot, or no dot
      by_cases hdot : dot.kind.isSymbol .dot = true
      · have other : name.kind.name? = none :=
          Option.eq_none_iff_forall_ne_some.mpr fun text => hno text hdot
        rw [hrest] at holds
        obtain ⟨rest, hround, holds', le⟩ := segment_dot_end holds hdot rfl other
        exact ⟨[], rest, many_none hround, (List.append_nil _).symm, by rwa [hrest], le⟩
      · have front : Parser.current tail segments.rest = .ok dot := by rw [hrest]; rfl
        obtain ⟨rest, hround, holds', le⟩ := segment_end holds front hdot
        exact ⟨[], rest, many_none hround, (List.append_nil _).symm, holds', le⟩

/-- Both parsers read a path of the host alike. -/
theorem hostPath_agrees : Agrees m tail (hostPath : Drawing σ Expr) (Parser.hostPath tail) := by
  intro feed tokens holds
  unfold Parser.hostPath
  refine (symbol_agrees .dot holds).bind (fun e he => by rw [he]) fun dot f₁ hdot holds₁ lt₁ => ?_
  simp only [hdot]
  refine (ident_agrees holds₁).bind (fun e he => by rw [he]) fun one f₂ hone holds₂ lt₂ => ?_
  simp only [hone]
  have more := moreSegments_agrees ((dot.after one).map fun name => [name]) holds₂
  split
  · next e he =>
    rw [he] at more
    exact bind_error more
  · next path hpath =>
    rw [hpath] at more
    obtain ⟨names, f₃, hf₃, hvalue, holds₃, le₃⟩ := more
    refine ⟨f₃, ?_, holds₃, by omega⟩
    have whole : move m.place one.value :: names = move m.place path.value := hvalue.symm
    rw [bind_ok hf₃, whole]
    show Except.ok (Expr.hostPath _ ⟨m.place dot.value.span.start,
      Parser.lastStop (m.place dot.value.span.start) (move m.place path.value)⟩, f₃) = _
    rw [Parser.lastStop_move]
    rfl

/-! ### Statements and function literals -/

/-- Both parsers see whether an assignment begins. -/
theorem isAssignment_sees (holds : feed.Holds m tail tokens) :
    Sees m tail tokens feed.size ((isAssignment : Drawing σ Bool) feed)
      (Parser.isAssignment tail tokens) := by
  unfold Parser.isAssignment
  refine (current_sees holds).bind (fun e he => by rw [he]) fun t f₁ ht holds₁ le₁ => ?_
  simp only [ht, Token.kind_move]
  split
  · exact ⟨f₁, rfl, holds₁, le₁⟩
  refine (ahead_sees holds₁ 1).bind (fun e he => by rw [he]) fun u f₂ hu holds₂ le₂ => ?_
  rw [hu]
  exact ⟨f₂, rfl, holds₂, Nat.le_trans le₂ le₁⟩

/-- Both parsers see whether a function begins. -/
theorem isFunction_sees (holds : feed.Holds m tail tokens) :
    Sees m tail tokens feed.size ((isFunction : Drawing σ Bool) feed)
      (Parser.isFunction tail tokens) := by
  unfold Parser.isFunction
  refine (ahead_sees holds 1).bind (fun e he => by rw [he]) fun t f₁ ht holds₁ le₁ => ?_
  simp only [ht, Token.kind_move]
  split
  · exact ⟨f₁, rfl, holds₁, le₁⟩
  split
  · exact ⟨f₁, rfl, holds₁, le₁⟩
  refine (ahead_sees holds₁ 2).bind (fun e he => by rw [he]) fun u f₂ hu holds₂ le₂ => ?_
  simp only [hu, Token.kind_move]
  split
  · exact ⟨f₂, rfl, holds₂, Nat.le_trans le₂ le₁⟩
  split
  · exact ⟨f₂, rfl, holds₂, Nat.le_trans le₂ le₁⟩
  refine (ahead_sees holds₂ 3).bind (fun e he => by rw [he]) fun v f₃ hv holds₃ le₃ => ?_
  rw [hv]
  exact ⟨f₃, rfl, holds₃, Nat.le_trans le₃ (Nat.le_trans le₂ le₁)⟩

section expression

variable {expr : Drawing σ Expr} {reader : TokenReader Expr}

/-- Both parsers read a statement alike. -/
theorem statement_agrees (mono : Monotone m.place) (agrees : Agrees m tail expr reader) :
    Agrees m tail (statement expr) (Parser.statement tail reader) := by
  intro feed tokens holds
  unfold Parser.statement
  refine (isAssignment_sees holds).read (fun e he => by rw [he])
    fun assigns f₁ hassigns holds₁ le₁ => ?_
  rw [hassigns]
  cases assigns with
  | false => exact (agrees holds₁).mono le₁
  | true =>
      refine (ident_agrees holds₁).bind (fun e he => by rw [he]) fun name f₂ hname holds₂ lt₂ => ?_
      simp only [hname]
      refine (symbol_agrees .assign holds₂).bind (fun e he => by rw [he])
        fun sign f₃ hsign holds₃ lt₃ => ?_
      simp only [hsign]
      refine (agrees holds₃).bind (fun e he => by rw [he]) fun value f₄ hvalue holds₄ lt₄ => ?_
      rw [hvalue]
      refine ⟨f₄, ?_, holds₄, by omega⟩
      rw [Expr.span_move]
      exact congrArg (fun s => Except.ok (Expr.assign _ _ s, f₄)) (Span.move_join mono _ _).symm

/-- Both parsers want a semicolon behind a statement. -/
theorem closedStatement_agrees (mono : Monotone m.place) (agrees : Agrees m tail expr reader) :
    Agrees m tail (closedStatement expr) (Parser.closedStatement tail reader) := by
  intro feed tokens holds
  unfold Parser.closedStatement
  refine (statement_agrees mono agrees holds).bind (fun e he => by rw [he])
    fun s f₁ hs holds₁ lt₁ => ?_
  simp only [hs]
  refine (symbol_agrees .semicolon holds₁).bind (fun e he => by rw [he])
    fun semi f₂ hsemi holds₂ lt₂ => ?_
  rw [hsemi]
  exact ⟨f₂, rfl, holds₂, by omega⟩

section loop

variable {β : Type} {ends : Token.Kind → Bool} {t : Token} {front : Feed σ}

/-- The loop over statements ends in front of what ends it. -/
theorem statements_end (hfront : current feed = .ok (t, front)) (last : ends t.kind = true) :
    many (statementUnless ends expr) feed = .ok ([], front) :=
  many_none <| (bind_ok hfront).trans (by rw [if_pos last]; rfl)

/-- The loop over statements fails with its first statement. -/
theorem statements_error {e : SourceError} (hfront : current feed = .ok (t, front))
    (more : ¬ends t.kind = true) (h : closedStatement expr front = .error e) :
    many (statementUnless ends expr) feed = .error e :=
  many_error <| (bind_ok hfront).trans (by rw [if_neg more]; exact bind_error h)

/-- A loop over statements goes on behind a statement. -/
theorem statements_some (ends : Token.Kind → Bool) {s : Expr} {rest : Feed σ}
    (k : List Expr → Drawing σ β) (hfront : current feed = .ok (t, front))
    (more : ¬ends t.kind = true) (h : closedStatement expr front = .ok (s, rest))
    (shorter : rest.size < feed.size) :
    (many (statementUnless ends expr) >>= k) feed =
      (many (statementUnless ends expr) >>= fun more => k (s :: more)) rest :=
  many_some ((bind_ok hfront).trans (by rw [if_neg more]; exact bind_ok h)) shorter

end loop

/-- A block goes on behind a statement of it. -/
theorem block_some {t : Token} {s : Expr} {front rest : Feed σ}
    (hfront : current feed = .ok (t, front)) (more : ¬t.kind.isSymbol .rightBrace = true)
    (h : closedStatement expr front = .ok (s, rest)) (shorter : rest.size < feed.size) :
    block expr feed = (block expr >>= fun p => pure (s :: p.1, p.2)) rest := by
  rw [block, statements_some (fun k => k.isSymbol .rightBrace) _ hfront more h shorter]
  simp only [bind_assoc, pure_bind]

/-- Both parsers read a block alike, by induction on the tokens. -/
theorem block_agrees (mono : Monotone m.place) (agrees : Agrees m tail expr reader) :
    Agrees m tail (block expr) (Parser.block tail reader) := by
  intro feed tokens holds
  have closed := closedStatement_agrees mono agrees
  fun_induction Parser.block tail reader tokens generalizing feed with
  | case1 tokens e he =>
      exact bind_error (many_error (bind_error ((current_sees holds).error he)))
  | case2 tokens t ht last =>
      obtain ⟨f₁, hf₁, holds₁, le₁⟩ := (current_sees holds).ok ht
      rw [block, bind_ok (statements_end hf₁ last)]
      refine (symbol_agrees .rightBrace holds₁).bind (fun e he => by rw [he]; rfl)
        fun close f₂ hclose holds₂ lt₂ => ?_
      rw [hclose]
      exact ⟨f₂, rfl, holds₂, by omega⟩
  | case3 tokens t ht more e he =>
      obtain ⟨f₁, hf₁, holds₁, le₁⟩ := (current_sees holds).ok ht
      exact bind_error (statements_error hf₁ more ((closed holds₁).error he))
  | case4 tokens t ht more s hs e he ih =>
      obtain ⟨f₁, hf₁, holds₁, le₁⟩ := (current_sees holds).ok ht
      obtain ⟨f₂, hf₂, holds₂, lt₂⟩ := (closed holds₁).ok hs
      rw [block_some hf₁ more hf₂ (Nat.lt_of_lt_of_le lt₂ le₁)]
      exact bind_error ((ih holds₂).error he)
  | case5 tokens t ht more s hs body hbody ih =>
      obtain ⟨f₁, hf₁, holds₁, le₁⟩ := (current_sees holds).ok ht
      obtain ⟨f₂, hf₂, holds₂, lt₂⟩ := (closed holds₁).ok hs
      obtain ⟨f₃, hf₃, holds₃, lt₃⟩ := (ih holds₂).ok hbody
      refine ⟨f₃, ?_, holds₃, by omega⟩
      rw [block_some hf₁ more hf₂ (Nat.lt_of_lt_of_le lt₂ le₁), bind_ok hf₃]
      rfl

/-- Both parsers read a function alike. -/
theorem function_agrees (mono : Monotone m.place) (agrees : Agrees m tail expr reader) :
    Agrees m tail (function expr) (Parser.function tail reader) := by
  intro feed tokens holds
  unfold Parser.function
  refine (symbol_agrees .leftParen holds).bind (fun e he => by rw [he])
    fun start f₁ hstart holds₁ lt₁ => ?_
  simp only [hstart]
  refine (items_agrees ident_agrees holds₁).bind (fun e he => by rw [he])
    fun params f₂ hparams holds₂ lt₂ => ?_
  simp only [hparams]
  refine (symbol_agrees .leftBrace holds₂).bind (fun e he => by rw [he])
    fun brace f₃ hbrace holds₃ lt₃ => ?_
  simp only [hbrace]
  refine (block_agrees mono agrees holds₃).bind (fun e he => by rw [he])
    fun body f₄ hbody holds₄ lt₄ => ?_
  rw [hbody]
  refine ⟨f₄, ?_, holds₄, by omega⟩
  show Except.ok (Expr.func _ (move m.place body.value.1) _, f₄) =
    .ok (Expr.func _ (Expr.movedEach m.place body.value.1) _, f₄)
  rw [Expr.movedEach_eq]
  rfl

/-! ### Primaries and links -/

/-- Both parsers read an expression in parentheses alike. -/
theorem parenthesised_agrees (agrees : Agrees m tail expr reader) :
    Agrees m tail (parenthesised expr) (Parser.parenthesised tail reader) := by
  intro feed tokens holds
  unfold Parser.parenthesised
  refine (symbol_agrees .leftParen holds).bind (fun e he => by rw [he])
    fun start f₁ hstart holds₁ lt₁ => ?_
  simp only [hstart]
  refine (agrees holds₁).bind (fun e he => by rw [he]) fun inner f₂ hinner holds₂ lt₂ => ?_
  simp only [hinner]
  refine (symbol_agrees .rightParen holds₂).bind (fun e he => by rw [he])
    fun close f₃ hclose holds₃ lt₃ => ?_
  rw [hclose]
  exact ⟨f₃, rfl, holds₃, by omega⟩

end expression

section levels

variable {expr : Nat → Drawing σ Expr} {reader : Nat → TokenReader Expr}

/-- Both parsers read a primary alike, whatever it begins with. -/
theorem primary_agrees (mono : Monotone m.place)
    (agrees : ∀ least, Agrees m tail (expr least) (reader least)) :
    Agrees m tail (primary expr) (Parser.primary tail reader) := by
  intro feed tokens holds
  unfold Parser.primary
  split
  · refine refused_draws holds fun t ht => ?_
    simp only [Token.kind_move, current_nil ht]
  next t ts =>
  have here : Parser.current tail (t :: ts) = .ok t := rfl
  obtain ⟨f₁, hf₁, holds₁, le₁⟩ := (current_sees holds).ok here
  rw [primary, bind_ok hf₁]
  have same : (move m.place t).kind = t.kind := rfl
  rw [same]
  split
  · next v hv =>
    simp only [hv]
    obtain ⟨f₂, hf₂, holds₂, lt₂⟩ := take_of_holds holds₁
    refine ⟨f₂, bind_ok hf₂, holds₂, Nat.lt_of_lt_of_le (lt₂ ?_) le₁⟩
    rw [hv]
    rfl
  · next text hv =>
    simp only [hv]
    have named : Parser.ident tail (t :: ts) =
        .ok ((Reading.first t ts).map fun t => ⟨text, t.span⟩) := by
      rw [Parser.ident, hv]
      rfl
    obtain ⟨f₂, hf₂, holds₂, lt₂⟩ := (ident_agrees holds₁).ok named
    exact ⟨f₂, bind_ok hf₂, holds₂, Nat.lt_of_lt_of_le lt₂ le₁⟩
  · next hv =>
    simp only [hv]
    exact refuse_draws holds₁
  next s hv =>
  simp only [hv]
  cases hop : Parser.unaryOp? s with
  | some op =>
      obtain ⟨f₂, hf₂, holds₂, lt₂⟩ := take_of_holds holds₁
      have lt₂ := lt₂ (by rw [hv]; rfl)
      simp only [bind_ok hf₂]
      refine (agrees Parser.tightest holds₂).bind (fun e he => by rw [he])
        fun operand f₃ hoperand holds₃ lt₃ => ?_
      rw [hoperand]
      refine ⟨f₃, ?_, holds₃, by omega⟩
      rw [Expr.span_move]
      exact congrArg (fun s => Except.ok (Expr.unary _ _ s, f₃)) (Span.move_join mono _ _).symm
  | none =>
      dsimp only
      split
      · exact (hostPath_agrees holds₁).mono le₁
      split
      · refine (isFunction_sees holds₁).read (fun e he => by rw [he])
          fun opens f₂ hopens holds₂ le₂ => ?_
        rw [hopens]
        cases opens with
        | true => exact (function_agrees mono (agrees 0) holds₂).mono (Nat.le_trans le₂ le₁)
        | false => exact (parenthesised_agrees (agrees 0) holds₂).mono (Nat.le_trans le₂ le₁)
      · exact refuse_draws holds₁

/-- Both parsers read a link of an expression alike. -/
theorem extend_agrees (mono : Monotone m.place)
    (agrees : ∀ least, Agrees m tail (expr least) (reader least)) {origin : List Token}
    {left : Reading origin Expr} {t : Token} (ht : Parser.current tail left.rest = .ok t)
    (more : t.kind.isEof = false) (link : Parser.Link) (holds : feed.Holds m tail left.rest) :
    Draws m tail feed.size (extend expr link (move m.place left.value) feed)
      (Parser.extend tail reader link left) := by
  unfold Parser.extend
  split
  · next hrest =>
    rw [hrest] at ht
    rw [current_nil ht] at more
    cases more
  next u ts hrest =>
  obtain rfl : u = t := by
    rw [hrest] at ht
    exact Except.ok.inj ht
  rw [hrest] at holds
  obtain ⟨f₁, hf₁, holds₁, lt₁⟩ := take_of_holds holds
  have lt₁ := lt₁ more
  rw [extend.eq_def, bind_ok hf₁]
  cases link with
  | call =>
      refine (items_agrees (agrees 0) holds₁).bind (fun e he => by simp only [he])
        fun args f₂ hargs holds₂ lt₂ => ?_
      simp only [hargs]
      refine ⟨f₂, ?_, holds₂, by omega⟩
      rw [Expr.span_move]
      show Except.ok (Expr.call _ (move m.place args.value.1) _, f₂) =
        .ok (Expr.call _ (Expr.movedEach m.place args.value.1) _, f₂)
      rw [Expr.movedEach_eq]
      rfl
  | member =>
      refine (ident_agrees holds₁).bind (fun e he => by simp only [he])
        fun name f₂ hname holds₂ lt₂ => ?_
      simp only [hname]
      refine ⟨f₂, ?_, holds₂, by omega⟩
      rw [Expr.span_move]
      exact congrArg (fun s => Except.ok (Expr.member _ _ s, f₂)) (Span.move_join mono _ _).symm
  | operator op =>
      refine (agrees (op.precedence + 1) holds₁).bind (fun e he => by simp only [he])
        fun right f₂ hright holds₂ lt₂ => ?_
      simp only [hright]
      refine ⟨f₂, ?_, holds₂, by omega⟩
      rw [Expr.span_move, Expr.span_move]
      exact congrArg (fun s => Except.ok (Expr.binary _ _ _ s, f₂)) (Span.move_join mono _ _).symm

end levels

/-! ### Expressions -/

/-- No link starts with the end. -/
theorem isEof_of_link? {least : Nat} {k : Token.Kind} {link : Parser.Link}
    (h : Parser.link? least k = some link) : k.isEof = false := by
  cases k with
  | eof => cases h
  | symbol s => rfl
  | name text => rfl
  | literal v => rfl

mutual

/-- Both parsers read an expression alike, by induction on the levels. -/
theorem expression_agrees (mono : Monotone m.place) : (levels least : Nat) →
    Agrees m tail (expression levels least : Drawing σ Expr) (Parser.expression tail levels least)
  | 0, least, feed, tokens, holds => by
      rw [expression, Parser.expression]
      exact refuseDepth_draws holds
  | levels + 1, least, feed, tokens, holds => by
      rw [expression, Parser.expression]
      refine (primary_agrees mono (expression_agrees mono levels) holds).bind
        (fun e he => by rw [he]) fun left rest hleft holds' lt => ?_
      rw [hleft]
      exact (links_agrees mono levels least holds').mono lt

/-- Links may take nothing. -/
theorem links_agrees (mono : Monotone m.place) : (levels least : Nat) → {feed : Feed σ} →
    {origin : List Token} → {left : Reading origin Expr} → feed.Holds m tail left.rest →
    Draws m tail (feed.size + 1) (links levels least (move m.place left.value) feed)
      (Parser.links tail levels least left)
  | 0, least, feed, origin, left, holds => by
      rw [links, Parser.links]
      refine (current_sees holds).read (fun e he => by rw [he]) fun t front ht holds' le => ?_
      simp only [ht, Token.kind_move]
      cases Parser.link? least t.kind with
      | none => exact ⟨front, rfl, holds', Nat.lt_succ_of_le le⟩
      | some link => exact refuseDepth_draws holds'
  | levels + 1, least, feed, origin, left, holds => by
      rw [links, Parser.links]
      refine (current_sees holds).read (fun e he => by rw [he]) fun t front ht holds' le => ?_
      simp only [ht, Token.kind_move]
      cases hlink : Parser.link? least t.kind with
      | none => exact ⟨front, rfl, holds', Nat.lt_succ_of_le le⟩
      | some link =>
          refine (extend_agrees mono (expression_agrees mono levels) ht (isEof_of_link? hlink) link
            holds').bind (fun e he => by simp only [he]) fun longer rest hlonger behind lt => ?_
          simp only [hlonger]
          exact (links_agrees mono levels least behind).mono (by omega)

end

/-! ### Programs -/

/-- Whether the outcome of a reader is that of another. -/
def Gives (m : Motion) (outcome : Except SourceError (α × Feed σ)) : Except SourceError α → Prop
  | .error e => outcome = .error (m.error e)
  | .ok a => ∃ rest, outcome = .ok (move m.place a, rest)

omit [Supply σ] in
/-- One reader after another. -/
theorem Gives.bind {β : Type} [Placed β] {x : Drawing σ α} {k : α → Drawing σ β}
    {y : Except SourceError α} {z : Except SourceError β} (gives : Gives m (x feed) y)
    (fails : ∀ e, y = .error e → z = .error e)
    (further : ∀ (a : α) (rest : Feed σ), y = .ok a → Gives m (k (move m.place a) rest) z) :
    Gives m ((x >>= k) feed) z := by
  cases y with
  | error e =>
      rw [fails e rfl]
      exact bind_error gives
  | ok a =>
      obtain ⟨rest, hrest⟩ := gives
      rw [bind_ok hrest]
      exact further a rest rfl

omit [Supply σ] in
/-- Outcomes that agree have the same result. -/
theorem Gives.map_eq {outcome : Except SourceError (α × Feed σ)} {y : Except SourceError α}
    (gives : Gives m outcome y) : outcome.map Prod.fst = m.outcome y := by
  cases y with
  | error e =>
      rw [show outcome = _ from gives]
      rfl
  | ok a =>
      obtain ⟨rest, hrest⟩ := gives
      rw [hrest]
      rfl

section program

variable {expr : Drawing σ Expr} {reader : TokenReader Expr}

/-- The statements up to the end of the input, and the token that ends it. -/
def statements (expr : Drawing σ Expr) : Drawing σ (List Expr × Token) := do
  let body ← many (statementUnless Token.Kind.isEof expr)
  let last ← current
  return (body, last)

/-- The statements of a program go on behind one of them. -/
theorem statements_cons {t : Token} {s : Expr} {front rest : Feed σ}
    (hfront : current feed = .ok (t, front)) (more : ¬t.kind.isEof = true)
    (h : closedStatement expr front = .ok (s, rest)) (shorter : rest.size < feed.size) :
    statements expr feed = (statements expr >>= fun p => pure (s :: p.1, p.2)) rest := by
  rw [statements, statements_some Token.Kind.isEof _ hfront more h shorter]
  simp only [bind_assoc, pure_bind]

/-- Both parsers read the statements of a program alike. -/
theorem statements_gives (mono : Monotone m.place) (agrees : Agrees m tail expr reader)
    (holds : feed.Holds m tail tokens) :
    Gives m (statements expr feed) (Parser.statements tail reader tokens) := by
  have closed := closedStatement_agrees mono agrees
  fun_induction Parser.statements tail reader tokens generalizing feed with
  | case1 tokens e he =>
      exact bind_error (many_error (bind_error ((current_sees holds).error he)))
  | case2 tokens t ht last =>
      obtain ⟨f₁, hf₁, holds₁, -⟩ := (current_sees holds).ok ht
      obtain ⟨f₂, hf₂, -, -⟩ := (current_sees holds₁).ok ht
      exact ⟨f₂, (bind_ok (statements_end hf₁ last)).trans (bind_ok hf₂)⟩
  | case3 tokens t ht more e he =>
      obtain ⟨f₁, hf₁, holds₁, le₁⟩ := (current_sees holds).ok ht
      exact bind_error (statements_error hf₁ more ((closed holds₁).error he))
  | case4 tokens t ht more s hs e he ih =>
      obtain ⟨f₁, hf₁, holds₁, le₁⟩ := (current_sees holds).ok ht
      obtain ⟨f₂, hf₂, holds₂, lt₂⟩ := (closed holds₁).ok hs
      rw [statements_cons hf₁ more hf₂ (Nat.lt_of_lt_of_le lt₂ le₁)]
      have inside := ih holds₂
      rw [he] at inside
      exact bind_error inside
  | case5 tokens t ht more s hs body last hbody ih =>
      obtain ⟨f₁, hf₁, holds₁, le₁⟩ := (current_sees holds).ok ht
      obtain ⟨f₂, hf₂, holds₂, lt₂⟩ := (closed holds₁).ok hs
      rw [statements_cons hf₁ more hf₂ (Nat.lt_of_lt_of_le lt₂ le₁)]
      have inside := ih holds₂
      rw [hbody] at inside
      obtain ⟨f₃, hf₃⟩ := inside
      exact ⟨f₃, bind_ok hf₃⟩

/-- **Reading on demand is reading.** On a feed that holds some tokens, the program read is the one
that the tokens make up. -/
theorem program_gives (mono : Monotone m.place) (holds : feed.Holds m tail tokens) :
    Gives m ((program : Drawing σ Program) feed) (Parser.program tail tokens) := by
  have split : (program : Drawing σ Program) = current >>= fun first =>
      statements (expression nestingLimit 0) >>= fun p =>
        pure ⟨p.1, ⟨first.span.start, p.2.span.stop⟩⟩ := by
    simp only [statements, bind_assoc, pure_bind]
    rfl
  rw [split]
  unfold Parser.program
  cases hfirst : Parser.current tail tokens with
  | error e => exact bind_error ((current_sees holds).error hfirst)
  | ok first =>
      obtain ⟨front, hfront, holds', -⟩ := (current_sees holds).ok hfirst
      rw [bind_ok hfront]
      refine (statements_gives mono (expression_agrees mono nestingLimit 0) holds').bind
        (fun e he => by simp only [he]) fun p rest hp => ?_
      simp only [hp]
      exact ⟨rest, rfl⟩

end program

end Drawing

end ScriptConsole
