import ScriptConsole.Proofs.Lexing.Pieces
import ScriptConsole.Proofs.Syntax.FrontEnds
import ScriptConsole.Proofs.Syntax.Locality

/-!
# Programs in Pieces of Text

The tokens of a text are those that stand in front of its end, and its end (`ownTokens`). Where
texts are put together with a newline between them, or blanks are put behind a text, the tokens in
front of the ends are put together as well, and so are the statements that they make up. The end of
the input itself may be left out.

## Main results

* `Program.ofSource_newline`: two programs with a newline between them.
* `Program.ofSource_of_blanks`: a program with blanks behind it.
* `Program.ofSource_blanks`: a text of nothing but blanks.
* `Program.ofTokens_eof`: tokens with the end of the input behind them.
-/

namespace ScriptConsole

open Placed (move)
open Token (Kind)

/-- The tokens of a text in front of its end. -/
def ownTokens (tokens : List Token) : List Token := tokens.filter fun t => !t.kind.isEof

/-- The own tokens of a whole text are those in front of the `eof`. -/
theorem ownTokens_of_whole {front : List Token} {last : Token}
    (opens : ∀ t ∈ front, t.kind.isEof = false) (eof : last.kind = .eof) :
    ownTokens (front ++ [last]) = front := by
  have own : front.filter (fun t => !t.kind.isEof) = front := by
    rw [List.filter_eq_self]
    intro t mem
    rw [opens t mem]
    rfl
  rw [ownTokens, List.filter_append, own]
  simp [eof, Kind.isEof]

/-- The tokens of a text without a flaw: those in front of its end, and its end. -/
theorem exists_of_tokens? {source : String} {tokens : List Token}
    (h : tokens? source = .ok tokens) :
    lex source = ⟨tokens, none⟩ ∧
      tokens = ownTokens tokens ++ [⟨.eof, .empty source.utf8ByteSize⟩] ∧
      ∀ t ∈ ownTokens tokens, t.kind.isEof = false := by
  have whole : lex source = ⟨tokens, none⟩ := by
    unfold tokens? at h
    split at h
    · cases h
    · next tokens' hlex =>
      cases h
      exact hlex
  have flawless : (Cursor.ofText source).lexed.flaw = none := congrArg Lexed.flaw whole
  obtain ⟨front, htokens, opens⟩ := Cursor.tokens_of_whole flawless
  have same : tokens = front ++ [⟨.eof, .empty source.utf8ByteSize⟩] := by
    refine (congrArg Lexed.tokens whole).symm.trans (htokens.trans ?_)
    rw [Cursor.ofText, Nat.zero_add, byteLength_toList]
  refine ⟨whole, ?_, ?_⟩
  · rw [same, ownTokens_of_whole opens rfl]
  · rw [same, ownTokens_of_whole opens rfl]
    exact opens

/-- The same of what the lexer gives. -/
theorem dropLast_lexed {source : String} {tokens : List Token} (h : tokens? source = .ok tokens) :
    (Cursor.lexed ⟨source.toList, 0⟩).tokens.dropLast = ownTokens tokens := by
  obtain ⟨whole, htokens, -⟩ := exists_of_tokens? h
  have same : (Cursor.lexed ⟨source.toList, 0⟩).tokens = tokens := congrArg Lexed.tokens whole
  exact (congrArg List.dropLast (same.trans htokens)).trans List.dropLast_concat

/-- A text without a flaw has tokens. -/
theorem Lexed.tokens?_eq {source : String} {tokens : List Token} (h : lex source = ⟨tokens, none⟩) :
    tokens? source = .ok tokens := by
  rw [tokens?, h]

/-- An `eof` at the end is what stands there anyway. -/
theorem Parser.ahead_eof (stop : Nat) (tokens : List Token) (n : Nat) :
    ahead (.padding stop) (tokens ++ [⟨.eof, .empty stop⟩]) n = ahead (.padding stop) tokens n := by
  induction tokens generalizing n with
  | nil =>
      cases n with
      | zero => rfl
      | succ n => exact (ahead_nil _ n).trans (ahead_nil _ (n + 1)).symm
  | cons t rest ih =>
      cases n with
      | zero => rfl
      | succ n => exact ih n

/-- The end of the input may be among the tokens or not. -/
theorem Program.ofTokens_eof (tokens : List Token) :
    ofTokens (tokens ++ [⟨.eof, .empty (lastStop tokens)⟩]) = ofTokens tokens := by
  have stop : lastStop (tokens ++ [⟨.eof, .empty (lastStop tokens)⟩]) = lastStop tokens := by
    rw [lastStop, List.getLast?_concat]
    rfl
  have holds := Feed.holds_self (tokens ++ [⟨.eof, .empty (lastStop tokens)⟩])
  rw [stop] at holds
  have fewer : (Feed.ofSupply (tokens ++ [⟨.eof, .empty (lastStop tokens)⟩])).Holds .none
      (.padding (lastStop tokens)) tokens := fun n =>
    (holds n).trans (congrArg _ (Parser.ahead_eof (lastStop tokens) tokens n))
  rw [← ofSupply_list, ofSupply_eq monotone_id fewer, Motion.outcome_none, ofTokens]

/-- An `eof` alone is the empty program. -/
theorem Program.ofTokens_singleton_eof (span : Span) :
    ofTokens [⟨.eof, span⟩] = .ok ⟨[], span⟩ := by
  rw [ofTokens, Parser.program, Parser.statements]
  rfl

/-- The tokens of two texts with a newline between them: those of the first in front of its end, and
those of the second, which stand further back by the first text and the newline. -/
theorem tokens?_newline {first second : String} {tokens more : List Token}
    (hfirst : tokens? first = .ok tokens) (hsecond : tokens? second = .ok more) :
    tokens? (first ++ "\n" ++ second) =
      .ok (ownTokens tokens ++ move (· + (first.utf8ByteSize + 1)) more) := by
  obtain ⟨whole, -, -⟩ := exists_of_tokens? hfirst
  obtain ⟨whole', -, -⟩ := exists_of_tokens? hsecond
  have flawless : (Cursor.lexed ⟨first.toList, 0⟩).flaw = none := congrArg Lexed.flaw whole
  have text : (first ++ "\n" ++ second).toList = first.toList ++ '\n' :: second.toList := by
    rw [String.toList_append, String.toList_append, List.append_assoc]
    rfl
  have back : Cursor.lexed ⟨second.toList, 0 + byteLength first.toList + 1⟩ =
      move (· + (first.utf8ByteSize + 1)) (Lexed.mk more none) := by
    have moved := Cursor.lexed_move (first.utf8ByteSize + 1) ⟨second.toList, 0⟩
    rw [show Cursor.lexed ⟨second.toList, 0⟩ = ⟨more, none⟩ from whole'] at moved
    rw [← moved, byteLength_toList]
    rfl
  refine Lexed.tokens?_eq ?_
  show Cursor.lexed ⟨(first ++ "\n" ++ second).toList, 0⟩ = _
  rw [text, Cursor.lexed_newline flawless, dropLast_lexed hfirst, back]
  rfl

/-- Two programs with a newline between them: the statements of the first, and then those of the
second, which stand further back by the first text and the newline. -/
theorem Program.ofSource_newline {first second : String} {p q : Program}
    (hp : ofSource first = .ok p) (hq : ofSource second = .ok q) :
    ∃ r, ofSource (first ++ "\n" ++ second) = .ok r ∧
      r.statements = p.statements ++ move (· + (first.utf8ByteSize + 1)) q.statements := by
  obtain ⟨tokens, htokens, hp⟩ := exists_tokens hp
  obtain ⟨more, hmore, hq⟩ := exists_tokens hq
  obtain ⟨-, own, opens⟩ := exists_of_tokens? htokens
  obtain ⟨-, own', -⟩ := exists_of_tokens? hmore
  have some : more ≠ [] := own' ▸ List.append_ne_nil_of_right_ne_nil _ (List.cons_ne_nil _ [])
  have mono : Monotone (· + (first.utf8ByteSize + 1)) := fun _ _ le => Nat.add_le_add_right le _
  have moved := ofTokens_move mono some
  rw [hq] at moved
  have some' : move (· + (first.utf8ByteSize + 1)) more ≠ [] := by
    simpa [move] using some
  rw [own] at hp
  obtain ⟨r, hr, statements⟩ := ofTokens_append opens rfl hp some' moved
  refine ⟨r, ?_, statements⟩
  rw [ofSource_of_tokens? (tokens?_newline htokens hmore)]
  exact hr

/-- The last token of a program, in front of its end, is a semicolon. -/
theorem Program.getLast_ownTokens {source : String} {p : Program} (h : ofSource source = .ok p)
    {tokens : List Token} (htokens : tokens? source = .ok tokens) {t : Token}
    (ht : (ownTokens tokens).getLast? = some t) : t.kind = .symbol .semicolon := by
  obtain ⟨-, own, opens⟩ := exists_of_tokens? htokens
  rw [ofSource_of_tokens? htokens, own] at h
  exact getLast_of_ofTokens opens rfl h ht

/-- A program that ends with blanks is one without them, with the same statements. -/
theorem Program.ofSource_of_blanks {source text : String} {blanks : List Char}
    (parts : text.toList = source.toList ++ blanks)
    (all : ∀ c ∈ blanks, Text.isBlank c = true) {p : Program} (h : ofSource text = .ok p) :
    ∃ q, ofSource source = .ok q ∧ q.statements = p.statements := by
  obtain ⟨wholeTokens, htext, hp⟩ := exists_tokens h
  obtain ⟨whole, -, -⟩ := exists_of_tokens? htext
  have apart : lex text = (Cursor.before ⟨source.toList, 0⟩ blanks).lexed := by
    show Cursor.lexed ⟨text.toList, 0⟩ = _
    rw [parts]
    rfl
  have flawless : (Cursor.lexed ⟨source.toList, 0⟩).flaw = none :=
    Cursor.flaw_of_before_blanks all (by rw [← apart, whole])
  obtain ⟨tokens, htokens⟩ : ∃ tokens, tokens? source = .ok tokens :=
    ⟨_, Lexed.tokens?_eq (congrArg (Lexed.mk _) flawless)⟩
  obtain ⟨-, own, opens⟩ := exists_of_tokens? htokens
  -- the blanks only move the end of the input
  obtain ⟨pos, moved⟩ := Cursor.lexed_blanks all flawless
  rw [← apart, whole, dropLast_lexed htokens] at moved
  rw [(Lexed.mk.inj moved).1] at hp
  obtain ⟨q, hq, statements⟩ := ofTokens_append opens rfl hp (List.cons_ne_nil _ [])
    (ofTokens_singleton_eof (.empty source.utf8ByteSize))
  refine ⟨q, ?_, statements.trans (List.append_nil _)⟩
  rw [ofSource_of_tokens? htokens, own]
  exact hq

/-- A text of nothing but blanks is a program without statements. -/
theorem Program.ofSource_blanks {text : String} (all : ∀ c ∈ text.toList, Text.isBlank c = true) :
    ∃ p, ofSource text = .ok p ∧ p.statements = [] := by
  have nothing : lex "" = ⟨[⟨.eof, .empty 0⟩], none⟩ := by cbv
  have flawless : (Cursor.lexed ⟨"".toList, 0⟩).flaw = none := congrArg Lexed.flaw nothing
  obtain ⟨pos, moved⟩ := Cursor.lexed_blanks all flawless
  have whole : lex text = ⟨[⟨.eof, .empty pos⟩], none⟩ := by
    rw [show Cursor.lexed ⟨"".toList, 0⟩ = _ from nothing] at moved
    exact moved
  refine ⟨⟨[], .empty pos⟩, ?_, rfl⟩
  rw [ofSource_of_tokens? (Lexed.tokens?_eq whole)]
  exact ofTokens_singleton_eof _

/-- A blank is one byte. -/
theorem byteLength_replicate_blank (n : Nat) : byteLength (List.replicate n ' ') = n := by
  induction n with
  | zero => rfl
  | succ n ih =>
      rw [List.replicate_succ, byteLength_cons, ih, Nat.add_comm]
      rfl

/-- A program behind blanks and a newline stands further back by as much. -/
theorem Program.ofSource_behind_blanks (n : Nat) {source : String} {q : Program}
    (hq : ofSource source = .ok q) :
    ∃ p r, ofSource (String.ofList (List.replicate n ' ')) = .ok p ∧
      ofSource (String.ofList (List.replicate n ' ') ++ "\n" ++ source) = .ok r ∧
      r.statements = move (· + (n + 1)) q.statements := by
  have size : (String.ofList (List.replicate n ' ')).utf8ByteSize = n := by
    rw [← byteLength_toList, String.toList_ofList, byteLength_replicate_blank]
  have all : ∀ c ∈ (String.ofList (List.replicate n ' ')).toList, Text.isBlank c = true := by
    intro c mem
    rw [String.toList_ofList] at mem
    rw [List.eq_of_mem_replicate mem]
    decide
  obtain ⟨p, hp, none⟩ := ofSource_blanks all
  obtain ⟨r, hr, parts⟩ := ofSource_newline hp hq
  rw [none, size, List.nil_append] at parts
  exact ⟨p, r, hp, hr, parts⟩

end ScriptConsole
