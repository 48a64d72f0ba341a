import ScriptConsole.Host.Demo
import ScriptConsole.Proofs.Session.Operations
import ScriptConsole.Proofs.Syntax.Sources

/-!
# The Semicolon That a Line Lacks

A line may be typed without the semicolon of its last statement. Whether one is missing is decided
on the tokens of the line; what is evaluated is another text, the line with a newline and a
semicolon behind it. Its tokens are those of the line and the semicolon, whatever the line ends
with: the newline ends a comment, and no name, number, operator or quoted text goes on behind it.

A line with a malformed token is left as it is. It cannot be evaluated, not even in part, because no
text with a flaw is a program.

## Main results

* `Session.tokens_terminated`: the tokens of the text that is evaluated.
* `Session.evalLine_law`: what a line is evaluated as.
-/

namespace ScriptConsole

open Token (Kind)

namespace Session

/-! ### Where a semicolon is missing -/

/-- The semicolon on a line of its own, behind a text of so many bytes. -/
def semicolonBehind (size : Nat) : Token := ⟨.symbol .semicolon, ⟨size + 1, size + 2⟩⟩

/-- A semicolon alone is one token and the `eof`. -/
theorem lexed_semicolon (pos : Nat) : Cursor.lexed ⟨[';'], pos⟩ =
    ⟨[⟨.symbol .semicolon, ⟨pos, pos + 1⟩⟩, ⟨.eof, .empty (pos + 1)⟩], none⟩ := by
  have first : Cursor.next ⟨[';'], pos⟩ =
      (.ok ⟨.symbol .semicolon, ⟨pos, pos + 1⟩⟩, ⟨[], pos + 1⟩) := rfl
  have last : Cursor.next ⟨[], pos + 1⟩ = (.ok ⟨.eof, .empty (pos + 1)⟩, ⟨[], pos + 1⟩) := rfl
  rw [Cursor.lexed_of_token first rfl, Cursor.lexed_of_eof last rfl]
  rfl

/-- Whether tokens are none at all or end with a semicolon. -/
def Closed (tokens : List Token) : Prop :=
  ∀ t, (ownTokens tokens).getLast? = some t → t.kind = .symbol .semicolon

/-- A line needs no terminator if its last token closes it. -/
theorem needsTerminator_eq_false_iff {line : String} {tokens : List Token}
    (h : tokens? line = .ok tokens) : needsTerminator line = false ↔ Closed tokens := by
  obtain ⟨-, htokens, opens⟩ := exists_of_tokens? h
  have last : tokens.reverse.find? (fun t => !t.kind.isEof) = (ownTokens tokens).getLast? := by
    rw [← List.head?_filter, List.filter_reverse, List.head?_reverse]
    rfl
  unfold needsTerminator Closed
  simp only [h, last]
  cases (ownTokens tokens).getLast? with
  | none => simp
  | some t => simp [Kind.isSymbol_iff]

/-- The tokens of a line with its missing semicolon. -/
theorem tokens_terminated {line : String} {tokens : List Token} (h : tokens? line = .ok tokens)
    (lacks : ¬Closed tokens) :
    tokens? (terminated line) = .ok (ownTokens tokens ++ [semicolonBehind line.utf8ByteSize,
      ⟨.eof, .empty (line.utf8ByteSize + 2)⟩]) := by
  obtain ⟨whole, -, -⟩ := exists_of_tokens? h
  have flawless : (Cursor.lexed ⟨line.toList, 0⟩).flaw = none := congrArg Lexed.flaw whole
  have lacks' : needsTerminator line = true := by
    rw [← Bool.not_eq_false, needsTerminator_eq_false_iff h]
    exact lacks
  refine Lexed.tokens?_eq ?_
  have text : (terminated line).toList = line.toList ++ '\n' :: [';'] := by
    rw [terminated, if_pos lacks', String.toList_append]
    rfl
  show Cursor.lexed ⟨(terminated line).toList, 0⟩ = _
  rw [text, Cursor.lexed_newline flawless, dropLast_lexed h, lexed_semicolon, byteLength_toList,
    Nat.zero_add]
  rfl

/-- A line whose last token closes it stays as it is. -/
theorem terminated_of_closed {line : String} {tokens : List Token}
    (h : tokens? line = .ok tokens) (closes : Closed tokens) : terminated line = line := by
  rw [terminated, (needsTerminator_eq_false_iff h).mpr closes]
  rfl

/-! ### Sizes and blanks -/

/-- Blanks are all that is trimmed. -/
theorem toList_trimmed (line : String) : ∃ blanks,
    line.toList = (trimmed line).toList ++ blanks ∧ ∀ c ∈ blanks, Text.isBlank c = true := by
  obtain ⟨blanks, h, all⟩ := Text.eq_dropBlankEnd_append line.toList
  refine ⟨blanks, ?_, all⟩
  rw [trimmed, String.toList_ofList]
  exact h

/-- A terminator takes two bytes at most. -/
theorem utf8ByteSize_terminated_le (line : String) :
    (terminated line).utf8ByteSize ≤ line.utf8ByteSize + 2 := by
  unfold terminated
  split
  · rw [String.utf8ByteSize_append]
    exact Nat.le_refl _
  · exact Nat.le_add_right _ _

/-! ### The law -/

/-- What a session makes of what is read of a text. -/
def evalRead (fuel : Nat) (read : Except SourceError Program) (s : Session) :
    Except Failure Value × Session :=
  match read with
  | .error e => (.error (.source e), s)
  | .ok p => s.evalProgram fuel p

/-- A result together with the session that has printed it. -/
def reported (outcome : Except Failure Value × Session) : Except Failure Value × Session :=
  (outcome.1, outcome.2.report outcome.1)

/-- A source that is not too long is read and run. -/
theorem eval_of_fits {source : String} {s : Session}
    (fits : source.utf8ByteSize ≤ s.config.maxSourceSize) (fuel : Nat) :
    s.eval fuel source = s.evalRead fuel (Program.ofSource source) := by
  rw [eval, if_neg (Nat.not_lt.mpr fits)]
  cases Program.ofSource source <;> rfl

/-- A program is evaluated by its statements. -/
theorem evalProgram_of_statements {fuel : Nat} {p q : Program} {s : Session}
    (same : p.statements = q.statements) : s.evalProgram fuel p = s.evalProgram fuel q := by
  simp only [evalProgram, ScriptConsole.evalProgram, same]

/-- What a line is evaluated as. -/
structure LineLaw (fuel : Nat) (line : String) (s : Session) : Prop where
  /-- A line with a malformed token fails, and nothing of it is evaluated. -/
  flawed : ∀ e, tokens? (trimmed line) = .error e →
    ∃ err, s.evalLine fuel line = reported (.error (.source err), s)
  /-- A line that lacks no semicolon gets none. -/
  closed : ∀ tokens, tokens? (trimmed line) = .ok tokens → Closed tokens →
    terminated (trimmed line) = trimmed line ∧
      s.evalLine fuel line = reported (s.evalRead fuel (Program.ofSource (trimmed line)))
  /-- Any other line is evaluated as its tokens with one semicolon behind them. -/
  opened : ∀ tokens, tokens? (trimmed line) = .ok tokens → ¬Closed tokens →
    s.evalLine fuel line = reported (s.evalRead fuel (Program.ofTokens
      (ownTokens tokens ++ [semicolonBehind (trimmed line).utf8ByteSize])))
  /-- Where that semicolon stands does not matter to the statements. -/
  anywhere : ∀ tokens, tokens? (trimmed line) = .ok tokens → ∀ semi semi' : Token,
    semi.kind = .symbol .semicolon → semi'.kind = .symbol .semicolon →
    (Program.ofTokens (ownTokens tokens ++ [semi])).toOption.map Program.statements =
      (Program.ofTokens (ownTokens tokens ++ [semi'])).toOption.map Program.statements
  /-- The text that is evaluated consists of these tokens, in their places, and the end. -/
  supplied : ∀ tokens, tokens? (trimmed line) = .ok tokens → ¬Closed tokens →
    tokens? (terminated (trimmed line)) = .ok (ownTokens tokens ++
      [semicolonBehind (trimmed line).utf8ByteSize,
        ⟨.eof, .empty ((trimmed line).utf8ByteSize + 2)⟩])
  /-- A line that is a program already is evaluated as such. -/
  program : ∀ p, Program.ofSource line = .ok p → line.utf8ByteSize ≤ s.config.maxSourceSize →
    s.evalLine fuel line = reported (s.eval fuel line)

/-- **The missing semicolon.** What a line is evaluated as, where the text with its semicolon is not
too large: as its tokens, with one semicolon behind them if they lack one, and not at all if one of
them is malformed. -/
theorem evalLine_law (fuel : Nat) (line : String) (s : Session)
    (fits : (terminated (trimmed line)).utf8ByteSize ≤ s.config.maxSourceSize) :
    LineLaw fuel line s where
  flawed e flaw := by
    have same : terminated (trimmed line) = trimmed line := by
      rw [terminated, needsTerminator, flaw]
      rfl
    obtain ⟨err, herr, -⟩ := Program.ofSource_of_malformed flaw
    refine ⟨err, ?_⟩
    show reported (s.eval fuel (terminated (trimmed line))) = _
    rw [eval_of_fits fits, same, herr]
    rfl
  closed tokens h closes := by
    have same := terminated_of_closed h closes
    refine ⟨same, ?_⟩
    show reported (s.eval fuel (terminated (trimmed line))) = _
    rw [eval_of_fits fits, same]
  opened tokens h lacks := by
    have read : Program.ofSource (terminated (trimmed line)) =
        Program.ofTokens (ownTokens tokens ++ [semicolonBehind (trimmed line).utf8ByteSize]) := by
      have ended := Program.ofTokens_eof
        (ownTokens tokens ++ [semicolonBehind (trimmed line).utf8ByteSize])
      rw [lastStop, List.getLast?_concat, List.append_assoc] at ended
      exact (Program.ofSource_of_tokens? (tokens_terminated h lacks)).trans ended
    show reported (s.eval fuel (terminated (trimmed line))) = _
    rw [eval_of_fits fits, read]
  anywhere tokens h semi semi' kind kind' := by
    obtain ⟨-, -, opens⟩ := exists_of_tokens? h
    cases hp : Program.ofTokens (ownTokens tokens ++ [semi]) with
    | ok p =>
        obtain ⟨q, hq, same⟩ := Program.ofTokens_semicolon opens kind hp kind'
        rw [hq]
        exact congrArg some same.symm
    | error e =>
        cases hq : Program.ofTokens (ownTokens tokens ++ [semi']) with
        | error e' => rfl
        | ok q =>
            obtain ⟨p, hp', -⟩ := Program.ofTokens_semicolon opens kind' hq kind
            cases hp.symm.trans hp'
  supplied tokens h lacks := tokens_terminated h lacks
  program p h small := by
    obtain ⟨blanks, parts, all⟩ := toList_trimmed line
    obtain ⟨q, hq, same⟩ := Program.ofSource_of_blanks parts all h
    obtain ⟨tokens, htokens, -⟩ := Program.exists_tokens hq
    have kept := terminated_of_closed htokens fun t ht => Program.getLast_ownTokens hq htokens ht
    show reported (s.eval fuel (terminated (trimmed line))) = _
    rw [eval_of_fits fits, eval_of_fits small, kept, hq, h]
    exact congrArg reported (evalProgram_of_statements same)

/-- The law on a line that ends with a comment and lacks a semicolon. -/
theorem evalLine_law_comment :
    let line := "1 // one "
    let s := Session.start Demo.registry Config.default World.empty (Console.ofInput [])
      Tracer.disabled
    (terminated (trimmed line)).utf8ByteSize ≤ s.config.maxSourceSize ∧
      s.evalLine 3 line = reported (s.evalRead 3 (Program.ofTokens
        [⟨.literal (.int 1), ⟨0, 1⟩⟩, semicolonBehind 8])) := by
  intro line s
  have text : trimmed line = "1 // one" := by decide +kernel
  have fits : (terminated (trimmed line)).utf8ByteSize ≤ s.config.maxSourceSize := by
    rw [text]
    exact Nat.le_trans (utf8ByteSize_terminated_le _) (by decide)
  have tokens : tokens? (trimmed line) =
      .ok [⟨.literal (.int 1), ⟨0, 1⟩⟩, ⟨.eof, ⟨8, 8⟩⟩] := by
    rw [text]
    decide +kernel
  have lacks : ¬Closed [⟨.literal (.int 1), ⟨0, 1⟩⟩, ⟨.eof, ⟨8, 8⟩⟩] := by
    intro closes
    cases closes _ rfl
  have law := (evalLine_law 3 line s fits).opened _ tokens lacks
  rw [text] at law
  exact ⟨fits, law⟩

end Session

end ScriptConsole
