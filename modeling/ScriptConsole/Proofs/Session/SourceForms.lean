import ScriptConsole.Proofs.Lexing.Quoted
import ScriptConsole.Proofs.Lexing.Tiling
import ScriptConsole.Proofs.Session.Sequence
import ScriptConsole.Proofs.Values.Decimals
import ScriptConsole.Proofs.Values.Integers

/-!
# Source Forms

The results of a session are shown in a form that looks like a source text. Of a value that has a
literal, it nearly is one: followed by a semicolon, it is a program whose value is that value again,
but for two reasons. The least integer of a width is written with a minus before a number that no
integer of that width has; and a character that is written by its code point is not read as such.

The argument goes through the three stages of a session. The source form is one token or two
(`ScriptConsole.Proofs.Lexing.Quoted`), and so are the tokens of its program; programs with these
tokens consist of one literal, negated or not; and such a statement has a value in every session and
changes none.

## Main results

* `Session.comesTo_of_constant`, `Session.comesTo_of_flaw`: programs of one constant, and texts with
  a flaw.
* `Session.comesTo_integer`, `Session.comesTo_char`, `Session.comesTo_text`: what source forms come
  to.
* `source_forms_read_back`: **source forms read back**, and exactly when.
-/

namespace ScriptConsole

/-! ### Constants as programs -/

namespace Expr

/-- The value of a literal or of an operator before one. -/
def constant? : Expr → Option Value
  | .literal l _ => some l.value
  | .unary op (.literal l _) _ => (Value.unary op l.value).toOption
  | _ => none

/-- Whether an expression is a constant shows in its shape. -/
theorem constant?_shape (e : Expr) : e.shape.constant? = e.constant? := by
  cases e with
  | unary op operand span => cases operand <;> rfl
  | _ => rfl

/-- Constants are evaluated without a look at the machine. -/
theorem evalExpr_of_constant {e : Expr} {v : Value} (h : e.constant? = some v) (st : Setting)
    (fuel : Nat) (env : FrameId) : evalExpr st (fuel + 2) env e = pure v := by
  cases e with
  | literal l span =>
      cases h
      simp only [evalExpr]
  | unary op operand span =>
      cases operand with
      | literal l inner =>
          have ok : Value.unary op l.value = .ok v := by
            revert h
            show (Value.unary op l.value).toOption = some v → _
            cases Value.unary op l.value <;> simp [Except.toOption]
          simp only [evalExpr, pure_bind, ok]
          rfl
      | _ => cases h
  | _ => cases h

end Expr

namespace Session

variable {s : Session} {source : String} {tokens : List Token} {e : Expr} {v : Value}

/-- A source text whose tokens are a constant and a semicolon has that constant for its value. -/
theorem comesTo_of_constant (fits : source.utf8ByteSize ≤ s.config.maxSourceSize)
    (read : lex source = ⟨tokens, none⟩)
    (written : kinds tokens = e.written ++ [.symbol .semicolon, .eof]) (canonical : e.Canonical)
    (low : e.height ≤ nestingLimit) (constant : e.constant? = some v) :
    s.ComesTo source (.ok v, { s with machine := s.machine.reset }) := by
  have one : Program.Canonical ⟨[e], .empty 0⟩ := fun e' mem => by
    rwa [List.mem_singleton.mp mem, canonical.content_eq]
  have kinds : kinds tokens = Program.written ⟨[e], .empty 0⟩ ++ [.eof] := by
    rw [written]
    simp [Program.written]
  obtain ⟨q, parsed, shape⟩ : ∃ q, Program.ofTokens tokens = .ok q ∧
      q.shape = Program.shape ⟨[e], .empty 0⟩ := by
    rcases Parser.program_settles (lastStop tokens) one kinds rfl with ⟨-, settled⟩ | ⟨deep, -⟩
    · exact settled
    · refine absurd (Program.levels_le_iff.mpr fun e' mem => ?_) deep
      rwa [List.mem_singleton.mp mem]
  obtain ⟨e', statements, same⟩ : ∃ e', q.statements = [e'] ∧ e'.shape = e.shape :=
    List.map_eq_singleton_iff.mp (congrArg Program.statements shape)
  have value : e'.constant? = some v := by
    rw [← e'.constant?_shape, same, e.constant?_shape, constant]
  have run : evalBody s.setting 3 rootFrame .null q.statements s.machine.reset =
      (.ok v, s.machine.reset) := by
    rw [statements]
    simp only [evalBody, Expr.evalExpr_of_constant value, pure_bind]
    rfl
  refine ⟨fun h => ?_, 3, ?_⟩
  · cases h
  rw [eval_of_fits fits, Program.ofSource_of_tokens? (Lexed.tokens?_eq read), parsed]
  exact evalProgram_of_run run

/-- A source text with a flaw fails and does nothing. -/
theorem comesTo_of_flaw (fits : source.utf8ByteSize ≤ s.config.maxSourceSize) {flaw : LexError}
    (h : (lex source).flaw = some flaw) :
    ∃ err, s.ComesTo source (.error (.source err), s) := by
  obtain ⟨err, refused, -⟩ := Program.ofSource_of_flaw source h
  refine ⟨err, nofun, 0, ?_⟩
  rw [eval_of_fits fits, refused]
  rfl

end Session

/-! ### The tokens of a source form -/

namespace Cursor

variable {c : Char} {rest text : List Char} {l : Literal} (pos : Nat)

/-- A literal with a semicolon right behind it. -/
theorem lexed_literal (solid : Text.isBlank c = false) (other : c ≠ '/')
    (h : Token.scan c rest = ⟨.ok (.literal l), text, [';']⟩) :
    ∃ tokens, lexed ⟨c :: rest, pos⟩ = ⟨tokens, none⟩ ∧
      kinds tokens = [.literal l, .symbol .semicolon, .eof] := by
  have start : skipTrivia ⟨c :: rest, pos⟩ = ⟨c :: rest, pos⟩ :=
    skipTrivia_of_opens solid fun slash => other slash.1
  have first : next ⟨c :: rest, pos⟩ =
      (.ok ⟨.literal l, ⟨pos, pos + byteLength text⟩⟩, ⟨[';'], pos + byteLength text⟩) := by
    rw [next, start, tokenHere, h]
  rw [lexed_of_token first rfl, Session.lexed_semicolon]
  exact ⟨_, rfl, rfl⟩

/-- A text that begins with a flaw has no tokens. -/
theorem lexed_flaw (solid : Text.isBlank c = false) (other : c ≠ '/') {flaw : Token.Flaw}
    (h : (Token.scan c rest).outcome = .error flaw) :
    lexed ⟨c :: rest, pos⟩ = ⟨[], some ⟨flaw, pos⟩⟩ := by
  have start : skipTrivia ⟨c :: rest, pos⟩ = ⟨c :: rest, pos⟩ :=
    skipTrivia_of_opens solid fun slash => other slash.1
  have first : next ⟨c :: rest, pos⟩ = (.error ⟨flaw, pos⟩, ⟨(Token.scan c rest).rest,
      pos + byteLength (Token.scan c rest).text⟩) := by
    rw [next, start, tokenHere]
    simp only [h]
  exact lexed_of_error first

/-- A minus in front of other tokens. -/
theorem lexed_minus (rest : List Char) (pos : Nat) :
    lexed ⟨'-' :: rest, pos⟩ =
      (lexed ⟨rest, pos + 1⟩).behind [⟨.symbol .minus, ⟨pos, pos + 1⟩⟩] := by
  have first : next ⟨'-' :: rest, pos⟩ =
      (.ok ⟨.symbol .minus, ⟨pos, pos + 1⟩⟩, ⟨rest, pos + 1⟩) := by
    cases rest <;> rfl
  exact lexed_of_token first rfl

end Cursor

namespace Session

variable {s : Session} {source : String} {c : Char} {rest text : List Char} {l : Literal}

/-- A literal and a semicolon. -/
theorem comesTo_literal (fits : source.utf8ByteSize ≤ s.config.maxSourceSize)
    (chars : source.toList = c :: rest) (solid : Text.isBlank c = false) (other : c ≠ '/')
    (h : Token.scan c rest = ⟨.ok (.literal l), text, [';']⟩) :
    s.ComesTo source (.ok l.value, { s with machine := s.machine.reset }) := by
  obtain ⟨tokens, read, written⟩ := Cursor.lexed_literal 0 solid other h
  rw [← chars] at read
  exact comesTo_of_constant (e := .literal l (.empty 0)) fits read written .literal
    (Nat.succ_pos _) rfl

/-- A minus, a literal and a semicolon. -/
theorem comesTo_negated (fits : source.utf8ByteSize ≤ s.config.maxSourceSize)
    (chars : source.toList = '-' :: c :: rest) (solid : Text.isBlank c = false) (other : c ≠ '/')
    (h : Token.scan c rest = ⟨.ok (.literal l), text, [';']⟩) {v : Value}
    (value : Value.unary .negate l.value = .ok v) :
    s.ComesTo source (.ok v, { s with machine := s.machine.reset }) := by
  obtain ⟨tokens, read, written⟩ := Cursor.lexed_literal 1 solid other h
  have minus := Cursor.lexed_minus (c :: rest) 0
  rw [Nat.zero_add, read, ← chars] at minus
  have constant : (Expr.unary .negate (.literal l (.empty 0)) (.empty 0)).constant? = some v :=
    congrArg Except.toOption value
  have low : (Expr.unary .negate (.literal l (.empty 0)) (.empty 0)).height ≤ nestingLimit :=
    show 2 ≤ 128 by decide
  exact comesTo_of_constant (e := .unary .negate (.literal l (.empty 0)) (.empty 0)) fits minus
    (congrArg (Token.Kind.symbol .minus :: ·) written) (.unary .literal rfl) low constant

/-- A token with a flaw, at the start of the text or behind a minus. -/
theorem comesTo_scan_flaw (fits : source.utf8ByteSize ≤ s.config.maxSourceSize)
    (chars : source.toList = c :: rest ∨ source.toList = '-' :: c :: rest)
    (solid : Text.isBlank c = false) (other : c ≠ '/') {flaw : Token.Flaw}
    (h : (Token.scan c rest).outcome = .error flaw) :
    ∃ err, s.ComesTo source (.error (.source err), s) := by
  rcases chars with chars | chars
  · have read := Cursor.lexed_flaw 0 solid other h
    rw [← chars] at read
    exact comesTo_of_flaw fits (congrArg Lexed.flaw read)
  · have minus := Cursor.lexed_minus (c :: rest) 0
    rw [Cursor.lexed_flaw _ solid other h, ← chars] at minus
    exact comesTo_of_flaw fits (congrArg Lexed.flaw minus)

end Session

/-! ### Source forms -/

/-- The suffix of an integer of a width. -/
def Width.suffix : Width → List Char
  | narrow => []
  | wide => ['L']

/-- The suffix of a width is nothing or a letter. -/
theorem Width.suffix_eq (w : Width) : w.suffix = [] ∨ w.suffix = ['L'] := by
  cases w
  · exact .inl rfl
  · exact .inr rfl

namespace Value

open Text.Quoted

/-- The source-like text of a value, if the characters that cannot be shown as themselves are as
given. -/
def reprWith (hidden : Char → Bool) (legend : Legend) : Value → String
  | char c => String.ofList (write hidden '\'' [c])
  | text s => String.ofList (write hidden '"' s.toList)
  | v => v.repr legend

/-- A value is represented with some characters as code points. -/
theorem repr_eq_reprWith (v : Value) (legend : Legend) :
    v.repr legend = v.reprWith Text.needsCodePoint legend := by
  cases v <;> rfl

/-- A character is represented between quotes. -/
theorem toList_reprWith_char (hidden : Char → Bool) (legend : Legend) (c : Char) :
    ((char c).reprWith hidden legend).toList = write hidden '\'' [c] := String.toList_ofList

/-- So is a text. -/
theorem toList_reprWith_text (hidden : Char → Bool) (legend : Legend) (s : String) :
    ((text s).reprWith hidden legend).toList = write hidden '"' s.toList := String.toList_ofList

/-- The kinds of values that have literals which are read exactly. -/
def HasSourceForm (v : Value) : Prop :=
  v.kind ∈ [Kind.null, .bool, .int, .long, .char, .string]

/-- Whether the source-like text of a value stands for that value. -/
def ReadsBack (hidden : Char → Bool) : Value → Prop
  | int n => n.toInt ≠ Width.narrow.least
  | long n => n.toInt ≠ Width.wide.least
  | char c => ¬ByCodePoint hidden '\'' c
  | text s => ∀ c ∈ s.toList, ¬ByCodePoint hidden '"' c
  | _ => True

variable {v : Value} {w : Width} {k : Int}

/-- An integer in decimals: a minus if it is negative, and the digits of its absolute value. -/
theorem toList_repr_integer (h : v.IsInteger w k) (legend : Legend) :
    (v.repr legend).toList =
      (if k < 0 then ['-'] else []) ++ Nat.toDigits 10 k.natAbs ++ w.suffix := by
  cases h with
  | int n => exact (Number.toList_toString_int n.toInt).trans (List.append_nil _).symm
  | long n =>
      rw [← Number.toList_toString_int]
      exact String.toList_append

/-- A natural number in decimals is read as the integer of a width, if there is one. -/
theorem numberValue_toDigits (n : Nat) (w : Width) :
    (∃ l, Token.numberValue (Nat.toDigits 10 n) [] w.suffix = .ok (.literal l) ∧
      l.value.IsInteger w n) ∨
    ¬w.Holds n ∧ ∃ flaw, Token.numberValue (Nat.toDigits 10 n) [] w.suffix = .error flaw := by
  have unfit : w.value? n = none → ¬w.Holds n := fun none holds => by
    obtain ⟨v, hv⟩ := Width.holds_iff_exists.mp holds
    rw [Width.value?_eq_some_iff.mpr hv] at none
    cases none
  cases w with
  | narrow =>
      simp only [Token.numberValue, Width.suffix, Token.naturalOf_toDigits]
      cases fits : Number.int32? n with
      | some r =>
          have value : Width.narrow.value? n = some (.int r) := congrArg (Option.map _) fits
          exact .inl ⟨.int r, rfl, Width.value?_eq_some_iff.mp value⟩
      | none => exact .inr ⟨unfit (congrArg (Option.map _) fits), _, rfl⟩
  | wide =>
      simp only [Token.numberValue, Width.suffix, Token.naturalOf_toDigits]
      cases fits : Number.int64? n with
      | some r =>
          have value : Width.wide.value? n = some (.long r) := congrArg (Option.map _) fits
          exact .inl ⟨.long r, rfl, Width.value?_eq_some_iff.mp value⟩
      | none => exact .inr ⟨unfit (congrArg (Option.map _) fits), _, rfl⟩

/-- One value of a width stands for an integer. -/
theorem IsInteger.eq {v' : Value} (h : v.IsInteger w k) (h' : v'.IsInteger w k) : v' = v :=
  Option.some.inj ((Width.value?_eq_some_iff.mpr h').symm.trans (Width.value?_eq_some_iff.mpr h))

end Value

namespace Session

variable {s : Session} {source : String} {v : Value} {w : Width} {k : Int}

/-- A natural number in decimals reads as the integer of its width. -/
theorem comesTo_natural {n : Nat} (integer : v.IsInteger w n)
    (chars : source.toList = Nat.toDigits 10 n ++ w.suffix ++ [';'])
    (fits : source.utf8ByteSize ≤ s.config.maxSourceSize) :
    s.ComesTo source (.ok v, { s with machine := s.machine.reset }) := by
  obtain ⟨first, more, digits, solid, other⟩ := Token.exists_first_digit n
  have scanned := Token.scan_digits w.suffix_eq digits
  rw [digits, List.cons_append, List.cons_append] at chars
  rcases Value.numberValue_toDigits n w with ⟨l, value, literal⟩ | ⟨outside, -⟩
  · rw [value] at scanned
    rw [← integer.eq literal]
    exact comesTo_literal fits chars solid other scanned
  · exact absurd integer.holds outside

/-- A negative number in decimals reads as the integer of its width, unless it is the least one of
that width. The number behind the minus is read first, and has to be one of the width, too. -/
theorem comesTo_negative {n : Nat} (integer : v.IsInteger w (-n))
    (chars : source.toList = '-' :: (Nat.toDigits 10 n ++ w.suffix ++ [';']))
    (fits : source.utf8ByteSize ≤ s.config.maxSourceSize) :
    (-n ≠ w.least ∧ s.ComesTo source (.ok v, { s with machine := s.machine.reset })) ∨
      (-n = w.least ∧ ∃ err, s.ComesTo source (.error (.source err), s)) := by
  obtain ⟨first, more, digits, solid, other⟩ := Token.exists_first_digit n
  have scanned := Token.scan_digits w.suffix_eq digits
  have opposite : w.Holds n ↔ -(n : Int) ≠ w.least := by
    rw [← Value.holds_neg_iff integer.holds, Int.neg_neg]
  rw [digits, List.cons_append, List.cons_append] at chars
  rcases Value.numberValue_toDigits n w with ⟨l, value, literal⟩ | ⟨outside, flaw, value⟩
  · rw [value] at scanned
    have negated : Value.unary .negate l.value = .ok v := by
      rw [Value.negate_of_isInteger literal, Width.value?_eq_some_iff.mpr integer]
      rfl
    exact .inl ⟨opposite.mp literal.holds, comesTo_negated fits chars solid other scanned negated⟩
  · rw [value] at scanned
    exact .inr ⟨Decidable.not_not.mp (mt opposite.mpr outside),
      comesTo_scan_flaw fits (.inr chars) solid other (congrArg Token.Scan.outcome scanned)⟩

/-- An integer in decimals reads as that integer, unless it is the least one of its width. -/
theorem comesTo_integer (integer : v.IsInteger w k)
    (chars : source.toList = (v.repr s.legend).toList ++ [';'])
    (fits : source.utf8ByteSize ≤ s.config.maxSourceSize) :
    (k ≠ w.least ∧ s.ComesTo source (.ok v, { s with machine := s.machine.reset })) ∨
      (k = w.least ∧ ∃ err, s.ComesTo source (.error (.source err), s)) := by
  rw [Value.toList_repr_integer integer] at chars
  by_cases negative : k < 0
  · obtain ⟨n, rfl⟩ : ∃ n : Nat, k = -n := ⟨k.natAbs, by omega⟩
    rw [if_pos negative, Int.natAbs_neg, Int.natAbs_natCast] at chars
    exact comesTo_negative integer chars fits
  · obtain ⟨n, rfl⟩ := Int.eq_ofNat_of_zero_le (Int.not_lt.mp negative)
    rw [if_neg negative, Int.natAbs_natCast] at chars
    refine .inl ⟨fun least => negative ?_, comesTo_natural integer chars fits⟩
    rw [least]
    cases w <;> decide

open Text.Quoted

variable {hidden : Char → Bool}

/-- A quoted text reads as what is heard of it. -/
theorem comesTo_text {t : List Char} (chars : source.toList = write hidden '"' t ++ [';'])
    (fits : source.utf8ByteSize ≤ s.config.maxSourceSize) :
    s.ComesTo source (.ok (.text (String.ofList (t.flatMap (heard hidden '"')))),
      { s with machine := s.machine.reset }) := by
  have chars : source.toList = '"' :: (t.flatMap (writeChar hidden '"') ++ ['"', ';']) := by
    rw [chars, write]
    simp
  exact comesTo_literal fits chars rfl (by decide) (Token.scan_quotedText t)

/-- A quoted character reads as that character, unless it is written by its code point. -/
theorem comesTo_char {c : Char} (chars : source.toList = write hidden '\'' [c] ++ [';'])
    (fits : source.utf8ByteSize ≤ s.config.maxSourceSize) :
    (¬ByCodePoint hidden '\'' c ∧
        s.ComesTo source (.ok (.char c), { s with machine := s.machine.reset })) ∨
      (ByCodePoint hidden '\'' c ∧ ∃ err, s.ComesTo source (.error (.source err), s)) := by
  have chars : source.toList = '\'' :: (writeChar hidden '\'' c ++ ['\'', ';']) := by
    rw [chars, write]
    simp
  by_cases coded : ByCodePoint hidden '\'' c
  · exact .inr ⟨coded,
      comesTo_scan_flaw fits (.inl chars) rfl (by decide) (Token.scan_codePoint coded)⟩
  · exact .inl ⟨coded, comesTo_literal fits chars rfl (by decide) (Token.scan_quotedChar coded)⟩

/-- A source form comes to its value, or the value does not read back and it comes to something
else. -/
theorem comesTo_reprWith (literal : v.HasSourceForm)
    (fits : (v.reprWith hidden s.legend ++ ";").utf8ByteSize ≤ s.config.maxSourceSize) :
    v.ReadsBack hidden ∧ s.ComesTo (v.reprWith hidden s.legend ++ ";")
        (.ok v, { s with machine := s.machine.reset }) ∨
      ¬v.ReadsBack hidden ∧ ∃ o, s.ComesTo (v.reprWith hidden s.legend ++ ";") o ∧ o.1 ≠ .ok v := by
  have chars : (v.reprWith hidden s.legend ++ ";").toList =
      (v.reprWith hidden s.legend).toList ++ [';'] := String.toList_append
  generalize v.reprWith hidden s.legend ++ ";" = source at fits chars
  cases v with
  | null =>
      have chars : source.toList = ['n', 'u', 'l', 'l', ';'] := by
        rw [chars]
        simp [Value.reprWith, Value.repr, Value.render]
      exact .inl ⟨trivial, comesTo_literal fits chars rfl (by decide) Token.scan_null⟩
  | bool b =>
      cases b with
      | false =>
          have chars : source.toList = ['f', 'a', 'l', 's', 'e', ';'] := by
            rw [chars]
            simp [Value.reprWith, Value.repr, Value.render]
          exact .inl ⟨trivial, comesTo_literal fits chars rfl (by decide) Token.scan_false⟩
      | true =>
          have chars : source.toList = ['t', 'r', 'u', 'e', ';'] := by
            rw [chars]
            simp [Value.reprWith, Value.repr, Value.render]
          exact .inl ⟨trivial, comesTo_literal fits chars rfl (by decide) Token.scan_true⟩
  | int n =>
      rcases comesTo_integer (.int n) chars fits with back | ⟨least, err, fails⟩
      · exact .inl back
      · exact .inr ⟨fun other => other least, _, fails, nofun⟩
  | long n =>
      rcases comesTo_integer (.long n) chars fits with back | ⟨least, err, fails⟩
      · exact .inl back
      · exact .inr ⟨fun other => other least, _, fails, nofun⟩
  | char c =>
      rw [Value.toList_reprWith_char] at chars
      rcases comesTo_char chars fits with back | ⟨coded, err, fails⟩
      · exact .inl back
      · exact .inr ⟨fun other => other coded, _, fails, nofun⟩
  | text t =>
      rw [Value.toList_reprWith_text] at chars
      have result := comesTo_text chars fits
      by_cases h : ∀ c ∈ t.toList, ¬ByCodePoint hidden '"' c
      · rw [flatMap_heard_eq_iff.mpr h, String.ofList_toList] at result
        exact .inl ⟨h, result⟩
      · refine .inr ⟨h, _, result, fun same => h (flatMap_heard_eq_iff.mp ?_)⟩
        have same := Value.text.inj (Except.ok.inj same)
        rw [← String.toList_ofList (l := t.toList.flatMap _), same]
  | _ => simp [Value.HasSourceForm, Value.kind] at literal

end Session

/-- What the source form of a value comes to, with a semicolon behind it. -/
structure SourceFormLaw (hidden : Char → Bool) (s : Session) (v : Value) : Prop where
  /-- The form in which the session shows the value is the one for the characters that it takes for
  hidden. -/
  shown : v.repr s.legend = v.reprWith Text.needsCodePoint s.legend
  /-- It comes to the value just if the value reads back, -/
  exactly : (∃ s', s.ComesTo (v.reprWith hidden s.legend ++ ";") (.ok v, s')) ↔ v.ReadsBack hidden
  /-- and then it does nothing else. -/
  quiet : v.ReadsBack hidden → s.ComesTo (v.reprWith hidden s.legend ++ ";")
    (.ok v, { s with machine := s.machine.reset })
  /-- Whatever it is, a text comes to what is heard of it. -/
  heard : ∀ t, v = .text t → s.ComesTo (v.reprWith hidden s.legend ++ ";")
    (.ok (.text (String.ofList (t.toList.flatMap (Text.Quoted.heard hidden '"')))),
      { s with machine := s.machine.reset })

/-- **Source forms read back**, and exactly when. Take nothing, a truth value, an integer of either
width, a character or a text, and evaluate the form in which it is shown, with a semicolon behind
it. The result is that value again if and only if it is neither the least integer of its width nor
has a character that is written by its code point. Which characters these are is left open. -/
theorem source_forms_read_back (hidden : Char → Bool) {s : Session} {v : Value}
    (literal : v.HasSourceForm)
    (fits : (v.reprWith hidden s.legend ++ ";").utf8ByteSize ≤ s.config.maxSourceSize) :
    SourceFormLaw hidden s v where
  shown := v.repr_eq_reprWith s.legend
  exactly := by
    rcases Session.comesTo_reprWith literal fits with ⟨back, result⟩ | ⟨other, o, result, differs⟩
    · exact iff_of_true ⟨_, result⟩ back
    · refine iff_of_false (fun ⟨s', same⟩ => differs ?_) other
      rw [← same.unique result]
  quiet back := by
    rcases Session.comesTo_reprWith literal fits with ⟨-, result⟩ | ⟨other, -⟩
    · exact result
    · exact absurd back other
  heard t h := by
    subst h
    refine Session.comesTo_text (String.toList_append.trans ?_) fits
    rw [Value.toList_reprWith_text]
    rfl

/-- A quote reads back in a text, and an accent on its own does not. -/
theorem source_forms_read_back_accent :
    let s := Session.start Demo.registry Config.default World.empty (Console.ofInput [])
      Tracer.disabled
    let quote : Value := .text "\""
    let accent : Value := .text "\u0301"
    (quote.HasSourceForm ∧ accent.HasSourceForm ∧
        (quote.reprWith Text.needsCodePoint s.legend ++ ";").utf8ByteSize ≤
          s.config.maxSourceSize ∧
        (accent.reprWith Text.needsCodePoint s.legend ++ ";").utf8ByteSize ≤
          s.config.maxSourceSize) ∧
      s.ComesTo (quote.repr s.legend ++ ";") (.ok quote, s) ∧
      ¬∃ s', s.ComesTo (accent.repr s.legend ++ ";") (.ok accent, s') := by
  intro s quote accent
  have literal : quote.HasSourceForm ∧ accent.HasSourceForm := by
    constructor <;> simp [quote, accent, Value.HasSourceForm, Value.kind]
  have fits : (quote.reprWith Text.needsCodePoint s.legend ++ ";").utf8ByteSize ≤
        s.config.maxSourceSize ∧
      (accent.reprWith Text.needsCodePoint s.legend ++ ";").utf8ByteSize ≤
        s.config.maxSourceSize := by
    decide +kernel
  have first := source_forms_read_back Text.needsCodePoint literal.1 fits.1
  have second := source_forms_read_back Text.needsCodePoint literal.2 fits.2
  refine ⟨⟨literal.1, literal.2, fits.1, fits.2⟩, ?_, ?_⟩
  · rw [first.shown]
    refine first.quiet fun c mem => ?_
    obtain rfl : c = '"' := by simpa using mem
    decide +kernel
  · rw [second.shown, second.exactly]
    exact fun back => back '\u0301' (by simp) (by decide +kernel)

end ScriptConsole
