import ScriptConsole.Proofs.Lexing.Longest
import ScriptConsole.Text.Quoted

/-!
# Written Values as Tokens

The form in which values are shown and the form in which they are read were made apart from each
other. A quoted text writes NUL, tab, carriage return, newline, the backslash and its delimiter as
the lexer reads them. A code point, however, is nothing to the lexer but an escaped `u` with some
characters behind it: `Text.Quoted.heard` is what it hears of each character. So a text is read back
unless some character in it is written by its code point; if one is, the text that is read is
longer. A character between single quotes has no room for more than one, and is not read at all.

A number that is written in decimals is read as that number, as far as it fits its width.

## Main results

* `Text.Quoted.writeChar_cases`: the three ways to write a character.
* `Token.scan_quotedText`, `Text.Quoted.flatMap_heard_eq_iff`: quoted texts.
* `Token.scan_quotedChar`, `Token.scan_codePoint`: quoted characters.
* `Token.scan_digits`: numbers.
-/

namespace ScriptConsole

/-! ### How characters are written -/

namespace Text.Quoted

variable {hidden : Char → Bool} {d c : Char}

/-- Whether a character is written by its code point. -/
def ByCodePoint (hidden : Char → Bool) (d c : Char) : Prop := writeChar hidden d c = codePoint c

instance (hidden : Char → Bool) (d c : Char) : Decidable (ByCodePoint hidden d c) :=
  inferInstanceAs (Decidable (writeChar hidden d c = codePoint c))

/-- What the lexer hears of a character that is written between delimiters. -/
def heard (hidden : Char → Bool) (d c : Char) : List Char :=
  if ByCodePoint hidden d c then 'u' :: '\x7b' :: Nat.toDigits 16 c.toNat ++ ['\x7d'] else [c]

/-- A code point is written in hexadecimal digits between braces. -/
theorem codePoint_eq (c : Char) :
    codePoint c = '\\' :: 'u' :: '\x7b' :: Nat.toDigits 16 c.toNat ++ ['\x7d'] := rfl

/-- It is longer than an escape of two characters. -/
theorem two_lt_length_codePoint (c : Char) : 2 < (codePoint c).length := by
  rw [codePoint_eq]
  simp only [List.cons_append, List.length_cons, List.length_append]
  omega

/-- A character is written by its code point, or by an escape that is read as the character, or as
itself. -/
theorem writeChar_cases (hidden : Char → Bool) (itself : Token.unescape d = d) (c : Char) :
    ByCodePoint hidden d c ∨
      ¬ByCodePoint hidden d c ∧ (∃ e, writeChar hidden d c = ['\\', e] ∧ Token.unescape e = c) ∨
      ¬ByCodePoint hidden d c ∧ writeChar hidden d c = [c] ∧ c ≠ '\\' ∧ c ≠ d ∧ c ≠ '\n' := by
  have short : ∀ {written : List Char}, writeChar hidden d c = written → written.length ≤ 2 →
      ¬ByCodePoint hidden d c := fun same le coded => by
    have long := two_lt_length_codePoint c
    rw [← show writeChar hidden d c = codePoint c from coded, same] at long
    omega
  have escape : ∀ e, writeChar hidden d c = ['\\', e] → Token.unescape e = c →
      ¬ByCodePoint hidden d c ∧ ∃ e, writeChar hidden d c = ['\\', e] ∧ Token.unescape e = c :=
    fun e same read => ⟨short same (Nat.le_refl 2), e, same, read⟩
  by_cases nul : c = '\x00'
  · exact .inr (.inl (escape '0' (by simp [writeChar, nul]) nul.symm))
  by_cases tab : c = '\t'
  · exact .inr (.inl (escape 't' (by simp [writeChar, tab]) tab.symm))
  by_cases cr : c = '\r'
  · exact .inr (.inl (escape 'r' (by simp [writeChar, cr]) cr.symm))
  by_cases nl : c = '\n'
  · exact .inr (.inl (escape 'n' (by simp [writeChar, nl]) nl.symm))
  by_cases slash : c = '\\'
  · exact .inr (.inl (escape '\\' (by simp [writeChar, slash]) slash.symm))
  by_cases delim : c = d
  · subst delim
    exact .inr (.inl (escape c (by simp [writeChar, *]) itself))
  cases hid : hidden c with
  | true => exact .inl (by simp [ByCodePoint, writeChar, *])
  | false =>
      have plain := writeChar_plain hid nul tab cr nl slash delim
      exact .inr (.inr ⟨short plain (Nat.le_succ 1), plain, slash, delim, nl⟩)

/-- A text is heard as it is just if no character in it is written by its code point. -/
theorem flatMap_heard_eq_iff {s : List Char} :
    s.flatMap (heard hidden d) = s ↔ ∀ c ∈ s, ¬ByCodePoint hidden d c := by
  have longer : ∀ s : List Char, s.length ≤ (s.flatMap (heard hidden d)).length := fun s => by
    induction s with
    | nil => exact Nat.le_refl 0
    | cons c s ih =>
        rw [List.flatMap_cons, List.length_append, List.length_cons, heard]
        split <;> simp only [List.cons_append, List.length_cons, List.length_nil] <;> omega
  induction s with
  | nil => simp
  | cons c s ih =>
      rw [List.flatMap_cons, List.forall_mem_cons]
      by_cases coded : ByCodePoint hidden d c
      · refine iff_of_false (fun same => ?_) (fun all => all.1 coded)
        have lengths := congrArg List.length same
        have := longer s
        rw [heard, if_pos coded] at lengths
        simp only [List.cons_append, List.length_cons, List.length_append] at lengths
        omega
      · rw [heard, if_neg coded, List.singleton_append, List.cons_inj_right]
        exact ih.trans (and_iff_right coded).symm

end Text.Quoted

/-! ### How they are read -/

namespace Token

open Text.Quoted

variable {hidden : Char → Bool} {value taken rest : List Char} {c : Char}

/-- Digits of any base are neither quotes nor backslashes. -/
theorem ne_of_mem_toDigits {n : Nat} (h : c ∈ Nat.toDigits 16 n) : c ≠ '\\' ∧ c ≠ '"' := by
  induction n using Nat.strongRecOn with
  | ind n ih =>
      rw [Nat.toDigits_eq_if (by decide)] at h
      split at h
      · rw [List.mem_singleton.mp h]
        exact ⟨Nat.digitChar_ne _ rfl, Nat.digitChar_ne _ rfl⟩
      · rcases List.mem_append.mp h with front | last
        · exact ih (n / 16) (by omega) front
        · rw [List.mem_singleton.mp last]
          exact ⟨Nat.digitChar_ne _ rfl, Nat.digitChar_ne _ rfl⟩

/-- Characters that are neither quotes nor backslashes stand for themselves in a text. -/
theorem scanText_plain {run : List Char} (plain : ∀ c ∈ run, c ≠ '\\' ∧ c ≠ '"') :
    scanText value taken (run ++ rest) =
      scanText (run.reverse ++ value) (run.reverse ++ taken) rest := by
  induction run generalizing value taken with
  | nil => rfl
  | cons c run ih =>
      obtain ⟨⟨slash, quote⟩, more⟩ := List.forall_mem_cons.mp plain
      rw [List.cons_append, scanText_cons slash quote, ih more]
      simp only [List.reverse_cons, List.append_assoc, List.singleton_append]

/-- A character in a quoted text is read as what is heard of it. -/
theorem scanText_writeChar (c : Char) :
    scanText value taken (writeChar hidden '"' c ++ rest) =
      scanText ((heard hidden '"' c).reverse ++ value)
        ((writeChar hidden '"' c).reverse ++ taken) rest := by
  rcases writeChar_cases (d := '"') hidden rfl c with coded | ⟨other, e, written, read⟩ |
    ⟨other, written, slash, quote, -⟩
  · have plain : ∀ x ∈ '\x7b' :: Nat.toDigits 16 c.toNat ++ ['\x7d'], x ≠ '\\' ∧ x ≠ '"' := by
      intro x mem
      rcases List.mem_append.mp mem with front | last
      · rcases List.mem_cons.mp front with rfl | digit
        · decide
        · exact ne_of_mem_toDigits digit
      · rw [List.mem_singleton.mp last]
        decide
    have written : writeChar hidden '"' c = codePoint c := coded
    rw [heard, if_pos coded, written, codePoint_eq]
    refine (scanText_plain plain).trans ?_
    simp only [List.reverse_cons, List.append_assoc, List.cons_append, List.nil_append]
    rfl
  · rw [heard, if_neg other, written]
    subst read
    rfl
  · rw [heard, if_neg other, written]
    exact scanText_plain (by simpa using ⟨slash, quote⟩)

/-- A text is scanned as it is written, by induction on its characters. -/
theorem scanText_flatMap {s : List Char} :
    scanText value taken (s.flatMap (writeChar hidden '"') ++ '"' :: rest) =
      ⟨.ok (.literal (.text (String.ofList (value.reverse ++ s.flatMap (heard hidden '"'))))),
        taken.reverse ++ s.flatMap (writeChar hidden '"') ++ ['"'], rest⟩ := by
  induction s generalizing value taken with
  | nil => simp [scanText]
  | cons c s ih =>
      rw [List.flatMap_cons, List.flatMap_cons, List.append_assoc, scanText_writeChar, ih]
      simp only [List.reverse_append, List.reverse_reverse, List.append_assoc]

/-- A character that no longer operator starts with. -/
theorem scan_eq_scanOne (alone : ∀ next, double? c next = none) (rest : List Char) :
    scan c rest = scanOne c rest := by
  cases rest with
  | nil => rfl
  | cons next rest => rw [scan, alone]

/-- A quoted text is a token. -/
theorem scan_quotedText (s : List Char) :
    scan '"' (s.flatMap (writeChar hidden '"') ++ '"' :: rest) =
      ⟨.ok (.literal (.text (String.ofList (s.flatMap (heard hidden '"'))))),
        '"' :: s.flatMap (writeChar hidden '"') ++ ['"'], rest⟩ :=
  (scan_eq_scanOne (fun _ => rfl) _).trans scanText_flatMap

/-- A quoted character is a token, unless it is written by its code point; -/
theorem scan_quotedChar (other : ¬ByCodePoint hidden '\'' c) :
    scan '\'' (writeChar hidden '\'' c ++ '\'' :: rest) =
      ⟨.ok (.literal (.char c)), '\'' :: (writeChar hidden '\'' c ++ ['\'']), rest⟩ := by
  refine (scan_eq_scanOne (fun _ => rfl) _).trans (scanChar_eq_ok_iff.mpr ?_)
  refine ⟨writeChar hidden '\'' c, c, rfl, rfl, rfl, ?_⟩
  rcases writeChar_cases (d := '\'') hidden rfl c with coded | ⟨-, e, written, read⟩ |
    ⟨-, written, slash, quote, newline⟩
  · exact absurd coded other
  · exact .inr ⟨e, written, read.symm⟩
  · exact .inl ⟨written, newline, quote, slash⟩

/-- if it is, its quote is not found where it would have to be. -/
theorem scan_codePoint (coded : ByCodePoint hidden '\'' c) :
    (scan '\'' (writeChar hidden '\'' c ++ '\'' :: rest)).outcome = .error .unterminatedChar := by
  have written : writeChar hidden '\'' c = codePoint c := coded
  rw [written, codePoint_eq, scan_eq_scanOne fun _ => rfl]
  rfl

/-! ### Numbers -/

/-- The digits of a natural number stand for it. -/
theorem naturalOf_toDigits (n : Nat) : naturalOf (Nat.toDigits 10 n) = n := by
  have read := Nat.ofDigitChars_ten_toDigits (n := n)
  rw [Nat.ofDigitChars_eq_foldl] at read
  simp only [Nat.mul_comm 10] at read
  exact read

/-- A digit starts a number and nothing else. -/
theorem scan_of_isDigit (digit : c.isDigit = true) (rest : List Char) :
    scan c rest = scanNumber c rest := by
  have ne : ∀ x : Char, x.isDigit = false → c ≠ x := fun x other same => by
    rw [same, other] at digit
    cases digit
  have double : ∀ next, double? c next = none := fun next => by
    simp only [double?, ne '&' rfl, ne '|' rfl, ne '=' rfl, ne '!' rfl, ne '<' rfl, ne '>' rfl,
      false_and, if_false]
  have single : single? c = none := by
    simp only [single?, ne '(' rfl, ne ')' rfl, ne '\x7b' rfl, ne '\x7d' rfl, ne ',' rfl,
      ne ';' rfl, ne '.' rfl, ne '=' rfl, ne '+' rfl, ne '-' rfl, ne '*' rfl, ne '/' rfl,
      ne '%' rfl, ne '<' rfl, ne '>' rfl, ne '!' rfl, if_false]
  rw [scan_eq_scanOne double, scanOne, single]
  simp only [ne '"' rfl, ne '\'' rfl, digit, if_false, if_true]

/-- Decimals start with a digit, before which no blank or comment is skipped. -/
theorem exists_first_digit (n : Nat) :
    ∃ first more, Nat.toDigits 10 n = first :: more ∧ Text.isBlank first = false ∧ first ≠ '/' := by
  obtain ⟨first, more, digits⟩ :=
    List.exists_cons_of_ne_nil (Nat.toDigits_ne_nil (n := n) (b := 10))
  have digit : first.isDigit = true :=
    Nat.isDigit_of_mem_toDigits (by decide) (Nat.le_refl 10) (digits ▸ List.mem_cons_self)
  refine ⟨first, more, digits, Bool.eq_false_iff.mpr fun blank => ?_, ?_⟩
  · have part := Text.isNamePart_eq_false_of_isBlank blank
    simp only [Text.isNamePart, Text.isNumeric_of_isDigit digit, Bool.or_true, Bool.true_or] at part
    cases part
  · rintro rfl
    cases digit

/-- A written number is scanned as a whole, up to the semicolon behind it. -/
theorem scan_digits {n : Nat} {suffix : List Char} (either : suffix = [] ∨ suffix = ['L'])
    {first : Char} {more : List Char} (digits : Nat.toDigits 10 n = first :: more) :
    scan first (more ++ suffix ++ [';']) =
      ⟨numberValue (Nat.toDigits 10 n) [] suffix, Nat.toDigits 10 n ++ suffix, [';']⟩ := by
  have all : ∀ c ∈ first :: more, c.isDigit = true := fun c mem =>
    Nat.isDigit_of_mem_toDigits (by decide) (Nat.le_refl 10) (digits ▸ mem)
  obtain ⟨digit, rest⟩ := List.forall_mem_cons.mp all
  have behind : (suffix ++ [';']).takeWhile Char.isDigit = [] ∧
      (suffix ++ [';']).dropWhile Char.isDigit = suffix ++ [';'] := by
    rcases either with rfl | rfl <;> exact ⟨rfl, rfl⟩
  have fraction : spanFraction (suffix ++ [';']) = ([], suffix ++ [';']) := by
    rcases either with rfl | rfl <;> rfl
  have wide : spanSuffix (suffix ++ [';']) = (suffix, [';']) := by
    rcases either with rfl | rfl <;> rfl
  have stop : [';'].takeWhile Text.isNamePart = [] ∧ [';'].dropWhile Text.isNamePart = [';'] :=
    ⟨rfl, rfl⟩
  rw [scan_of_isDigit digit, digits, scanNumber, List.append_assoc,
    List.takeWhile_append_of_pos rest, List.dropWhile_append_of_pos rest]
  simp [behind, fraction, wide, stop]

/-! ### Words -/

/-- The word for null is scanned up to a semicolon. -/
theorem scan_null : scan 'n' ['u', 'l', 'l', ';'] =
    ⟨.ok (.literal .null), ['n', 'u', 'l', 'l'], [';']⟩ := by rfl

/-- So is the word for false. -/
theorem scan_false : scan 'f' ['a', 'l', 's', 'e', ';'] =
    ⟨.ok (.literal (.bool false)), ['f', 'a', 'l', 's', 'e'], [';']⟩ := by rfl

/-- So is the word for true. -/
theorem scan_true : scan 't' ['r', 'u', 'e', ';'] =
    ⟨.ok (.literal (.bool true)), ['t', 'r', 'u', 'e'], [';']⟩ := by rfl

end Token

end ScriptConsole
