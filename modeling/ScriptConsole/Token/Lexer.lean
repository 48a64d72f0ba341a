import ScriptConsole.Text.Blank
import ScriptConsole.Token.Scan

/-!
# The Lexer

A `Cursor` is what is left of a source text and how many bytes of it are gone. `Cursor.next` skips
blanks and comments, scans one token and moves behind it, also when the token is malformed; at the
end of the text it gives the token `eof` for ever. `lex` collects the tokens of a whole text up to
its end or its first malformed token.

A comment starts with `//` and ends before the next newline.

## Main results

* `length_next_lt`: a cursor moves on unless it is at the end, which is why `lex` ends.
-/

namespace ScriptConsole

/-- The number of bytes of a text in UTF-8. -/
def byteLength : List Char → Nat
  | [] => 0
  | c :: rest => c.utf8Size + byteLength rest

/-- No characters take no bytes. -/
@[simp] theorem byteLength_nil : byteLength [] = 0 := rfl

/-- The bytes of the first character, and those of the others. -/
@[simp] theorem byteLength_cons (c : Char) (s : List Char) :
    byteLength (c :: s) = c.utf8Size + byteLength s := rfl

/-- The bytes of a string are those of its characters. -/
theorem byteLength_toList (s : String) : byteLength s.toList = s.utf8ByteSize := by
  have ofList : ∀ cs : List Char, byteLength cs = (String.ofList cs).utf8ByteSize := by
    intro cs
    induction cs with
    | nil => rfl
    | cons c rest ih =>
        rw [byteLength_cons, ih, String.ofList_cons]
        simp
  rw [ofList, String.ofList_toList]

/-- The bytes of two texts are those of both. -/
@[simp] theorem byteLength_append (s t : List Char) :
    byteLength (s ++ t) = byteLength s + byteLength t := by
  induction s with
  | nil => simp
  | cons c s ih => simp [ih, Nat.add_assoc]

/-- A malformed token and where it starts. -/
structure LexError where
  flaw : Token.Flaw
  pos : Nat
  deriving DecidableEq

namespace LexError

/-- The wording of the error. -/
def message (e : LexError) : String :=
  match e.flaw with
  | .invalidChar c => s!"invalid character {Text.quotedChar c} at {e.pos}"
  | .unterminatedText => s!"unterminated string literal starting at {e.pos}"
  | .unterminatedChar => s!"unterminated character literal starting at {e.pos}"
  | .emptyChar => s!"empty character literal at {e.pos}"
  | .badNumber text => s!"invalid number literal `{text}` at {e.pos}"

end LexError

/-- A place in a source text. -/
structure Cursor where
  rest : List Char
  pos : Nat
  deriving DecidableEq

namespace Cursor

/-- The start of a text. -/
def ofText (s : String) : Cursor := ⟨s.toList, 0⟩

/-- The place behind all blanks and comments; `inComment` says that one has been opened. -/
def skip (inComment : Bool) (pos : Nat) : List Char → Cursor
  | [] => ⟨[], pos⟩
  | c :: rest =>
    if inComment then skip (c ≠ '\n') (pos + c.utf8Size) rest
    else if Text.isBlank c then skip false (pos + c.utf8Size) rest
    else if c = '/' ∧ rest.head? = some '/' then skip true (pos + c.utf8Size) rest
    else ⟨c :: rest, pos⟩

/-- The place where the next token starts. -/
def skipTrivia (c : Cursor) : Cursor := skip false c.pos c.rest

/-- The token that starts at a place, and the place behind it. -/
def tokenHere (start : Cursor) : Except LexError Token × Cursor :=
  match start with
  | ⟨[], pos⟩ => (.ok ⟨.eof, .empty pos⟩, ⟨[], pos⟩)
  | ⟨c :: rest, pos⟩ =>
    let scanned := Token.scan c rest
    let stop := pos + byteLength scanned.text
    match scanned.outcome with
    | .ok kind => (.ok ⟨kind, ⟨pos, stop⟩⟩, ⟨scanned.rest, stop⟩)
    | .error flaw => (.error ⟨flaw, pos⟩, ⟨scanned.rest, stop⟩)

/-- The next token, and the place behind it. -/
def next (cursor : Cursor) : Except LexError Token × Cursor :=
  cursor.skipTrivia.tokenHere

/-- What is skipped is not read again. -/
theorem length_skip_le (inComment : Bool) (pos : Nat) (input : List Char) :
    (skip inComment pos input).rest.length ≤ input.length := by
  fun_induction skip inComment pos input <;> simp_all <;> omega

end Cursor

namespace Token

/-- A token has a character at least. -/
theorem scanOne_text_ne_nil (c : Char) (rest : List Char) : (scanOne c rest).text ≠ [] := by
  have texts : ∀ (v t i : List Char), t ≠ [] → (scanText v t i).text ≠ [] := by
    intro v t i h
    fun_induction scanText v t i <;> simp_all
  have closes : ∀ (v : Char) (t i : List Char), t ≠ [] → (closeChar v t i).text ≠ [] := by
    intro v t i h
    cases i <;> simp [closeChar, h]
  have chars : ∀ i, (scanChar i).text ≠ [] := by
    intro i
    unfold scanChar
    split
    · simp
    split
    · simp
    split
    · simp
    split
    · split <;> simp [closes]
    · simp [closes]
  unfold scanOne
  split
  · simp
  split
  · exact texts _ _ _ (by simp)
  split
  · exact chars _
  split
  · simp [scanNumber]
  split
  · simp [scanName]
  · simp

/-- At least one character is taken. -/
theorem scan_text_ne_nil (c : Char) (rest : List Char) : (scan c rest).text ≠ [] := by
  unfold scan
  split
  · exact scanOne_text_ne_nil c []
  · split
    · simp
    · exact scanOne_text_ne_nil c _

end Token

namespace Cursor

/-- Behind a token stands what its scan has left. -/
theorem tokenHere_rest (c : Char) (rest : List Char) (pos : Nat) :
    (tokenHere ⟨c :: rest, pos⟩).2.rest = (Token.scan c rest).rest := by
  unfold tokenHere
  split
  · simp_all
  · rename_i c' rest' pos' h
    cases h
    simp only
    split <;> rfl

/-- A token makes the rest shorter. -/
theorem length_tokenHere_lt (start : Cursor) (more : start.rest ≠ []) :
    start.tokenHere.2.rest.length < start.rest.length := by
  obtain ⟨_ | ⟨c, rest⟩, pos⟩ := start
  · contradiction
  · have whole := congrArg List.length (Token.scan_text_append_rest c rest)
    have taken := List.length_pos_iff.2 (Token.scan_text_ne_nil c rest)
    simp only [List.length_append, List.length_cons] at whole
    rw [tokenHere_rest]
    simp only [List.length_cons]
    omega

/-- So does the next one, if there is one. -/
theorem length_next_lt (cursor : Cursor) (more : cursor.skipTrivia.rest ≠ []) :
    cursor.next.2.rest.length < cursor.rest.length :=
  Nat.lt_of_lt_of_le (length_tokenHere_lt _ more) (length_skip_le _ _ _)

end Cursor

/-- The tokens of a text. Without a flaw the last of them is `eof`; otherwise they are those before
the first malformed token. -/
structure Lexed where
  tokens : List Token
  flaw : Option LexError

/-- The tokens from a place on, behind those in `done`, which has the last token first. -/
def Cursor.lexFrom (done : List Token) (cursor : Cursor) : Lexed :=
  let start := cursor.skipTrivia
  let read := start.tokenHere
  match read.1 with
  | .error e => ⟨done.reverse, some e⟩
  | .ok token =>
    if start.rest.isEmpty then ⟨(token :: done).reverse, none⟩
    else lexFrom (token :: done) read.2
termination_by cursor.rest.length
decreasing_by exact cursor.length_next_lt (by simp_all [start])

/-- The tokens of a whole text. -/
def lex (source : String) : Lexed :=
  (Cursor.ofText source).lexFrom []

/-- The tokens of a text that is free of malformed ones. -/
def tokens? (source : String) : Except LexError (List Token) :=
  match lex source with
  | ⟨_, some e⟩ => .error e
  | ⟨tokens, none⟩ => .ok tokens

end ScriptConsole
