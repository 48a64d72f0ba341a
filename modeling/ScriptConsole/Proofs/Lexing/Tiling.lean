import ScriptConsole.Proofs.Lexing.Longest
import ScriptConsole.Proofs.Syntax.Sources

/-!
# Tokens Tile Their Source

From any place that a lexer comes to, however many flaws it has met, the next token leads on to a
place further back, until the end of the source is reached; and every such place stands between two
characters. Where there is no flaw, the tokens and what stands between them make up the source:
between two tokens there are blanks and comments and nothing else, every token can be read off its
own characters, and it is the longest that starts where it does.

## Main results

* `Cursor.next_of_token`: what a token leaves in front of it, takes, and leaves behind.
* `tokens_tile`: the places that a lexer comes to, and the tokens of a source without a flaw.
-/

namespace ScriptConsole

/-! ### Slices of a text -/

/-- The characters of a text from one offset up to another. Both stand between two characters. -/
def Slice (source : String) (span : Span) (text : List Char) : Prop :=
  ∃ before behind, source.toList = before ++ text ++ behind ∧
    byteLength before = span.start ∧ byteLength (before ++ text) = span.stop

/-- A text that is not empty has a byte. -/
theorem byteLength_pos {text : List Char} (some : text ≠ []) : 0 < byteLength text := by
  cases text with
  | nil => exact absurd rfl some
  | cons c rest =>
      rw [byteLength_cons]
      have := c.utf8Size_pos
      omega

/-- An offset stands between the same two characters, however it is come by. -/
theorem eq_of_byteLength_eq {front back front' back' : List Char}
    (same : front ++ back = front' ++ back') (far : byteLength front = byteLength front') :
    front = front' ∧ back = back' := by
  rcases List.append_eq_append_iff.mp same with ⟨more, rfl, rfl⟩ | ⟨more, rfl, rfl⟩
  all_goals
    have none : more = [] := by
      by_contra some
      have := byteLength_pos some
      rw [byteLength_append] at far
      omega
    rw [none, List.append_nil]
    exact ⟨rfl, rfl⟩

/-! ### Blanks and comments -/

/-- Blanks and comments. A comment goes up to a newline, or to the end of the text if nothing of the
source is behind that. -/
inductive Trivia (final : Bool) : List Char → Prop
  | nil : Trivia final []
  | blank {c : Char} {rest : List Char} : Text.isBlank c = true → Trivia final rest →
      Trivia final (c :: rest)
  | comment {body rest : List Char} : '\n' ∉ body → Trivia final rest →
      Trivia final ('/' :: '/' :: (body ++ '\n' :: rest))
  | unclosed {body : List Char} : final = true → '\n' ∉ body → Trivia final ('/' :: '/' :: body)

namespace Trivia

variable {final : Bool} {gap : List Char}

/-- A comment goes on up to the end of the line. -/
theorem cons_comment {c : Char} (other : c ≠ '\n') (h : Trivia final ('/' :: '/' :: gap)) :
    Trivia final ('/' :: '/' :: c :: gap) := by
  have longer {body : List Char} (none : '\n' ∉ body) : '\n' ∉ c :: body :=
    List.not_mem_cons_of_ne_of_not_mem other.symm none
  generalize hgap : '/' :: '/' :: gap = text at h
  cases h with
  | nil => cases hgap
  | blank space more =>
      cases hgap
      exact absurd space (by decide)
  | comment none more =>
      cases hgap
      rw [← List.cons_append]
      exact .comment (longer none) more
  | unclosed last none =>
      cases hgap
      exact .unclosed last (longer none)

/-- The slashes that open a comment, read for the second time inside it, are part of it. -/
theorem of_slash (h : Trivia final ('/' :: '/' :: '/' :: gap)) :
    Trivia final ('/' :: '/' :: gap) := by
  generalize hgap : '/' :: '/' :: '/' :: gap = text at h
  cases h with
  | nil => cases hgap
  | blank space more =>
      cases hgap
      exact absurd space (by decide)
  | @comment body rest none more =>
      cases body with
      | nil => simp at hgap
      | cons c body =>
          cases hgap
          exact .comment (List.not_mem_of_not_mem_cons none) more
  | unclosed last none =>
      cases hgap
      exact .unclosed last (List.not_mem_of_not_mem_cons none)

/-- A comment without its end is trivia at the end of the source only. -/
theorem final_of_open (h : Trivia final ['/', '/']) : final = true := by
  generalize hgap : ['/', '/'] = text at h
  cases h with
  | nil => cases hgap
  | blank space more =>
      cases hgap
      exact absurd space (by decide)
  | comment none more => simp at hgap
  | unclosed last none => exact last

end Trivia

namespace Cursor

/-- What is skipped are blanks and comments; inside a comment, what is left of it counts as one
with its slashes in front. -/
theorem exists_skipped (inComment : Bool) (pos : Nat) (input : List Char) :
    ∃ gap, input = gap ++ (skip inComment pos input).rest ∧
      (skip inComment pos input).pos = pos + byteLength gap ∧
      Trivia (skip inComment pos input).rest.isEmpty
        (if inComment then '/' :: '/' :: gap else gap) := by
  fun_induction skip inComment pos input with
  | case1 inComment pos =>
      refine ⟨[], rfl, rfl, ?_⟩
      cases inComment with
      | false => exact .nil
      | true => exact .unclosed rfl List.not_mem_nil
  | case2 pos c rest ih =>
      obtain ⟨gap, hrest, hpos, trivia⟩ := ih
      refine ⟨c :: gap, congrArg (c :: ·) hrest, ?_, ?_⟩
      · rw [hpos, byteLength_cons, Nat.add_assoc]
      · by_cases newline : c = '\n'
        · simp only [newline, ne_eq, not_true_eq_false, decide_false] at trivia ⊢
          exact @Trivia.comment _ [] _ List.not_mem_nil trivia
        · simp only [newline, ne_eq, not_false_eq_true, decide_true] at trivia ⊢
          exact trivia.cons_comment newline
  | case3 inComment pos c rest outside space ih =>
      obtain ⟨gap, hrest, hpos, trivia⟩ := ih
      refine ⟨c :: gap, congrArg (c :: ·) hrest, ?_, ?_⟩
      · rw [hpos, byteLength_cons, Nat.add_assoc]
      · rw [if_neg outside]
        exact .blank space trivia
  | case4 inComment pos c rest outside space slashes ih =>
      obtain ⟨gap, hrest, hpos, trivia⟩ := ih
      obtain ⟨rfl, second⟩ := slashes
      -- the second slash is inside the comment, and so among what is skipped
      obtain ⟨gap, rfl⟩ : ∃ more, gap = '/' :: more := by
        cases gap with
        | nil =>
            rw [List.nil_append] at hrest
            rw [← hrest] at trivia
            obtain ⟨rest, rfl⟩ := List.head?_eq_some_iff.mp second
            exact absurd trivia.final_of_open (by simp)
        | cons d more =>
            rw [hrest] at second
            exact ⟨more, by rw [Option.some.inj second]⟩
      refine ⟨'/' :: '/' :: gap, congrArg ('/' :: ·) hrest, ?_, ?_⟩
      · rw [hpos, byteLength_cons, byteLength_cons, Nat.add_assoc, byteLength_cons]
      · rw [if_neg outside]
        exact trivia.of_slash
  | case5 inComment pos c rest outside space other =>
      refine ⟨[], rfl, rfl, ?_⟩
      rw [if_neg outside]
      exact .nil

/-- What is skipped is trivia, counted in bytes. -/
theorem exists_trivia (cursor : Cursor) :
    ∃ gap, cursor.rest = gap ++ cursor.skipTrivia.rest ∧
      cursor.skipTrivia.pos = cursor.pos + byteLength gap ∧
      Trivia cursor.skipTrivia.rest.isEmpty gap :=
  exists_skipped false cursor.pos cursor.rest

/-- Behind blanks and comments stands the end, or a character that is neither a blank nor the first
of a comment. -/
theorem opens_of_skip {inComment : Bool} {pos place : Nat} {input rest : List Char} {c : Char}
    (h : skip inComment pos input = ⟨c :: rest, place⟩) :
    Text.isBlank c = false ∧ ¬(c = '/' ∧ rest.head? = some '/') := by
  fun_induction skip inComment pos input with
  | case1 => cases h
  | case2 pos c' rest' ih => exact ih h
  | case3 inComment pos c' rest' outside space ih => exact ih h
  | case4 inComment pos c' rest' outside space slashes ih => exact ih h
  | case5 inComment pos c' rest' outside space other =>
      cases h
      exact ⟨by simpa using space, other⟩

/-- Nothing is skipped in front of a token. -/
theorem skipTrivia_of_opens {pos : Nat} {rest : List Char} {c : Char}
    (solid : Text.isBlank c = false) (other : ¬(c = '/' ∧ rest.head? = some '/')) :
    skipTrivia ⟨c :: rest, pos⟩ = ⟨c :: rest, pos⟩ := by
  simp [skipTrivia, skip, solid, other]

/-- A token: blanks and comments in front of it, its own characters, and what is left. Wherever what
is left is cut off, the same characters are the same token. -/
theorem next_of_token {cursor place : Cursor} {t : Token} (h : cursor.next = (.ok t, place))
    (more : t.kind.isEof = false) :
    ∃ gap text, cursor.rest = gap ++ text ++ place.rest ∧ Trivia false gap ∧ text ≠ [] ∧
      t.span = ⟨cursor.pos + byteLength gap, cursor.pos + byteLength gap + byteLength text⟩ ∧
      place.pos = cursor.pos + byteLength gap + byteLength text ∧
      ∀ left pos, left <+: place.rest → next ⟨text ++ left, pos⟩ =
        (.ok ⟨t.kind, ⟨pos, pos + byteLength text⟩⟩, ⟨left, pos + byteLength text⟩) := by
  obtain ⟨gap, hrest, hpos, trivia⟩ := cursor.exists_trivia
  rw [next] at h
  generalize hstart : cursor.skipTrivia = start at h hrest hpos trivia
  obtain ⟨_ | ⟨c, rest⟩, pos⟩ := start
  · cases h
    cases more
  obtain ⟨solid, other⟩ := opens_of_skip hstart
  have whole := Token.scan_text_append_rest c rest
  have some := Token.scan_text_ne_nil c rest
  rw [tokenHere] at h
  generalize hscan : Token.scan c rest = scanned at h whole some
  obtain ⟨outcome, text, behind⟩ := scanned
  cases outcome with
  | error flaw => cases h
  | ok k =>
  cases h
  dsimp only at whole some hpos ⊢
  refine ⟨gap, text, ?_, trivia, some, by rw [hpos], by rw [hpos], ?_⟩
  · rw [hrest, ← whole, List.append_assoc]
  · rintro left place ⟨cut, rfl⟩
    obtain ⟨d, taken, rfl⟩ := List.exists_cons_of_ne_nil some
    obtain ⟨rfl, parts⟩ := List.cons.inj whole
    -- what is cut off stands behind what the scanner has left, which it has not looked into
    rw [← parts, List.append_eq, ← List.append_assoc] at hscan other
    have scanned := Token.scan_of_append hscan
    have other' : ¬(d = '/' ∧ (taken ++ left).head? = Option.some '/') := by
      rintro ⟨first, second⟩
      refine other ⟨first, ?_⟩
      rw [List.head?_append, second]
      rfl
    rw [next, List.cons_append, skipTrivia_of_opens solid other', tokenHere, scanned]

/-- The end: blanks and comments, and nothing else. -/
theorem next_of_eof {cursor place : Cursor} {t : Token} (h : cursor.next = (.ok t, place))
    (last : t.kind.isEof = true) :
    Trivia true cursor.rest ∧ t = ⟨.eof, .empty (cursor.pos + byteLength cursor.rest)⟩ := by
  obtain ⟨gap, hrest, hpos, trivia⟩ := cursor.exists_trivia
  rw [next] at h
  have none := isEof_of_tokenHere h
  rw [last] at none
  generalize cursor.skipTrivia = start at h hrest hpos trivia none
  obtain ⟨rest, pos⟩ := start
  obtain rfl : rest = [] := List.isEmpty_iff.mp none.symm
  cases h
  rw [List.append_nil] at hrest
  dsimp only at hpos
  rw [hrest, hpos]
  exact ⟨trivia, rfl⟩

/-! ### The places that a lexer comes to -/

/-- A token leads on by its characters, flawed or not. -/
theorem tokenHere_place (c : Char) (rest : List Char) (pos : Nat) :
    (tokenHere ⟨c :: rest, pos⟩).2 =
      ⟨(Token.scan c rest).rest, pos + byteLength (Token.scan c rest).text⟩ := by
  rw [tokenHere]
  split <;> rfl

/-- The place behind `n` tokens of a text, flawed ones among them; the end is given for ever. -/
def visited (source : String) : Nat → Cursor
  | 0 => ofText source
  | n + 1 => (visited source n).next.2

/-- Whether a place is one between two characters of a text, with all that is behind it left. -/
def Within (source : String) (cursor : Cursor) : Prop :=
  ∃ front, source.toList = front ++ cursor.rest ∧ byteLength front = cursor.pos

variable {source : String} {cursor : Cursor}

/-- The cursor of a text is in it, at its beginning. -/
theorem within_ofText : (ofText source).Within source := ⟨[], rfl, rfl⟩

namespace Within

/-- The end of the text is where the rest ends. -/
theorem end_eq (h : cursor.Within source) :
    cursor.pos + byteLength cursor.rest = source.utf8ByteSize := by
  obtain ⟨front, whole, far⟩ := h
  rw [← byteLength_toList, whole, byteLength_append, far]

/-- A cursor stays in its text when trivia are skipped. -/
theorem skipTrivia (h : cursor.Within source) : cursor.skipTrivia.Within source := by
  obtain ⟨front, whole, far⟩ := h
  obtain ⟨gap, hrest, hpos, -⟩ := cursor.exists_trivia
  refine ⟨front ++ gap, ?_, ?_⟩
  · rw [whole, List.append_assoc, ← hrest]
  · rw [byteLength_append, far, hpos]

/-- It does so when a token is read. -/
theorem tokenHere (h : cursor.Within source) : cursor.tokenHere.2.Within source := by
  obtain ⟨front, whole, far⟩ := h
  obtain ⟨_ | ⟨c, rest⟩, pos⟩ := cursor
  · exact ⟨front, whole, far⟩
  · rw [tokenHere_place]
    refine ⟨front ++ (Token.scan c rest).text, ?_, ?_⟩
    · rw [whole, List.append_assoc, Token.scan_text_append_rest]
    · rw [byteLength_append, far]

/-- It does so when the next token is read. -/
theorem next (h : cursor.Within source) : cursor.next.2.Within source := h.skipTrivia.tokenHere

end Within

/-- Every place that is visited is in the text. -/
theorem within_visited (source : String) (n : Nat) : (visited source n).Within source := by
  induction n with
  | zero => exact within_ofText
  | succ n ih => exact ih.next

/-- The next token leads on, unless it is the end. -/
theorem next_onward (h : cursor.Within source) :
    cursor.next.1 = .ok ⟨.eof, .empty source.utf8ByteSize⟩ ∨ cursor.pos < cursor.next.2.pos := by
  have far := h.skipTrivia.end_eq
  have onward := pos_le_skipTrivia cursor
  rw [Cursor.next]
  generalize cursor.skipTrivia = start at far onward
  obtain ⟨_ | ⟨c, rest⟩, pos⟩ := start
  · left
    rw [← far]
    rfl
  · right
    have taken := byteLength_pos (Token.scan_text_ne_nil c rest)
    rw [tokenHere_place]
    dsimp only at onward ⊢
    omega

end Cursor

/-! ### Tiles -/

/-- Whether a text, from its first character to its last, is one token. -/
def IsToken (text : List Char) (k : Token.Kind) : Prop :=
  tokens? (String.ofList text) =
    .ok [⟨k, ⟨0, byteLength text⟩⟩, ⟨.eof, .empty (byteLength text)⟩]

/-- What is promised of a token of a source: it is not empty, its own characters are that token, and
no longer piece of the source from its start on is a token. -/
structure Tile (source : String) (t : Token) : Prop where
  opens : t.kind ≠ .eof
  solid : t.span.start < t.span.stop
  alone : ∃ text, Slice source t.span text ∧ IsToken text t.kind
  longest : ∀ stop longer k, t.span.stop < stop → Slice source ⟨t.span.start, stop⟩ longer →
    ¬IsToken longer k

/-- What is promised of all tokens of a source: they are tiles and the end of the source, they stand
one behind the other, and what is in front of each of them, from the end of the one before it, are
blanks and comments. -/
structure Tiling (source : String) (tokens : List Token) : Prop where
  tiles : ∃ front, tokens = front ++ [⟨.eof, .empty source.utf8ByteSize⟩] ∧
    ∀ t ∈ front, Tile source t
  apart : tokens.Pairwise fun t u => t.span.stop ≤ u.span.start
  gaps : ∀ front t behind, tokens = front ++ t :: behind →
    ∃ gap, Slice source ⟨lastStop front, t.span.start⟩ gap ∧ Trivia t.kind.isEof gap

section

variable {source : String} {tokens : List Token}

/-- Tokens that tile a source from an offset on. -/
inductive TiledFrom (source : String) : Nat → List Token → Prop
  | ending {pos : Nat} {gap : List Char} :
      Slice source ⟨pos, source.utf8ByteSize⟩ gap → Trivia true gap →
      TiledFrom source pos [⟨.eof, .empty source.utf8ByteSize⟩]
  | token {pos : Nat} {gap : List Char} {t : Token} {more : List Token} :
      Slice source ⟨pos, t.span.start⟩ gap → Trivia false gap → Tile source t →
      TiledFrom source t.span.stop more → TiledFrom source pos (t :: more)

/-- A slice ends behind its start. -/
theorem Slice.start_le {span : Span} {text : List Char} (h : Slice source span text) :
    span.start ≤ span.stop := by
  obtain ⟨front, back, -, start, stop⟩ := h
  rw [← start, ← stop, byteLength_append]
  exact Nat.le_add_right _ _

/-- The characters of a slice that starts where the text `behind` does are the first of it. -/
theorem Slice.isPrefix {front behind text : List Char} {start stop : Nat}
    (whole : source.toList = front ++ behind) (far : byteLength front = start)
    (h : Slice source ⟨start, stop⟩ text) : text <+: behind ∧ stop = start + byteLength text := by
  obtain ⟨front', back, whole', start', stop'⟩ := h
  rw [List.append_assoc] at whole'
  obtain ⟨rfl, rfl⟩ := eq_of_byteLength_eq (whole.symm.trans whole') (far.trans start'.symm)
  rw [byteLength_append, far] at stop'
  exact ⟨List.prefix_append _ _, stop'.symm⟩

/-- From the start of one slice to the end of another that does not end before it. -/
theorem Slice.hull {first last : Span} {text text' : List Char} (h : Slice source first text)
    (h' : Slice source last text') (le : first.start ≤ last.stop) :
    ∃ text, Slice source ⟨first.start, last.stop⟩ text := by
  obtain ⟨front, back, whole, start, -⟩ := h
  obtain ⟨front', back', whole', -, stop⟩ := h'
  rw [List.append_assoc] at whole
  obtain ⟨text, htext⟩ : front <+: front' ++ text' := by
    rcases List.append_eq_append_iff.mp (whole.symm.trans whole') with ⟨more, h, -⟩ | ⟨more, h, -⟩
    · exact ⟨more, h.symm⟩
    · -- the other way round nothing is left between the two
      have none : more = [] := by
        by_contra some
        have := byteLength_pos some
        have := congrArg byteLength h
        rw [byteLength_append] at this
        omega
      exact ⟨[], by rw [h, none, List.append_nil, List.append_nil]⟩
  exact ⟨text, front, back', by rw [htext, whole'], start, by rw [htext, stop]⟩

/-- A text that a lexer takes whole as its first token is that token. -/
theorem isToken_of_next {text : List Char} {k : Token.Kind} (opens : k.isEof = false)
    (h : Cursor.next ⟨text, 0⟩ = (.ok ⟨k, ⟨0, 0 + byteLength text⟩⟩, ⟨[], 0 + byteLength text⟩)) :
    IsToken text k := by
  refine Lexed.tokens?_eq ?_
  show Cursor.lexed ⟨(String.ofList text).toList, 0⟩ = _
  rw [String.toList_ofList, Cursor.lexed_of_token h opens,
    Cursor.lexed_of_eof (t := ⟨.eof, .empty (0 + byteLength text)⟩) rfl rfl, Nat.zero_add]
  rfl

/-- A text whose first token leaves something behind is not one token. -/
theorem not_isToken_of_next {text : List Char} {k k' : Token.Kind} {span : Span} {place : Cursor}
    (opens : k'.isEof = false) (h : Cursor.next ⟨text, 0⟩ = (.ok ⟨k', span⟩, place))
    (short : span.stop < byteLength text) : ¬IsToken text k := by
  intro one
  -- the token ends before the text does, but the only one would end with it
  obtain ⟨read, -, -⟩ := exists_of_tokens? one
  have first : Cursor.lexed ⟨text, 0⟩ =
      ⟨[⟨k, ⟨0, byteLength text⟩⟩, ⟨.eof, .empty (byteLength text)⟩], none⟩ := by
    rw [← read, lex, Cursor.ofText, String.toList_ofList]
    rfl
  rw [Cursor.lexed_of_token h opens] at first
  have head := congrArg (fun l => (l.tokens.head?.map (·.span.stop))) first
  have stop : span.stop = byteLength text := Option.some.inj head
  omega

/-- From a place between two characters, the tokens of a text without a flaw tile what is left. -/
theorem tiledFrom_lexed {cursor : Cursor} (h : cursor.Within source)
    (whole : cursor.lexed.flaw = none) : TiledFrom source cursor.pos cursor.lexed.tokens := by
  induction cursor using Cursor.lexed_induction with
  | flaw cursor e place hnext =>
      rw [Cursor.lexed_of_error hnext] at whole
      cases whole
  | last cursor t place hnext last =>
      obtain ⟨front, hfront, far⟩ := id h
      rw [Cursor.lexed_of_eof hnext last]
      obtain ⟨trivia, rfl⟩ := Cursor.next_of_eof hnext last
      rw [h.end_eq]
      refine .ending ⟨front, [], ?_, far, ?_⟩ trivia
      · rw [hfront, List.append_nil]
      · rw [byteLength_append, far, h.end_eq]
  | token cursor t place hnext more ih =>
      obtain ⟨front, hfront, far⟩ := id h
      rw [Cursor.lexed_of_token hnext more] at whole ⊢
      obtain ⟨gap, text, hrest, trivia, some, hspan, hpos, onward⟩ :=
        Cursor.next_of_token hnext more
      have start : t.span.start = byteLength (front ++ gap) := by
        rw [hspan, byteLength_append, far]
      have stop : t.span.stop = byteLength (front ++ gap ++ text) := by
        rw [hspan, byteLength_append, byteLength_append, far]
      have parts : source.toList = front ++ gap ++ (text ++ place.rest) := by
        rw [hfront, hrest, List.append_assoc, List.append_assoc]
      have within : place.Within source := by
        have := h.next
        rwa [hnext] at this
      have behind := ih within whole
      rw [show place.pos = t.span.stop by rw [hpos, hspan]] at behind
      refine .token ⟨front, text ++ place.rest, parts, far, start.symm⟩ trivia ?_ behind
      -- not the end, not empty, one token when it stands alone, and no longer piece is one
      refine ⟨?_, ?_, ⟨text, ?_, ?_⟩, ?_⟩
      · intro eof
        rw [eof] at more
        cases more
      · have := byteLength_pos some
        rw [start, stop, byteLength_append (front ++ gap)]
        omega
      · exact ⟨front ++ gap, place.rest, by simp [parts], start.symm, stop.symm⟩
      · have alone := onward [] 0 (List.nil_prefix)
        rw [List.append_nil] at alone
        exact isToken_of_next more alone
      · -- a longer piece has the same token in front and something behind it
        intro stop' longer k further slice
        obtain ⟨isPrefix, hstop⟩ := slice.isPrefix parts start.symm
        rw [hspan] at further hstop
        dsimp only at further hstop
        obtain ⟨left, rfl⟩ : text <+: longer := by
          refine (List.prefix_or_prefix_of_prefix (List.prefix_append _ _)
            isPrefix).resolve_right ?_
          rintro ⟨cut, rfl⟩
          rw [byteLength_append] at further
          omega
        have first := onward left 0 ((List.prefix_append_right_inj text).mp isPrefix)
        refine not_isToken_of_next more first ?_
        dsimp only
        omega

namespace TiledFrom

variable {pos : Nat}

/-- All tokens but the last are tiles, and the last is the `eof`. -/
theorem tiles (h : TiledFrom source pos tokens) :
    ∃ front, tokens = front ++ [⟨.eof, .empty source.utf8ByteSize⟩] ∧
      ∀ t ∈ front, Tile source t := by
  induction h with
  | ending slice trivia => exact ⟨[], rfl, fun _ mem => absurd mem List.not_mem_nil⟩
  | token slice trivia tile more ih =>
      obtain ⟨front, rfl, tiles⟩ := ih
      exact ⟨_ :: front, rfl, List.forall_mem_cons.mpr ⟨tile, tiles⟩⟩

/-- No token starts in front of the place from which the text is tiled. -/
theorem le_start (h : TiledFrom source pos tokens) : ∀ t ∈ tokens, pos ≤ t.span.start := by
  induction h with
  | ending slice trivia => exact List.forall_mem_singleton.mpr slice.start_le
  | token slice trivia tile more ih =>
      refine List.forall_mem_cons.mpr ⟨slice.start_le, fun u mem => ?_⟩
      exact (slice.start_le.trans tile.solid.le).trans (ih u mem)

/-- Tokens do not overlap. -/
theorem apart (h : TiledFrom source pos tokens) :
    tokens.Pairwise fun t u => t.span.stop ≤ u.span.start := by
  induction h with
  | ending slice trivia => exact List.pairwise_singleton _ _
  | token slice trivia tile more ih => exact List.pairwise_cons.mpr ⟨more.le_start, ih⟩

/-- What is in front of a token goes up to the last token before it, or the place where the tiles
start. -/
theorem gaps (h : TiledFrom source pos tokens) {front behind : List Token} {t : Token}
    (parts : tokens = front ++ t :: behind) :
    ∃ gap, Slice source ⟨front.getLast?.elim pos (·.span.stop), t.span.start⟩ gap ∧
      Trivia t.kind.isEof gap := by
  induction h generalizing front with
  | ending slice trivia =>
      cases front with
      | nil =>
          cases parts
          exact ⟨_, slice, trivia⟩
      | cons u front => simp at parts
  | @token pos gap u rest slice trivia tile more ih =>
      cases front with
      | nil =>
          cases parts
          refine ⟨_, slice, ?_⟩
          have opens := tile.opens
          cases hkind : t.kind with
          | eof => exact absurd hkind opens
          | symbol s => exact trivia
          | name text => exact trivia
          | literal v => exact trivia
      | cons v front =>
          cases parts
          obtain ⟨gap, slice, trivia⟩ := ih rfl
          refine ⟨gap, ?_, trivia⟩
          rw [List.getLast?_cons]
          cases hlast : front.getLast? with
          | none => simpa [hlast] using slice
          | some w => simpa [hlast] using slice

end TiledFrom

/-- The tokens of a text without a flaw tile it. -/
theorem tiling_of_tokens? (h : tokens? source = .ok tokens) : Tiling source tokens := by
  obtain ⟨whole, -, -⟩ := exists_of_tokens? h
  have tiled : TiledFrom source 0 (lex source).tokens :=
    tiledFrom_lexed Cursor.within_ofText (congrArg Lexed.flaw whole)
  rw [whole] at tiled
  refine ⟨tiled.tiles, tiled.apart, fun front t behind parts => ?_⟩
  obtain ⟨gap, slice, trivia⟩ := tiled.gaps parts
  refine ⟨gap, ?_, trivia⟩
  rw [lastStop]
  cases hlast : front.getLast? with
  | none => simpa [hlast] using slice
  | some u => simpa [hlast] using slice

end

/-- **The tokens of a source tile it.** Every place that the lexer comes to, after any number of
tokens and flaws, stands between two characters, and from there the next token is the end or leads
on. And if the source has no flaw, its tokens tile it: each by itself is the token that it is, none
could be longer, and there is nothing but blanks and comments between them. -/
theorem tokens_tile (source : String) :
    (∀ n, (Cursor.visited source n).Within source ∧
      ((Cursor.visited source n).next.1 = .ok ⟨.eof, .empty source.utf8ByteSize⟩ ∨
        (Cursor.visited source n).pos < (Cursor.visited source (n + 1)).pos)) ∧
      ∀ tokens, tokens? source = .ok tokens → Tiling source tokens :=
  ⟨fun n => ⟨Cursor.within_visited source n, Cursor.next_onward (Cursor.within_visited source n)⟩,
    fun _ h => tiling_of_tokens? h⟩

/-- A wide number and an operator of two characters, with a comment in front of the end. -/
theorem tokens_tile_comment :
    ∃ tokens, tokens? "a <=12L // é" = .ok tokens ∧ tokens.length = 4 ∧
      Tiling "a <=12L // é" tokens := by
  have read : tokens? "a <=12L // é" =
      .ok [⟨.name "a", ⟨0, 1⟩⟩, ⟨.symbol .lessEqual, ⟨2, 4⟩⟩, ⟨.literal (.long 12), ⟨4, 7⟩⟩,
        ⟨.eof, ⟨13, 13⟩⟩] := by decide +kernel
  exact ⟨_, read, rfl, (tokens_tile _).2 _ read⟩

end ScriptConsole
