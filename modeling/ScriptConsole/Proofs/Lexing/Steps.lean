import ScriptConsole.Proofs.Syntax.Places

/-!
# The Tokens of a Text, One by One

The tokens of a text are those that `Cursor.next` gives one after the other, up to `eof` or a flaw.
Each of them stands behind the one before it, and only the last one is `eof`. A text that starts
further back has the same tokens, further back.

## Main results

* `Cursor.lexed_eq`, `Cursor.lexed_induction`: the tokens of a text, token by token.
* `Cursor.stop_le_of_flaw`: the tokens before a flaw end where it starts, or before.
* `Cursor.lexed_move`: the tokens of a text that starts further back.
-/

namespace ScriptConsole

open Placed (move)

/-! ### Tokens one after the other -/

namespace Token

/-- A text is no `eof`. -/
theorem scanText_ne_eof (value taken input : List Char) :
    (scanText value taken input).outcome ≠ .ok .eof := by
  fun_induction scanText value taken input <;> simp_all

/-- Nor is a character. -/
theorem closeChar_ne_eof (value : Char) (taken input : List Char) :
    (closeChar value taken input).outcome ≠ .ok .eof := by
  cases input with
  | nil => simp [closeChar]
  | cons c rest =>
      rw [closeChar]
      split <;> simp

/-- Nor is a character literal, closed or not. -/
theorem scanChar_ne_eof (input : List Char) : (scanChar input).outcome ≠ .ok .eof := by
  unfold scanChar
  split
  · simp
  split
  · simp
  split
  · simp
  split
  · split
    · simp
    · exact closeChar_ne_eof _ _ _
  · exact closeChar_ne_eof _ _ _

/-- Nor is the value of a number. -/
theorem numberValue_ne_eof (whole fraction suffix : List Char) :
    numberValue whole fraction suffix ≠ .ok .eof := by
  unfold numberValue
  dsimp only
  split
  · simp
  · split <;> simp
  · split <;> simp

/-- Nor is a number. -/
theorem scanNumber_ne_eof (first : Char) (rest : List Char) :
    (scanNumber first rest).outcome ≠ .ok .eof := by
  simp only [scanNumber]
  split
  · split
    · exact numberValue_ne_eof _ _ _
    · simp
  · split
    · exact numberValue_ne_eof _ _ _
    · simp

/-- Nor is a name or a keyword. -/
theorem nameKind_ne_eof (s : String) : nameKind s ≠ .eof := by
  unfold nameKind
  split
  · simp
  split
  · simp
  split <;> simp

/-- No character begins an `eof`. -/
theorem scanOne_ne_eof (c : Char) (rest : List Char) : (scanOne c rest).outcome ≠ .ok .eof := by
  unfold scanOne
  split
  · simp
  split
  · exact scanText_ne_eof _ _ _
  split
  · exact scanChar_ne_eof _
  split
  · exact scanNumber_ne_eof c rest
  split
  · intro h
    exact nameKind_ne_eof _ (Except.ok.inj h)
  · simp

/-- No character starts the end of the input. -/
theorem scan_ne_eof (c : Char) (rest : List Char) : (scan c rest).outcome ≠ .ok .eof := by
  unfold scan
  split
  · exact scanOne_ne_eof c []
  split
  · simp
  · exact scanOne_ne_eof c _

end Token

/-- What has been read of a text, behind tokens read before. -/
def Lexed.behind (done : List Token) (l : Lexed) : Lexed := ⟨done ++ l.tokens, l.flaw⟩

namespace Lexed

/-- Tokens put in front one after the other. -/
@[simp] theorem behind_behind (first second : List Token) (l : Lexed) :
    (l.behind second).behind first = l.behind (first ++ second) := by
  simp [behind, List.append_assoc]

end Lexed

namespace Cursor

/-- The tokens from a place on. -/
def lexed (cursor : Cursor) : Lexed := cursor.lexFrom []

/-- The tokens from a place on where neither blanks nor a comment stand. -/
def lexedHere (start : Cursor) : Lexed :=
  match start.tokenHere with
  | (.error e, _) => ⟨[], some e⟩
  | (.ok t, place) => if t.kind.isEof then ⟨[t], none⟩ else place.lexed.behind [t]

/-- The `eof` stands where the text ends. -/
theorem isEof_of_tokenHere {start place : Cursor} {t : Token}
    (h : start.tokenHere = (.ok t, place)) :
    t.kind.isEof = start.rest.isEmpty := by
  obtain ⟨_ | ⟨c, rest⟩, pos⟩ := start
  · cases h
    rfl
  · rw [tokenHere] at h
    have other := Token.scan_ne_eof c rest
    cases hscan : (Token.scan c rest).outcome with
    | error flaw =>
        simp only [hscan] at h
        cases h
    | ok kind =>
        simp only [hscan] at h
        cases h
        rw [hscan] at other
        cases kind with
        | eof => exact absurd rfl other
        | symbol s => rfl
        | name text => rfl
        | literal v => rfl

/-- The loop puts the tokens that it has in front of those that are left. -/
theorem lexFrom_eq (done : List Token) (cursor : Cursor) :
    cursor.lexFrom done = cursor.lexed.behind done.reverse := by
  unfold lexed
  induction hn : cursor.rest.length using Nat.strongRecOn generalizing cursor done with
  | _ n ih =>
  subst hn
  rw [lexFrom, lexFrom]
  cases hread : cursor.skipTrivia.tokenHere.1 with
  | error e => simp [Lexed.behind]
  | ok t =>
      dsimp only
      split
      · simp [Lexed.behind]
      next more =>
      have shorter := cursor.length_next_lt (by simpa using more)
      rw [← next, ih _ shorter (t :: done) _ rfl, ih _ shorter [t] _ rfl]
      simp

/-- The tokens of a text, token by token. -/
theorem lexed_eq (cursor : Cursor) : cursor.lexed = cursor.skipTrivia.lexedHere := by
  rw [lexed, lexFrom, lexedHere]
  cases hread : cursor.skipTrivia.tokenHere with
  | mk outcome place =>
  cases outcome with
  | error e => rfl
  | ok t =>
      simp only
      rw [isEof_of_tokenHere hread, lexFrom_eq]
      rfl

section next

variable {cursor place : Cursor} {t : Token} {e : LexError}

/-- Where the next token is flawed, the flaw is all there is. -/
theorem lexed_of_error (h : cursor.next = (.error e, place)) : cursor.lexed = ⟨[], some e⟩ := by
  rw [next] at h
  rw [lexed_eq, lexedHere, h]

/-- The `eof` is the last token. -/
theorem lexed_of_eof (h : cursor.next = (.ok t, place)) (last : t.kind.isEof = true) :
    cursor.lexed = ⟨[t], none⟩ := by
  rw [next] at h
  rw [lexed_eq, lexedHere, h]
  exact if_pos last

/-- Behind any other token come those of the place behind it. -/
theorem lexed_of_token (h : cursor.next = (.ok t, place)) (more : t.kind.isEof = false) :
    cursor.lexed = place.lexed.behind [t] := by
  rw [next] at h
  rw [lexed_eq, lexedHere, h]
  simp only [more]
  rfl

end next

/-- To get at the tokens of a text by induction on what is left of it: there is a flaw in front, or
its end, or a token with more behind it. -/
@[elab_as_elim]
theorem lexed_induction {motive : Cursor → Prop}
    (flaw : ∀ cursor e place, cursor.next = (.error e, place) → motive cursor)
    (last : ∀ cursor t place, cursor.next = (.ok t, place) → t.kind.isEof = true → motive cursor)
    (token : ∀ cursor t place, cursor.next = (.ok t, place) → t.kind.isEof = false →
      motive place → motive cursor) (cursor : Cursor) : motive cursor := by
  induction hn : cursor.rest.length using Nat.strongRecOn generalizing cursor with
  | _ n ih =>
  cases hnext : cursor.next with
  | mk outcome place =>
  cases outcome with
  | error e => exact flaw cursor e place hnext
  | ok t =>
  cases more : t.kind.isEof with
  | true => exact last cursor t place hnext more
  | false =>
      refine token cursor t place hnext more (ih place.rest.length ?_ place rfl)
      subst hn
      rw [next] at hnext
      have shorter := cursor.length_next_lt <| by
        rw [isEof_of_tokenHere hnext] at more
        simpa using more
      rwa [next, hnext] at shorter

/-! ### Where tokens stand -/

/-- What is skipped is counted in bytes. -/
theorem skip_pos (inComment : Bool) (pos : Nat) (input : List Char) :
    (skip inComment pos input).pos + byteLength (skip inComment pos input).rest =
      pos + byteLength input := by
  fun_induction skip inComment pos input <;> simp_all <;> omega

/-- A token is counted in bytes. -/
theorem tokenHere_pos (start : Cursor) :
    start.tokenHere.2.pos + byteLength start.tokenHere.2.rest =
      start.pos + byteLength start.rest := by
  obtain ⟨_ | ⟨c, rest⟩, pos⟩ := start
  · rfl
  · have whole := congrArg byteLength (Token.scan_text_append_rest c rest)
    rw [byteLength_append] at whole
    have behind : pos + byteLength (Token.scan c rest).text + byteLength (Token.scan c rest).rest =
        pos + byteLength (c :: rest) := by omega
    rw [tokenHere]
    cases (Token.scan c rest).outcome with
    | error flaw => exact behind
    | ok kind => exact behind

/-- A token stands between the places before and behind it. -/
theorem span_of_tokenHere {start place : Cursor} {t : Token}
    (h : start.tokenHere = (.ok t, place)) :
    t.span = ⟨start.pos, place.pos⟩ := by
  obtain ⟨_ | ⟨c, rest⟩, pos⟩ := start
  · cases h
    rfl
  · rw [tokenHere] at h
    split at h <;> cases h
    rfl

/-- A flaw is where the token begins. -/
theorem pos_of_tokenHere {start place : Cursor} {e : LexError}
    (h : start.tokenHere = (.error e, place)) : e.pos = start.pos := by
  obtain ⟨_ | ⟨c, rest⟩, pos⟩ := start
  · cases h
  · rw [tokenHere] at h
    split at h <;> cases h
    rfl

/-- Trivia are behind the place where they are looked for. -/
theorem pos_le_skipTrivia (cursor : Cursor) : cursor.pos ≤ cursor.skipTrivia.pos := by
  have advance : ∀ inComment pos input, pos ≤ (skip inComment pos input).pos := by
    intro inComment pos input
    fun_induction skip inComment pos input <;>
      first | exact Nat.le_refl _ | exact Nat.le_trans (Nat.le_add_right _ _) ‹_›
  exact advance _ _ _

/-- A token ends behind the place where it begins. -/
theorem pos_le_tokenHere (start : Cursor) : start.pos ≤ start.tokenHere.2.pos := by
  obtain ⟨_ | ⟨c, rest⟩, pos⟩ := start
  · exact Nat.le_refl pos
  · rw [tokenHere]
    dsimp only
    split <;> exact Nat.le_add_right _ _

/-- The place behind a token is no earlier one. -/
theorem pos_le_next (cursor : Cursor) : cursor.pos ≤ cursor.next.2.pos :=
  Nat.le_trans (pos_le_skipTrivia cursor) (pos_le_tokenHere _)

/-- A flaw is no earlier than the place from which the text is read. -/
theorem pos_le_flaw (cursor : Cursor) {e : LexError} (h : cursor.lexed.flaw = some e) :
    cursor.pos ≤ e.pos := by
  induction cursor using lexed_induction with
  | flaw cursor e' place hnext =>
      rw [lexed_of_error hnext] at h
      cases h
      rw [pos_of_tokenHere hnext]
      exact pos_le_skipTrivia cursor
  | last cursor t place hnext last =>
      rw [lexed_of_eof hnext last] at h
      cases h
  | token cursor t place hnext more ih =>
      rw [lexed_of_token hnext more] at h
      have onward := pos_le_next cursor
      rw [hnext] at onward
      exact Nat.le_trans onward (ih h)

/-- The tokens before a flaw end where it starts or before, and none of them ends the text. -/
theorem stop_le_of_flaw (cursor : Cursor) {e : LexError} (h : cursor.lexed.flaw = some e) :
    ∀ t ∈ cursor.lexed.tokens,
      t.kind.isEof = false ∧ t.span.start ≤ e.pos ∧ t.span.stop ≤ e.pos := by
  induction cursor using lexed_induction with
  | flaw cursor e' place hnext =>
      rw [lexed_of_error hnext]
      exact fun _ mem => absurd mem List.not_mem_nil
  | last cursor t place hnext last =>
      rw [lexed_of_eof hnext last] at h
      cases h
  | token cursor t place hnext more ih =>
      rw [lexed_of_token hnext more] at h ⊢
      intro u mem
      rcases List.mem_append.mp mem with here | behind
      · obtain rfl := List.mem_singleton.mp here
        have flawed := pos_le_flaw place h
        have onward := pos_le_tokenHere cursor.skipTrivia
        rw [next] at hnext
        rw [hnext] at onward
        rw [span_of_tokenHere hnext]
        exact ⟨more, Nat.le_trans onward flawed, flawed⟩
      · exact ih h u behind

/-! ### A text that starts further back -/

instance : Placed LexError := ⟨fun f e => ⟨e.flaw, f e.pos⟩⟩

instance : Placed Cursor := ⟨fun f c => ⟨c.rest, f c.pos⟩⟩

/-- Trivia are skipped alike at whatever place the text begins. -/
theorem skip_move (d : Nat) (inComment : Bool) (pos : Nat) (input : List Char) :
    skip inComment (pos + d) input = move (· + d) (skip inComment pos input) := by
  induction input generalizing inComment pos with
  | nil => rfl
  | cons c rest ih =>
      have step : pos + d + c.utf8Size = pos + c.utf8Size + d := by omega
      simp only [skip, step, ih]
      split
      · rfl
      split
      · rfl
      split
      · rfl
      · rfl

/-- A cursor skips trivia alike wherever its text begins. -/
theorem skipTrivia_move (d : Nat) (cursor : Cursor) :
    (move (· + d) cursor).skipTrivia = move (· + d) cursor.skipTrivia :=
  skip_move d false cursor.pos cursor.rest

/-- A token moves with the place where it begins. -/
theorem tokenHere_move (d : Nat) (start : Cursor) :
    (move (· + d) start).tokenHere =
      match start.tokenHere with
      | (.error e, place) => (.error (move (· + d) e), move (· + d) place)
      | (.ok t, place) => (.ok (move (· + d) t), move (· + d) place) := by
  obtain ⟨_ | ⟨c, rest⟩, pos⟩ := start
  · rfl
  · show tokenHere ⟨c :: rest, pos + d⟩ = _
    have step : pos + d + byteLength (Token.scan c rest).text =
        pos + byteLength (Token.scan c rest).text + d := by omega
    cases hscan : (Token.scan c rest).outcome with
    | error flaw =>
        simp only [tokenHere, hscan, step]
        rfl
    | ok kind =>
        simp only [tokenHere, hscan, step]
        rfl

/-- So does the next token with the place behind it. -/
theorem next_move (d : Nat) (cursor : Cursor) :
    (move (· + d) cursor).next =
      match cursor.next with
      | (.error e, place) => (.error (move (· + d) e), move (· + d) place)
      | (.ok t, place) => (.ok (move (· + d) t), move (· + d) place) := by
  rw [next, skipTrivia_move, tokenHere_move]
  rfl

end Cursor

instance : Placed Lexed := ⟨fun f l => ⟨move f l.tokens, l.flaw.map (move f)⟩⟩

/-- Tokens move together with those behind them. -/
theorem Lexed.move_behind {f : Nat → Nat} (done : List Token) (l : Lexed) :
    move f (l.behind done) = (move f l).behind (move f done) := by
  show Lexed.mk ((done ++ l.tokens).map (move f)) _ =
    ⟨done.map (move f) ++ l.tokens.map (move f), _⟩
  rw [List.map_append]
  rfl

/-- A text that starts further back has the same tokens, further back. -/
theorem Cursor.lexed_move (d : Nat) (cursor : Cursor) :
    (move (· + d) cursor).lexed = move (· + d) cursor.lexed := by
  induction cursor using lexed_induction with
  | flaw cursor e place hnext =>
      have moved := next_move d cursor
      rw [hnext] at moved
      rw [lexed_of_error moved, lexed_of_error hnext]
      rfl
  | last cursor t place hnext last =>
      have moved := next_move d cursor
      rw [hnext] at moved
      rw [lexed_of_eof moved last, lexed_of_eof hnext last]
      rfl
  | token cursor t place hnext more ih =>
      have moved := next_move d cursor
      rw [hnext] at moved
      rw [lexed_of_token moved more, lexed_of_token hnext more, ih, Lexed.move_behind]
      rfl

end ScriptConsole
