import ScriptConsole.Proofs.Lexing.Steps

/-!
# Lexing a Text in Pieces

What a text is made of up to its end does not depend on what is put behind it, as long as that
starts with a blank: no name, number or operator goes on with a blank, and whatever needs a closing
quote has had it. Only a comment may still be open, and a newline closes it. So the tokens of two
texts with a newline between them are those of the first without its `eof`, and then those of the
second.

Blanks alone do not mend a flaw either, so a text with blanks behind it has a flaw exactly if the
text has one.

## Main results

* `Token.scan_append_of_ok`: a token is still there with something behind it.
* `Cursor.lexed_append`: so are the tokens of a text.
* `Cursor.lexed_newline`: the tokens of two texts with a newline between them.
* `Cursor.lexed_blanks`, `Cursor.flaw_of_before_blanks`: those of a text with blanks behind it.
-/

namespace ScriptConsole

/-- Whether a text is empty or starts with a blank. -/
def Text.StartsBlank (behind : List Char) : Prop := ∀ c, behind.head? = some c → isBlank c = true

namespace Text

/-- No name goes on with a blank. -/
theorem isNamePart_eq_false_of_isBlank {c : Char} (h : isBlank c = true) :
    isNamePart c = false := by
  have some : c.toNat ∈ (blankRanges.map fun r => List.range' r.1 (r.2 + 1 - r.1)).flatten := by
    obtain ⟨r, mem, lo, hi⟩ := inRanges_iff.mp h
    refine List.mem_flatten.mpr ⟨_, List.mem_map.mpr ⟨r, mem, rfl⟩, ?_⟩
    rw [List.mem_range'_1]
    omega
  have all : ∀ n ∈ (blankRanges.map fun r => List.range' r.1 (r.2 + 1 - r.1)).flatten,
      isNamePart (Char.ofNat n) = false := by decide +kernel
  have := all _ some
  rwa [Char.ofNat_toNat] at this

end Text

namespace Token

variable {behind : List Char}

/-- A run of characters that ends in front of what stands behind the input. -/
theorem takeWhile_append {p : Char → Bool} (stops : ∀ c, behind.head? = some c → p c = false)
    (input : List Char) : (input ++ behind).takeWhile p = input.takeWhile p := by
  induction input with
  | nil =>
      cases behind with
      | nil => rfl
      | cons c rest => simp [stops c rfl]
  | cons c rest ih => simp only [List.cons_append, List.takeWhile_cons, ih]

/-- What such a run leaves. -/
theorem dropWhile_append {p : Char → Bool} (stops : ∀ c, behind.head? = some c → p c = false)
    (input : List Char) : (input ++ behind).dropWhile p = input.dropWhile p ++ behind := by
  induction input with
  | nil =>
      cases behind with
      | nil => rfl
      | cons c rest => simp [stops c rfl]
  | cons c rest ih =>
      simp only [List.cons_append, List.dropWhile_cons, ih]
      split <;> rfl

/-- A name does not go on in a blank. -/
theorem stops_isNamePart (blank : Text.StartsBlank behind) :
    ∀ c, behind.head? = some c → Text.isNamePart c = false :=
  fun c h => Text.isNamePart_eq_false_of_isBlank (blank c h)

/-- Nor does a number. -/
theorem stops_isDigit (blank : Text.StartsBlank behind) :
    ∀ c, behind.head? = some c → c.isDigit = false := by
  intro c h
  have other := stops_isNamePart blank c h
  cases digit : c.isDigit with
  | false => rfl
  | true =>
      simp only [Text.isNamePart, Text.isNumeric_of_isDigit digit, Bool.or_true,
        Bool.true_or] at other
      cases other

/-- A character that is neither a quote nor a backslash stands for itself in a text. -/
theorem scanText_cons {c : Char} (slash : c ≠ '\\') (quote : c ≠ '"')
    (value taken rest : List Char) :
    scanText value taken (c :: rest) = scanText (c :: value) (c :: taken) rest :=
  scanText.eq_5 _ _ _ _ (fun h => absurd h slash) (fun _ _ h => absurd h slash) quote

/-- A character is no backslash if it is none with nothing behind it and none with something. -/
theorem ne_backslash {c : Char} {rest : List Char} (alone : c = '\\' → rest = [] → False)
    (escape : ∀ d more, c = '\\' → rest = d :: more → False) : c ≠ '\\' := by
  intro slash
  cases rest with
  | nil => exact alone slash rfl
  | cons d more => exact escape d more slash rfl

/-- A scan of a text with something behind it. -/
def Scan.before (scan : Scan) (behind : List Char) : Scan :=
  { scan with rest := scan.rest ++ behind }

/-- A text literal that is closed goes on in no way. -/
theorem scanText_append_of_ok {value taken input : List Char} {k : Kind}
    (h : (scanText value taken input).outcome = .ok k) :
    scanText value taken (input ++ behind) = (scanText value taken input).before behind := by
  fun_induction scanText value taken input with
  | case1 => cases h
  | case2 => cases h
  | case3 value taken c rest ih =>
      rw [← ih h]
      simp [scanText]
  | case4 value taken rest => rfl
  | case5 value taken c rest alone escape quote ih =>
      rw [← ih h, List.cons_append]
      exact scanText_cons (ne_backslash alone escape) quote _ _ _

/-- A closed character does not look at what stands behind it. -/
theorem closeChar_append_of_ok {value : Char} {taken input : List Char} {k : Kind}
    (h : (closeChar value taken input).outcome = .ok k) :
    closeChar value taken (input ++ behind) = (closeChar value taken input).before behind := by
  cases input with
  | nil => cases h
  | cons c rest => rfl

/-- Neither does a whole character literal. -/
theorem scanChar_append_of_ok {input : List Char} {k : Kind}
    (h : (scanChar input).outcome = .ok k) :
    scanChar (input ++ behind) = (scanChar input).before behind := by
  cases input with
  | nil => cases h
  | cons c rest =>
      simp only [scanChar, List.cons_append] at h ⊢
      split at h
      · cases h
      next newline =>
      split at h
      · cases h
      next quote =>
      split at h
      · next escape =>
        simp only [if_neg newline, if_neg quote, if_pos escape]
        cases rest with
        | nil => cases h
        | cons d rest => exact closeChar_append_of_ok h
      · next plain =>
        simp only [if_neg newline, if_neg quote, if_neg plain]
        exact closeChar_append_of_ok h

/-- Without a point there is no fraction. -/
theorem spanFraction_of_ne {input : List Char} (other : input.head? ≠ some '.') :
    spanFraction input = ([], input) := by
  unfold spanFraction
  split
  · exact absurd rfl other
  · rfl

/-- A fraction ends in front of a blank. -/
theorem spanFraction_append_blank (blank : Text.StartsBlank behind) (input : List Char) :
    spanFraction (input ++ behind) =
      ((spanFraction input).1, (spanFraction input).2 ++ behind) := by
  have digit := stops_isDigit blank
  by_cases dot : input.head? = some '.'
  · obtain ⟨_ | ⟨d, rest⟩, rfl⟩ := List.head?_eq_some_iff.mp dot
    · cases behind with
      | nil => rfl
      | cons c more => simp [spanFraction, digit c rfl]
    · simp only [List.cons_append, spanFraction, takeWhile_append digit, dropWhile_append digit]
      split <;> rfl
  · rw [spanFraction_of_ne dot, spanFraction_of_ne]
    cases input with
    | cons c rest => exact dot
    | nil =>
        intro h
        have := blank _ h
        revert this
        decide

/-- So does a suffix. -/
theorem spanSuffix_append_blank (blank : Text.StartsBlank behind) (input : List Char) :
    spanSuffix (input ++ behind) = ((spanSuffix input).1, (spanSuffix input).2 ++ behind) := by
  cases input with
  | cons c rest =>
      simp only [List.cons_append, spanSuffix]
      split <;> rfl
  | nil =>
      cases behind with
      | nil => rfl
      | cons c more =>
          refine if_neg ?_
          have here := blank c rfl
          rintro (rfl | rfl) <;> revert here <;> decide

/-- So does a number. -/
theorem scanNumber_append_blank (blank : Text.StartsBlank behind) (first : Char)
    (rest : List Char) :
    scanNumber first (rest ++ behind) = (scanNumber first rest).before behind := by
  have digit := stops_isDigit blank
  have part := stops_isNamePart blank
  simp only [scanNumber, takeWhile_append digit, dropWhile_append digit,
    spanFraction_append_blank blank]
  split
  · simp only [spanSuffix_append_blank blank, takeWhile_append part, dropWhile_append part]
    rfl
  · simp only [takeWhile_append part, dropWhile_append part]
    rfl

/-- So does a name. -/
theorem scanName_append_blank (blank : Text.StartsBlank behind) (first : Char) (rest : List Char) :
    scanName first (rest ++ behind) = (scanName first rest).before behind := by
  simp only [scanName, takeWhile_append (stops_isNamePart blank),
    dropWhile_append (stops_isNamePart blank)]
  rfl

/-- No operator goes on with a blank. -/
theorem double?_of_isBlank (c : Char) {blank : Char} (h : Text.isBlank blank = true) :
    double? c blank = none := by
  have ne : ∀ d : Char, Text.isBlank d = false → blank ≠ d := by
    rintro d hd rfl
    rw [h] at hd
    cases hd
  simp only [double?, ne '&' (by decide), ne '|' (by decide), ne '=' (by decide), and_false,
    if_false]

/-- Every token, if it is one, ends in front of a blank. -/
theorem scanOne_append_of_ok (blank : Text.StartsBlank behind) {c : Char} (rest : List Char)
    {k : Kind} (h : (scanOne c rest).outcome = .ok k) :
    scanOne c (rest ++ behind) = (scanOne c rest).before behind := by
  unfold scanOne at h ⊢
  cases hs : single? c with
  | some s => rfl
  | none =>
  simp only [hs] at h ⊢
  split at h
  · next quote =>
    simp only [if_pos quote]
    exact scanText_append_of_ok h
  next quote =>
  rw [if_neg quote, if_neg quote]
  split at h
  · next tick =>
    rw [if_pos tick, if_pos tick]
    exact scanChar_append_of_ok h
  next tick =>
  rw [if_neg tick, if_neg tick]
  split
  · exact scanNumber_append_blank blank c rest
  split
  · exact scanName_append_blank blank c rest
  · rfl

/-- A token is still there with something behind it that starts with a blank. -/
theorem scan_append_of_ok (blank : Text.StartsBlank behind) {c : Char} {rest : List Char} {k : Kind}
    (h : (scan c rest).outcome = .ok k) :
    scan c (rest ++ behind) = (scan c rest).before behind := by
  cases rest with
  | nil =>
      have alone : scan c ([] ++ behind) = scanOne c ([] ++ behind) := by
        cases behind with
        | nil => rfl
        | cons d more => simp only [List.nil_append, scan, double?_of_isBlank c (blank d rfl)]
      rw [alone]
      exact scanOne_append_of_ok blank [] h
  | cons d more =>
      simp only [scan, List.cons_append] at h ⊢
      split at h
      · rfl
      · exact scanOne_append_of_ok blank (d :: more) h

/-! Blanks do not complete a token either. -/

section blanks

variable (blanks : ∀ c ∈ behind, Text.isBlank c = true)

include blanks

/-- Blanks start with a blank. -/
theorem startsBlank_of_forall : Text.StartsBlank behind :=
  fun c h => blanks c (List.mem_of_head? h)

omit blanks in
/-- A blank is no other character. -/
theorem ne_of_isBlank {c d : Char} (h : Text.isBlank c = true) (hd : Text.isBlank d = false) :
    c ≠ d := by
  rintro rfl
  rw [h] at hd
  cases hd

/-- A text is not closed by blanks. -/
theorem scanText_blanks (value taken : List Char) (k : Kind) :
    (scanText value taken behind).outcome ≠ .ok k := by
  induction behind generalizing value taken with
  | nil => exact fun h => by cases h
  | cons c rest ih =>
      have here := blanks c List.mem_cons_self
      have plain : c ≠ '\\' := ne_of_isBlank here (by decide)
      have open_ : c ≠ '"' := ne_of_isBlank here (by decide)
      rw [scanText_cons plain open_]
      exact ih (fun c mem => blanks c (List.mem_cons_of_mem _ mem)) _ _

/-- A text that is closed with blanks behind it is so without them. -/
theorem scanText_ok_of_append {value taken input : List Char} {k : Kind}
    (h : (scanText value taken (input ++ behind)).outcome = .ok k) :
    ∃ k, (scanText value taken input).outcome = .ok k := by
  fun_induction scanText value taken input with
  | case1 value taken => exact absurd h (scanText_blanks blanks value taken k)
  | case2 value taken =>
      cases behind with
      | nil => cases h
      | cons c rest =>
          have more := fun c mem => blanks c (List.mem_cons_of_mem _ mem)
          exact absurd h (scanText_blanks more _ _ k)
  | case3 value taken c rest ih => exact ih (by simpa [scanText] using h)
  | case4 value taken rest => exact ⟨_, rfl⟩
  | case5 value taken c rest alone escape quote ih =>
      rw [List.cons_append, scanText_cons (ne_backslash alone escape) quote] at h
      exact ih h

/-- A character is not closed by blanks. -/
theorem closeChar_blanks (value : Char) (taken : List Char) (k : Kind) :
    (closeChar value taken behind).outcome ≠ .ok k := by
  cases behind with
  | nil => exact fun h => by cases h
  | cons c rest =>
      have ne : c ≠ '\'' := ne_of_isBlank (blanks c List.mem_cons_self) (by decide)
      rw [closeChar, if_neg ne]
      exact fun h => by cases h

/-- A character that is closed with blanks behind it is so without them. -/
theorem closeChar_ok_of_append {value : Char} {taken input : List Char} {k : Kind}
    (h : (closeChar value taken (input ++ behind)).outcome = .ok k) :
    ∃ k, (closeChar value taken input).outcome = .ok k := by
  cases input with
  | nil => exact absurd h (closeChar_blanks blanks value taken k)
  | cons c rest => exact ⟨k, h⟩

/-- The same of a whole character literal. -/
theorem scanChar_ok_of_append {input : List Char} {k : Kind}
    (h : (scanChar (input ++ behind)).outcome = .ok k) : ∃ k, (scanChar input).outcome = .ok k := by
  cases input with
  | nil =>
      cases behind with
      | nil => cases h
      | cons c rest =>
          have escape : c ≠ '\\' := ne_of_isBlank (blanks c List.mem_cons_self) (by decide)
          simp only [List.nil_append, scanChar, if_neg escape] at h
          split at h
          · cases h
          split at h
          · cases h
          · exact absurd h
              (closeChar_blanks (fun c mem => blanks c (List.mem_cons_of_mem _ mem)) _ _ k)
  | cons c rest =>
      simp only [scanChar, List.cons_append] at h ⊢
      split at h
      · cases h
      next newline =>
      split at h
      · cases h
      next quote =>
      simp only [if_neg newline, if_neg quote]
      split at h
      · next escape =>
        simp only [if_pos escape]
        cases rest with
        | nil =>
            cases behind with
            | nil => cases h
            | cons d more =>
                exact absurd h
                  (closeChar_blanks (fun c mem => blanks c (List.mem_cons_of_mem _ mem)) _ _ k)
        | cons d rest => exact closeChar_ok_of_append blanks h
      · next plain =>
        simp only [if_neg plain]
        exact closeChar_ok_of_append blanks h

/-- The same of every token. -/
theorem scanOne_ok_of_append {c : Char} (rest : List Char) {k : Kind}
    (h : (scanOne c (rest ++ behind)).outcome = .ok k) :
    ∃ k, (scanOne c rest).outcome = .ok k := by
  unfold scanOne at h ⊢
  cases hs : single? c with
  | some s => exact ⟨_, rfl⟩
  | none =>
  simp only [hs] at h ⊢
  split at h
  · next quote =>
    simp only [if_pos quote]
    exact scanText_ok_of_append blanks h
  next quote =>
  simp only [if_neg quote]
  split at h
  · next tick =>
    simp only [if_pos tick]
    exact scanChar_ok_of_append blanks h
  next tick =>
  simp only [if_neg tick]
  split at h
  · next digit =>
    rw [scanNumber_append_blank (startsBlank_of_forall blanks)] at h
    simp only [if_pos digit]
    exact ⟨k, h⟩
  next digit =>
  simp only [if_neg digit]
  split at h
  · next name =>
    simp only [if_pos name]
    exact ⟨_, rfl⟩
  · cases h

/-- A text with blanks behind it has no token in front that it does not have without them. -/
theorem scan_ok_of_append {c : Char} {rest : List Char} {k : Kind}
    (h : (scan c (rest ++ behind)).outcome = .ok k) : ∃ k, (scan c rest).outcome = .ok k := by
  cases rest with
  | nil =>
      refine scanOne_ok_of_append blanks [] (k := k) ?_
      cases behind with
      | nil => exact h
      | cons d more =>
          have here := blanks d List.mem_cons_self
          simpa only [List.nil_append, scan, double?_of_isBlank c here] using h
  | cons d more =>
      simp only [scan, List.cons_append] at h ⊢
      cases hs : double? c d with
      | some s => exact ⟨_, rfl⟩
      | none =>
          simp only [hs] at h ⊢
          exact scanOne_ok_of_append blanks (d :: more) h

end blanks

end Token

namespace Cursor

variable {behind : List Char}

/-- A slash in front stays there. -/
theorem head?_append_eq_slash {input : List Char} (h : input.head? = some '/') :
    (input ++ behind).head? = some '/' := by
  rw [List.head?_append, h]
  rfl

/-- A blank behind the input makes no slash in front. -/
theorem head?_append_ne_slash (blank : Text.StartsBlank behind) {input : List Char}
    (h : input.head? ≠ some '/') : (input ++ behind).head? ≠ some '/' := by
  cases input with
  | cons c rest => exact h
  | nil =>
      intro slash
      have := blank '/' slash
      revert this
      decide

/-- Where a text ends in blanks and comments, what is behind it is skipped in turn, perhaps as part
of a comment. -/
theorem skip_append_of_end {inComment : Bool} {pos : Nat}
    {input : List Char} (h : (skip inComment pos input).rest = []) :
    ∃ commented, skip inComment pos (input ++ behind) =
      skip commented (pos + byteLength input) behind := by
  induction input generalizing inComment pos with
  | nil => exact ⟨inComment, rfl⟩
  | cons c rest ih =>
      simp only [skip, List.cons_append, byteLength_cons, ← Nat.add_assoc] at h ⊢
      split at h
      · next comment =>
        simp only [if_pos comment]
        exact ih h
      next comment =>
      simp only [if_neg comment]
      split at h
      · next space =>
        simp only [if_pos space]
        exact ih h
      next space =>
      simp only [if_neg space]
      split at h
      · next slashes =>
        have both : c = '/' ∧ (rest ++ behind).head? = some '/' :=
          ⟨slashes.1, head?_append_eq_slash slashes.2⟩
        simp only [if_pos both]
        exact ih h
      · cases h

/-- Where a token follows the blanks and comments, they end there with anything behind the text. -/
theorem skip_append_of_more (blank : Text.StartsBlank behind) {inComment : Bool} {pos : Nat}
    {input : List Char} (h : (skip inComment pos input).rest ≠ []) :
    skip inComment pos (input ++ behind) =
      ⟨(skip inComment pos input).rest ++ behind, (skip inComment pos input).pos⟩ := by
  induction input generalizing inComment pos with
  | nil => exact absurd rfl h
  | cons c rest ih =>
      simp only [skip, List.cons_append] at h ⊢
      split at h
      · next comment =>
        simp only [if_pos comment]
        exact ih h
      next comment =>
      simp only [if_neg comment]
      split at h
      · next space =>
        simp only [if_pos space]
        exact ih h
      next space =>
      simp only [if_neg space]
      split at h
      · next slashes =>
        have both : c = '/' ∧ (rest ++ behind).head? = some '/' :=
          ⟨slashes.1, head?_append_eq_slash slashes.2⟩
        simp only [if_pos both, if_pos slashes]
        exact ih h
      · next other =>
        have neither : ¬(c = '/' ∧ (rest ++ behind).head? = some '/') := fun both =>
          other ⟨both.1, by
            by_contra no
            exact head?_append_ne_slash blank no both.2⟩
        simp only [if_neg neither, if_neg other]
        rfl

/-- A text with something behind it. -/
def before (cursor : Cursor) (behind : List Char) : Cursor := ⟨cursor.rest ++ behind, cursor.pos⟩

/-- A token is the same with blanks behind the text. -/
theorem tokenHere_before (blank : Text.StartsBlank behind) {start place : Cursor} {t : Token}
    (h : start.tokenHere = (.ok t, place)) (more : start.rest ≠ []) :
    (start.before behind).tokenHere = (.ok t, place.before behind) := by
  obtain ⟨_ | ⟨c, rest⟩, pos⟩ := start
  · exact absurd rfl more
  · rw [tokenHere] at h
    split at h
    · next k hk =>
      cases h
      have same := Token.scan_append_of_ok blank hk
      rw [before, List.cons_append, tokenHere, same]
      simp only [Token.Scan.before, hk]
      rfl
    · cases h

/-- So is the next token with the place behind it, unless it is the `eof`. -/
theorem next_before (blank : Text.StartsBlank behind) {cursor place : Cursor} {t : Token}
    (h : cursor.next = (.ok t, place)) (more : t.kind.isEof = false) :
    (cursor.before behind).next = (.ok t, place.before behind) := by
  rw [next] at h
  have some : cursor.skipTrivia.rest ≠ [] := by
    rw [isEof_of_tokenHere h] at more
    simpa using more
  have start : (cursor.before behind).skipTrivia = cursor.skipTrivia.before behind :=
    skip_append_of_more blank some
  rw [next, start]
  exact tokenHere_before blank h some

/-- The place behind a token is further on by the bytes that were read. -/
theorem next_pos (cursor : Cursor) :
    cursor.next.2.pos + byteLength cursor.next.2.rest = cursor.pos + byteLength cursor.rest :=
  (tokenHere_pos cursor.skipTrivia).trans (skip_pos false cursor.pos cursor.rest)

/-- The last token of a text without a flaw, and no other, is its end. -/
theorem tokens_of_whole {cursor : Cursor} (whole : cursor.lexed.flaw = none) :
    ∃ front,
      cursor.lexed.tokens = front ++ [⟨.eof, .empty (cursor.pos + byteLength cursor.rest)⟩] ∧
      ∀ t ∈ front, t.kind.isEof = false := by
  induction cursor using lexed_induction with
  | flaw cursor e place hnext =>
      rw [lexed_of_error hnext] at whole
      cases whole
  | last cursor t place hnext last =>
      have far := next_pos cursor
      rw [hnext] at far
      rw [lexed_of_eof hnext last]
      rw [next] at hnext
      have nothing := isEof_of_tokenHere hnext
      rw [last, eq_comm, List.isEmpty_iff] at nothing
      rw [show cursor.skipTrivia = ⟨[], cursor.skipTrivia.pos⟩ by rw [← nothing]] at hnext
      cases hnext
      rw [← far]
      exact ⟨[], rfl, fun _ mem => absurd mem List.not_mem_nil⟩
  | token cursor t place hnext more ih =>
      have far := next_pos cursor
      rw [hnext] at far
      rw [lexed_of_token hnext more] at whole ⊢
      obtain ⟨front, htokens, opens⟩ := ih whole
      refine ⟨t :: front, ?_, List.forall_mem_cons.mpr ⟨more, opens⟩⟩
      rw [← far]
      exact congrArg (t :: ·) htokens

/-- A text without a flaw has at least the `eof`. -/
theorem tokens_ne_nil {cursor : Cursor} (whole : cursor.lexed.flaw = none) :
    cursor.lexed.tokens ≠ [] := by
  obtain ⟨front, htokens, -⟩ := tokens_of_whole whole
  rw [htokens]
  exact List.append_ne_nil_of_right_ne_nil front (List.cons_ne_nil _ _)

/-- A text with something behind it: the same tokens up to its end, and then those that are left
when what is behind it has been skipped, perhaps as part of a comment. -/
theorem lexed_append (blank : Text.StartsBlank behind) {cursor : Cursor}
    (whole : cursor.lexed.flaw = none) :
    ∃ commented, (cursor.before behind).lexed =
      (lexedHere (skip commented (cursor.pos + byteLength cursor.rest) behind)).behind
        cursor.lexed.tokens.dropLast := by
  induction cursor using lexed_induction with
  | flaw cursor e place hnext =>
      rw [lexed_of_error hnext] at whole
      cases whole
  | last cursor t place hnext last =>
      have nothing : cursor.skipTrivia.rest = [] := by
        rw [next] at hnext
        rw [isEof_of_tokenHere hnext] at last
        simpa using last
      obtain ⟨commented, skipped⟩ := skip_append_of_end nothing
      refine ⟨commented, ?_⟩
      rw [lexed_of_eof hnext last, lexed_eq, ← skipped]
      rfl
  | token cursor t place hnext more ih =>
      rw [lexed_of_token hnext more] at whole ⊢
      obtain ⟨commented, onward⟩ := ih whole
      refine ⟨commented, ?_⟩
      have far := next_pos cursor
      rw [hnext] at far
      rw [lexed_of_token (next_before blank hnext more) more, onward, far, Lexed.behind_behind]
      congr 1
      exact (List.dropLast_append_of_ne_nil (tokens_ne_nil whole)).symm

/-- A text with a newline and another text behind it. -/
theorem lexed_newline {input : List Char} {pos : Nat}
    (whole : (lexed ⟨input, pos⟩).flaw = none) (rest : List Char) :
    lexed ⟨input ++ '\n' :: rest, pos⟩ =
      (lexed ⟨rest, pos + byteLength input + 1⟩).behind (lexed ⟨input, pos⟩).tokens.dropLast := by
  have blank : Text.StartsBlank ('\n' :: rest) := by
    intro c h
    cases h
    decide
  obtain ⟨commented, h⟩ := lexed_append blank whole
  have skipped : skip commented (pos + byteLength input) ('\n' :: rest) =
      skipTrivia ⟨rest, pos + byteLength input + 1⟩ := by
    cases commented <;> rfl
  rw [lexed_eq ⟨rest, _⟩, ← skipped]
  exact h

/-- Nothing is left of blanks that are skipped. -/
theorem rest_skip_of_blanks (blanks : ∀ c ∈ behind, Text.isBlank c = true) (inComment : Bool)
    (pos : Nat) : (skip inComment pos behind).rest = [] := by
  induction behind generalizing inComment pos with
  | nil => rfl
  | cons c rest ih =>
      have more := fun d mem => blanks d (List.mem_cons_of_mem _ mem)
      simp only [skip, blanks c List.mem_cons_self, if_true]
      split <;> exact ih more _ _

/-- Blanks behind a text do not mend a flaw. -/
theorem flaw_of_before_blanks (blanks : ∀ c ∈ behind, Text.isBlank c = true) {cursor : Cursor}
    (whole : (cursor.before behind).lexed.flaw = none) : cursor.lexed.flaw = none := by
  have blank := Token.startsBlank_of_forall blanks
  induction cursor using lexed_induction with
  | last cursor t place hnext last => rw [lexed_of_eof hnext last]
  | token cursor t place hnext more ih =>
      rw [lexed_of_token (next_before blank hnext more) more] at whole
      rw [lexed_of_token hnext more]
      exact ih whole
  | flaw cursor e place hnext =>
      exfalso
      rw [next] at hnext
      obtain ⟨c, rest, hrest⟩ : ∃ c rest, cursor.skipTrivia.rest = c :: rest := by
        cases hrest : cursor.skipTrivia.rest with
        | cons c rest => exact ⟨c, rest, rfl⟩
        | nil =>
            rw [show cursor.skipTrivia = ⟨[], cursor.skipTrivia.pos⟩ by rw [← hrest]] at hnext
            cases hnext
      have start : (cursor.before behind).skipTrivia =
          ⟨c :: (rest ++ behind), cursor.skipTrivia.pos⟩ := by
        refine (skip_append_of_more blank ?_).trans ?_
        · exact hrest ▸ List.cons_ne_nil c rest
        · exact congrArg (Cursor.mk · _) (congrArg (· ++ behind) hrest)
      rw [show cursor.skipTrivia = ⟨c :: rest, cursor.skipTrivia.pos⟩ by rw [← hrest]] at hnext
      rw [lexed_eq, start, lexedHere, tokenHere] at whole
      cases hscan : (Token.scan c (rest ++ behind)).outcome with
      | error flaw =>
          rw [hscan] at whole
          cases whole
      | ok k =>
          -- a scanner that comes to a token with the blanks comes to one without them
          obtain ⟨k', hk⟩ := Token.scan_ok_of_append blanks hscan
          rw [tokenHere, hk] at hnext
          cases hnext

/-- A text with blanks behind it: the same tokens, but for the place of the end. -/
theorem lexed_blanks (blanks : ∀ c ∈ behind, Text.isBlank c = true) {cursor : Cursor}
    (whole : cursor.lexed.flaw = none) :
    ∃ pos, (cursor.before behind).lexed =
      ⟨cursor.lexed.tokens.dropLast ++ [⟨.eof, .empty pos⟩], none⟩ := by
  obtain ⟨commented, h⟩ := lexed_append (Token.startsBlank_of_forall blanks) whole
  have last := rest_skip_of_blanks blanks commented (cursor.pos + byteLength cursor.rest)
  generalize skip commented _ behind = stop at h last
  obtain ⟨rest, pos⟩ := stop
  cases last
  exact ⟨pos, h⟩

end Cursor

end ScriptConsole
