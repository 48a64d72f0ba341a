import Mathlib.Data.List.TakeWhile
import ScriptConsole.Proofs.Lexing.Tiling

/-!
# What a Flaw Says of Its Source

A flaw points at the first character behind blanks and comments, and the lexer goes on behind the
characters that it took for the malformed token. What the flaw itself says is of these characters:
an invalid character is the only one of them, and the text of a malformed number is theirs, except
that it leaves out the suffix of a wide integer (`Token.ShowsNumber`). So `12Lab` is reported as
`12ab`, which stands nowhere in the source.

## Main results

* `Token.describes_of_scan`: what a flaw says of the characters that were taken.
* `lex_errors_describe`: from every place that a lexer comes to, also behind flaws.
-/

namespace ScriptConsole

namespace Token

/-! ### Malformed numbers -/

/-- Whether a text is a run of digits, the suffix of a wide integer, and something behind it. -/
def IsWide (digits behind text : List Char) : Prop :=
  digits ≠ [] ∧ (∀ c ∈ digits, c.isDigit = true) ∧
    (text = digits ++ 'l' :: behind ∨ text = digits ++ 'L' :: behind)

/-- What the flaw of a number shows of the characters of that number: all of them, in order, but for
the suffix of a wide integer. -/
structure ShowsNumber (shown : String) (text : List Char) : Prop where
  whole_iff : shown.toList = text ↔ ∀ digits behind, ¬IsWide digits behind text
  wide : ∀ digits behind, IsWide digits behind text → shown.toList = digits ++ behind

/-- A run of digits ends where the first other character stands. -/
theorem eq_of_digits {whole digits rest behind : List Char} {c : Char}
    (hwhole : ∀ d ∈ whole, d.isDigit = true) (hdigits : ∀ d ∈ digits, d.isDigit = true)
    (ends : ∀ d, rest.head? = some d → d.isDigit = false) (other : c.isDigit = false)
    (same : whole ++ rest = digits ++ c :: behind) : whole = digits ∧ rest = c :: behind := by
  have run {front back : List Char} (all : ∀ d ∈ front, d.isDigit = true)
      (stop : ∀ d, back.head? = some d → d.isDigit = false) :
      (front ++ back).takeWhile Char.isDigit = front := by
    rw [takeWhile_append stop, List.takeWhile_eq_self_iff.mpr all]
  have first := run hwhole ends
  rw [same, run hdigits fun d h => by rw [← Option.some.inj h]; exact other] at first
  subst first
  exact ⟨rfl, List.append_cancel_left same⟩

section

variable {whole behind : List Char} (digits : ∀ c ∈ whole, c.isDigit = true)

include digits

/-- A number without a suffix is shown as it is. -/
theorem showsNumber_plain
    (ends : ∀ c, behind.head? = some c → c.isDigit = false ∧ c ≠ 'l' ∧ c ≠ 'L') :
    ShowsNumber (String.ofList (whole ++ behind)) (whole ++ behind) := by
  have none : ∀ front more, ¬IsWide front more (whole ++ behind) := by
    rintro front more ⟨-, all, wide | wide⟩
    all_goals
      obtain ⟨-, hbehind⟩ := eq_of_digits digits all (fun c h => (ends c h).1) rfl wide
      have := ends _ (by rw [hbehind]; rfl)
      simp at this
  refine ⟨⟨fun _ => none, fun _ => String.toList_ofList⟩, fun front more wide => ?_⟩
  exact absurd wide (none front more)

/-- A number with a suffix is shown without it. -/
theorem showsNumber_wide {c : Char} (some : whole ≠ []) (suffix : c = 'l' ∨ c = 'L') :
    ShowsNumber (String.ofList (whole ++ behind)) (whole ++ c :: behind) := by
  have other : c.isDigit = false := by rcases suffix with rfl | rfl <;> rfl
  refine ⟨⟨fun same => ?_, fun none => ?_⟩, fun front more ⟨_, all, wide⟩ => ?_⟩
  · rw [String.toList_ofList] at same
    have := congrArg List.length same
    simp at this
  · refine absurd ⟨some, digits, ?_⟩ (none whole behind)
    rcases suffix with rfl | rfl
    · exact .inl rfl
    · exact .inr rfl
  · rw [String.toList_ofList]
    rcases wide with wide | wide
    all_goals
      obtain ⟨rfl, same⟩ := eq_of_digits digits all
        (fun d h => by rw [← Option.some.inj h]; exact other) rfl wide
      rw [(List.cons.inj same).2]

end

/-- What behind a number is no suffix ends the number, or is a part of a name. -/
theorem spanSuffix_cases (input : List Char) :
    (∃ c rest, (c = 'l' ∨ c = 'L') ∧ input = c :: rest ∧ spanSuffix input = ([c], rest)) ∨
      (spanSuffix input = ([], input) ∧ ∀ c, input.head? = some c → c ≠ 'l' ∧ c ≠ 'L') := by
  cases input with
  | nil => exact .inr ⟨rfl, fun c h => by cases h⟩
  | cons c rest =>
      by_cases suffix : c = 'l' ∨ c = 'L'
      · exact .inl ⟨c, rest, suffix, rfl, by rw [spanSuffix, if_pos suffix]⟩
      · refine .inr ⟨by rw [spanSuffix, if_neg suffix], fun d h => ?_⟩
        obtain rfl := Option.some.inj h
        exact not_or.mp suffix

/-- A fraction starts with a point. -/
theorem spanFraction_cases (input : List Char) :
    (∃ places rest, input = '.' :: places ++ rest ∧ spanFraction input = ('.' :: places, rest)) ∨
      spanFraction input = ([], input) := by
  unfold spanFraction
  split
  · next d rest =>
    split
    · exact .inl ⟨d :: rest.takeWhile Char.isDigit, rest.dropWhile Char.isDigit, by simp, rfl⟩
    · exact .inr rfl
  · exact .inr rfl

/-- Without a fraction, the flaw of the value of a number shows its digits. -/
theorem numberValue_eq_error {whole fraction suffix : List Char} {flaw : Flaw}
    (h : numberValue whole fraction suffix = .error flaw) :
    fraction = [] ∧ flaw = .badNumber (String.ofList whole) := by
  unfold numberValue at h
  dsimp only at h
  split at h
  · cases h
  all_goals
    split at h
    · cases h
    · exact ⟨rfl, (Except.error.inj h).symm⟩

/-- The flaw of a number shows its text, the suffix of a wide integer left out. -/
theorem showsNumber_of_scanNumber {first : Char} {rest text left : List Char} {flaw : Flaw}
    (digit : first.isDigit = true) (h : scanNumber first rest = ⟨.error flaw, text, left⟩) :
    ∃ shown, flaw = .badNumber shown ∧ ShowsNumber shown text := by
  have digits : ∀ c ∈ first :: rest.takeWhile Char.isDigit, c.isDigit = true :=
    List.forall_mem_cons.mpr ⟨digit, fun c mem => List.all_eq_true.mp List.all_takeWhile c mem⟩
  have ends : ∀ c, (rest.dropWhile Char.isDigit).head? = some c → c.isDigit = false := by
    intro c hc
    have := List.head?_dropWhile_not Char.isDigit rest
    simpa [hc] using this
  simp only [scanNumber] at h
  have some : first :: rest.takeWhile Char.isDigit ≠ [] := List.cons_ne_nil _ _
  generalize first :: rest.takeWhile Char.isDigit = whole at digits some h
  generalize rest.dropWhile Char.isDigit = behind at ends h
  rcases spanFraction_cases behind with ⟨places, rest, -, parts⟩ | parts
  · simp only [parts, List.isEmpty_cons, Bool.false_eq_true, ↓reduceIte, List.append_nil,
      Scan.mk.injEq] at h
    obtain ⟨hflaw, rfl, -⟩ := h
    split at hflaw
    · cases (numberValue_eq_error hflaw).1
    · refine ⟨_, (Except.error.inj hflaw).symm, ?_⟩
      rw [List.append_assoc]
      refine showsNumber_plain digits fun c hc => ?_
      obtain rfl := Option.some.inj hc
      decide
  simp only [parts, List.isEmpty_nil, ↓reduceIte, List.append_nil] at h
  -- what is left out of the flaw is the suffix, if there is one
  rcases spanSuffix_cases behind with ⟨c, rest, suffix, -, parts⟩ | ⟨parts, other⟩
  · simp only [parts, Scan.mk.injEq] at h
    obtain ⟨hflaw, rfl, -⟩ := h
    rw [List.append_assoc, List.singleton_append]
    split at hflaw
    · next alone =>
      refine ⟨_, (numberValue_eq_error hflaw).2, ?_⟩
      rw [List.isEmpty_iff.mp alone]
      simpa using @showsNumber_wide whole [] digits c some suffix
    · exact ⟨_, (Except.error.inj hflaw).symm, showsNumber_wide digits some suffix⟩
  · simp only [parts, Scan.mk.injEq, List.append_nil] at h
    obtain ⟨hflaw, rfl, -⟩ := h
    have plain : ShowsNumber (String.ofList (whole ++ behind.takeWhile Text.isNamePart))
        (whole ++ behind.takeWhile Text.isNamePart) := by
      refine showsNumber_plain digits fun c hc => ?_
      have front : behind.head? = Option.some c := by
        cases behind with
        | nil => cases hc
        | cons d more =>
            rw [List.takeWhile_cons] at hc
            split at hc
            · exact hc
            · cases hc
      exact ⟨ends c front, other c front⟩
    split at hflaw
    · next alone =>
      refine ⟨_, (numberValue_eq_error hflaw).2, ?_⟩
      rw [List.isEmpty_iff.mp alone, List.append_nil] at plain ⊢
      exact plain
    · exact ⟨_, (Except.error.inj hflaw).symm, plain⟩

/-! ### All flaws -/

/-- What a flaw says of the characters that were taken for the token. -/
def Flaw.Describes (text : List Char) : Flaw → Prop
  | .invalidChar c => text = [c]
  | .unterminatedText => text.head? = some '"'
  | .unterminatedChar => text.head? = some '\''
  | .emptyChar => text = ['\'', '\'']
  | .badNumber shown => ShowsNumber shown text

/-- The only flaw of a text literal is that it has no end. -/
theorem describes_of_scanText {value taken input text left : List Char} {flaw : Flaw}
    (quoted : taken.getLast? = some '"')
    (h : scanText value taken input = ⟨.error flaw, text, left⟩) : flaw.Describes text := by
  fun_induction scanText value taken input with
  | case1 value taken =>
      cases h
      rw [Flaw.Describes, List.head?_reverse, quoted]
  | case2 value taken =>
      cases h
      rw [Flaw.Describes, List.head?_reverse, List.getLast?_cons, quoted]
      rfl
  | case3 value taken c rest ih => exact ih (by simp [List.getLast?_cons, quoted]) h
  | case4 value taken rest => cases h
  | case5 value taken c rest alone escape quote ih =>
      exact ih (by simp [List.getLast?_cons, quoted]) h

/-- The flaw of a character that is not closed describes its text. -/
theorem describes_of_closeChar {value : Char} {taken input text left : List Char} {flaw : Flaw}
    (quoted : taken.head? = some '\'')
    (h : closeChar value taken input = ⟨.error flaw, text, left⟩) : flaw.Describes text := by
  cases input with
  | nil =>
      cases h
      exact quoted
  | cons c rest =>
      rw [closeChar] at h
      split at h
      · cases h
      · cases h
        rw [Flaw.Describes, List.head?_append, quoted]
        rfl

/-- So does that of any character literal. -/
theorem describes_of_scanChar {input text left : List Char} {flaw : Flaw}
    (h : scanChar input = ⟨.error flaw, text, left⟩) : flaw.Describes text := by
  unfold scanChar at h
  split at h
  · cases h
    rfl
  next c rest =>
  split at h
  · cases h
    rfl
  split at h
  · next quote =>
    cases h
    rw [quote]
    rfl
  split at h
  · split at h
    · cases h
      rfl
    · exact describes_of_closeChar rfl h
  · exact describes_of_closeChar rfl h

/-- The flaw of any token describes its text, and no token of one fixed character has one. -/
theorem describes_of_scanOne {c : Char} {rest text left : List Char} {flaw : Flaw}
    (h : scanOne c rest = ⟨.error flaw, text, left⟩) : flaw.Describes text ∧ single? c = none := by
  unfold scanOne at h
  split at h
  · cases h
  next single =>
  refine ⟨?_, single⟩
  split at h
  · exact describes_of_scanText rfl h
  split at h
  · exact describes_of_scanChar h
  split at h
  · next digit =>
    obtain ⟨shown, rfl, shows_⟩ := showsNumber_of_scanNumber digit h
    exact shows_
  split at h
  · cases h
  · cases h
    rfl

/-- What a flaw says of the characters that were taken, of which the first is no symbol. -/
theorem describes_of_scan {c : Char} {rest text left : List Char} {flaw : Flaw}
    (h : scan c rest = ⟨.error flaw, text, left⟩) : flaw.Describes text ∧ single? c = none := by
  unfold scan at h
  split at h
  · exact describes_of_scanOne h
  · split at h
    · cases h
    · exact describes_of_scanOne h

end Token

/-! ### Flaws of a source -/

/-- What is promised of a flaw that is met between two places of a source. -/
structure FlawLaw (source : String) (start : Cursor) (e : LexError) (stop : Cursor) : Prop where
  /-- In front of it are blanks and comments, and nothing else. -/
  gap : ∃ gap, Slice source ⟨start.pos, e.pos⟩ gap ∧ Trivia false gap
  /-- It points at a character which is neither a blank nor part of a comment, the first of those
  that are taken, and says what they are. -/
  text : ∃ c more, Slice source ⟨e.pos, stop.pos⟩ (c :: more) ∧ Text.isBlank c = false ∧ c ≠ '/' ∧
    e.flaw.Describes (c :: more)
  /-- It points into the source. -/
  inside : e.pos < source.utf8ByteSize

/-- A flaw describes the text between the places where the token begins and ends. -/
theorem Cursor.flawLaw_of_next {source : String} {start stop : Cursor} {e : LexError}
    (within : start.Within source) (h : start.next = (.error e, stop)) :
    FlawLaw source start e stop := by
  obtain ⟨front, whole, far⟩ := within
  obtain ⟨gap, hrest, hpos, trivia⟩ := start.exists_trivia
  rw [next] at h
  generalize hplace : start.skipTrivia = place at h hrest hpos trivia
  obtain ⟨_ | ⟨c, rest⟩, pos⟩ := place
  · cases h
  obtain ⟨solid, -⟩ := opens_of_skip hplace
  have parts := Token.scan_text_append_rest c rest
  rw [tokenHere] at h
  generalize hscan : Token.scan c rest = scanned at h parts
  obtain ⟨outcome, text, left⟩ := scanned
  cases outcome with
  | ok k => cases h
  | error flaw =>
  cases h
  obtain ⟨describes, single⟩ := Token.describes_of_scan hscan
  have some : text ≠ [] := by
    have := Token.scan_text_ne_nil c rest
    rwa [hscan] at this
  obtain ⟨d, more, rfl⟩ := List.exists_cons_of_ne_nil some
  obtain ⟨rfl, -⟩ := List.cons.inj parts
  dsimp only at hpos parts hrest ⊢
  have reached : byteLength (front ++ gap) = pos := by rw [byteLength_append, far, hpos]
  have all : source.toList = front ++ gap ++ (d :: more ++ left) := by
    rw [whole, hrest, parts, List.append_assoc]
  refine ⟨⟨gap, ⟨front, d :: more ++ left, all, far, reached⟩, trivia⟩,
    ⟨d, more, ⟨front ++ gap, left, ?_, reached, ?_⟩, solid, ?_, describes⟩, ?_⟩
  · rw [all, List.append_assoc (front ++ gap)]
  · rw [byteLength_append, reached]
  · rintro rfl
    cases single
  · rw [← byteLength_toList, all, byteLength_append, reached, List.cons_append, byteLength_cons]
    have := d.utf8Size_pos
    dsimp only
    omega

/-- **Flaws describe their source.** From every place that the lexer comes to, after any number of
tokens and flaws, a flaw points at the first character behind blanks and comments and says what
stands there. What it shows of a malformed number is all of it exactly if it has no suffix, and
otherwise all but the suffix. -/
theorem lex_errors_describe (source : String) (n : Nat) {e : LexError} {stop : Cursor}
    (h : (Cursor.visited source n).next = (.error e, stop)) :
    FlawLaw source (Cursor.visited source n) e stop :=
  Cursor.flawLaw_of_next (Cursor.within_visited source n) h

/-- A malformed wide number behind another flaw and a comment. -/
theorem lex_errors_describe_suffix :
    (Cursor.visited "# // é\n 12Lab" 1).next = (.error ⟨.badNumber "12ab", 9⟩, ⟨[], 14⟩) ∧
      FlawLaw "# // é\n 12Lab" (Cursor.visited "# // é\n 12Lab" 1) ⟨.badNumber "12ab", 9⟩
        ⟨[], 14⟩ := by
  have read : (Cursor.visited "# // é\n 12Lab" 1).next =
      (.error ⟨.badNumber "12ab", 9⟩, ⟨[], 14⟩) :=
    Prod.ext (by decide +kernel) (by decide +kernel)
  exact ⟨read, lex_errors_describe _ 1 read⟩

/-- The text that a flaw shows of a number need not be that of the source: it lacks the suffix. -/
theorem shown_without_suffix :
    ¬∀ (source : String) (n : Nat) (e : LexError) (stop : Cursor) (shown : String)
      (text : List Char), (Cursor.visited source n).next = (.error e, stop) →
      e.flaw = .badNumber shown → Slice source ⟨e.pos, stop.pos⟩ text → shown.toList = text := by
  intro all
  have read : (Cursor.visited "12Lab" 0).next = (.error ⟨.badNumber "12ab", 0⟩, ⟨[], 5⟩) :=
    Prod.ext (by decide +kernel) (by decide +kernel)
  have same := all "12Lab" 0 _ _ "12ab" "12Lab".toList read rfl ⟨[], [], by simp, rfl, by decide⟩
  exact absurd same (by decide)

end ScriptConsole
