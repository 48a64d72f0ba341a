import ScriptConsole.Proofs.Lexing.Pieces

/-!
# A Token and What Is Left Behind It

A scan looks further than the characters that it takes: at the second character of an operator, at
the digit behind a point, at what ends a name. None of this depends on more than that there is
nothing to go on with, so a text that is cut off anywhere behind a token still has that token in
front, with what the cut leaves behind it. Two things follow. The text of a token, alone, is that
token. And no longer piece of the source is one token, for its front is the shorter one.

## Main results

* `Token.scan_of_append`: a scan of a text that is cut off behind the token.
* `Cursor.next_of_token`: so it is with a token behind blanks and comments.
-/

namespace ScriptConsole

namespace Token

variable {behind : List Char}

/-- What ends a run of characters ends it in the same place if the text is cut off behind. -/
theorem dropWhile_of_append {p : Char → Bool} {input left : List Char}
    (h : (input ++ behind).dropWhile p = left ++ behind) :
    input.takeWhile p = (input ++ behind).takeWhile p ∧ input.dropWhile p = left := by
  induction input with
  | nil =>
      have short := (List.dropWhile_sublist (l := behind) p).length_le
      rw [List.nil_append] at h
      have none : left = [] := by
        rw [h, List.length_append] at short
        exact List.eq_nil_of_length_eq_zero (by omega)
      rw [none, List.nil_append] at h
      have whole := List.takeWhile_append_dropWhile (p := p) (l := behind)
      rw [h] at whole
      exact ⟨(List.append_left_eq_self.mp whole).symm, none.symm⟩
  | cons c rest ih =>
      rw [List.cons_append] at h ⊢
      cases hc : p c with
      | true =>
          rw [List.dropWhile_cons_of_pos hc] at h
          simp only [List.takeWhile_cons_of_pos hc, List.dropWhile_cons_of_pos hc]
          exact ⟨congrArg _ (ih h).1, (ih h).2⟩
      | false =>
          have stop : ¬p c = true := by simp [hc]
          rw [List.dropWhile_cons_of_neg stop] at h
          simp only [List.takeWhile_cons_of_neg stop, List.dropWhile_cons_of_neg stop]
          exact ⟨trivial, List.append_cancel_right h⟩

/-- A fraction is the same without what it leaves. -/
theorem spanFraction_of_append {input left fraction : List Char}
    (h : spanFraction (input ++ behind) = (fraction, left ++ behind)) :
    spanFraction input = (fraction, left) := by
  by_cases dot : input.head? = some '.'
  · obtain ⟨_ | ⟨d, rest⟩, rfl⟩ := List.head?_eq_some_iff.mp dot
    · -- the fraction would have taken the cut off digit
      cases behind with
      | nil => simpa using h
      | cons d more =>
          simp only [List.cons_append, List.nil_append, spanFraction] at h
          split at h
          · have short := (List.dropWhile_sublist (l := more) Char.isDigit).length_le
            rw [(Prod.mk.inj h).2, List.length_append, List.length_cons] at short
            omega
          · obtain ⟨rfl, hleft⟩ := Prod.mk.inj h
            obtain rfl : ['.'] = left := List.append_cancel_right hleft
            rfl
    · simp only [List.cons_append, spanFraction] at h ⊢
      split at h
      · next digit =>
        obtain ⟨rfl, hleft⟩ := Prod.mk.inj h
        have cut := dropWhile_of_append hleft
        rw [if_pos digit, cut.1, cut.2]
      · next other =>
        obtain ⟨rfl, hleft⟩ := Prod.mk.inj h
        obtain rfl : '.' :: d :: rest = left := List.append_cancel_right hleft
        rw [if_neg other]
  · rw [spanFraction_of_ne dot]
    cases input with
    | nil =>
        have whole := spanFraction_append ([] ++ behind)
        rw [h, ← List.append_assoc] at whole
        obtain ⟨rfl, rfl⟩ : fraction = [] ∧ left = [] :=
          List.append_eq_nil_iff.mp (List.append_cancel_right whole)
        rfl
    | cons c rest =>
        rw [spanFraction_of_ne (by exact dot)] at h
        obtain ⟨rfl, hleft⟩ := Prod.mk.inj h
        rw [List.append_cancel_right hleft]

/-- So is a suffix. -/
theorem spanSuffix_of_append {input left suffix : List Char}
    (h : spanSuffix (input ++ behind) = (suffix, left ++ behind)) :
    spanSuffix input = (suffix, left) := by
  have whole := spanSuffix_append (input ++ behind)
  rw [h, ← List.append_assoc] at whole
  cases input with
  | nil =>
      obtain ⟨rfl, rfl⟩ : suffix = [] ∧ left = [] :=
        List.append_eq_nil_iff.mp (List.append_cancel_right whole)
      rfl
  | cons c rest =>
      simp only [List.cons_append, spanSuffix] at h ⊢
      split at h
      · next wide =>
        rw [if_pos wide, ← (Prod.mk.inj h).1, List.append_cancel_right (Prod.mk.inj h).2]
      · next other =>
        obtain ⟨rfl, hleft⟩ := Prod.mk.inj h
        obtain rfl : c :: rest = left := List.append_cancel_right hleft
        rw [if_neg other]

/-- A number without a flaw, part by part. -/
theorem scanNumber_eq_ok_iff {first : Char} {rest text left : List Char} {k : Kind} :
    scanNumber first rest = ⟨.ok k, text, left⟩ ↔
      ∃ fraction suffix behindFraction,
        spanFraction (rest.dropWhile Char.isDigit) = (fraction, behindFraction) ∧
        (if fraction.isEmpty then spanSuffix behindFraction else ([], behindFraction)) =
          (suffix, left) ∧
        left.takeWhile Text.isNamePart = [] ∧
        numberValue (first :: rest.takeWhile Char.isDigit) fraction suffix = .ok k ∧
        text = first :: rest.takeWhile Char.isDigit ++ fraction ++ suffix := by
  generalize hfraction : spanFraction (rest.dropWhile Char.isDigit) = spanned
  obtain ⟨fraction, behindFraction⟩ := spanned
  generalize hsuffix : (if fraction.isEmpty then spanSuffix behindFraction
    else ([], behindFraction)) = spanned
  obtain ⟨suffix, left'⟩ := spanned
  have run : (left'.takeWhile Text.isNamePart) ++ left'.dropWhile Text.isNamePart = left' :=
    List.takeWhile_append_dropWhile
  simp only [scanNumber, hfraction, hsuffix, Scan.mk.injEq, Prod.mk.injEq]
  constructor
  · rintro ⟨hvalue, htext, hleft⟩
    split at hvalue
    · next alone =>
      rw [List.isEmpty_iff] at alone
      rw [alone, List.nil_append] at run
      rw [alone, List.append_nil] at htext
      obtain rfl : left' = left := run.symm.trans hleft
      exact ⟨fraction, suffix, behindFraction, ⟨rfl, rfl⟩, by rw [hsuffix], alone, hvalue,
        htext.symm⟩
    · cases hvalue
  · rintro ⟨_, _, _, ⟨rfl, rfl⟩, h, alone, hvalue, rfl⟩
    obtain ⟨rfl, rfl⟩ := Prod.mk.inj (hsuffix.symm.trans h)
    rw [alone, List.nil_append] at run
    simp [alone, hvalue, run]

/-- A number is the same without what it leaves. -/
theorem scanNumber_of_append {first : Char} {rest text left : List Char} {k : Kind}
    (h : scanNumber first (rest ++ behind) = ⟨.ok k, text, left ++ behind⟩) :
    scanNumber first rest = ⟨.ok k, text, left⟩ := by
  obtain ⟨fraction, suffix, behindFraction, hfraction, hsuffix, alone, hvalue, htext⟩ :=
    scanNumber_eq_ok_iff.mp h
  have two : behindFraction = suffix ++ left ++ behind := by
    rw [List.append_assoc]
    split at hsuffix
    · rw [← spanSuffix_append behindFraction, hsuffix]
    · obtain ⟨rfl, rfl⟩ := Prod.mk.inj hsuffix
      rfl
  have three : (rest ++ behind).dropWhile Char.isDigit =
      fraction ++ (suffix ++ left) ++ behind := by
    rw [← spanFraction_append ((rest ++ behind).dropWhile Char.isDigit), hfraction, two,
      ← List.append_assoc]
  have digits := dropWhile_of_append three
  rw [← digits.1] at hvalue htext
  refine scanNumber_eq_ok_iff.mpr ⟨fraction, suffix, suffix ++ left, ?_, ?_, ?_, hvalue, htext⟩
  · rw [three, two] at hfraction
    rw [digits.2]
    exact spanFraction_of_append hfraction
  · rw [two] at hsuffix
    split at hsuffix
    · next none => rw [if_pos none, spanSuffix_of_append hsuffix]
    · next some =>
      rw [if_neg some, ← (Prod.mk.inj hsuffix).1]
      rfl
  · cases left with
    | nil => rfl
    | cons c more =>
        have other : ¬Text.isNamePart c = true := fun part => by
          rw [List.cons_append, List.takeWhile_cons_of_pos part] at alone
          cases alone
        exact List.takeWhile_cons_of_neg other

/-- So is a name. -/
theorem scanName_of_append {first : Char} {rest text left : List Char} {k : Kind}
    (h : scanName first (rest ++ behind) = ⟨.ok k, text, left ++ behind⟩) :
    scanName first rest = ⟨.ok k, text, left⟩ := by
  obtain ⟨hkind, htext, hleft⟩ := Scan.mk.inj h
  have cut := dropWhile_of_append hleft
  rw [← hkind, ← htext, ← cut.1, ← cut.2]
  rfl

/-- A text literal that is closed leaves out its quote at least. -/
theorem length_scanText_lt {value taken input text left : List Char} {k : Kind}
    (h : scanText value taken input = ⟨.ok k, text, left⟩) : left.length < input.length := by
  fun_induction scanText value taken input with
  | case1 => cases h
  | case2 => cases h
  | case3 value taken c rest ih =>
      have := ih h
      simp only [List.length_cons]
      omega
  | case4 value taken rest =>
      cases h
      exact Nat.lt_succ_self _
  | case5 value taken c rest alone escape quote ih => exact Nat.lt_succ_of_lt (ih h)

/-- A text is the same without what it leaves. -/
theorem scanText_of_append {value taken input text left : List Char} {k : Kind}
    (h : scanText value taken (input ++ behind) = ⟨.ok k, text, left ++ behind⟩) :
    scanText value taken input = ⟨.ok k, text, left⟩ := by
  fun_induction scanText value taken input with
  | case1 value taken =>
      have := length_scanText_lt h
      simp only [List.nil_append, List.length_append] at this
      omega
  | case2 value taken =>
      cases behind with
      | nil => cases h
      | cons c rest =>
          have closed : scanText (unescape c :: value) (c :: '\\' :: taken) rest =
              ⟨.ok k, text, left ++ c :: rest⟩ := by simpa [scanText] using h
          have := length_scanText_lt closed
          simp only [List.length_append, List.length_cons] at this
          omega
  | case3 value taken c rest ih => exact ih (by simpa [scanText] using h)
  | case4 value taken rest =>
      obtain ⟨hkind, htext, hleft⟩ := Scan.mk.inj h
      rw [hkind, htext, List.append_cancel_right hleft]
  | case5 value taken c rest alone escape quote ih =>
      rw [List.cons_append, scanText_cons (ne_backslash alone escape) quote] at h
      exact ih h

/-- A character is closed by a quote. -/
theorem closeChar_eq_ok_iff {value : Char} {taken input text left : List Char} {k : Kind} :
    closeChar value taken input = ⟨.ok k, text, left⟩ ↔
      input = '\'' :: left ∧ k = .literal (.char value) ∧ text = taken ++ ['\''] := by
  cases input with
  | nil => simp [closeChar]
  | cons c rest =>
      rw [closeChar]
      split
      · next quote =>
        simp only [Scan.mk.injEq, Except.ok.injEq, List.cons.injEq, quote, true_and]
        constructor
        · rintro ⟨rfl, rfl, rfl⟩
          exact ⟨rfl, rfl, rfl⟩
        · rintro ⟨rfl, rfl, rfl⟩
          exact ⟨rfl, rfl, rfl⟩
      · next other => simp [other]

/-- A character literal without a flaw: one plain character or an escape, and a quote. -/
theorem scanChar_eq_ok_iff {input text left : List Char} {k : Kind} :
    scanChar input = ⟨.ok k, text, left⟩ ↔
      ∃ body value, input = body ++ '\'' :: left ∧ text = '\'' :: (body ++ ['\'']) ∧
        k = .literal (.char value) ∧
        (body = [value] ∧ value ≠ '\n' ∧ value ≠ '\'' ∧ value ≠ '\\' ∨
          ∃ e, body = ['\\', e] ∧ value = unescape e) := by
  constructor
  · intro h
    cases input with
    | nil => cases h
    | cons c rest =>
    simp only [scanChar] at h
    split at h
    · cases h
    next newline =>
    split at h
    · cases h
    next quote =>
    split at h
    · next escape =>
      cases rest with
      | nil => cases h
      | cons e rest =>
          obtain ⟨rfl, rfl, rfl⟩ := closeChar_eq_ok_iff.mp h
          exact ⟨[c, e], unescape e, rfl, rfl, rfl, .inr ⟨e, by rw [escape], rfl⟩⟩
    · next plain =>
      obtain ⟨rfl, rfl, rfl⟩ := closeChar_eq_ok_iff.mp h
      exact ⟨[c], c, rfl, rfl, rfl, .inl ⟨rfl, newline, quote, plain⟩⟩
  · rintro ⟨body, value, rfl, rfl, rfl, ⟨rfl, newline, quote, plain⟩ | ⟨e, rfl, rfl⟩⟩
    · simp [scanChar, closeChar, newline, quote, plain]
    · simp [scanChar, closeChar]

/-- A character literal is the same without what it leaves. -/
theorem scanChar_of_append {input text left : List Char} {k : Kind}
    (h : scanChar (input ++ behind) = ⟨.ok k, text, left ++ behind⟩) :
    scanChar input = ⟨.ok k, text, left⟩ := by
  obtain ⟨body, value, hinput, rest⟩ := scanChar_eq_ok_iff.mp h
  rw [← List.cons_append, ← List.append_assoc] at hinput
  exact scanChar_eq_ok_iff.mpr ⟨body, value, List.append_cancel_right hinput, rest⟩

/-- So is every token. -/
theorem scanOne_of_append {c : Char} {rest text left : List Char} {k : Kind}
    (h : scanOne c (rest ++ behind) = ⟨.ok k, text, left ++ behind⟩) :
    scanOne c rest = ⟨.ok k, text, left⟩ := by
  unfold scanOne at h ⊢
  cases hs : single? c with
  | some s =>
      obtain ⟨hkind, htext, hleft⟩ := Scan.mk.inj (by simpa only [hs] using h)
      simp only [hkind, htext, List.append_cancel_right hleft]
  | none =>
  simp only [hs] at h ⊢
  split at h
  · next quote =>
    rw [if_pos quote]
    exact scanText_of_append h
  next quote =>
  rw [if_neg quote]
  split at h
  · next tick =>
    rw [if_pos tick]
    exact scanChar_of_append h
  next tick =>
  rw [if_neg tick]
  split at h
  · next digit =>
    rw [if_pos digit]
    exact scanNumber_of_append h
  next digit =>
  rw [if_neg digit]
  split at h
  · next name =>
    rw [if_pos name]
    exact scanName_of_append h
  · cases h

/-- A scan does not look at what stands behind what it leaves, but for the fact that the token does
not go on: if that is cut off, the token and the rest are the same. -/
theorem scan_of_append {c : Char} {rest text left : List Char} {k : Kind}
    (h : scan c (rest ++ behind) = ⟨.ok k, text, left ++ behind⟩) :
    scan c rest = ⟨.ok k, text, left⟩ := by
  cases rest with
  | cons d more =>
      simp only [List.cons_append, scan] at h ⊢
      cases hs : double? c d with
      | some s =>
          obtain ⟨hkind, htext, hleft⟩ := Scan.mk.inj (by simpa only [hs] using h)
          simp only [hkind, htext, List.append_cancel_right hleft]
      | none =>
          simp only [hs] at h
          exact scanOne_of_append h
  | nil =>
      cases behind with
      | nil => exact scanOne_of_append h
      | cons d more =>
          simp only [List.nil_append, scan] at h
          split at h
          · -- the operator took the cut off character
            have := congrArg (·.rest.length) h
            simp only [List.length_append, List.length_cons] at this
            omega
          · have first : scanOne c ([] ++ d :: more) = ⟨.ok k, text, left ++ d :: more⟩ := h
            exact scanOne_of_append first

end Token

end ScriptConsole
