import ScriptConsole.Text.Ranges

/-!
# Blank Characters

The characters of the Unicode property `White_Space`. They separate tokens, and they are what is
trimmed off the end of a console line.

## Main results

* `isBlank_of_isWhitespace`: every character that core counts as whitespace is blank.
* `dropBlankEnd_append`: trimming a text with blanks added at its end gives the trimmed text.
* `eq_dropBlankEnd_append`: a text is what trimming leaves of it with blanks behind.
-/

namespace ScriptConsole.Text

/-- The code points of `White_Space`. -/
def blankRanges : List (Nat × Nat) :=
  [ (0x9, 0xD), (0x20, 0x20), (0x85, 0x85), (0xA0, 0xA0), (0x1680, 0x1680), (0x2000, 0x200A),
    (0x2028, 0x2029), (0x202F, 0x202F), (0x205F, 0x205F), (0x3000, 0x3000) ]

/-- Whether a character has the property `White_Space`. -/
def isBlank (c : Char) : Bool :=
  inRanges blankRanges c.toNat

/-- The whitespace of core is blank. -/
theorem isBlank_of_isWhitespace {c : Char} (h : c.isWhitespace = true) : isBlank c = true := by
  simp only [Char.isWhitespace, Bool.or_eq_true, decide_eq_true_eq] at h
  rcases h with ((rfl | rfl) | rfl) | rfl <;> decide

/-- The text without the blanks at its end. -/
def dropBlankEnd (s : List Char) : List Char :=
  (s.reverse.dropWhile isBlank).reverse

/-- Blanks behind a text are dropped with those that it ends in. -/
theorem dropBlankEnd_append {s t : List Char} (h : ∀ c ∈ t, isBlank c = true) :
    dropBlankEnd (s ++ t) = dropBlankEnd s := by
  have : (t.reverse ++ s.reverse).dropWhile isBlank = s.reverse.dropWhile isBlank := by
    apply List.dropWhile_append_of_pos
    simpa using h
  simp [dropBlankEnd, this]

/-- What trimming takes off a text are blanks at its end. -/
theorem eq_dropBlankEnd_append (s : List Char) :
    ∃ blanks, s = dropBlankEnd s ++ blanks ∧ ∀ c ∈ blanks, isBlank c = true := by
  refine ⟨(s.reverse.takeWhile isBlank).reverse, ?_, fun c mem => ?_⟩
  · rw [dropBlankEnd, ← List.reverse_append, List.takeWhile_append_dropWhile, List.reverse_reverse]
  · exact List.all_eq_true.mp List.all_takeWhile c (List.mem_reverse.mp mem)

/-- Whether a text holds blanks only. -/
def allBlank (s : List Char) : Bool :=
  s.all isBlank

end ScriptConsole.Text
