/-!
# Lines of Input

Input comes as bytes. It is cut at the newlines, and each line is taken as UTF-8 without the newline
and the carriage returns at its end. A line that is not UTF-8 ends the input: neither that line nor
any line behind it is seen.
-/

namespace ScriptConsole.Text

/-- A line without the newlines and carriage returns at its end. -/
def dropLineEnd (line : List Char) : List Char :=
  (line.reverse.dropWhile fun c => c = '\n' ∨ c = '\r').reverse

/-- The byte of a newline. -/
def newline : UInt8 := 10

/-- Bytes cut at the newlines; `line` holds those of the current line, the last one first. What
stands behind the last newline counts as a line unless it is empty. -/
def cutLines (line : List UInt8) : List UInt8 → List (List UInt8)
  | [] => if line.isEmpty then [] else [line.reverse]
  | b :: rest => if b = newline then line.reverse :: cutLines [] rest else cutLines (b :: line) rest

/-- Lines decoded up to the first that is not UTF-8. -/
def decodeLines : List (List UInt8) → List String
  | [] => []
  | line :: rest =>
    match String.fromUTF8? ⟨line.toArray⟩ with
    | some text => String.ofList (dropLineEnd text.toList) :: decodeLines rest
    | none => []

/-- The lines of some input. -/
def inputLines (bytes : List UInt8) : List String := decodeLines (cutLines [] bytes)

/-- Cutting only takes the newlines away. -/
theorem length_flatten_cutLines (line bytes : List UInt8) :
    (cutLines line bytes).flatten.length + bytes.count newline = line.length + bytes.length := by
  induction bytes generalizing line with
  | nil => cases line <;> simp [cutLines]
  | cons b rest ih =>
    by_cases h : b = newline
    · have := ih []
      simp only [cutLines, h, if_true, List.flatten_cons, List.length_append, List.length_reverse,
        List.count_cons_self, List.length_cons, List.length_nil] at this ⊢
      omega
    · have := ih (b :: line)
      simp only [cutLines, if_neg h, List.count_cons_of_ne h, List.length_cons] at this ⊢
      omega

end ScriptConsole.Text
