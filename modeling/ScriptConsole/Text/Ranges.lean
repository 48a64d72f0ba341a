/-!
# Sets of Characters Written as Ranges

A property of characters that is given by a table is a list of inclusive ranges of code points, in
ascending order. `Text.inRanges` looks a code point up in such a list.

## Main results

* `inRanges_iff`: membership is exactly "some range of the list contains the code point".
-/

namespace ScriptConsole.Text

/-- Whether a code point lies in one of the inclusive ranges of the list. -/
def inRanges (ranges : List (Nat × Nat)) (code : Nat) : Bool :=
  ranges.any fun r => r.1 ≤ code && code ≤ r.2

theorem inRanges_iff {ranges : List (Nat × Nat)} {code : Nat} :
    inRanges ranges code = true ↔ ∃ r ∈ ranges, r.1 ≤ code ∧ code ≤ r.2 := by
  simp [inRanges]

end ScriptConsole.Text
