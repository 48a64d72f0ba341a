/-!
# Spans

A span is a range of byte offsets into a source text, from `start` up to but not including `stop`.
Tokens and nodes of the tree carry one.
-/

namespace ScriptConsole

/-- A range of byte offsets. -/
structure Span where
  start : Nat
  stop : Nat
  deriving DecidableEq, Repr, Inhabited

namespace Span

/-- The smallest span that covers two spans. -/
def join (a b : Span) : Span :=
  ⟨min a.start b.start, max a.stop b.stop⟩

/-- An empty span. -/
def empty (pos : Nat) : Span := ⟨pos, pos⟩

theorem join_of_ordered {a b : Span} (starts : a.start ≤ b.start) (stops : a.stop ≤ b.stop) :
    a.join b = ⟨a.start, b.stop⟩ := by
  simp [join, Nat.min_eq_left starts, Nat.max_eq_right stops]

end Span

end ScriptConsole
