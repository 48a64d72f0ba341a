import ScriptConsole.Token.Lexer

/-!
# Tokens on Demand

A `Supply` gives tokens one at a time: a list of tokens that have been read already, or a lexer that
reads the next token of its text only when it is asked for it and stops at the end of the text.

A `Feed` draws tokens from a supply into a buffer. Whoever reads from it looks at the token in front
or at one of those behind, and takes the one in front. Tokens are drawn as far as somebody has
looked, and no further. A supply without more tokens is padded with `eof`, which stands where the
last token drawn ends.

## Main results

* `Lexer.size_lt`: a lexer moves on with every token, and so is a supply.
-/

namespace ScriptConsole

/-- Something that gives tokens one at a time. -/
class Supply (σ : Type) where
  /-- The next token or the flaw in its place, or nothing at the end. -/
  next : σ → Option (Except LexError (Token × σ))
  /-- A bound for the number of tokens to come. -/
  size : σ → Nat
  size_lt : ∀ {s s' : σ} {t : Token}, next s = some (.ok (t, s')) → size s' < size s

/-- Tokens that have been read already. -/
instance : Supply (List Token) where
  next
    | [] => none
    | t :: rest => some (.ok (t, rest))
  size := List.length
  size_lt {s s' t} h := by
    cases s with
    | nil => cases h
    | cons u rest =>
        cases h
        exact Nat.lt_succ_self _

/-- A text that is being read: the place behind the tokens read so far, and whether the last of them
was the end of the text. -/
structure Lexer where
  place : Cursor
  ended : Bool

namespace Lexer

/-- The start of a text. -/
def ofText (source : String) : Lexer := ⟨.ofText source, false⟩

/-- The next token; nothing behind the end of the text. -/
def next (l : Lexer) : Option (Except LexError (Token × Lexer)) :=
  if l.ended then none
  else
    match l.place.next with
    | (.error e, _) => some (.error e)
    | (.ok t, place) => some (.ok (t, ⟨place, t.kind.isEof⟩))

/-- The number of characters left, and one for the end of the text. -/
def size (l : Lexer) : Nat := if l.ended then 0 else l.place.rest.length + 1

theorem size_lt {l l' : Lexer} {t : Token} (h : l.next = some (.ok (t, l'))) :
    l'.size < l.size := by
  unfold next at h
  split at h
  · cases h
  next unended =>
  split at h
  · cases h
  next u place hnext =>
  cases h
  have before : l.size = l.place.rest.length + 1 := if_neg unended
  rw [before, size]
  split
  · exact Nat.succ_pos _
  next more =>
  -- only `eof` comes without characters
  have shorter := l.place.length_next_lt fun none => more <| by
    have start : l.place.skipTrivia = ⟨[], l.place.skipTrivia.pos⟩ := by rw [← none]
    rw [Cursor.next, start, Cursor.tokenHere] at hnext
    cases hnext
    rfl
  rw [hnext] at shorter
  exact Nat.succ_lt_succ shorter

end Lexer

/-- Tokens that are read from a text when they are asked for. -/
instance : Supply Lexer where
  next := Lexer.next
  size := Lexer.size
  size_lt := Lexer.size_lt

/-- Tokens drawn from a supply and not yet taken, and the supply. -/
structure Feed (σ : Type) where
  supply : σ
  /-- The tokens drawn and not taken, the one in front first. -/
  buffer : List Token
  /-- Where the last token drawn ends. -/
  lastStop : Nat

namespace Feed

variable {σ : Type} [Supply σ]

/-- A feed from which nothing has been drawn. -/
def ofSupply (supply : σ) : Feed σ := ⟨supply, [], 0⟩

/-- A bound for the number of tokens other than `eof` that can be taken. -/
def size (feed : Feed σ) : Nat :=
  feed.buffer.countP (fun t => !t.kind.isEof) + Supply.size feed.supply

/-- Draws one more token. -/
def draw (feed : Feed σ) : Except LexError (Feed σ) :=
  match Supply.next feed.supply with
  | none => .ok { feed with buffer := feed.buffer ++ [⟨.eof, .empty feed.lastStop⟩] }
  | some (.error e) => .error e
  | some (.ok (t, supply)) => .ok ⟨supply, feed.buffer ++ [t], t.span.stop⟩

theorem length_draw {feed feed' : Feed σ} (h : feed.draw = .ok feed') :
    feed'.buffer.length = feed.buffer.length + 1 := by
  unfold draw at h
  split at h <;> cases h <;> simp

/-- The token that stands `n` tokens behind the one in front, and the feed when that many have been
drawn. -/
def peek (feed : Feed σ) (n : Nat) : Except LexError (Token × Feed σ) :=
  match _short : feed.buffer[n]? with
  | some t => .ok (t, feed)
  | none =>
    match _drawn : feed.draw with
    | .error e => .error e
    | .ok more => more.peek n
termination_by n + 1 - feed.buffer.length
decreasing_by
  have short := List.getElem?_eq_none_iff.mp _short
  have drawn := length_draw _drawn
  omega

/-- Takes the token in front. -/
def take (feed : Feed σ) : Except LexError (Token × Feed σ) :=
  match feed.peek 0 with
  | .error e => .error e
  | .ok (t, feed) => .ok (t, { feed with buffer := feed.buffer.tail })

end Feed

end ScriptConsole
