import ScriptConsole.Expr.OnDemand
import ScriptConsole.Proofs.Syntax.Places

/-!
# What a Feed Holds

A feed holds tokens if it shows them, one after the other, to whoever looks: those in its buffer,
then those that its supply has yet to give, and then what a parser meets that looks past the last
token (`Feed.Holds`). To look at a feed, however far, does not change what it holds, and to take the
token in front leaves the others. Which tokens have been drawn, and from where, plays no part.

A feed may hold tokens with their places changed, and with another flaw behind them (`Motion`).

A reader on feeds agrees with one on lists if it comes to the same on every feed that holds the
list: the same value, on a feed that holds the rest, or the same error, with places and flaw changed
(`Drawing.Agrees`). Readers that agree do so one after the other.

## Main results

* `Feed.peek_of_nth`, `Feed.take_of_nth`: looking and taking show what there is to be seen.
* `Drawing.Draws.bind`: one reader after another.
* `Drawing.symbol_agrees`, `Drawing.ident_agrees`: single tokens.
-/

namespace ScriptConsole

open Placed (move)

variable {σ α : Type} [Supply σ]

/-! ### What a feed holds -/

/-- The token that a supply gives after `n` others, if the token before them ends at `lastStop`. -/
def Supply.upcoming (supply : σ) (lastStop : Nat) (n : Nat) : Except LexError Token :=
  match Supply.next supply, n with
  | none, _ => .ok ⟨.eof, .empty lastStop⟩
  | some (.error e), _ => .error e
  | some (.ok (t, _)), 0 => .ok t
  | some (.ok (t, more)), n + 1 => upcoming more t.span.stop n

namespace Feed

variable {feed : Feed σ} {tail : Tail} {tokens : List Token} {t : Token}

/-- The token that stands `n` tokens behind the one in front, whether it has been drawn or not. -/
def nth (feed : Feed σ) (n : Nat) : Except LexError Token :=
  match feed.buffer[n]? with
  | some t => .ok t
  | none => Supply.upcoming feed.supply feed.lastStop (n - feed.buffer.length)

/-- Behind the buffer stand the tokens that are still to be supplied. -/
theorem nth_of_length_le {n : Nat} (le : feed.buffer.length ≤ n) :
    feed.nth n = Supply.upcoming feed.supply feed.lastStop (n - feed.buffer.length) := by
  rw [nth, List.getElem?_eq_none le]

/-- A flaw that stops a draw stands behind the buffer. -/
theorem nth_of_draw_error {e : LexError} (h : feed.draw = .error e) {n : Nat}
    (le : feed.buffer.length ≤ n) : feed.nth n = .error e := by
  unfold draw at h
  split at h
  · cases h
  · next hnext =>
    cases h
    rw [nth_of_length_le le, Supply.upcoming.eq_def, hnext]
  · cases h

/-- To draw a token does not change what is seen. -/
theorem nth_of_draw {feed' : Feed σ} (h : feed.draw = .ok feed') : feed'.nth = feed.nth := by
  funext n
  have drawn := length_draw h
  unfold draw at h
  rcases Nat.lt_or_ge n feed.buffer.length with lt | le
  · split at h <;> cases h <;> simp [nth, List.getElem?_append_left lt, lt]
  rw [nth_of_length_le le, Supply.upcoming.eq_def]
  split at h
  · next hnext =>
    cases h
    rcases Nat.eq_or_lt_of_le le with rfl | lt
    · simp [nth, hnext]
    · rw [nth_of_length_le (by omega), Supply.upcoming.eq_def]
      simp [hnext]
  · cases h
  · next t more hnext =>
    cases h
    rcases Nat.eq_or_lt_of_le le with rfl | lt
    · simp [nth, hnext]
    · obtain ⟨k, rfl⟩ := Nat.exists_eq_add_of_lt lt
      rw [nth_of_length_le (by omega), hnext, drawn,
        show feed.buffer.length + k + 1 - (feed.buffer.length + 1) = k by omega,
        show feed.buffer.length + k + 1 - feed.buffer.length = k + 1 by omega]

/-- A draw does not make a feed larger. -/
theorem size_draw_le {feed' : Feed σ} (h : feed.draw = .ok feed') : feed'.size ≤ feed.size := by
  unfold draw at h
  split at h
  · cases h
    simp [size, Token.Kind.isEof]
  · cases h
  · next t supply hnext =>
    cases h
    have less := Supply.size_lt hnext
    have one : [t].countP (fun t => !t.kind.isEof) ≤ 1 := List.countP_le_length
    simp only [size, List.countP_append]
    omega

/-- To look at a token shows it and changes nothing that is seen. -/
theorem peek_of_nth {n : Nat} (h : feed.nth n = .ok t) :
    ∃ rest, feed.peek n = .ok (t, rest) ∧ rest.nth = feed.nth ∧ rest.size ≤ feed.size ∧
      rest.buffer[n]? = some t := by
  fun_induction peek feed n with
  | case1 feed u hu =>
      rw [nth, hu] at h
      cases h
      exact ⟨feed, rfl, rfl, Nat.le_refl _, hu⟩
  | case2 feed short e hdraw =>
      rw [nth_of_draw_error hdraw (List.getElem?_eq_none_iff.mp short)] at h
      cases h
  | case3 feed short more hdraw ih =>
      have same := nth_of_draw hdraw
      obtain ⟨rest, hpeek, hnth, hsize, hbuffer⟩ := ih (same ▸ h)
      exact ⟨rest, hpeek, hnth.trans same, Nat.le_trans hsize (size_draw_le hdraw), hbuffer⟩

/-- A look at a flaw fails with it. -/
theorem peek_of_nth_error {n : Nat} {e : LexError} (h : feed.nth n = .error e) :
    feed.peek n = .error e := by
  fun_induction peek feed n with
  | case1 feed u hu =>
      rw [nth, hu] at h
      cases h
  | case2 feed short e' hdraw =>
      rw [nth_of_draw_error hdraw (List.getElem?_eq_none_iff.mp short)] at h
      cases h
      rfl
  | case3 feed short more hdraw ih => exact ih (nth_of_draw hdraw ▸ h)

/-- To take the token in front leaves those behind it. -/
theorem take_of_nth (h : feed.nth 0 = .ok t) :
    ∃ rest, feed.take = .ok (t, rest) ∧ (∀ n, rest.nth n = feed.nth (n + 1)) ∧
      (t.kind.isEof = false → rest.size < feed.size) := by
  obtain ⟨⟨supply, buffer, lastStop⟩, hpeek, hnth, hsize, hbuffer⟩ := peek_of_nth h
  refine ⟨⟨supply, buffer.tail, lastStop⟩, by rw [take, hpeek], fun n => ?_, fun more => ?_⟩
  · rw [← hnth]
    cases buffer with
    | nil => cases hbuffer
    | cons u rest => simp [nth]
  · refine Nat.lt_of_lt_of_le ?_ hsize
    cases buffer with
    | nil => cases hbuffer
    | cons u rest =>
        cases hbuffer
        simp [size, more]

/-- Whether a feed shows some tokens, moved by `f`, and behind them what stands behind the last of
them. -/
def Holds (feed : Feed σ) (m : Motion) (tail : Tail) (tokens : List Token) : Prop :=
  ∀ n, (feed.nth n).mapError .lex = m.outcome (Parser.ahead tail tokens n)

/-- A feed holds what another one with the same tokens does. -/
theorem Holds.of_nth_eq {feed' : Feed σ} {m : Motion} (holds : feed.Holds m tail tokens)
    (same : feed'.nth = feed.nth) : feed'.Holds m tail tokens := by
  unfold Holds
  rw [same]
  exact holds

end Feed

/-! ### Readers that agree -/

namespace Drawing

variable [Placed α] {m : Motion} {feed : Feed σ} {tail : Tail} {tokens : List Token}

/-- Whether the outcome of a reader on a feed is that of one on the tokens that the feed holds, with
less than `bound` left to be taken. -/
def Draws (m : Motion) (tail : Tail) (bound : Nat)
    (outcome : Except SourceError (α × Feed σ)) : Except SourceError (Reading tokens α) → Prop
  | .error e => outcome = .error (m.error e)
  | .ok r => ∃ rest, outcome = .ok (move m.place r.value, rest) ∧ rest.Holds m tail r.rest ∧
      rest.size < bound

/-- Whether a reader on feeds comes to the same as one on lists. -/
def Agrees (m : Motion) (tail : Tail) (x : Drawing σ α) (reader : TokenReader α) : Prop :=
  ∀ ⦃feed : Feed σ⦄ ⦃tokens : List Token⦄, feed.Holds m tail tokens →
    Draws m tail feed.size (x feed) (reader tokens)

/-- Whether the outcome of a look at a feed is what is to be seen in the tokens that the feed
holds. -/
def Sees (m : Motion) (tail : Tail) (tokens : List Token) (bound : Nat)
    (outcome : Except SourceError (α × Feed σ)) : Except SourceError α → Prop
  | .error e => outcome = .error (m.error e)
  | .ok a => ∃ rest, outcome = .ok (move m.place a, rest) ∧ rest.Holds m tail tokens ∧
      rest.size ≤ bound

section

variable {β : Type} [Placed β] {x : Drawing σ α} {k : α → Drawing σ β} {n n' : Nat}

/-- A failure of the one reader is one of the other. -/
theorem Draws.error {outcome : Except SourceError (α × Feed σ)}
    {y : Except SourceError (Reading tokens α)} {e : SourceError}
    (draws : Draws m tail n outcome y) (h : y = .error e) : outcome = .error (m.error e) := by
  subst h
  exact draws

/-- A reading of the one reader is one of the other, with less left. -/
theorem Draws.ok {outcome : Except SourceError (α × Feed σ)}
    {y : Except SourceError (Reading tokens α)} {r : Reading tokens α}
    (draws : Draws m tail n outcome y) (h : y = .ok r) :
    ∃ rest, outcome = .ok (move m.place r.value, rest) ∧ rest.Holds m tail r.rest ∧
      rest.size < n := by
  subst h
  exact draws

/-- A bound on what is left may be weakened. -/
theorem Draws.mono {outcome : Except SourceError (α × Feed σ)}
    {y : Except SourceError (Reading tokens α)} (draws : Draws m tail n' outcome y) (le : n' ≤ n) :
    Draws m tail n outcome y := by
  cases y with
  | error e => exact draws
  | ok r =>
      obtain ⟨rest, hrest, holds, lt⟩ := draws
      exact ⟨rest, hrest, holds, Nat.lt_of_lt_of_le lt le⟩

/-- One reader after another: it fails with the first, and goes on where the first ended. -/
theorem Draws.bind {y : Except SourceError (Reading tokens α)} {whole : List Token}
    {z : Except SourceError (Reading whole β)} (draws : Draws m tail n' (x feed) y)
    (fails : ∀ e, y = .error e → z = .error e)
    (further : ∀ (r : Reading tokens α) (rest : Feed σ), y = .ok r → rest.Holds m tail r.rest →
      rest.size < n' → Draws m tail n (k (move m.place r.value) rest) z) :
    Draws m tail n ((x >>= k) feed) z := by
  cases h : y with
  | error e =>
      rw [fails e h]
      exact bind_error (draws.error h)
  | ok r =>
      obtain ⟨rest, hrest, holds, lt⟩ := draws.ok h
      rw [bind_ok hrest]
      exact further r rest h holds lt

/-- A look that fails does so for both. -/
theorem Sees.error {outcome : Except SourceError (α × Feed σ)} {y : Except SourceError α}
    {e : SourceError} (sees : Sees m tail tokens n outcome y) (h : y = .error e) :
    outcome = .error (m.error e) := by
  subst h
  exact sees

/-- What the one sees is what the other does, and nothing is taken. -/
theorem Sees.ok {outcome : Except SourceError (α × Feed σ)} {y : Except SourceError α} {a : α}
    (sees : Sees m tail tokens n outcome y) (h : y = .ok a) :
    ∃ rest, outcome = .ok (move m.place a, rest) ∧ rest.Holds m tail tokens ∧ rest.size ≤ n := by
  subst h
  exact sees

/-- A reader after a look. -/
theorem Sees.read {y : Except SourceError α} {whole : List Token}
    {z : Except SourceError (Reading whole β)} (sees : Sees m tail tokens n' (x feed) y)
    (fails : ∀ e, y = .error e → z = .error e)
    (further : ∀ (a : α) (rest : Feed σ), y = .ok a → rest.Holds m tail tokens → rest.size ≤ n' →
      Draws m tail n (k (move m.place a) rest) z) :
    Draws m tail n ((x >>= k) feed) z := by
  cases h : y with
  | error e =>
      rw [fails e h]
      exact bind_error (sees.error h)
  | ok a =>
      obtain ⟨rest, hrest, holds, le⟩ := sees.ok h
      rw [bind_ok hrest]
      exact further a rest h holds le

/-- One look after another. -/
theorem Sees.bind {y : Except SourceError α} {z : Except SourceError β}
    (sees : Sees m tail tokens n' (x feed) y) (fails : ∀ e, y = .error e → z = .error e)
    (further : ∀ (a : α) (rest : Feed σ), y = .ok a → rest.Holds m tail tokens → rest.size ≤ n' →
      Sees m tail tokens n (k (move m.place a) rest) z) :
    Sees m tail tokens n ((x >>= k) feed) z := by
  cases h : y with
  | error e =>
      rw [fails e h]
      exact bind_error (sees.error h)
  | ok a =>
      obtain ⟨rest, hrest, holds, le⟩ := sees.ok h
      rw [bind_ok hrest]
      exact further a rest h holds le

end

/-! ### Looking and taking -/

/-- Both parsers see the same tokens ahead. -/
theorem ahead_sees (holds : feed.Holds m tail tokens) (n : Nat) :
    Sees m tail tokens feed.size ((ahead n : Drawing σ Token) feed)
      (Parser.ahead tail tokens n) := by
  have shown := holds n
  cases hahead : Parser.ahead tail tokens n with
  | error e =>
      rw [hahead] at shown
      cases hnth : feed.nth n with
      | error e' =>
          rw [hnth] at shown
          show (feed.peek n).mapError _ = _
          rw [Feed.peek_of_nth_error hnth]
          exact congrArg Except.error (Except.error.inj shown)
      | ok t =>
          rw [hnth] at shown
          cases shown
  | ok t =>
      rw [hahead] at shown
      cases hnth : feed.nth n with
      | error e =>
          rw [hnth] at shown
          cases shown
      | ok u =>
          rw [hnth] at shown
          cases shown
          obtain ⟨rest, hpeek, same, hsize, -⟩ := Feed.peek_of_nth hnth
          refine ⟨rest, ?_, holds.of_nth_eq same, hsize⟩
          show (feed.peek n).mapError _ = _
          rw [hpeek]
          rfl

/-- Both parsers see the same token in front. -/
theorem current_sees (holds : feed.Holds m tail tokens) :
    Sees m tail tokens feed.size ((current : Drawing σ Token) feed) (Parser.current tail tokens) :=
  ahead_sees holds 0

/-- The token in front is taken from the feed as from the list. -/
theorem take_of_holds {t : Token} {ts : List Token} (holds : feed.Holds m tail (t :: ts)) :
    ∃ rest, take feed = .ok (move m.place t, rest) ∧ rest.Holds m tail ts ∧
      (t.kind.isEof = false → rest.size < feed.size) := by
  have front : feed.nth 0 = .ok (move m.place t) := by
    have shown : _ = Except.ok (move m.place t) := holds 0
    cases hnth : feed.nth 0 with
    | error e =>
        rw [hnth] at shown
        cases shown
    | ok u =>
        rw [hnth] at shown
        cases shown
        rfl
  obtain ⟨rest, htake, behind, shorter⟩ := Feed.take_of_nth front
  refine ⟨rest, ?_, fun n => ?_, shorter⟩
  · show feed.take.mapError _ = _
    rw [htake]
    rfl
  · rw [behind, holds (n + 1), Parser.ahead, Parser.ahead, List.drop_succ_cons]

/-- The token in front, looked at and taken. -/
theorem taken_of_holds {t : Token} {ts : List Token} (holds : feed.Holds m tail (t :: ts))
    (more : t.kind.isEof = false) :
    ∃ front rest, current feed = .ok (move m.place t, front) ∧
      take front = .ok (move m.place t, rest) ∧ rest.Holds m tail ts ∧ rest.size < feed.size := by
  have here : Parser.current tail (t :: ts) = .ok t := rfl
  obtain ⟨front, hfront, holds', le⟩ := (current_sees holds).ok here
  obtain ⟨rest, htake, behind, shorter⟩ := take_of_holds holds'
  exact ⟨front, rest, hfront, htake, behind, Nat.lt_of_lt_of_le (shorter more) le⟩

/-! ### Single tokens -/

/-- Both parsers refuse with the same error. -/
theorem refuse_draws {wanted : Wanted} {n : Nat} (holds : feed.Holds m tail tokens)
    {whole : List Token} :
    Draws m tail n ((refuse wanted : Drawing σ α) feed)
      (Parser.refuse tail wanted tokens : Except SourceError (Reading whole α)) := by
  unfold Parser.refuse
  refine (current_sees holds).read (fun e he => by rw [he]) fun t rest ht _ _ => ?_
  rw [ht]
  rfl

/-- Both parsers refuse for the depth with the same error. -/
theorem refuseDepth_draws {n : Nat} (holds : feed.Holds m tail tokens) {whole : List Token} :
    Draws m tail n ((refuseDepth : Drawing σ α) feed)
      (Parser.refuseDepth tail tokens : Except SourceError (Reading whole α)) := by
  unfold Parser.refuseDepth
  refine (current_sees holds).read (fun e he => by rw [he]) fun t rest ht _ _ => ?_
  rw [ht]
  rfl

/-- Where no tokens are left stands an `eof`. -/
theorem current_nil {t : Token} (h : Parser.current tail [] = .ok t) : t.kind = .eof := by
  cases tail with
  | flaw e => cases h
  | padding pos =>
      cases h
      rfl

/-- Where the token in front is another one than wanted, both readers say so. -/
theorem refused_draws {wanted : Wanted} {k : Token → Drawing σ α} {n : Nat} {whole : List Token}
    (holds : feed.Holds m tail tokens)
    (refuses : ∀ t, Parser.current tail tokens = .ok t → k (move m.place t) = refuse wanted) :
    Draws m tail n ((current >>= k) feed)
      (Parser.refuse tail wanted tokens : Except SourceError (Reading whole α)) := by
  refine (current_sees holds).read (fun e he => by rw [Parser.refuse, he])
    fun t rest ht holds' _ => ?_
  rw [refuses t ht]
  exact refuse_draws holds'

/-- Both parsers read a symbol alike. -/
theorem symbol_agrees (s : Token.Symbol) :
    Agrees m tail (symbol s : Drawing σ Token) (Parser.symbol tail s) := by
  intro feed tokens holds
  unfold Parser.symbol
  split
  · refine refused_draws holds fun t ht => ?_
    show (if t.kind.isSymbol s then _ else _) = _
    rw [current_nil ht]
    rfl
  next t ts =>
  split
  · next hs =>
    obtain ⟨front, rest, hfront, htake, behind, shorter⟩ := taken_of_holds holds <| by
      cases hk : t.kind <;> simp_all [Token.Kind.isSymbol, Token.Kind.isEof]
    refine ⟨rest, ?_, behind, shorter⟩
    have same : (move m.place t).kind.isSymbol s = true := hs
    rw [symbol, bind_ok hfront, if_pos same]
    exact htake
  · next hs =>
    refine refused_draws holds fun u hu => ?_
    cases hu
    exact if_neg hs

/-- Both parsers read a name alike. -/
theorem ident_agrees : Agrees m tail (ident : Drawing σ Ident) (Parser.ident tail) := by
  intro feed tokens holds
  unfold Parser.ident
  split
  · refine refused_draws holds fun t ht => ?_
    have eof : t.kind = .eof := current_nil ht
    have same : (move m.place t).kind = .eof := eof
    simp only [same, Token.Kind.name?]
  next t ts =>
  split
  · next text hs =>
    obtain ⟨front, rest, hfront, htake, behind, shorter⟩ := taken_of_holds holds <| by
      cases hk : t.kind <;> simp_all [Token.Kind.name?, Token.Kind.isEof]
    refine ⟨rest, ?_, behind, shorter⟩
    have same : (move m.place t).kind.name? = some text := hs
    rw [ident, bind_ok hfront]
    simp only [same]
    rw [bind_ok htake]
    rfl
  · next hs =>
    refine refused_draws holds fun u hu => ?_
    cases hu
    have same : (move m.place t).kind.name? = none := hs
    simp only [same]

end Drawing

end ScriptConsole
