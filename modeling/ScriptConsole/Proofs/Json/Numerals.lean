import ScriptConsole.Json.Fields
import ScriptConsole.Json.Printer
import ScriptConsole.Json.Reader
import ScriptConsole.Proofs.Values.Decimals

/-!
# Numbers in JSON

Every number is written as a numeral of JSON: digits without a zero too many before them, behind
them perhaps a point with more digits, and perhaps an exponent (`Json.Numeral`). So the reader takes
the number as a whole, whatever stands behind it, unless that goes on with the number. For doubles
this comes down to their shortest digits, of which the first is not a zero.

What is read is the number itself if it was an integer. A double is read as a double; the reader
works it out from the digits in its own way, and `Json.readBack?` is what comes of that.

## Main results

* `Json.outcome_value_numeral`: how a numeral is read.
* `Json.exists_numeral`: numbers are written as numerals.
* `Json.Number.reread_natural`, `Json.Number.reread_negative`, `Json.Number.reread_eq_readBack`:
  what is read where a number was written.
-/

namespace ScriptConsole.Json

open ScriptConsole.Number (Binary64 Decimal FloatLayout)

variable {α β : Type} {input front rest digits : List Char} {c : Char} {levels : Nat}

/-! ### What readers come to -/

/-- What was read and what is left of the input. -/
def outcome? (result : Except Fault (Reading input α)) : Option (α × List Char) :=
  match result with
  | .error _ => none
  | .ok r => some (r.value, r.rest)

/-- A reading comes to its value and what is left. -/
@[simp] theorem outcome_ok (r : Reading input α) :
    outcome? (.ok r : Except Fault (Reading input α)) = some (r.value, r.rest) := rfl

/-- A failure comes to nothing. -/
@[simp] theorem outcome_error (e : Fault) :
    outcome? (.error e : Except Fault (Reading input α)) = none := rfl

/-- What it comes to is the same behind some input that has been read. -/
@[simp] theorem outcome_behind (le : input.length ≤ front.length)
    (result : Except Fault (Reading input α)) : outcome? (behind le result) = outcome? result := by
  cases result <;> rfl

/-- What it comes to is mapped in its value. -/
@[simp] theorem outcome_map (f : α → β) (result : Except Fault (Reading input α)) :
    outcome? (result.map (·.map f)) = (outcome? result).map (Prod.map f id) := by
  cases result <;> rfl

/-- What the reader of a whole text comes to. -/
theorem toOption_parse (text : String) :
    (parse text).toOption =
      (outcome? (value nestingLimit text.toList)).bind fun read =>
        if (dropBlank read.2).isEmpty then some read.1 else none := by
  unfold parse
  cases value nestingLimit text.toList with
  | error e => rfl
  | ok r => dsimp only [outcome_ok, Option.bind_some]; split <;> rfl

/-! ### Digits -/

/-- Decimal digits, at least one of them. -/
def IsDigits (digits : List Char) : Prop := digits ≠ [] ∧ ∀ c ∈ digits, c.isDigit = true

/-- Whether a text does not go on with a number that stands before it. -/
def EndsNumber (rest : List Char) : Prop :=
  ∀ c ∈ rest.head?, c.isDigit = false ∧ c ≠ '.' ∧ c ≠ 'e' ∧ c ≠ 'E'

/-- A number ends at the end of the input. -/
theorem endsNumber_nil : EndsNumber [] := fun _ mem => nomatch mem

/-- A digit is no other character. -/
theorem ne_of_isDigit {x : Char} (digit : c.isDigit = true) (other : x.isDigit = false) : c ≠ x :=
  fun same => by
    rw [same, other] at digit
    cases digit

/-- A digit is no blank. -/
theorem isBlank_of_isDigit (digit : c.isDigit = true) : isBlank c = false := by
  have ne := fun x => ne_of_isDigit (x := x) digit
  simp [isBlank, ne ' ' rfl, ne '\t' rfl, ne '\n' rfl, ne '\r' rfl]

/-- The digits of a natural number are digits. -/
theorem isDigits_toDigits (n : Nat) : IsDigits (Nat.toDigits 10 n) :=
  ⟨Nat.toDigits_ne_nil, fun _ => Number.isDigit_of_mem⟩

/-- Digits behind digits. -/
theorem IsDigits.append (h : IsDigits digits) (all : ∀ c ∈ rest, c.isDigit = true) :
    IsDigits (digits ++ rest) :=
  ⟨fun nil => h.1 (List.append_eq_nil_iff.mp nil).1, fun c mem =>
    (List.mem_append.mp mem).elim (h.2 c) (all c)⟩

/-- All digits are taken, up to what is none. -/
theorem spanDigits_append (all : ∀ c ∈ digits, c.isDigit = true)
    (stop : ∀ c ∈ rest.head?, c.isDigit = false) :
    spanDigits (digits ++ rest) = (digits, rest) := by
  have none : rest.takeWhile Char.isDigit = [] ∧ rest.dropWhile Char.isDigit = rest := by
    cases rest with
    | nil => exact ⟨rfl, rfl⟩
    | cons c rest => simp [stop c rfl]
  rw [spanDigits, List.takeWhile_append_of_pos all, List.dropWhile_append_of_pos all, none.1,
    none.2, List.append_nil]

/-! ### Numerals -/

/-- A point and the digits behind it, or nothing. -/
def placesText : Option (List Char) → List Char
  | none => []
  | some digits => '.' :: digits

/-- An exponent with its sign, or nothing. -/
def powerText : Option (Bool × List Char) → List Char
  | none => []
  | some (down, digits) => 'e' :: (if down then '-' else '+') :: digits

/-- A number in writing. -/
structure Numeral where
  negative : Bool
  /-- The digits before the point; -/
  whole : List Char
  /-- those behind it, if there is one; -/
  places : Option (List Char)
  /-- the exponent, if there is one, and whether it has a minus. -/
  power : Option (Bool × List Char)
  whole_digits : IsDigits whole
  /-- A zero comes first only where it is the only digit before the point. -/
  whole_head : whole.head? = some '0' → whole.length = 1
  places_digits : ∀ digits ∈ places, IsDigits digits
  power_digits : ∀ p ∈ power, IsDigits p.2

namespace Numeral

/-- A numeral without its sign. -/
def magnitude (m : Numeral) : List Char := m.whole ++ placesText m.places ++ powerText m.power

/-- A numeral as a text. -/
def text (m : Numeral) : List Char := if m.negative then '-' :: m.magnitude else m.magnitude

/-- The number that a numeral stands for, if there is one. -/
def number? (m : Numeral) : Option Number :=
  (numberOfParts m.negative m.whole m.places m.power).toOption

end Numeral

/-- The exponent is taken off as a whole; -/
theorem exponent_powerText {power : Option (Bool × List Char)}
    (digits : ∀ p ∈ power, IsDigits p.2) (stop : EndsNumber rest) :
    exponent (powerText power ++ rest) = .ok (power, rest) := by
  have halt : ∀ c ∈ rest.head?, c.isDigit = false := fun c mem => (stop c mem).1
  match power with
  | none =>
      cases rest with
      | nil => rfl
      | cons c rest =>
          obtain ⟨-, -, small, large⟩ := stop c rfl
          simp [powerText, exponent, small, large]
  | some (down, ds) =>
      obtain ⟨ne, all⟩ := digits _ rfl
      have filled : ds.isEmpty = false := by simpa using ne
      have sign : exponentSign ((if down then '-' else '+') :: (ds ++ rest)) =
          (down, ds ++ rest) := by cases down <;> rfl
      simp [powerText, exponent, sign, spanDigits_append all halt, filled]

/-- and so is the fraction before it. -/
theorem fraction_placesText {places : Option (List Char)} (power : Option (Bool × List Char))
    (digits : ∀ ds ∈ places, IsDigits ds) (stop : EndsNumber rest) :
    fraction (placesText places ++ (powerText power ++ rest)) =
      .ok (places, powerText power ++ rest) := by
  have halt : ∀ c ∈ (powerText power ++ rest).head?, c.isDigit = false ∧ c ≠ '.' := by
    match power with
    | none => exact fun c mem => ⟨(stop c mem).1, (stop c mem).2.1⟩
    | some (down, ds) =>
        rintro c mem
        obtain rfl := Option.some.inj mem
        decide
  match places with
  | none =>
      unfold fraction placesText
      split
      · next tail same =>
        rw [List.nil_append] at same
        rw [same] at halt
        exact absurd rfl (halt '.' rfl).2
      · rfl
  | some ds =>
      obtain ⟨ne, all⟩ := digits _ rfl
      have filled : ds.isEmpty = false := by simpa using ne
      have span := spanDigits_append all fun c mem => (halt c mem).1
      simp [placesText, fraction, span, filled]

/-- A numeral without its sign is read as a whole. -/
theorem outcome_unsigned (m : Numeral) (stop : EndsNumber rest) :
    outcome? (unsigned m.negative (m.magnitude ++ rest)) = m.number?.map (·, rest) := by
  -- the digits in front of the point end at the point, at the exponent or at the end
  have halt : ∀ c ∈ (placesText m.places ++ (powerText m.power ++ rest)).head?,
      c.isDigit = false := by
    rcases m.places with _ | ds
    · rcases m.power with _ | ⟨down, ds⟩
      · exact fun c mem => (stop c mem).1
      · rintro c mem
        obtain rfl := Option.some.inj mem
        rfl
    · rintro c mem
      obtain rfl := Option.some.inj mem
      rfl
  have span : spanDigits (m.magnitude ++ rest) =
      (m.whole, placesText m.places ++ (powerText m.power ++ rest)) := by
    rw [Numeral.magnitude, List.append_assoc, List.append_assoc]
    exact spanDigits_append m.whole_digits.2 halt
  have proper : ¬(m.whole.isEmpty = true ∨ (m.whole.head? = some '0' ∧ 1 < m.whole.length)) := by
    rintro (nil | ⟨zero, long⟩)
    · exact m.whole_digits.1 (List.isEmpty_iff.mp nil)
    · exact absurd (m.whole_head zero) (by omega)
  have fraction := fraction_placesText m.power m.places_digits stop
  have exponent := exponent_powerText m.power_digits stop
  unfold unsigned
  split
  next whole behind hw =>
    obtain ⟨rfl, rfl⟩ := Prod.mk.inj (hw.symm.trans span)
    rw [dif_neg proper]
    split
    · next e he => cases he.symm.trans fraction
    · next places behind hf =>
      obtain ⟨rfl, rfl⟩ := Prod.mk.inj (Except.ok.inj (hf.symm.trans fraction))
      split
      · next e he => cases he.symm.trans exponent
      · next power last he =>
        obtain ⟨rfl, rfl⟩ := Prod.mk.inj (Except.ok.inj (he.symm.trans exponent))
        rw [Numeral.number?]
        cases numberOfParts m.negative m.whole m.places m.power with
        | error e => rfl
        | ok n => rfl

/-- What a value is, its first character says. -/
theorem outcome_value_cons (solid : isBlank c = false) :
    outcome? (value levels (c :: rest)) =
      if c = 'n' then outcome? (word ['u', 'l', 'l'] .null c rest)
      else if c = 't' then outcome? (word ['r', 'u', 'e'] (.bool true) c rest)
      else if c = 'f' then outcome? (word ['a', 'l', 's', 'e'] (.bool false) c rest)
      else if c = '"' then (outcome? (textBody rest)).map (Prod.map .text id)
      else if c = '-' then (outcome? (unsigned true rest)).map (Prod.map .number id)
      else if c.isDigit then (outcome? (unsigned false (c :: rest))).map (Prod.map .number id)
      else if c = '[' ∨ c = '\x7b' then
        match levels with
        | 0 => none
        | inner + 1 =>
          if c = '[' then outcome? (arrayBody (value inner) rest)
          else outcome? (objectBody (value inner) rest)
      else none := by
  have front : dropBlank (c :: rest) = c :: rest := by simp [dropBlank, solid]
  rw [value, outcome_behind, front]
  cases levels <;> dsimp only <;> split_ifs <;>
    simp only [outcome_behind, outcome_map, outcome_error]

/-- A numeral starts with a minus or a digit. -/
theorem Numeral.exists_first (m : Numeral) :
    ∃ c more, m.text = c :: more ∧ isBlank c = false ∧ c ≠ ']' := by
  cases sign : m.negative with
  | true => exact ⟨'-', m.magnitude, if_pos sign, rfl, by decide⟩
  | false =>
      obtain ⟨first, more, whole⟩ := List.exists_cons_of_ne_nil m.whole_digits.1
      have digit : first.isDigit = true := m.whole_digits.2 first (whole ▸ List.mem_cons_self)
      refine ⟨first, more ++ placesText m.places ++ powerText m.power, ?_,
        isBlank_of_isDigit digit, ne_of_isDigit digit rfl⟩
      rw [text, if_neg (by simp [sign]), magnitude, whole]
      rfl

/-- A numeral is read as a whole, unless what is behind it goes on with the number. -/
theorem outcome_value_numeral (levels : Nat) (m : Numeral) (stop : EndsNumber rest) :
    outcome? (value levels (m.text ++ rest)) = m.number?.map fun n => (.number n, rest) := by
  have read := outcome_unsigned m stop
  cases sign : m.negative with
  | true =>
      rw [sign] at read
      rw [Numeral.text, if_pos sign, List.cons_append, outcome_value_cons rfl]
      simp [read, Function.comp_def]
  | false =>
      obtain ⟨first, more, whole⟩ := List.exists_cons_of_ne_nil m.whole_digits.1
      have digit : first.isDigit = true := m.whole_digits.2 first (whole ▸ List.mem_cons_self)
      have ne := fun x => ne_of_isDigit (x := x) digit
      rw [sign] at read
      have front : m.magnitude ++ rest =
          first :: (more ++ placesText m.places ++ powerText m.power ++ rest) := by
        rw [Numeral.magnitude, whole]
        rfl
      rw [front] at read
      rw [Numeral.text, if_neg (by simp [sign]), front,
        outcome_value_cons (isBlank_of_isDigit digit)]
      simp [ne 'n' rfl, ne 't' rfl, ne 'f' rfl, ne '"' rfl, ne '-' rfl, digit, read,
        Function.comp_def]

/-! ### Integers -/

/-- The digits of a number that fits in 64 bits are all taken. -/
theorem appendDigits_eq (sig : Nat) (fits : Nat.ofDigitChars 10 digits sig < Number.limit64) :
    appendDigits sig digits = (Nat.ofDigitChars 10 digits sig, 0) := by
  induction digits generalizing sig with
  | nil => rfl
  | cons c digits ih =>
      rw [Nat.ofDigitChars_cons] at fits ⊢
      have next : sig * 10 + digitValue c = 10 * sig + (c.toNat - '0'.toNat) := by
        rw [Nat.mul_comm, digitValue]
      have small := Nat.lt_of_le_of_lt (Number.le_ofDigitChars _ _) fits
      rw [appendDigits]
      simp only [next, small, if_true]
      exact ih _ fits

/-- An integer as a numeral: its digits, with a minus or without. -/
def Numeral.integer (negative : Bool) (n : Nat) : Numeral where
  negative := negative
  whole := Nat.toDigits 10 n
  places := none
  power := none
  whole_digits := isDigits_toDigits n
  whole_head zero := by
    rcases Nat.eq_zero_or_pos n with rfl | positive
    · rfl
    · exact absurd zero (Number.head_toDigits positive)
  places_digits _ none := nomatch none
  power_digits _ none := nomatch none

/-- A natural number that fits is itself. -/
theorem Numeral.number_integer {n : Nat} (fits : n < Number.limit64) :
    (Numeral.integer false n).number? = some (.natural n.toUInt64) := by
  have whole : appendDigits 0 (Nat.toDigits 10 n) = (n, 0) := by
    have read := Nat.ofDigitChars_ten_toDigits (n := n)
    rw [appendDigits_eq 0 (by rw [read]; exact fits), read]
  simp [number?, integer, numberOfParts, whole, Except.toOption]

/-- So is a negative one. -/
theorem Numeral.number_negative {n : Nat} (positive : 0 < n) (fits : n ≤ 9223372036854775808) :
    (Numeral.integer true n).number? = some (.negative (Int64.ofInt (-(n : Int)))) := by
  have whole : appendDigits 0 (Nat.toDigits 10 n) = (n, 0) := by
    have read := Nat.ofDigitChars_ten_toDigits (n := n)
    rw [appendDigits_eq 0 (by rw [read, Number.limit64]; omega), read]
  simp [number?, integer, numberOfParts, whole, Except.toOption, positive, fits]

/-- The numeral of an integer is written as the integer is. -/
theorem Numeral.text_integer (k : Int) :
    (Numeral.integer (decide (k < 0)) k.natAbs).text = (toString k).toList := by
  rw [Number.toList_toString_int, text]
  by_cases negative : k < 0 <;>
    simp [negative, integer, magnitude, placesText, powerText]

/-! ### Doubles -/

variable {d : Decimal}

/-- Whether a text is a numeral with a point or an exponent, but for its sign. -/
def IsDecimal (written : List Char) : Prop :=
  ∀ negative, ∃ m : Numeral, m.negative = negative ∧ m.magnitude = written ∧
    (m.places.isSome = true ∨ m.power.isSome = true)

/-- Digits with a point between them are a decimal numeral. -/
theorem isDecimal_pointed {whole places : List Char} (digits : IsDigits whole)
    (head : whole.head? = some '0' → whole.length = 1) (behind : IsDigits places) :
    IsDecimal (whole ++ '.' :: places) := fun negative =>
  ⟨{ negative, whole, places := some places, power := none
     whole_digits := digits
     whole_head := head
     places_digits := fun _ mem => Option.some.inj mem ▸ behind
     power_digits := fun _ none => nomatch none }, rfl, List.append_nil _, .inl rfl⟩

/-- So are digits with a power behind them. -/
theorem isDecimal_powered {whole digits : List Char} {places : Option (List Char)} (down : Bool)
    (before : IsDigits whole) (head : whole.head? = some '0' → whole.length = 1)
    (behind : ∀ ds ∈ places, IsDigits ds) (power : IsDigits digits) :
    IsDecimal (whole ++ placesText places ++ powerText (some (down, digits))) := fun negative =>
  ⟨{ negative, whole, places, power := some (down, digits)
     whole_digits := before
     whole_head := head
     places_digits := behind
     power_digits := fun _ mem => Option.some.inj mem ▸ power }, rfl, rfl, .inr rfl⟩

/-- Zeros are digits. -/
theorem all_replicate_zero (n : Nat) : ∀ c ∈ List.replicate n '0', c.isDigit = true :=
  fun _ mem => List.eq_of_mem_replicate mem ▸ rfl

/-- In positional notation a decimal has a point; -/
theorem isDecimal_positional (positive : 0 < d.digits) : IsDecimal (d.positional true) := by
  have digits : IsDigits d.text := isDigits_toDigits d.digits
  have head : d.text.head? ≠ some '0' := Number.head_toDigits positive
  have zero : IsDigits ['0'] := ⟨List.cons_ne_nil _ _, by simp⟩
  unfold Decimal.positional
  dsimp only
  split
  · have behind : IsDigits (List.replicate (-d.point).toNat '0' ++ d.text) :=
      ⟨by simp [digits.1], fun c mem =>
        (List.mem_append.mp mem).elim (all_replicate_zero _ c) (digits.2 c)⟩
    exact isDecimal_pointed zero (fun _ => rfl) behind
  · next right =>
    split
    · have whole := digits.append (all_replicate_zero (d.point.toNat - d.text.length))
      refine isDecimal_pointed whole (fun first => absurd ?_ head) zero
      rwa [List.head?_append_of_ne_nil _ digits.1] at first
    · next long =>
      have some : d.point.toNat ≠ 0 := by omega
      have whole : IsDigits (d.text.take d.point.toNat) :=
        ⟨by simpa [some] using digits.1, fun c mem => digits.2 c (List.mem_of_mem_take mem)⟩
      have places : IsDigits (d.text.drop d.point.toNat) :=
        ⟨by simpa using long, fun c mem => digits.2 c (List.mem_of_mem_drop mem)⟩
      refine isDecimal_pointed whole (fun first => absurd ?_ head) places
      rwa [List.head?_take, if_neg some] at first

/-- in scientific notation it has an exponent. -/
theorem isDecimal_scientific (d : Decimal) : IsDecimal (d.scientific true) := by
  have digits : IsDigits d.text := isDigits_toDigits d.digits
  obtain ⟨first, more, text⟩ := List.exists_cons_of_ne_nil digits.1
  rw [text] at digits
  have whole : IsDigits [first] :=
    ⟨List.cons_ne_nil _ _, by simpa using digits.2 first List.mem_cons_self⟩
  have power := isDigits_toDigits (d.point - 1).natAbs
  have sign : (if d.point - 1 < 0 then ['-'] else ['+']) =
      [if decide (d.point - 1 < 0) then '-' else '+'] := by split <;> simp [*]
  unfold Decimal.scientific
  rw [text]
  dsimp only
  rw [if_pos rfl, sign]
  cases more with
  | nil =>
      have written := isDecimal_powered (decide (d.point - 1 < 0)) whole (fun _ => rfl)
        (fun _ (mem : _ ∈ none) => nomatch mem) power
      simpa [placesText, powerText] using written
  | cons second more =>
      have places : ∀ ds ∈ some (second :: more), IsDigits ds := by
        rintro ds mem
        obtain rfl := Option.some.inj mem
        exact ⟨List.cons_ne_nil _ _, fun c mem => digits.2 c (List.mem_cons_of_mem _ mem)⟩
      have written := isDecimal_powered (decide (d.point - 1 < 0)) whole (fun _ => rfl) places power
      simpa [placesText, powerText] using written

/-- The digits of a double are a numeral with a point or an exponent. -/
theorem exists_numeral_float (x : Float) :
    ∃ m : Numeral, m.text = (writeNumber (.float x)).toList ∧
      (m.places.isSome = true ∨ m.power.isSome = true) := by
  have digits : IsDigits ['0'] := ⟨by simp, by simp⟩
  have zero : IsDecimal ['0', '.', '0'] := isDecimal_pointed digits (fun _ => rfl) digits
  have magnitude : IsDecimal (if x == 0 then ['0', '.', '0']
      else FloatLayout.json.writeDecimal (Decimal.shortest .toEven x)) := by
    cases nonzero : x == 0 with
    | true => exact zero
    | false =>
        rw [if_neg Bool.false_ne_true]
        rcases Decimal.shortest_cases .toEven nonzero with none | positive
        · rw [none]
          exact zero
        · dsimp only [FloatLayout.writeDecimal, FloatLayout.json]
          split
          · exact isDecimal_positional positive
          · exact isDecimal_scientific _
  obtain ⟨m, negative, written, decimal⟩ := magnitude (Binary64.signBit x)
  refine ⟨m, ?_, decimal⟩
  rw [Numeral.text, negative, written]
  exact (String.toList_ofList).symm

/-! ### What is read where a number was written -/

/-- Every number is written as a numeral. -/
theorem exists_numeral (n : Number) : ∃ m : Numeral, m.text = (writeNumber n).toList := by
  cases n with
  | natural n => exact ⟨_, (Numeral.text_integer n.toNat).trans rfl⟩
  | negative n => exact ⟨_, Numeral.text_integer n.toInt⟩
  | float x => exact (exists_numeral_float x).imp fun _ => And.left

/-- A number is read back as the numeral that it is written as. -/
theorem toOption_parse_number {n : Number} {m : Numeral}
    (written : m.text = (writeNumber n).toList) :
    (parse (writeNumber n)).toOption = m.number?.map .number := by
  have read := outcome_value_numeral nestingLimit m endsNumber_nil
  rw [List.append_nil, written] at read
  rw [toOption_parse, read]
  cases m.number? <;> rfl

/-- The number that is read where a number was written. -/
def Number.reread? (n : Number) : Option Number :=
  match (parse (writeNumber n)).toOption with
  | some (.number m) => some m
  | _ => none

/-- What is read back for a number is what its numeral stands for. -/
theorem Number.reread_eq {n : Number} {m : Numeral} (written : m.text = (writeNumber n).toList) :
    n.reread? = m.number? := by
  rw [reread?, toOption_parse_number written]
  cases m.number? <;> rfl

/-- A number is read as a whole, unless what is behind it goes on with it. -/
theorem outcome_value_number (n : Number) (stop : EndsNumber rest) :
    outcome? (value levels ((writeNumber n).toList ++ rest)) =
      n.reread?.map fun m => (.number m, rest) := by
  obtain ⟨m, written⟩ := exists_numeral n
  rw [← written, outcome_value_numeral _ m stop, Number.reread_eq written]

/-- Naturals are read back. -/
@[simp] theorem Number.reread_natural (n : UInt64) :
    (Number.natural n).reread? = some (.natural n) := by
  have written : (Numeral.integer false n.toNat).text = (writeNumber (.natural n)).toList :=
    (Numeral.text_integer n.toNat).trans rfl
  rw [reread_eq written, Numeral.number_integer n.toNat_lt]
  simp

/-- So are negatives. -/
theorem Number.reread_negative {n : Int64} (negative : n < 0) :
    (Number.negative n).reread? = some (.negative n) := by
  have below : n.toInt < 0 := Int64.lt_iff_toInt_lt.mp negative
  have least := Int64.le_toInt n
  have digits := Numeral.text_integer n.toInt
  rw [decide_eq_true below] at digits
  have written : (Numeral.integer true n.toInt.natAbs).text =
      (writeNumber (.negative n)).toList := digits
  rw [reread_eq written, Numeral.number_negative (by omega) (by omega),
    show -(n.toInt.natAbs : Int) = n.toInt by omega, Int64.ofInt_toInt]

/-- A numeral with a point or an exponent stands for a double. -/
theorem Numeral.number_decimal {m : Numeral}
    (decimal : m.places.isSome = true ∨ m.power.isSome = true) :
    ∀ n ∈ m.number?, ∃ y, n = .float y := by
  intro n found
  simp only [number?, numberOfParts] at found
  split at found
  · next places power _ => simp [places, power] at decimal
  · split at found
    · cases found
    · exact ⟨_, (Option.some.inj found).symm⟩

/-- The double that is read where a double was written. There is none if the double is infinite or a
NaN. -/
def readBack? (x : Float) : Option Float := (parse (ofFloat x).compact).toOption.bind float?

/-- What is not finite is not read back. -/
theorem readBack_of_not_isFinite {x : Float} (infinite : x.isFinite = false) :
    readBack? x = none := by
  have null : parse "null" = .ok .null := rfl
  simp [readBack?, ofFloat, infinite, compact, null, Except.toOption, float?]

/-- What is read of a finite double as a number. -/
theorem Number.reread_eq_readBack {x : Float} (finite : x.isFinite = true) :
    (Number.float x).reread? = (readBack? x).map .float := by
  obtain ⟨m, written, decimal⟩ := exists_numeral_float x
  rw [reread_eq written, readBack?, ofFloat, if_pos finite, compact, toOption_parse_number written]
  cases found : m.number? with
  | none => rfl
  | some n =>
      obtain ⟨y, rfl⟩ := Numeral.number_decimal decimal n found
      rfl

end ScriptConsole.Json
