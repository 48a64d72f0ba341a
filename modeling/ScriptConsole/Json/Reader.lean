import ScriptConsole.Json.Number
import ScriptConsole.Reading

/-!
# Reading JSON

A document is read from the front of a text, one value with blanks around it. Arrays and objects
may be nested 127 deep. A text may not hold control characters, and an escape by code point that is
half of a surrogate pair must be followed by the other half.

Each reader takes at least one character, which is why the loops over the items of an array, the
entries of an object and the characters of a text end.
-/

namespace ScriptConsole.Json

/-- The blanks of JSON. -/
def isBlank (c : Char) : Bool :=
  c = ' ' || c = '\t' || c = '\n' || c = '\r'

/-- The input from its first character that is no blank. -/
def dropBlank : List Char → List Char
  | [] => []
  | c :: rest => if isBlank c then dropBlank rest else c :: rest

theorem length_dropBlank_le (input : List Char) : (dropBlank input).length ≤ input.length := by
  fun_induction dropBlank input with
  | case1 => simp
  | case2 c rest _ ih => simp only [List.length_cons]; omega
  | case3 => simp

/-! ### Numbers -/

/-- The digits at the front of the input, and the rest. -/
def spanDigits (input : List Char) : List Char × List Char :=
  (input.takeWhile Char.isDigit, input.dropWhile Char.isDigit)

theorem length_dropWhile_le (p : Char → Bool) (input : List Char) :
    (input.dropWhile p).length ≤ input.length :=
  (List.dropWhile_suffix p).length_le

/-- The fraction at the front of the input, if a point is there. -/
def fraction (input : List Char) : Except Fault (Option (List Char) × List Char) :=
  match input with
  | '.' :: rest =>
    let (digits, rest) := spanDigits rest
    if digits.isEmpty then .error .malformed else .ok (some digits, rest)
  | rest => .ok (none, rest)

/-- The sign of an exponent: whether it is negative. -/
def exponentSign : List Char → Bool × List Char
  | '+' :: rest => (false, rest)
  | '-' :: rest => (true, rest)
  | rest => (false, rest)

/-- The exponent at the front of the input, if its letter is there. -/
def exponent (input : List Char) : Except Fault (Option (Bool × List Char) × List Char) :=
  match input with
  | c :: rest =>
    if c = 'e' ∨ c = 'E' then
      let (down, rest) := exponentSign rest
      let (digits, rest) := spanDigits rest
      if digits.isEmpty then .error .malformed else .ok (some (down, digits), rest)
    else .ok (none, c :: rest)
  | [] => .ok (none, [])

theorem length_fraction_le {input rest : List Char} {part : Option (List Char)}
    (h : fraction input = .ok (part, rest)) : rest.length ≤ input.length := by
  unfold fraction at h
  split at h
  · rename_i tail
    have := length_dropWhile_le Char.isDigit tail
    cases hd : (tail.takeWhile Char.isDigit).isEmpty <;> simp [spanDigits, hd] at h
    simp only [← h.2, List.length_cons]; omega
  · cases h; exact Nat.le_refl _

theorem length_exponentSign_le (input : List Char) :
    (exponentSign input).2.length ≤ input.length := by
  unfold exponentSign
  split <;> simp

theorem length_exponent_le {input rest : List Char} {part : Option (Bool × List Char)}
    (h : exponent input = .ok (part, rest)) : rest.length ≤ input.length := by
  unfold exponent at h
  split at h
  · rename_i c tail
    split at h
    · have := length_dropWhile_le Char.isDigit (exponentSign tail).2
      have := length_exponentSign_le tail
      cases hd : ((exponentSign tail).2.takeWhile Char.isDigit).isEmpty <;>
        simp [spanDigits, hd] at h
      simp only [← h.2, List.length_cons]; omega
    · cases h; exact Nat.le_refl _
  · cases h; exact Nat.le_refl _

/-- A number without its sign. Its first digit is zero only if it is the only one before the
point. -/
def unsigned (negative : Bool) : Reader Char Fault Number := fun input =>
  match hw : spanDigits input with
  | (whole, afterWhole) =>
    if hd : whole.isEmpty ∨ (whole.head? = some '0' ∧ 1 < whole.length) then .error .malformed
    else
      match hf : fraction afterWhole with
      | .error e => .error e
      | .ok (places, afterFraction) =>
        match he : exponent afterFraction with
        | .error e => .error e
        | .ok (power, rest) =>
          match numberOfParts negative whole places power with
          | .error e => .error e
          | .ok n => .ok ⟨n, rest, by
              have h1 := length_fraction_le hf
              have h2 := length_exponent_le he
              have h3 : (whole ++ afterWhole).length = input.length := by
                simp only [spanDigits, Prod.mk.injEq] at hw
                rw [← hw.1, ← hw.2, List.takeWhile_append_dropWhile]
              have h4 : whole.length ≠ 0 := fun h => hd (.inl (by simpa using h))
              simp only [List.length_append] at h3
              omega⟩

/-! ### Texts -/

/-- The value of a hexadecimal digit. -/
def hexValue? (c : Char) : Option Nat :=
  if '0' ≤ c ∧ c ≤ '9' then some (c.toNat - '0'.toNat)
  else if 'a' ≤ c ∧ c ≤ 'f' then some (c.toNat - 'a'.toNat + 10)
  else if 'A' ≤ c ∧ c ≤ 'F' then some (c.toNat - 'A'.toNat + 10)
  else none

/-- Four hexadecimal digits. -/
def hexUnit : Reader Char Fault Nat
  | a :: b :: c :: d :: rest =>
    match hexValue? a, hexValue? b, hexValue? c, hexValue? d with
    | some a, some b, some c, some d =>
      .ok ⟨((a * 16 + b) * 16 + c) * 16 + d, rest, by simp only [List.length_cons]; omega⟩
    | _, _, _, _ => .error .malformed
  | _ => .error .malformed

/-- The second half of a surrogate pair, with its own `\u`. -/
def lowSurrogate : Reader Char Fault Nat
  | '\\' :: 'u' :: rest =>
    match hexUnit rest with
    | .error e => .error e
    | .ok r =>
      if 0xDC00 ≤ r.value ∧ r.value < 0xE000 then
        .ok ⟨r.value, r.rest, by have := r.shorter; simp only [List.length_cons]; omega⟩
      else .error .malformed
  | _ => .error .malformed

/-- The character named by the text after `\u`. -/
def escapedCodePoint : Reader Char Fault Char := fun input =>
  match hexUnit input with
  | .error e => .error e
  | .ok r =>
    if 0xDC00 ≤ r.value ∧ r.value < 0xE000 then .error .malformed
    else if 0xD800 ≤ r.value ∧ r.value < 0xDC00 then
      match lowSurrogate r.rest with
      | .error e => .error e
      | .ok s =>
        .ok ((r.after s).map fun low =>
          Char.ofNat (0x10000 + (r.value - 0xD800) * 0x400 + (low - 0xDC00)))
    else .ok (r.map Char.ofNat)

/-- The character named by the text after a backslash. -/
def escaped : Reader Char Fault Char
  | [] => .error .malformed
  | c :: rest =>
    if c = 'u' then
      match escapedCodePoint rest with
      | .error e => .error e
      | .ok r => .ok ⟨r.value, r.rest, Nat.lt_succ_of_lt r.shorter⟩
    else if c = '"' ∨ c = '\\' ∨ c = '/' then .ok (.first c rest)
    else if c = 'b' then .ok ((Reading.first c rest).map fun _ => '\x08')
    else if c = 'f' then .ok ((Reading.first c rest).map fun _ => '\x0c')
    else if c = 'n' then .ok ((Reading.first c rest).map fun _ => '\n')
    else if c = 'r' then .ok ((Reading.first c rest).map fun _ => '\r')
    else if c = 't' then .ok ((Reading.first c rest).map fun _ => '\t')
    else .error .malformed

/-- The characters of a text up to its closing quote, behind those already read. `origin` is the
input of the whole text. -/
def textFrom (origin : List Char) (done : List Char) (input : List Char)
    (within : input.length ≤ origin.length) : Except Fault (Reading origin String) :=
  match input with
  | [] => .error .malformed
  | c :: rest =>
    if c = '"' then .ok ⟨String.ofList done.reverse, rest, within⟩
    else if c.toNat < 32 then .error .malformed
    else if c = '\\' then
      match escaped rest with
      | .error e => .error e
      | .ok r => textFrom origin (r.value :: done) r.rest
          (by have := r.shorter; simp only [List.length_cons] at within; omega)
    else textFrom origin (c :: done) rest (by simp only [List.length_cons] at within; omega)
termination_by input.length
decreasing_by
  · have := r.shorter; simp only [List.length_cons]; omega
  · simp

/-- A text after its opening quote. -/
def textBody : Reader Char Fault String := fun input => textFrom input [] input (Nat.le_refl _)

/-! ### Values -/

/-- A fixed word. -/
def word (letters : List Char) (value : Json) (first : Char) : (rest : List Char) →
    Except Fault (Reading (first :: rest) Json) := fun rest =>
  if letters.isPrefixOf rest then
    .ok ⟨value, rest.drop letters.length, by simp only [List.length_cons, List.length_drop]; omega⟩
  else .error .malformed

/-- The items of an array up to the closing bracket, at least one of them. -/
def items (value : Reader Char Fault Json) (input : List Char) :
    Except Fault (Reading input (List Json)) :=
  match value input with
  | .error e => .error e
  | .ok r =>
    match h : dropBlank r.rest with
    | ',' :: rest =>
      have shorter : rest.length < input.length := by
        have := length_dropBlank_le r.rest
        have := r.shorter
        rw [h] at *
        simp only [List.length_cons] at *
        omega
      match items value rest with
      | .error e => .error e
      | .ok s => .ok ⟨r.value :: s.value, s.rest, Nat.lt_trans s.shorter shorter⟩
    | ']' :: rest => .ok ⟨[r.value], rest, by
        have := length_dropBlank_le r.rest
        have := r.shorter
        rw [h] at *
        simp only [List.length_cons] at *
        omega⟩
    | _ => .error .malformed
termination_by input.length

/-- A key, the colon after it, and a value. -/
def entry (value : Reader Char Fault Json) : Reader Char Fault (String × Json) := fun input =>
  match hk : dropBlank input with
  | '"' :: rest =>
    match textBody rest with
    | .error e => .error e
    | .ok key =>
      match hc : dropBlank key.rest with
      | ':' :: tail =>
        match value tail with
        | .error e => .error e
        | .ok r => .ok ⟨(key.value, r.value), r.rest, by
            have h1 := length_dropBlank_le input
            have h2 := length_dropBlank_le key.rest
            have h3 := key.shorter
            have h4 := r.shorter
            rw [hk] at h1
            rw [hc] at h2
            simp only [List.length_cons] at *
            omega⟩
      | _ => .error .malformed
  | _ => .error .malformed

/-- The entries of an object up to the closing brace, at least one of them. -/
def entries (value : Reader Char Fault Json) (input : List Char) :
    Except Fault (Reading input (List (String × Json))) :=
  match entry value input with
  | .error e => .error e
  | .ok r =>
    match h : dropBlank r.rest with
    | ',' :: rest =>
      have shorter : rest.length < input.length := by
        have := length_dropBlank_le r.rest
        have := r.shorter
        rw [h] at *
        simp only [List.length_cons] at *
        omega
      match entries value rest with
      | .error e => .error e
      | .ok s => .ok ⟨r.value :: s.value, s.rest, Nat.lt_trans s.shorter shorter⟩
    | '\x7d' :: rest => .ok ⟨[r.value], rest, by
        have := length_dropBlank_le r.rest
        have := r.shorter
        rw [h] at *
        simp only [List.length_cons] at *
        omega⟩
    | _ => .error .malformed
termination_by input.length

/-- An array after its opening bracket. -/
def arrayBody (value : Reader Char Fault Json) : Reader Char Fault Json := fun input =>
  match h : dropBlank input with
  | ']' :: rest => .ok ⟨.array [], rest, by
      have := length_dropBlank_le input
      rw [h] at this
      simp only [List.length_cons] at this
      omega⟩
  | _ =>
    match items value input with
    | .error e => .error e
    | .ok r => .ok (r.map .array)

/-- An object after its opening brace. -/
def objectBody (value : Reader Char Fault Json) : Reader Char Fault Json := fun input =>
  match h : dropBlank input with
  | '\x7d' :: rest => .ok ⟨.object [], rest, by
      have := length_dropBlank_le input
      rw [h] at this
      simp only [List.length_cons] at this
      omega⟩
  | _ =>
    match entries value input with
    | .error e => .error e
    | .ok r => .ok (r.map .object)

/-- A reading of the input behind one more character, or behind blanks. -/
def behind {front input : List Char} {α : Type} (le : input.length ≤ front.length)
    (result : Except Fault (Reading input α)) : Except Fault (Reading front α) :=
  match result with
  | .error e => .error e
  | .ok r => .ok ⟨r.value, r.rest, Nat.lt_of_lt_of_le r.shorter le⟩

/-- A value with blanks before it, in which arrays and objects are nested at most `levels`
deep. -/
def value : (levels : Nat) → Reader Char Fault Json := fun levels input =>
  behind (length_dropBlank_le input) <|
    match dropBlank input with
    | [] => .error .malformed
    | c :: rest =>
      if c = 'n' then word ['u', 'l', 'l'] .null c rest
      else if c = 't' then word ['r', 'u', 'e'] (.bool true) c rest
      else if c = 'f' then word ['a', 'l', 's', 'e'] (.bool false) c rest
      else if c = '"' then
        behind (Nat.le_succ _) ((textBody rest).map (·.map Json.text))
      else if c = '-' then
        behind (Nat.le_succ _) ((unsigned true rest).map (·.map Json.number))
      else if c.isDigit then
        (unsigned false (c :: rest)).map (·.map Json.number)
      else if c = '[' ∨ c = '\x7b' then
        match levels with
        | 0 => .error .tooDeep
        | inner + 1 =>
          behind (Nat.le_succ _)
            (if c = '[' then arrayBody (value inner) rest else objectBody (value inner) rest)
      else .error .malformed

/-- How deep arrays and objects may be nested. -/
def nestingLimit : Nat := 127

/-- The document that a text holds, with nothing but blanks after it. -/
def parse (text : String) : Except Fault Json :=
  match value nestingLimit text.toList with
  | .error e => .error e
  | .ok r => if (dropBlank r.rest).isEmpty then .ok r.value else .error .malformed

end ScriptConsole.Json
