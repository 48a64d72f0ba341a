import ScriptConsole.Proofs.Json.Numerals

/-!
# Documents on One Line

A document that was written on one line is read back as it was, but for its numbers: each of them is
read by itself (`Json.reread?`). It is not read at all if arrays and objects are nested in it deeper
than the reader follows (`Json.nesting`).

Texts are always read back. Every character of a text is written either as itself or as an escape
that is read as that character.

## Main results

* `Json.outcome_textBody`: texts.
* `Json.outcome_value_compact`: a document in front of anything that does not go on with a number.
* `Json.toOption_parse_compact`: a document on a line of its own.
-/

namespace ScriptConsole.Json

variable {α : Type} {origin input rest done es : List Char} {c : Char} {levels : Nat}

/-! ### Texts -/

/-- A hexadecimal digit has the value that it is written for. -/
theorem hexValue_digitChar : ∀ n < 16, hexValue? (Nat.digitChar n) = some n := by decide

/-- A character is written as an escape that is read as the character, or as itself. -/
theorem writeChar_cases (c : Char) :
    (∃ es, writeChar c = '\\' :: es ∧ ∀ rest, outcome? (escaped (es ++ rest)) = some (c, rest)) ∨
      writeChar c = [c] ∧ c ≠ '"' ∧ c ≠ '\\' ∧ ¬c.toNat < 32 := by
  by_cases quote : c = '"'
  · exact .inl ⟨['"'], by simp [writeChar, quote], fun rest => by rw [quote]; rfl⟩
  by_cases slash : c = '\\'
  · exact .inl ⟨['\\'], by simp [writeChar, slash], fun rest => by rw [slash]; rfl⟩
  by_cases bs : c = '\x08'
  · exact .inl ⟨['b'], by simp [writeChar, bs], fun rest => by rw [bs]; rfl⟩
  by_cases ff : c = '\x0c'
  · exact .inl ⟨['f'], by simp [writeChar, ff], fun rest => by rw [ff]; rfl⟩
  by_cases nl : c = '\n'
  · exact .inl ⟨['n'], by simp [writeChar, nl], fun rest => by rw [nl]; rfl⟩
  by_cases cr : c = '\r'
  · exact .inl ⟨['r'], by simp [writeChar, cr], fun rest => by rw [cr]; rfl⟩
  by_cases tab : c = '\t'
  · exact .inl ⟨['t'], by simp [writeChar, tab], fun rest => by rw [tab]; rfl⟩
  by_cases control : c.toNat < 32
  · refine .inl ⟨['u', '0', '0', Nat.digitChar (c.toNat / 16), Nat.digitChar (c.toNat % 16)],
      by simp [writeChar, *], fun rest => ?_⟩
    have unit : c.toNat / 16 * 16 + c.toNat % 16 = c.toNat := Nat.div_add_mod' _ _
    have low : ¬(0xDC00 ≤ c.toNat ∧ c.toNat < 0xE000) := by omega
    have high : ¬(0xD800 ≤ c.toNat ∧ c.toNat < 0xDC00) := by omega
    have zero : hexValue? '0' = some 0 := rfl
    have first := hexValue_digitChar (c.toNat / 16) (by omega)
    have second := hexValue_digitChar (c.toNat % 16) (by omega)
    simp [escaped, escapedCodePoint, hexUnit, zero, first, second, unit, low, high, Reading.map]
  · exact .inr ⟨by simp [writeChar, *], quote, slash, control⟩

/-- A text is read from what is written of its characters. -/
theorem outcome_textFrom {s : List Char} (within) :
    outcome? (textFrom origin done (s.flatMap writeChar ++ '"' :: rest) within) =
      some (String.ofList (done.reverse ++ s), rest) := by
  induction s generalizing done with
  | nil =>
      simp only [List.flatMap_nil, List.nil_append, List.append_nil]
      rw [textFrom, if_pos rfl]
      rfl
  | cons c s ih =>
      have onward : ∀ within, outcome? (textFrom origin (c :: done)
          (s.flatMap writeChar ++ '"' :: rest) within) =
            some (String.ofList (done.reverse ++ c :: s), rest) := fun within => by
        rw [ih within, List.reverse_cons, List.append_assoc, List.singleton_append]
      rcases writeChar_cases c with ⟨es, written, read⟩ | ⟨written, quote, slash, control⟩
      · have taken := read (s.flatMap writeChar ++ '"' :: rest)
        simp only [List.flatMap_cons, written, List.cons_append, List.append_assoc]
        rw [textFrom, if_neg (by decide), if_neg (by decide), if_pos rfl]
        split
        · next e failed =>
          rw [failed] at taken
          cases taken
        · next r same =>
          rw [same] at taken
          obtain ⟨value, tail, shorter⟩ := r
          obtain ⟨rfl, rfl⟩ := Prod.mk.inj (Option.some.inj taken)
          exact onward _
      · simp only [List.flatMap_cons, written, List.cons_append, List.nil_append]
        rw [textFrom, if_neg quote, if_neg control, if_neg slash]
        exact onward _

/-- The characters of a text stand between quotes. -/
theorem toList_writeText (s : String) :
    (writeText s).toList = '"' :: (s.toList.flatMap writeChar ++ ['"']) := by simp [writeText]

/-- A text is read back. -/
theorem outcome_textBody (s : String) (rest : List Char) :
    outcome? (textBody (s.toList.flatMap writeChar ++ '"' :: rest)) = some (s, rest) := by
  rw [textBody, outcome_textFrom, List.reverse_nil, List.nil_append, String.ofList_toList]

/-! ### Items and entries -/

/-- What comes to a value is a reading. -/
theorem exists_of_outcome {a : α} {result : Except Fault (Reading input α)}
    (read : outcome? result = some (a, rest)) : ∃ shorter, result = .ok ⟨a, rest, shorter⟩ := by
  cases result with
  | error e => cases read
  | ok r =>
      obtain ⟨a', rest', shorter⟩ := r
      obtain ⟨rfl, rfl⟩ := Prod.mk.inj (Option.some.inj read)
      exact ⟨shorter, rfl⟩

/-- What comes to nothing is a failure. -/
theorem eq_error_of_outcome {result : Except Fault (Reading input α)}
    (read : outcome? result = none) : ∃ e, result = .error e := by
  cases result with
  | error e => exact ⟨e, rfl⟩
  | ok r => cases read

variable {reader : Reader Char Fault Json} {item? : Option Json}

/-- The last item of an array has the bracket behind it; -/
theorem outcome_items_last (read : outcome? (reader input) = item?.map (·, ']' :: rest)) :
    outcome? (items reader input) = item?.map fun item => ([item], rest) := by
  cases item? with
  | none =>
      obtain ⟨e, same⟩ := eq_error_of_outcome read
      rw [items, same]
      rfl
  | some item =>
      obtain ⟨shorter, same⟩ := exists_of_outcome read
      rw [items, same]
      rfl

/-- the others have a comma. -/
theorem outcome_items_more (read : outcome? (reader input) = item?.map (·, ',' :: rest)) :
    outcome? (items reader input) = item?.bind fun item =>
      (outcome? (items reader rest)).map (Prod.map (item :: ·) id) := by
  cases item? with
  | none =>
      obtain ⟨e, same⟩ := eq_error_of_outcome read
      rw [items, same]
      rfl
  | some item =>
      obtain ⟨shorter, same⟩ := exists_of_outcome read
      rw [items, same]
      dsimp only
      split
      · next front =>
        obtain rfl := (List.cons.inj front).2
        cases items reader rest <;> rfl
      · next front => cases (List.cons.inj front).1
      · next other _ => exact absurd rfl (other _)

/-- An entry is read as its key and what is read of its value. -/
theorem outcome_entry (key : String) (tail : List Char) :
    outcome? (entry reader ((writeText key).toList ++ ':' :: tail)) =
      (outcome? (reader tail)).map (Prod.map (key, ·) id) := by
  obtain ⟨shorter, same⟩ := exists_of_outcome (outcome_textBody key (':' :: tail))
  have written : (writeText key).toList ++ ':' :: tail =
      '"' :: (key.toList.flatMap writeChar ++ '"' :: ':' :: tail) := by
    simp [writeText]
  rw [written, entry]
  split
  · next body front =>
    obtain rfl := (List.cons.inj front).2
    rw [same]
    dsimp only
    split
    · next behind front =>
      obtain rfl := (List.cons.inj front).2
      cases reader tail <;> rfl
    · next other => exact absurd rfl (other _)
  · next other => exact absurd rfl (other _)

variable {pair? : Option (String × Json)}

/-- The last entry of an object has the brace behind it; -/
theorem outcome_entries_last
    (read : outcome? (entry reader input) = pair?.map (·, '\x7d' :: rest)) :
    outcome? (entries reader input) = pair?.map fun pair => ([pair], rest) := by
  cases pair? with
  | none =>
      obtain ⟨e, same⟩ := eq_error_of_outcome read
      rw [entries, same]
      rfl
  | some pair =>
      obtain ⟨shorter, same⟩ := exists_of_outcome read
      rw [entries, same]
      rfl

/-- the others have a comma. -/
theorem outcome_entries_more (read : outcome? (entry reader input) = pair?.map (·, ',' :: rest)) :
    outcome? (entries reader input) = pair?.bind fun pair =>
      (outcome? (entries reader rest)).map (Prod.map (pair :: ·) id) := by
  cases pair? with
  | none =>
      obtain ⟨e, same⟩ := eq_error_of_outcome read
      rw [entries, same]
      rfl
  | some pair =>
      obtain ⟨shorter, same⟩ := exists_of_outcome read
      rw [entries, same]
      dsimp only
      split
      · next front =>
        obtain rfl := (List.cons.inj front).2
        cases entries reader rest <;> rfl
      · next front => cases (List.cons.inj front).1
      · next other _ => exact absurd rfl (other _)

/-! ### Documents -/

mutual

/-- The document that is read where a document was written, if arrays and objects may be nested
`levels` deep: the same one, but for its numbers, each of which is read by itself. -/
def reread? : (levels : Nat) → Json → Option Json
  | _, .number n => n.reread?.map .number
  | 0, .array _ => none
  | levels + 1, .array items => (rereadItems? levels items).map .array
  | 0, .object _ => none
  | levels + 1, .object entries => (rereadEntries? levels entries).map .object
  | _, j => some j

/-- The items that are read where items were written. -/
def rereadItems? (levels : Nat) : List Json → Option (List Json)
  | [] => some []
  | item :: rest =>
    (reread? levels item).bind fun item => (rereadItems? levels rest).map (item :: ·)

/-- The entries that are read where entries were written. -/
def rereadEntries? (levels : Nat) : List (String × Json) → Option (List (String × Json))
  | [] => some []
  | (key, value) :: rest =>
    (reread? levels value).bind fun value =>
      (rereadEntries? levels rest).map ((key, value) :: ·)

end

/-- The items of an array on one line, with commas between them. -/
def itemsText (items : List Json) : List Char :=
  (String.intercalate "," (compactItems items)).toList

/-- The entries of an object on one line, with commas between them. -/
def entriesText (entries : List (String × Json)) : List Char :=
  (String.intercalate "," (compactEntries entries)).toList

/-- The characters of an array. -/
theorem toList_compact_array (items : List Json) :
    (compact (.array items)).toList = '[' :: (itemsText items ++ [']']) := by
  simp only [compact, String.toList_append]
  rfl

/-- The characters of an object. -/
theorem toList_compact_object (entries : List (String × Json)) :
    (compact (.object entries)).toList = '\x7b' :: (entriesText entries ++ ['\x7d']) := by
  simp only [compact, String.toList_append]
  rfl

/-- One item stands alone. -/
theorem itemsText_singleton (item : Json) : itemsText [item] = item.compact.toList := by
  rw [itemsText, compactItems, compactItems, String.intercalate_singleton]

/-- A comma stands between items. -/
theorem itemsText_cons (item next : Json) (items : List Json) :
    itemsText (item :: next :: items) =
      item.compact.toList ++ ',' :: itemsText (next :: items) := by
  simp only [itemsText, compactItems, String.intercalate_cons_cons, String.toList_append,
    List.append_assoc]
  rfl

/-- An entry on one line. -/
def entryText (pair : String × Json) : List Char :=
  (writeText pair.1).toList ++ ':' :: pair.2.compact.toList

/-- One entry stands alone. -/
theorem entriesText_singleton (pair : String × Json) : entriesText [pair] = entryText pair := by
  rw [entriesText, compactEntries, compactEntries, String.intercalate_singleton]
  simp only [String.toList_append, List.append_assoc]
  rfl

/-- A comma stands between entries. -/
theorem entriesText_cons (pair next : String × Json) (entries : List (String × Json)) :
    entriesText (pair :: next :: entries) =
      entryText pair ++ ',' :: entriesText (next :: entries) := by
  simp only [entriesText, compactEntries, String.intercalate_cons_cons, String.toList_append,
    List.append_assoc]
  simp [entryText]

/-- A document starts with a character that is neither blank nor a closing bracket. -/
theorem exists_first (j : Json) :
    ∃ c more, j.compact.toList = c :: more ∧ isBlank c = false ∧ c ≠ ']' := by
  cases j with
  | null => exact ⟨_, _, rfl, rfl, by decide⟩
  | bool b => cases b <;> exact ⟨_, _, rfl, rfl, by decide⟩
  | number n =>
      obtain ⟨m, written⟩ := exists_numeral n
      obtain ⟨c, more, text, solid, other⟩ := m.exists_first
      exact ⟨c, more, written.symm.trans text, solid, other⟩
  | text s => exact ⟨_, _, toList_writeText s, rfl, by decide⟩
  | array items => exact ⟨_, _, toList_compact_array items, rfl, by decide⟩
  | object entries => exact ⟨_, _, toList_compact_object entries, rfl, by decide⟩

/-- So there is no closing bracket in front of the items of an array, where there are any. -/
theorem dropBlank_itemsText (item : Json) (items : List Json) (rest : List Char) :
    ∀ tail, dropBlank (itemsText (item :: items) ++ rest) ≠ ']' :: tail := by
  obtain ⟨c, more, text, solid, other⟩ := exists_first item
  have front : ∃ more, itemsText (item :: items) ++ rest = c :: more := by
    cases items with
    | nil => exact ⟨_, by rw [itemsText_singleton, text]; rfl⟩
    | cons next items => exact ⟨_, by rw [itemsText_cons, text]; rfl⟩
  obtain ⟨more, front⟩ := front
  intro tail same
  rw [front, dropBlank, solid] at same
  exact other (List.cons.inj same).1

/-- Entries do not begin with the closing brace. -/
theorem dropBlank_entriesText (pair : String × Json) (entries : List (String × Json))
    (rest : List Char) :
    ∀ tail, dropBlank (entriesText (pair :: entries) ++ rest) ≠ '\x7d' :: tail := by
  have front : ∃ more, entriesText (pair :: entries) ++ rest = '"' :: more := by
    cases entries with
    | nil => exact ⟨_, by rw [entriesText_singleton, entryText, toList_writeText]; rfl⟩
    | cons next entries => exact ⟨_, by rw [entriesText_cons, entryText, toList_writeText]; rfl⟩
  obtain ⟨more, front⟩ := front
  intro tail same
  rw [front] at same
  exact absurd (List.cons.inj same).1 (by decide)

/-! ### How documents are read -/

/-- The body of an array that is not empty is read as its items. -/
theorem outcome_arrayBody (filled : ∀ tail, dropBlank input ≠ ']' :: tail) :
    outcome? (arrayBody reader input) =
      (outcome? (items reader input)).map (Prod.map .array id) := by
  unfold arrayBody
  split
  · next tail same => exact absurd same (filled tail)
  · cases items reader input <;> rfl

/-- The body of an object that is not empty is read as its entries. -/
theorem outcome_objectBody (filled : ∀ tail, dropBlank input ≠ '\x7d' :: tail) :
    outcome? (objectBody reader input) =
      (outcome? (entries reader input)).map (Prod.map .object id) := by
  unfold objectBody
  split
  · next tail same => exact absurd same (filled tail)
  · cases entries reader input <;> rfl

/-- A number ends at a character that is no part of one. -/
theorem endsNumber_cons (other : c.isDigit = false ∧ c ≠ '.' ∧ c ≠ 'e' ∧ c ≠ 'E') :
    EndsNumber (c :: rest) := fun _ mem => Option.some.inj mem ▸ other

/-- Whether a document is read as a whole, unless what is behind it goes on with a number. -/
def IsReread (levels : Nat) (j : Json) : Prop :=
  ∀ ⦃rest⦄, EndsNumber rest →
    outcome? (value levels (j.compact.toList ++ rest)) = (reread? levels j).map (·, rest)

/-- Items are read back if each of them is, by induction on them. -/
theorem outcome_itemsText {item : Json} {items : List Json} (rest : List Char)
    (read : ∀ j ∈ item :: items, IsReread levels j) :
    outcome? (Json.items (value levels) (itemsText (item :: items) ++ ']' :: rest)) =
      (rereadItems? levels (item :: items)).map (·, rest) := by
  induction items generalizing item with
  | nil =>
      have stop : EndsNumber (']' :: rest) := endsNumber_cons (by decide)
      have last := read item List.mem_cons_self stop
      rw [itemsText_singleton, outcome_items_last last, rereadItems?, rereadItems?]
      cases reread? levels item <;> rfl
  | cons next items ih =>
      have stop : EndsNumber (',' :: (itemsText (next :: items) ++ ']' :: rest)) :=
        endsNumber_cons (by decide)
      have front := read item List.mem_cons_self stop
      rw [itemsText_cons, List.append_assoc, List.cons_append, outcome_items_more front,
        ih fun j mem => read j (List.mem_cons_of_mem _ mem), rereadItems?.eq_2 levels item]
      cases reread? levels item with
      | none => rfl
      | some item => cases rereadItems? levels (next :: items) <;> rfl

/-- An entry is read back if its value is. -/
theorem outcome_entryText {pair : String × Json} (read : IsReread levels pair.2)
    (stop : EndsNumber rest) :
    outcome? (entry (value levels) (entryText pair ++ rest)) =
      ((reread? levels pair.2).map (pair.1, ·)).map (·, rest) := by
  rw [entryText, List.append_assoc, List.cons_append, outcome_entry, read stop]
  cases reread? levels pair.2 <;> rfl

/-- Entries are read back if each of them is, by induction on them. -/
theorem outcome_entriesText {pair : String × Json} {entries : List (String × Json)}
    (rest : List Char)
    (read : ∀ e ∈ pair :: entries, IsReread levels e.2) :
    outcome? (Json.entries (value levels) (entriesText (pair :: entries) ++ '\x7d' :: rest)) =
      (rereadEntries? levels (pair :: entries)).map (·, rest) := by
  induction entries generalizing pair with
  | nil =>
      have stop : EndsNumber ('\x7d' :: rest) := endsNumber_cons (by decide)
      have last := outcome_entryText (read pair List.mem_cons_self) stop
      rw [entriesText_singleton, outcome_entries_last last, rereadEntries?, rereadEntries?]
      cases reread? levels pair.2 <;> rfl
  | cons next entries ih =>
      have stop : EndsNumber (',' :: (entriesText (next :: entries) ++ '\x7d' :: rest)) :=
        endsNumber_cons (by decide)
      have front := outcome_entryText (read pair List.mem_cons_self) stop
      rw [entriesText_cons, List.append_assoc, List.cons_append, outcome_entries_more front,
        ih fun e mem => read e (List.mem_cons_of_mem _ mem),
        rereadEntries?.eq_2 levels pair.1 pair.2]
      cases reread? levels pair.2 with
      | none => rfl
      | some value => cases rereadEntries? levels (next :: entries) <;> rfl

/-- Induction over documents, with the items of arrays and the entries of objects. -/
@[elab_as_elim]
theorem inductionOn {P : Json → Prop} (j : Json) (null : P .null) (bool : ∀ b, P (.bool b))
    (number : ∀ n, P (.number n)) (text : ∀ s, P (.text s))
    (array : ∀ items, (∀ j ∈ items, P j) → P (.array items))
    (object : ∀ entries, (∀ e ∈ entries, P e.2) → P (.object entries)) : P j :=
  @Json.rec P (fun items => ∀ j ∈ items, P j) (fun entries => ∀ e ∈ entries, P e.2) (fun e => P e.2)
    null bool number text array object
    nofun (fun _ _ head tail => List.forall_mem_cons.mpr ⟨head, tail⟩)
    nofun (fun _ _ head tail => List.forall_mem_cons.mpr ⟨head, tail⟩)
    (fun _ _ value => value) j

/-- Every document is read back as far as the levels go, by induction on them. -/
theorem isReread (levels : Nat) (j : Json) : IsReread levels j := by
  induction j using inductionOn generalizing levels with
  | null => exact fun _ _ => outcome_value_cons (c := 'n') rfl
  | bool b =>
      cases b with
      | true => exact fun _ _ => outcome_value_cons (c := 't') rfl
      | false => exact fun _ _ => outcome_value_cons (c := 'f') rfl
  | number n =>
      refine fun _ stop => (outcome_value_number n stop).trans ?_
      simp [reread?, Function.comp_def]
  | text s =>
      intro rest _
      rw [compact, toList_writeText, List.cons_append, List.append_assoc, outcome_value_cons rfl]
      simp [outcome_textBody, reread?]
  | array items ih =>
      intro rest _
      rw [toList_compact_array, List.cons_append, List.append_assoc, outcome_value_cons rfl]
      cases levels with
      | zero => rfl
      | succ levels =>
          cases items with
          | nil => rfl
          | cons item items =>
              -- the items are a level further in, and read with the bracket behind them
              have read := outcome_itemsText rest fun j mem => ih j mem levels
              refine (outcome_arrayBody (dropBlank_itemsText item items (']' :: rest))).trans ?_
              rw [read, reread?, Option.map_map, Option.map_map]
              rfl
  | object entries ih =>
      intro rest _
      rw [toList_compact_object, List.cons_append, List.append_assoc, outcome_value_cons rfl]
      cases levels with
      | zero => rfl
      | succ levels =>
          cases entries with
          | nil => rfl
          | cons pair entries =>
              have read := outcome_entriesText rest fun e mem => ih e mem levels
              have front := dropBlank_entriesText pair entries ('\x7d' :: rest)
              refine (outcome_objectBody front).trans ?_
              rw [read, reread?, Option.map_map, Option.map_map]
              rfl

/-- What is read of a document that stands alone on its line. -/
theorem toOption_parse_compact (j : Json) :
    (parse j.compact).toOption = reread? nestingLimit j := by
  have read := isReread nestingLimit j endsNumber_nil
  rw [List.append_nil] at read
  rw [toOption_parse, read]
  cases reread? nestingLimit j <;> rfl

end ScriptConsole.Json
