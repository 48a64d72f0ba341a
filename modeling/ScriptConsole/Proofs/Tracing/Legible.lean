import ScriptConsole.Proofs.Json.Documents
import ScriptConsole.Trace.Reader

/-!
# Traces That Are Read Back

A record that was written on a line is read from it as it was, but for three things. Its counts and
times have 64 bits, so more than that is cut off. Its lists may be nested 62 deep: of the 127 levels
that the reader follows, the record and its arguments take two, each list takes two, and the
innermost value takes the last. And the doubles in it are read one by one, each from its own digits
(`Json.readBack?`); an infinite double or a NaN has none.

So it is said of every record what is read from its line (`TraceRecord.ofLine_line`), and of which
ones that is the record itself (`TraceRecord.Legible`).

## Main results

* `TraceValue.bind_ofJson_toJson`, `TraceOutput.bind_ofJson_toJson`,
  `TraceRecord.bind_ofJson_toJson`: values, outcomes and records as documents.
* `TraceRecord.ofLine_line`: a record as a line.
* `trace_lines_read_back`: **which records are read back**.
-/

namespace ScriptConsole

-- How a document is read by the names of its fields.
attribute [local simp] Json.reread? Json.rereadEntries? Json.fields? Json.lookup? Json.text?

namespace TraceValue

variable {deep levels : Nat}

mutual

/-- How deep lists are nested in a trace value. -/
def nesting : TraceValue → Nat
  | list items => nestingEach items + 1
  | _ => 0

/-- How deep lists are nested in trace values. -/
def nestingEach : List TraceValue → Nat
  | [] => 0
  | v :: rest => max (nesting v) (nestingEach rest)

end

mutual

/-- The doubles in a trace value. -/
def floats : TraceValue → List Float
  | float x => [x]
  | list items => floatsEach items
  | _ => []

/-- The doubles in trace values. -/
def floatsEach : List TraceValue → List Float
  | [] => []
  | v :: rest => floats v ++ floatsEach rest

end

mutual

/-- The trace value that is read where one was written, if lists may be nested `deep` times: the
same, but for its doubles. -/
def reread? : (deep : Nat) → TraceValue → Option TraceValue
  | _, float x => (Json.readBack? x).map float
  | 0, list _ => none
  | deep + 1, list items => (rereadEach? deep items).map list
  | _, v => some v

/-- The trace values that are read where some were written. -/
def rereadEach? (deep : Nat) : List TraceValue → Option (List TraceValue)
  | [] => some []
  | v :: rest => (reread? deep v).bind fun v => (rereadEach? deep rest).map (v :: ·)

end

/-- Induction over trace values, with the items of lists. -/
@[elab_as_elim]
theorem inductionOn {P : TraceValue → Prop} (v : TraceValue) (null : P .null)
    (bool : ∀ b, P (.bool b)) (int : ∀ n, P (.int n)) (float : ∀ x, P (.float x))
    (char : ∀ c, P (.char c)) (text : ∀ s, P (.text s))
    (list : ∀ items, (∀ v ∈ items, P v) → P (.list items)) (shown : ∀ s, P (.shown s)) : P v :=
  @TraceValue.rec P (fun items => ∀ v ∈ items, P v) null bool int float char text list shown
    nofun (fun _ _ head tail => List.forall_mem_cons.mpr ⟨head, tail⟩) v

/-- A value is read by its case from what is read of its content. -/
theorem bind_ofJson_case (inner : Nat) (case : String) (content : Json) :
    (Json.reread? (inner + 1) (.object [("t", .text case), ("v", content)])).bind
        (ofJson? (levels + 1)) =
      (Json.reread? inner content).bind fun j => ofCase? (ofJson? levels) case (some j) := by
  simp only [Json.reread?, Json.rereadEntries?]
  cases Json.reread? inner content with
  | none => rfl
  | some j => simp [ofJson?]

/-- An integer is read back. -/
theorem reread_ofInt64 (n : Int64) :
    (Json.reread? levels (.ofInt64 n)).bind Json.int64? = some n := by
  unfold Json.ofInt64
  split
  · next negative => simp [Json.Number.reread_negative negative, Json.int64?]
  · next other =>
    have positive : 0 ≤ n := Int64.not_lt.mp other
    have same : (n.toUInt64.toNat : Int) = n.toInt := by
      rw [Int64.toNat_toUInt64_of_le positive]
      exact Int.toNat_of_nonneg (Int64.le_iff_toInt_le.mp positive)
    simp only [Json.reread?, Json.Number.reread_natural, Option.map_some, Option.bind_some,
      Json.int64?]
    exact Number.int64?_eq_some_iff.mpr same.symm

/-- A double is read as it is read by itself. -/
theorem reread_ofFloat (x : Float) :
    (Json.reread? levels (.ofFloat x)).bind Json.float? = Json.readBack? x := by
  unfold Json.ofFloat
  split
  · next finite =>
    rw [Json.reread?, Json.Number.reread_eq_readBack finite]
    cases Json.readBack? x <;> rfl
  · next infinite => exact (Json.readBack_of_not_isFinite (Bool.eq_false_iff.mpr infinite)).symm

/-- A list is read from what is read of its items. -/
theorem bind_mapM (items : List TraceValue) {inner : Nat}
    (each : ∀ v ∈ items, (Json.reread? inner v.toJson).bind (ofJson? levels) = v.reread? deep) :
    (Json.rereadItems? inner (toJsons items)).bind (·.mapM (ofJson? levels)) =
      rereadEach? deep items := by
  induction items with
  | nil => rfl
  | cons v rest ih =>
    obtain ⟨first, more⟩ := List.forall_mem_cons.mp each
    rw [toJsons, Json.rereadItems?, rereadEach?, ← first, ← ih more]
    cases Json.reread? inner v.toJson with
    | none => rfl
    | some j =>
        cases Json.rereadItems? inner (toJsons rest) with
        | none => cases read : ofJson? levels j <;> simp [read]
        | some js =>
            cases read : ofJson? levels j with
            | none => simp [read]
            | some v =>
                simp only [Option.bind_some, Option.map_some, List.mapM_cons, read]
                cases js.mapM (ofJson? levels) <;> rfl

/-- What is read back for a record is what its document stands for. -/
theorem bind_ofJson_toJson (v : TraceValue) (le : deep ≤ levels) :
    (Json.reread? (2 * deep + 1) v.toJson).bind (ofJson? (levels + 1)) = v.reread? deep := by
  induction v using inductionOn generalizing deep levels with
  | null =>
      simp [toJson, ofJson?, ofCase?, reread?]
  | bool b => exact bind_ofJson_case _ _ _
  | int n =>
      refine (bind_ofJson_case _ _ _).trans ?_
      exact Option.map_bind.symm.trans (congrArg (Option.map int) (reread_ofInt64 n))
  | float x =>
      refine (bind_ofJson_case _ _ _).trans ?_
      exact Option.map_bind.symm.trans (congrArg (Option.map float) (reread_ofFloat x))
  | char c =>
      refine (bind_ofJson_case _ _ _).trans ?_
      simp [ofCase?, Json.char?, reread?]
  | text s => exact bind_ofJson_case _ _ _
  | shown s => exact bind_ofJson_case _ _ _
  | list items ih =>
      refine (bind_ofJson_case _ _ _).trans ?_
      cases deep with
      | zero => rfl
      | succ deep =>
          have positive := Nat.zero_lt_of_lt le
          obtain ⟨levels, rfl⟩ := Nat.exists_eq_succ_of_ne_zero positive.ne'
          have each := bind_mapM items fun v mem => ih v mem (Nat.le_of_succ_le_succ le)
          rw [show 2 * (deep + 1) = 2 * deep + 1 + 1 from rfl, Json.reread?, reread?, ← each]
          cases Json.rereadItems? (2 * deep + 1) (toJsons items) <;> rfl

/-- No trace value is written as null. -/
theorem isNull_reread (v : TraceValue) {j : Json}
    (read : Json.reread? (levels + 1) v.toJson = some j) : j.isNull = false := by
  obtain ⟨entries, object⟩ : ∃ entries, v.toJson = .object entries := by
    cases v <;> exact ⟨_, rfl⟩
  rw [object, Json.reread?] at read
  obtain ⟨entries, -, rfl⟩ := Option.map_eq_some_iff.mp read
  rfl

/-! ### Which trace values are read back -/

/-- Values are read back if each of them is. -/
theorem rereadEach_eq_some_iff {items : List TraceValue} :
    rereadEach? deep items = some items ↔ ∀ v ∈ items, v.reread? deep = some v := by
  induction items with
  | nil => simp [rereadEach?]
  | cons v rest ih =>
      rw [rereadEach?, List.forall_mem_cons, ← ih]
      constructor
      · intro same
        obtain ⟨v', first, more⟩ := Option.bind_eq_some_iff.mp same
        obtain ⟨rest', others, both⟩ := Option.map_eq_some_iff.mp more
        obtain ⟨rfl, rfl⟩ := List.cons.inj both
        exact ⟨first, others⟩
      · rintro ⟨first, others⟩
        simp [first, others]

/-- Their nesting is bounded if that of each of them is. -/
theorem nestingEach_le_iff {items : List TraceValue} :
    nestingEach items ≤ deep ↔ ∀ v ∈ items, v.nesting ≤ deep := by
  induction items with
  | nil => simp [nestingEach]
  | cons v rest ih => rw [nestingEach, Nat.max_le, List.forall_mem_cons, ih]

/-- The doubles in them are those in each of them. -/
theorem mem_floatsEach {items : List TraceValue} {x : Float} :
    x ∈ floatsEach items ↔ ∃ v ∈ items, x ∈ v.floats := by
  induction items with
  | nil => simp [floatsEach]
  | cons v rest ih => simp [floatsEach, ih]

/-- A trace value is read back just if it is not nested too deep and its doubles are read back. -/
theorem reread_eq_some_iff (v : TraceValue) :
    v.reread? deep = some v ↔
      v.nesting ≤ deep ∧ ∀ x ∈ v.floats, Json.readBack? x = some x := by
  induction v using inductionOn generalizing deep with
  | float x => simp [reread?, nesting, floats]
  | list items ih =>
      cases deep with
      | zero => simp [reread?, nesting]
      | succ deep =>
          have each : (∀ v ∈ items, v.reread? deep = some v) ↔
              (∀ v ∈ items, v.nesting ≤ deep) ∧
                ∀ v ∈ items, ∀ x ∈ v.floats, Json.readBack? x = some x := by
            rw [← forall₂_and]
            exact forall₂_congr fun v mem => ih v mem
          rw [reread?, nesting, floats, Nat.succ_le_succ_iff, nestingEach_le_iff]
          simp only [mem_floatsEach, Option.map_eq_some_iff, list.injEq, exists_eq_right,
            rereadEach_eq_some_iff, each]
          exact and_congr_right fun _ =>
            ⟨fun all x ⟨v, mem, held⟩ => all v mem x held, fun all v mem x held =>
              all x ⟨v, mem, held⟩⟩
  | _ => simp [reread?, nesting, floats]

end TraceValue

/-! ### Records -/

/-- A number is read back at any level. -/
@[simp] theorem reread_ofNat (levels n : Nat) :
    Json.reread? levels (.ofNat n) = some (.ofNat n) := by
  simp [Json.ofNat]

/-- As a count it is taken in 64 bits. -/
@[simp] theorem nat_ofNat (n : Nat) :
    (Json.ofNat n).nat? Number.limit64 = some (n % Number.limit64) := by
  have below : n.toUInt64.toNat < Number.limit64 := n.toUInt64.toNat_lt
  rw [Json.ofNat, Json.nat?, if_pos below]
  rfl

/-- The outcome that is read where one was written. -/
def TraceOutput.reread? (o : TraceOutput) : Option TraceOutput :=
  (match o.value with
    | none => some none
    | some v => (v.reread? 62).map some).map fun value =>
      { o with value, size := o.size % Number.limit64 }

/-- A count that fits in 64 bits is itself. -/
theorem mod_limit64_eq_iff {n : Nat} : n % Number.limit64 = n ↔ n < Number.limit64 :=
  Nat.mod_eq_iff_lt (by decide)

/-- An output is read back if its size fits and its value is. -/
theorem TraceOutput.reread_eq_some_iff (o : TraceOutput) :
    o.reread? = some o ↔ o.size < Number.limit64 ∧ ∀ v ∈ o.value, v.reread? 62 = some v := by
  obtain ⟨status, value, hash, size⟩ := o
  cases value with
  | none => simp [TraceOutput.reread?, mod_limit64_eq_iff]
  | some v =>
      cases read : v.reread? 62 <;>
        simp [TraceOutput.reread?, mod_limit64_eq_iff, read, and_comm]

/-- What is read back for it is what its document stands for. -/
theorem TraceOutput.bind_ofJson_toJson (o : TraceOutput) :
    (Json.reread? 126 o.toJson).bind ofJson? = o.reread? := by
  obtain ⟨status, value, hash, size⟩ := o
  cases value with
  | none =>
      simp [toJson, reread?, ofJson?]
  | some v =>
      have room : 62 ≤ 126 := by decide
      have read := v.bind_ofJson_toJson room
      cases found : Json.reread? 125 v.toJson with
      | none =>
          rw [found] at read
          simp [toJson, reread?, found, ← read]
      | some j =>
          have solid := v.isNull_reread found
          rw [found] at read
          have document : TraceValue.ofDocument? j = v.reread? 62 := read
          cases value : v.reread? 62 <;> rw [value] at document <;>
            simp [toJson, reread?, ofJson?, found, solid, document, value]

namespace TraceRecord

/-- The record that is read where one was written. -/
def reread? : TraceRecord → Option TraceRecord
  | header version timestamp => some (header version timestamp)
  | call c =>
    (TraceValue.rereadEach? 62 c.inputs).bind fun inputs =>
      c.output.reread?.map fun output =>
        call { c with
          seq := c.seq % Number.limit64
          inputs
          output
          duration := c.duration % Number.limit64 }
  | footer timestamp calls status => some (footer timestamp (calls % Number.limit64) status)

/-- The same of a whole record. -/
theorem bind_ofJson_toJson (r : TraceRecord) :
    (Json.reread? Json.nestingLimit r.toJson).bind ofJson? = r.reread? := by
  cases r with
  | header version timestamp =>
      simp [toJson, reread?, Json.nestingLimit, ofJson?, ofCase?, headerOf?]
  | footer timestamp calls status =>
      simp [toJson, reread?, Json.nestingLimit, ofJson?, ofCase?, footerOf?]
  | call c =>
      have output := c.output.bind_ofJson_toJson
      have room : 62 ≤ 126 := by decide
      have inputs := TraceValue.bind_mapM c.inputs fun v _ => v.bind_ofJson_toJson room
      cases items : Json.rereadItems? 125 (TraceValue.toJsons c.inputs) with
      | none =>
          rw [items] at inputs
          simp [toJson, reread?, Json.nestingLimit, items, ← inputs]
      | some js =>
          rw [items] at inputs
          have documents : js.mapM TraceValue.ofDocument? = TraceValue.rereadEach? 62 c.inputs :=
            inputs
          cases outcome : Json.reread? 126 c.output.toJson with
          | none =>
              rw [outcome] at output
              simp [toJson, reread?, Json.nestingLimit, items, outcome, ← output]
          | some j =>
              rw [outcome] at output
              have document : TraceOutput.ofJson? j = c.output.reread? := output
              cases read : c.output.reread? <;> rw [read] at document <;>
                simp [toJson, reread?, Json.nestingLimit, ofJson?, ofCase?, callOf?, Json.items?,
                  items, outcome, documents, document, read]

/-- What is read of the line of a record. -/
theorem ofLine_line (r : TraceRecord) : ofLine? r.line = r.reread? := by
  have read := Json.toOption_parse_compact r.toJson
  rw [← bind_ofJson_toJson, ← read, ofLine?, line]
  cases Json.parse r.toJson.compact <;> rfl

/-- The counts and times of a record. -/
def counts : TraceRecord → List Nat
  | header _ _ => []
  | call c => [c.seq, c.output.size, c.duration]
  | footer _ calls _ => [calls]

/-- The values in a record: arguments, and the outcome if it is there. -/
def values : TraceRecord → List TraceValue
  | call c => c.inputs ++ c.output.value.toList
  | _ => []

/-- What makes a record one that is read from its line as it was. -/
structure Legible (r : TraceRecord) : Prop where
  /-- Its counts and times have 64 bits, -/
  counts : ∀ n ∈ r.counts, n < Number.limit64
  /-- its lists are nested at most 62 deep, -/
  nesting : ∀ v ∈ r.values, v.nesting ≤ 62
  /-- and each of its doubles is read from its digits as itself. -/
  floats : ∀ v ∈ r.values, ∀ x ∈ v.floats, Json.readBack? x = some x

/-- A record is read back if its counts fit and its values are. -/
theorem reread_eq_some_iff (r : TraceRecord) :
    r.reread? = some r ↔
      (∀ n ∈ r.counts, n < Number.limit64) ∧ ∀ v ∈ r.values, v.reread? 62 = some v := by
  cases r with
  | header version timestamp => simp [reread?, counts, values]
  | footer timestamp calls status => simp [reread?, counts, values, mod_limit64_eq_iff]
  | call c =>
      obtain ⟨seq, timestamp, target, member, inputs, output, duration⟩ := c
      simp only [reread?, Option.bind_eq_some_iff, Option.map_eq_some_iff, call.injEq,
        TraceCall.mk.injEq, true_and, mod_limit64_eq_iff]
      constructor
      · rintro ⟨inputs, each, output, outcome, seq, rfl, rfl, duration⟩
        obtain ⟨size, value⟩ := output.reread_eq_some_iff.mp outcome
        exact ⟨by simpa [counts] using ⟨seq, size, duration⟩, fun v mem =>
          (List.mem_append.mp mem).elim (TraceValue.rereadEach_eq_some_iff.mp each v)
            fun held => value v (Option.mem_toList.mp held)⟩
      · rintro ⟨few, each⟩
        have few : seq < Number.limit64 ∧ output.size < Number.limit64 ∧
            duration < Number.limit64 := by simpa [counts] using few
        exact ⟨inputs, TraceValue.rereadEach_eq_some_iff.mpr fun v mem =>
            each v (List.mem_append_left _ mem),
          output, output.reread_eq_some_iff.mpr ⟨few.2.1, fun v mem =>
            each v (List.mem_append_right _ (Option.mem_toList.mpr mem))⟩,
          few.1, rfl, rfl, few.2.2⟩

end TraceRecord

/-- **Which records are read back.** What is read from the line of a record is that record just if
it is legible. -/
theorem trace_lines_read_back (r : TraceRecord) :
    TraceRecord.ofLine? r.line = some r ↔ r.Legible := by
  rw [TraceRecord.ofLine_line, TraceRecord.reread_eq_some_iff]
  constructor
  · rintro ⟨counts, values⟩
    exact ⟨counts, fun v mem => (v.reread_eq_some_iff.mp (values v mem)).1,
      fun v mem => (v.reread_eq_some_iff.mp (values v mem)).2⟩
  · rintro ⟨counts, nesting, floats⟩
    exact ⟨counts, fun v mem => v.reread_eq_some_iff.mpr ⟨nesting v mem, floats v mem⟩⟩

/-- A call with nested lists, escaped characters and doubles is read back. -/
theorem trace_lines_read_back_lists :
    let legend : Legend := fun _ _ => ""
    let v : Value :=
      .list 0 [.null, .long (-5), .float (-0.1), .list 1 [.text "a\n\"\x01", .char 'é']]
    let r : TraceRecord := .call ⟨0, "T", "std.Math", "abs", [.ofValue legend v], .ok legend v, 3⟩
    r.Legible ∧ TraceRecord.ofLine? r.line = some r := by
  intro legend v r
  have legible : r.Legible :=
    ⟨by decide +kernel, by decide +kernel, by decide +kernel⟩
  exact ⟨legible, (trace_lines_read_back r).mpr legible⟩

/-- Calls with a NaN, with the greatest double below `2 ^ 53`, and with a list nested 63 deep are
not read back. -/
theorem trace_lines_not_read_back :
    let call (v : Value) : TraceRecord :=
      .call ⟨1, "T", "std.Math", "abs", [.ofValue (fun _ _ => "") v], .ok (fun _ _ => "") v, 0⟩
    let nan : Value := .float (0 / 0)
    let wide : Value := .float 9007199254740991
    let deep : Value := (fun v => .list 0 [v])^[63] .null
    TraceRecord.ofLine? (call nan).line ≠ some (call nan) ∧
      TraceRecord.ofLine? (call wide).line ≠ some (call wide) ∧
      TraceRecord.ofLine? (call deep).line ≠ some (call deep) := by
  intro call nan wide deep
  have argument : ∀ v, TraceRecord.ofLine? (call v).line = some (call v) →
      (TraceValue.ofValue (fun _ _ => "") v).reread? 62 =
        some (TraceValue.ofValue (fun _ _ => "") v) := fun v same => by
    rw [TraceRecord.ofLine_line, TraceRecord.reread_eq_some_iff] at same
    exact same.2 _ List.mem_cons_self
  refine ⟨fun same => ?_, fun same => ?_, fun same => ?_⟩
  · have read := ((TraceValue.reread_eq_some_iff _).mp (argument nan same)).2 _ (.head _)
    rw [Json.readBack_of_not_isFinite (by decide)] at read
    cases read
  · have read := ((TraceValue.reread_eq_some_iff _).mp (argument wide same)).2 _ (.head _)
    exact absurd read (by decide +kernel)
  · have nesting := ((TraceValue.reread_eq_some_iff _).mp (argument deep same)).1
    exact absurd nesting (by decide +kernel)

end ScriptConsole
