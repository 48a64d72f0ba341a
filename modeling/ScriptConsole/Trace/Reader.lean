import ScriptConsole.Json.Fields
import ScriptConsole.Json.Reader
import ScriptConsole.Trace.Record

/-!
# Reading Traces

A record is read back from its line. Entries that no field asks for are ignored; the value of an
outcome may be missing or `null`. Beside the layout that is written, records, outcomes and values
may also be arrays of their fields in order, with the name of the case first.
-/

namespace ScriptConsole

namespace TraceValue

/-- The value of a case with its content, which is missing for `Null`. -/
def ofCase? (value : Json → Option TraceValue) (case : String) (content : Option Json) :
    Option TraceValue :=
  match case, content with
  | "Null", none => some .null
  | "Null", some j => if j.isNull then some .null else none
  | "Bool", some j => j.bool?.map .bool
  | "Int", some j => j.int64?.map .int
  | "Float", some j => j.float?.map .float
  | "Char", some j => j.char?.map .char
  | "Str", some j => j.text?.map .text
  | "Ref", some j => j.text?.map .shown
  | "List", some j => j.items?.bind fun items => (items.mapM value).map .list
  | _, _ => none

/-- The trace value of a document in which values are nested at most `levels` deep. -/
def ofJson? : (levels : Nat) → Json → Option TraceValue
  | 0, _ => none
  | levels + 1, j =>
    match j.fields? ["t", "v"] with
    | some [some case, content] => case.text?.bind fun case => ofCase? (ofJson? levels) case content
    | _ => none

/-- The trace value of a document as it is read from a text, which is never nested deeper than the
limit for texts. -/
def ofDocument? (j : Json) : Option TraceValue := ofJson? Json.nestingLimit j

end TraceValue

namespace TraceOutput

/-- The outcome of a document. -/
def ofJson? (j : Json) : Option TraceOutput :=
  match j.fields? ["status", "value", "value_hash", "value_size"] with
  | some [some status, value, some hash, some size] => do
    let status ← status.text?
    let value ← match value with
      | none => some none
      | some v => if v.isNull then some none else (TraceValue.ofDocument? v).map some
    let hash ← hash.text?
    let size ← size.nat? Number.limit64
    some ⟨status, value, hash, size⟩
  | _ => none

end TraceOutput

namespace TraceRecord

/-- The header with the given fields. -/
def headerOf? (j : Json) : Option TraceRecord :=
  match j.fields? ["schema_version", "timestamp"] with
  | some [some version, some timestamp] => do
    some (.header (← version.text?) (← timestamp.text?))
  | _ => none

/-- The call with the given fields. -/
def callOf? (j : Json) : Option TraceRecord :=
  match j.fields? ["seq", "timestamp", "target", "member", "inputs", "output", "duration_ms"] with
  | some [some seq, some timestamp, some target, some member, some inputs, some output,
      some duration] => do
    let seq ← seq.nat? Number.limit64
    let timestamp ← timestamp.text?
    let target ← target.text?
    let member ← member.text?
    let inputs ← (← inputs.items?).mapM TraceValue.ofDocument?
    let output ← TraceOutput.ofJson? output
    let duration ← duration.nat? Number.limit64
    some (.call ⟨seq, timestamp, target, member, inputs, output, duration⟩)
  | _ => none

/-- The footer with the given fields. -/
def footerOf? (j : Json) : Option TraceRecord :=
  match j.fields? ["timestamp", "invoke_count", "program_status"] with
  | some [some timestamp, some calls, some status] => do
    some (.footer (← timestamp.text?) (← calls.nat? Number.limit64) (← status.text?))
  | _ => none

/-- The record of a case with the given fields. -/
def ofCase? (case : String) (fields : Json) : Option TraceRecord :=
  if case = "header" then headerOf? fields
  else if case = "invoke" then callOf? fields
  else if case = "footer" then footerOf? fields
  else none

/-- The record of a document. -/
def ofJson? : Json → Option TraceRecord
  | .object entries =>
    match Json.lookup? entries "record" with
    | some (some case) => case.text?.bind fun case => ofCase? case (.object entries)
    | _ => none
  | .array (case :: fields) => case.text?.bind fun case => ofCase? case (.array fields)
  | _ => none

/-- The record of a line. -/
def ofLine? (line : String) : Option TraceRecord :=
  match Json.parse line with
  | .ok j => ofJson? j
  | .error _ => none

end TraceRecord

end ScriptConsole
