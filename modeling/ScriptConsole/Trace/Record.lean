import ScriptConsole.Digest.Sha256
import ScriptConsole.Json.Printer
import ScriptConsole.Value

/-!
# Trace Records

A trace lists the calls that reached the host: a header, one record per call in the order of the
calls, and a footer. Each record is a JSON object on a line of its own.

Arguments and results stand in a trace as `TraceValue`s, in which integers have one width and
functions, classes and objects appear as their texts. A result also has a digest of its hashed
text, and is left out beside the digest when that text is longer than `inlineLimit` bytes.
-/

namespace ScriptConsole

/-- A value in a trace. -/
inductive TraceValue where
  | null
  | bool (b : Bool)
  | int (n : Int64)
  | float (x : Float)
  | char (c : Char)
  | text (s : String)
  | list (items : List TraceValue)
  /-- The text of a value that a trace cannot hold. -/
  | shown (s : String)

/-- The outcome of a call in a trace. -/
structure TraceOutput where
  status : String
  value : Option TraceValue
  hash : String
  size : Nat

/-- One call in a trace. -/
structure TraceCall where
  seq : Nat
  timestamp : String
  target : String
  member : String
  inputs : List TraceValue
  output : TraceOutput
  duration : Nat

/-- One record of a trace. -/
inductive TraceRecord where
  | header (version timestamp : String)
  | call (c : TraceCall)
  | footer (timestamp : String) (calls : Nat) (status : String)

/-- The version of the layout of traces. -/
def traceVersion : String := "1"

/-- The longest hashed text, in bytes, beside which a result is recorded. -/
def inlineLimit : Nat := 1024

namespace TraceValue

mutual

/-- A value as it appears in a trace. -/
def ofValue (legend : Legend) : Value → TraceValue
  | .null => null
  | .bool b => bool b
  | .int n => int n.toInt64
  | .long n => int n
  | .float x => float x
  | .char c => char c
  | .text s => text s
  | .list _ items => list (ofValues legend items)
  | .function f => shown ((Value.function f).display legend)
  | .builtin b => shown ((Value.builtin b).display legend)
  | .hostClass c => shown ((Value.hostClass c).display legend)
  | .object o c => shown ((Value.object o c).display legend)

/-- Values as they appear in a trace. -/
def ofValues (legend : Legend) : List Value → List TraceValue
  | [] => []
  | v :: rest => ofValue legend v :: ofValues legend rest

end

mutual

/-- The text that is hashed for a value. -/
def hashText : TraceValue → String
  | null => "null"
  | bool b => if b then "true" else "false"
  | int n => toString n.toInt
  | float x => Number.FloatLayout.plain.write x
  | char c => String.singleton c
  | text s => s
  | shown s => s
  | list items => "[" ++ String.intercalate "," (hashTexts items) ++ "]"

/-- The texts that are hashed for values. -/
def hashTexts : List TraceValue → List String
  | [] => []
  | v :: rest => hashText v :: hashTexts rest

end

mutual

/-- A trace value as a document: the name of its case, and its content if it has one. -/
def toJson : TraceValue → Json
  | null => .object [("t", .text "Null")]
  | bool b => .object [("t", .text "Bool"), ("v", .bool b)]
  | int n => .object [("t", .text "Int"), ("v", .ofInt64 n)]
  | float x => .object [("t", .text "Float"), ("v", .ofFloat x)]
  | char c => .object [("t", .text "Char"), ("v", .text (String.singleton c))]
  | text s => .object [("t", .text "Str"), ("v", .text s)]
  | list items => .object [("t", .text "List"), ("v", .array (toJsons items))]
  | shown s => .object [("t", .text "Ref"), ("v", .text s)]

/-- Trace values as documents. -/
def toJsons : List TraceValue → List Json
  | [] => []
  | v :: rest => toJson v :: toJsons rest

end

end TraceValue

namespace TraceOutput

/-- The outcome of a call that gave a value. -/
def ok (legend : Legend) (v : Value) : TraceOutput :=
  let traced := TraceValue.ofValue legend v
  let text := traced.hashText
  let size := text.utf8ByteSize
  ⟨"ok", if size ≤ inlineLimit then some traced else none, Sha256.label text, size⟩

/-- The outcome of a call that failed. -/
def error (text : String) : TraceOutput :=
  ⟨"error", some (.text text), Sha256.label text, text.utf8ByteSize⟩

/-- An outcome as a document. -/
def toJson (o : TraceOutput) : Json :=
  let value := match o.value with
    | some v => [("value", v.toJson)]
    | none => []
  .object ([("status", .text o.status)] ++ value ++
    [("value_hash", .text o.hash), ("value_size", .ofNat o.size)])

end TraceOutput

namespace TraceRecord

/-- A record as a document. -/
def toJson : TraceRecord → Json
  | header version timestamp =>
    .object [("record", .text "header"), ("schema_version", .text version),
      ("timestamp", .text timestamp)]
  | call c =>
    .object [("record", .text "invoke"), ("seq", .ofNat c.seq), ("timestamp", .text c.timestamp),
      ("target", .text c.target), ("member", .text c.member),
      ("inputs", .array (TraceValue.toJsons c.inputs)), ("output", c.output.toJson),
      ("duration_ms", .ofNat c.duration)]
  | footer timestamp calls status =>
    .object [("record", .text "footer"), ("timestamp", .text timestamp),
      ("invoke_count", .ofNat calls), ("program_status", .text status)]

/-- A record as a line. -/
def line (r : TraceRecord) : String := r.toJson.compact

end TraceRecord

end ScriptConsole
