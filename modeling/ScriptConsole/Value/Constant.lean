import ScriptConsole.Host.World
import ScriptConsole.Json.Basic
import ScriptConsole.Number.Fixed

/-!
# Constants from JSON

A JSON document without objects denotes a value: integers become integers of the narrowest width
that holds them, other numbers doubles, and arrays lists.
-/

namespace ScriptConsole.Value

/-- A number as a value. -/
def ofNumber : Json.Number → Value
  | .natural n =>
    match Number.int32? n.toNat, Number.int64? n.toNat with
    | some m, _ => .int m
    | none, some m => .long m
    | none, none => .float n.toFloat
  | .negative n =>
    match Number.int32? n.toInt with
    | some m => .int m
    | none => .long n
  | .float x => .float x

mutual

/-- The value of a document, if it has one; the world gives lists their identities. -/
def ofJson? (w : World) : Json → Option (Value × World)
  | .null => some (.null, w)
  | .bool b => some (.bool b, w)
  | .number n => some (ofNumber n, w)
  | .text s => some (.text s, w)
  | .array items =>
    match ofJsons? w items with
    | some (values, w) => some (w.newList values)
    | none => none
  | .object _ => none

/-- The values of documents. -/
def ofJsons? (w : World) : List Json → Option (List Value × World)
  | [] => some ([], w)
  | j :: rest =>
    match ofJson? w j with
    | none => none
    | some (v, w) =>
      match ofJsons? w rest with
      | none => none
      | some (vs, w) => some (v :: vs, w)

end

/-- The wording for a document that denotes no value. -/
def noConstant : String := "nested objects have no console representation"

end ScriptConsole.Value
