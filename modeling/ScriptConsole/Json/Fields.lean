import ScriptConsole.Json.Basic
import ScriptConsole.Number.Fixed

/-!
# Structures in JSON

A structure is read from an object by the names of its fields, in any order, or from an array by
their order. A field may not be given twice in an object; entries of other names are for the reader
of the structure to accept or refuse. An array has to be of the length asked for.
-/

namespace ScriptConsole.Json

/-- The value of a field in the entries of an object: an outer `none` if it is given twice, an inner
one if it is missing. -/
def lookup? (entries : List (String × Json)) (name : String) : Option (Option Json) :=
  match entries.filter fun e => e.1 = name with
  | [] => some none
  | [e] => some (some e.2)
  | _ => none

/-- The values of the fields with the given names, in the order of the names. -/
def fields? (names : List String) : Json → Option (List (Option Json))
  | .object entries => names.mapM (lookup? entries)
  | .array items => if items.length = names.length then some (items.map some) else none
  | _ => none

/-- A text. -/
def text? : Json → Option String
  | .text s => some s
  | _ => none

/-- A truth value. -/
def bool? : Json → Option Bool
  | .bool b => some b
  | _ => none

/-- A natural number below a limit. -/
def nat? (limit : Nat) : Json → Option Nat
  | .number (.natural n) => if n.toNat < limit then some n.toNat else none
  | _ => none

/-- An integer of 64 bits. -/
def int64? : Json → Option Int64
  | .number (.natural n) => Number.int64? n.toNat
  | .number (.negative n) => some n
  | _ => none

/-- A number as a double. -/
def float? : Json → Option Float
  | .number (.natural n) => some n.toFloat
  | .number (.negative n) => some n.toFloat
  | .number (.float x) => some x
  | _ => none

/-- A text of one character. -/
def char? : Json → Option Char
  | .text s =>
    match s.toList with
    | [c] => some c
    | _ => none
  | _ => none

/-- The items of an array. -/
def items? : Json → Option (List Json)
  | .array items => some items
  | _ => none

/-- Whether a document is `null`. -/
def isNull : Json → Bool
  | .null => true
  | _ => false

end ScriptConsole.Json
