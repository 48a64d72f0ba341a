import ScriptConsole.Json.Fields
import ScriptConsole.Json.Reader
import ScriptConsole.Number.Fixed

/-!
# Session Settings

The limits of a session and whether it shows results. They can be given as a JSON object, in which
missing entries keep their defaults and entries of other names are refused, or as an array of at
most three values in the order of the fields.
-/

namespace ScriptConsole

/-- The settings of a session. -/
structure Config where
  /-- How many function bodies may run at once. -/
  maxCallDepth : Nat
  /-- The longest source text, in bytes. -/
  maxSourceSize : Nat
  /-- Whether the result of a line is printed. -/
  echoResults : Bool

namespace Config

/-- The settings of a session that is given none. -/
def default : Config := ⟨200, 1000000, true⟩

/-- The names of the settings. -/
def names : List String := ["max_call_depth", "max_source_size", "echo_results"]

/-- A setting that may be missing. -/
def setting? {α : Type} (default : α) (read : Json → Option α) (given : Option Json) : Option α :=
  match given with
  | none => some default
  | some j => read j

/-- The settings with the given values; missing ones keep their defaults. -/
def ofValues? (depth size echo : Option Json) : Option Config := do
  let depth ← setting? default.maxCallDepth (Json.nat? Number.limit32) depth
  let size ← setting? default.maxSourceSize (Json.nat? Number.limit64) size
  let echo ← setting? default.echoResults Json.bool? echo
  some ⟨depth, size, echo⟩

/-- The settings of a document. -/
def ofJson? : Json → Option Config
  | .object entries =>
    if entries.all fun e => names.contains e.1 then do
      let depth ← Json.lookup? entries "max_call_depth"
      let size ← Json.lookup? entries "max_source_size"
      let echo ← Json.lookup? entries "echo_results"
      ofValues? depth size echo
    else none
  | .array items =>
    if items.length ≤ names.length then ofValues? items[0]? items[1]? items[2]? else none
  | _ => none

/-- The settings that a text holds. -/
def ofText? (text : String) : Option Config :=
  match Json.parse text with
  | .ok j => ofJson? j
  | .error _ => none

/-- The settings, as text. -/
def summary (c : Config) : String :=
  s!"ShellConfig \x7b max_call_depth: {c.maxCallDepth}, max_source_size: {c.maxSourceSize}, "
    ++ s!"echo_results: {c.echoResults} \x7d"

end Config

end ScriptConsole
