import ScriptConsole.Json.Basic
import ScriptConsole.Number.Layout

/-!
# Writing JSON

Two layouts of a document: `Json.compact` on one line without blanks, and `Json.pretty` with an
indentation of two blanks a level, where empty arrays and objects stay on one line. In both, texts
escape the quote, the backslash and the control characters, and nothing else.
-/

namespace ScriptConsole.Json

/-- The written form of one character of a text. -/
def writeChar (c : Char) : List Char :=
  if c = '"' then ['\\', '"']
  else if c = '\\' then ['\\', '\\']
  else if c = '\x08' then ['\\', 'b']
  else if c = '\x0c' then ['\\', 'f']
  else if c = '\n' then ['\\', 'n']
  else if c = '\r' then ['\\', 'r']
  else if c = '\t' then ['\\', 't']
  else if c.toNat < 32 then
    ['\\', 'u', '0', '0', Nat.digitChar (c.toNat / 16), Nat.digitChar (c.toNat % 16)]
  else [c]

/-- A text between quotes. -/
def writeText (s : String) : String :=
  String.ofList ('"' :: s.toList.flatMap writeChar ++ ['"'])

/-- A number. -/
def writeNumber : Number → String
  | .natural n => toString n.toNat
  | .negative n => toString n.toInt
  | .float x => Number.FloatLayout.json.writeFinite x

mutual

/-- A document on one line. -/
def compact : Json → String
  | .null => "null"
  | .bool b => if b then "true" else "false"
  | .number n => writeNumber n
  | .text s => writeText s
  | .array items => "[" ++ String.intercalate "," (compactItems items) ++ "]"
  | .object entries => "\x7b" ++ String.intercalate "," (compactEntries entries) ++ "\x7d"

/-- The items of an array on one line, one by one. -/
def compactItems : List Json → List String
  | [] => []
  | item :: rest => compact item :: compactItems rest

/-- The entries of an object on one line, one by one. -/
def compactEntries : List (String × Json) → List String
  | [] => []
  | (key, value) :: rest => (writeText key ++ ":" ++ compact value) :: compactEntries rest

end

/-- Lines between brackets, each indented one level deeper than the brackets. -/
def bracket (indent opening closing : String) (lines : List String) : String :=
  if lines.isEmpty then opening ++ closing
  else
    let inner := "\n" ++ indent ++ "  "
    opening ++ inner ++ String.intercalate ("," ++ inner) lines ++ "\n" ++ indent ++ closing

mutual

/-- A document over several lines, at the given indentation. -/
def prettyAt (indent : String) : Json → String
  | .null => "null"
  | .bool b => if b then "true" else "false"
  | .number n => writeNumber n
  | .text s => writeText s
  | .array items => bracket indent "[" "]" (prettyItems (indent ++ "  ") items)
  | .object entries => bracket indent "\x7b" "\x7d" (prettyEntries (indent ++ "  ") entries)

/-- The items of an array over several lines, one by one. -/
def prettyItems (indent : String) : List Json → List String
  | [] => []
  | item :: rest => prettyAt indent item :: prettyItems indent rest

/-- The entries of an object over several lines, one by one. -/
def prettyEntries (indent : String) : List (String × Json) → List String
  | [] => []
  | (key, value) :: rest =>
    (writeText key ++ ": " ++ prettyAt indent value) :: prettyEntries indent rest

end

/-- A document over several lines. -/
def pretty (j : Json) : String := prettyAt "" j

end ScriptConsole.Json
