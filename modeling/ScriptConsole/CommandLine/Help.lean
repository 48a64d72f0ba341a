import ScriptConsole.CommandLine.Invocation

/-!
# Help

The help on each topic: what the command does, how it is called, and tables of its operands,
commands and flags. The second column of a table stands behind the longest entry of the first, or,
where a description would not fit beside it, on lines of its own.
-/

namespace ScriptConsole.CommandLine

/-- The name under which the program is called. -/
def programName : String := "devcon"

/-- How wide a line of help may be. -/
def lineWidth : Nat := 100

/-- The room to leave free in a line with two columns. -/
def margin : Nat := 8

/-- A table of help: a title, and entries with their descriptions. -/
structure HelpTable where
  title : String
  rows : List (String × String)

namespace HelpTable

/-- The length of the longest entry. -/
def entryWidth (t : HelpTable) : Nat :=
  (t.rows.map fun r => r.1.length).foldl max 0

/-- Whether some description is too long to stand beside the entries. -/
def isWide (t : HelpTable) : Bool :=
  t.rows.any fun r => lineWidth < t.entryWidth + margin + r.2.length

/-- One row, with the description beside the entry or on the next line. -/
def writeRow (t : HelpTable) (row : String × String) : List String :=
  if t.isWide then ["  " ++ row.1, "          " ++ row.2]
  else ["  " ++ row.1 ++ String.ofList (List.replicate (t.entryWidth - row.1.length) ' ')
    ++ "  " ++ row.2]

/-- The lines of a table, with a blank one in front. -/
def write (t : HelpTable) : List String :=
  ["", t.title ++ ":"] ++ t.rows.flatMap t.writeRow

end HelpTable

namespace Flag

/-- The name of the value of a flag. -/
def valueName : Flag → String
  | maxCallDepth => "MAX_CALL_DEPTH"
  | config => "CONFIG"
  | expr => "EXPR"
  | trace => "TRACE"
  | globals => "GLOBALS"
  | form => "FORMAT"

/-- What a flag is for. -/
def description : Flag → String
  | maxCallDepth => "Nested function calls allowed before evaluation fails"
  | config => "JSON file with shell settings"
  | expr => "Evaluate this source text instead of a file"
  | trace => "Write a JSONL trace of host calls to this file"
  | globals => "JSON object whose entries become global bindings"
  | form => "Output format [default: pretty] [possible values: pretty, json]"

/-- The row of a flag in a table. -/
def row (f : Flag) : String × String :=
  (s!"    --{f.name} <{f.valueName}>", f.description)

end Flag

namespace Topic

/-- What the commands do. -/
def commands : List (String × String) :=
  [("eval", "Evaluate a source file against the demo host world"),
    ("repl", "Interactive console on stdin/stdout"),
    ("parse", "Parse a source file and dump the AST"),
    ("help", "Print this message or the help of the given subcommand(s)")]

/-- What a command does, as the table of commands says. -/
def about (name : String) : String :=
  ((commands.find? fun c => c.1 = name).map Prod.snd).getD ""

/-- The table of flags; every topic but the last has the flag for help. -/
def flagTable (flags : List Flag) : HelpTable :=
  ⟨"Options", flags.map Flag.row ++ [("-h, --help", "Print help")]⟩

/-- The table of the one operand. -/
def operandTable (entry description : String) : HelpTable :=
  ⟨"Arguments", [(entry, description)]⟩

/-- Help with a description, the form of a call, and tables. -/
def page (about call : String) (tables : List HelpTable) : List String :=
  [about, "", s!"Usage: {programName} {call}"] ++ tables.flatMap HelpTable.write

/-- The lines of help on a topic. -/
def lines : Topic → List String
  | program =>
    page "devcon: developer-console expression language" "[OPTIONS] <COMMAND>"
      [⟨"Commands", commands⟩, flagTable [.maxCallDepth, .config]]
  | eval =>
    page (about "eval") "eval [OPTIONS] [FILE]"
      [operandTable "[FILE]" "Path to console source",
        flagTable [.expr, .maxCallDepth, .config, .trace]]
  | repl =>
    page (about "repl") "repl [OPTIONS]" [flagTable [.globals, .maxCallDepth, .config]]
  | parse =>
    page (about "parse") "parse [OPTIONS] <FILE>"
      [operandTable "<FILE>" "Path to console source",
        flagTable [.form, .maxCallDepth, .config]]
  | help =>
    page (about "help") "help [COMMAND]..."
      [operandTable "[COMMAND]..." "Print help for the subcommand(s)"]

/-- What is said about a call that asks for nothing. -/
def misuse : List String :=
  [s!"Usage: {programName} [OPTIONS] <COMMAND>", "",
    "For more information, try '--help'."]

end Topic

end ScriptConsole.CommandLine
