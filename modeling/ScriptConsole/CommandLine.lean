import ScriptConsole.CommandLine.Help
import ScriptConsole.Expr.Outline
import ScriptConsole.Host.Demo
import ScriptConsole.Session
import ScriptConsole.Text.Lines
import ScriptConsole.Value.Constant

/-!
# The Command Line

What the program does when it is called: it evaluates a source text, answers the lines of its input,
or writes down the tree of a source file. Sessions take place in the demo world, where `player` is
bound to a player.

The files come in through a `FileAccess` over any monad, so that the same definitions serve the
program, which runs in `IO`, and statements about it, which may run in `Id`. The outcome of a call
is a `Report`; what went wrong is a `Trouble`, a headline with its causes from the outside in.
-/

namespace ScriptConsole.CommandLine

/-- Access to files by their paths; failures come with the wording of the system. -/
structure FileAccess (m : Type → Type) where
  read : String → m (Except String String)
  /-- Makes an empty file. -/
  create : String → m (Except String Unit)

/-- What went wrong, and the causes of it from the outside in. -/
structure Trouble where
  headline : String
  causes : List String

namespace Trouble

/-- Several causes are numbered, and one stands alone. -/
def writeCauses : List String → List String
  | [] => []
  | [cause] => ["", "Caused by:", s!"    {cause}"]
  | causes =>
    ["", "Caused by:"] ++ causes.zipIdx.map fun (cause, i) =>
      String.ofList (List.replicate (5 - (toString i).length) ' ') ++ s!"{i}: {cause}"

/-- The lines of the message. -/
def write (t : Trouble) : List String := s!"Error: {t.headline}" :: writeCauses t.causes

/-- Trouble without a cause. -/
def plain (headline : String) : Trouble := ⟨headline, []⟩

end Trouble

/-- The outcome of a call: the lines that it writes, what it notes beside them, and the trace with
the path of its file. -/
structure Report where
  output : List String
  notes : List String
  trouble : Option Trouble
  trace : Option (String × List String)

namespace Report

/-- The report of a call that came to nothing. -/
def failed (t : Trouble) : Report := ⟨[], [], some t, none⟩

/-- The report of a call that wrote some lines. -/
def written (lines : List String) : Report := ⟨lines, [], none, none⟩

/-- The exit code. -/
def code (r : Report) : UInt32 := if r.trouble.isSome then 1 else 0

/-- The lines for the error output. -/
def errors (r : Report) : List String :=
  r.notes ++ (r.trouble.map Trouble.write).getD []

end Report

section

variable {m : Type → Type} [Monad m] (access : FileAccess m)

/-! ### Files -/

/-- What a call can do before it has a session: read files, and fail. -/
abbrev Preparation (m : Type → Type) := ExceptT Trouble m

/-- The cause that is given for a malformed document. -/
def malformed : String := "malformed JSON document"

/-- The text of a file. -/
def readFile (what path : String) : Preparation m String := do
  match ← access.read path with
  | .ok text => return text
  | .error cause => throw ⟨what ++ path, [cause]⟩

/-- The settings of a call: those of the file, but the depth that the arguments give. -/
def settings (maxCallDepth : Option Nat) (file : Option String) : Preparation m Config := do
  let config ← match file with
    | none => pure Config.default
    | some path => do
      let text ← readFile access "reading config " path
      match Config.ofText? text with
      | some config => pure config
      | none => throw ⟨s!"parsing config {path}", [malformed]⟩
  return { config with maxCallDepth := maxCallDepth.getD config.maxCallDepth }

/-- The text of a source file within the limit. -/
def readSource (config : Config) (path : String) : Preparation m String := do
  let text ← readFile access "reading " path
  if config.maxSourceSize < text.utf8ByteSize then
    throw (.plain (s!"source file {path} is {text.utf8ByteSize} bytes, "
      ++ s!"limit is {config.maxSourceSize}"))
  return text

/-! ### Sessions -/

/-- The global name of the player, who bears the same name. -/
def playerVariable : String := "player"

/-- A session in the demo world with a player. -/
def newSession (config : Config) (console : Console) (tracer : Tracer) : Session :=
  let s := Session.start Demo.registry config World.empty console tracer
  match s.constructQuietly Demo.playerName [.text playerVariable] with
  | (.ok v, s) => s.setGlobal playerVariable v
  | (.error _, s) => s

/-- Binds the entries of an object to global names. -/
def bindEntries : List (String × Json) → Session → Except Trouble Session
  | [], s => .ok s
  | (name, j) :: rest, s =>
    match Value.ofJson? s.machine.world j with
    | none => .error ⟨s!"global `{name}`", [Value.noConstant]⟩
    | some (v, world) =>
      bindEntries rest ({ s with machine := { s.machine with world } }.setGlobal name v)

/-- The entries of an object in ascending order, of those with equal names the last. -/
def sortedEntries (entries : List (String × Json)) : List (String × Json) :=
  (entries.foldl (fun sorted (name, j) => sorted.insert name j)
    (∅ : Std.TreeMap String Json)).toList

/-- Binds the entries of a file with a JSON object. -/
def bindFile (path : String) (s : Session) : Preparation m Session := do
  let text ← readFile access "reading globals " path
  match Json.parse text with
  | .error _ => throw ⟨s!"parsing globals {path}", [malformed]⟩
  | .ok (.object entries) =>
    match bindEntries (sortedEntries entries) s with
    | .ok s => return s
    | .error t => throw t
  | .ok _ => throw (.plain s!"globals file {path} must hold a JSON object")

/-- The session in which lines of input are answered. -/
def openSession (config : Config) (globals : Option String) (console : Console) :
    Preparation m Session :=
  let s := newSession config console Tracer.disabled
  match globals with
  | none => pure s
  | some path => bindFile access path s

/-- A tracer for the file of a path, if there is to be one. -/
def openTrace (timestamp : String) (path : Option String) : Preparation m Tracer := do
  match path with
  | none => return Tracer.disabled
  | some path =>
    match ← access.create path with
    | .error cause => throw ⟨s!"creating trace {path}", [cause]⟩
    | .ok () =>
      match Tracer.start Sink.accepting timestamp with
      | .ok tracer => return tracer
      | .error e => throw (.plain e.message)

/-! ### The commands -/

/-- Evaluates a source text and shows the result unless it is `null`. The trace is finished and
written whatever the result. -/
def evaluate (fuel : Nat) (source : String) (trace : Option String) (s : Session) : Report :=
  let (result, s) := s.eval fuel source
  let (_, s) := s.finish result.isOk
  let lines := s.machine.console.output.toList
  let written := trace.map fun path => (path, s.machine.tracer.lines)
  let notes := trace.toList.map fun path => s!"Trace written to {path}"
  match result with
  | .ok .null => ⟨lines, notes, none, written⟩
  | .ok v => ⟨lines ++ [v.display s.legend], notes, none, written⟩
  | .error e => ⟨lines, [], some (.plain (e.message s.legend)), written⟩

/-- Evaluates a source text in a new session. -/
def runEval (fuel : Nat) (timestamp source : String) (trace : Option String) (config : Config) :
    Preparation m Report := do
  let tracer ← openTrace access timestamp trace
  return evaluate fuel source trace (newSession config (Console.ofInput []) tracer)

/-- Answers lines of input. -/
def runLines (fuel : Nat) (config : Config) (globals : Option String) (input : List String) :
    Preparation m Report := do
  let s ← openSession access config globals (Console.ofInput input)
  return .written (s.run fuel).2.machine.console.output.toList

/-- A tree in a form. -/
def TreeForm.write (form : TreeForm) (p : Program) : String :=
  match form with
  | dump => p.outline.dump
  | json => p.outline.toJson.pretty

/-- Writes down the tree of a source file. -/
def runParse (config : Config) (path : String) (form : TreeForm) : Preparation m Report := do
  let source ← readSource access config path
  match Program.ofSource source with
  | .ok p => return .written [form.write p]
  | .error e => throw ⟨s!"parsing {path}", [e.message, e.cause]⟩

/-- Does what an invocation asks for. -/
def perform (fuel : Nat) (timestamp : String) (input : List String) (i : Invocation) :
    Preparation m Report := do
  let config ← settings access i.maxCallDepth i.config
  match i.command with
  | .evalText source trace => runEval access fuel timestamp source trace config
  | .evalFile path trace =>
    let source ← readSource access config path
    runEval access fuel timestamp source trace config
  | .evalNothing => throw (.plain "nothing to evaluate: pass a file or --expr")
  | .repl globals => runLines access fuel config globals input
  | .parse path form => runParse access config path form

/-- The report of an invocation. -/
def report (fuel : Nat) (timestamp : String) (input : List String) (i : Invocation) : m Report := do
  match ← (perform access fuel timestamp input i).run with
  | .ok r => return r
  | .error t => return .failed t

end

end ScriptConsole.CommandLine
