import ScriptConsole.Eval.Evaluator
import ScriptConsole.Expr.OnDemand
import ScriptConsole.Session.Config

/-!
# Sessions

A session is a registry of host classes, settings, and a machine with one root frame in which the
builtins are bound. Source texts are evaluated in that frame one after the other; what one of them
binds, the next ones see. A text that fails keeps the effects it had before it failed.

* `Session.eval` evaluates a source text.
* `Session.evalLine` evaluates a line as it is typed: blanks at its end are dropped, a missing
  semicolon is supplied on a line of its own, and the outcome is printed.
* `Session.answer` does so with a line of input, and passes over blank ones.
* `Session.run` answers the lines that wait at the console and closes it.
* `Session.finish` ends the trace.
-/

namespace ScriptConsole

/-- Why a source text has no value. -/
inductive Failure where
  | source (error : SourceError)
  | eval (error : EvalError)
  | tooLarge (size limit : Nat)
  /-- The budget of steps is used up. -/
  | exhausted
  /-- A builtin got arguments that its arity rules out. -/
  | stuck

/-- The wording of a failure. -/
def Failure.message (legend : Legend) : Failure → String
  | source e => s!"syntax error: {e.message}"
  | eval e => s!"{e.kind}: {e.message legend}"
  | tooLarge size limit => s!"source is {size} bytes, limit is {limit}"
  | exhausted => "out of steps"
  | stuck => "stuck"

/-- A session. -/
structure Session where
  registry : Registry
  config : Config
  machine : Machine

namespace Session

/-- The frame in which source texts are evaluated. -/
def rootFrame : FrameId := 0

/-- A root frame in which some builtins are bound to their names. -/
def framesWith (builtins : List Builtin) : Frames :=
  builtins.foldl (fun fs b => fs.define rootFrame b.name (.builtin b)) Frames.empty.newRoot.2

/-- A new session in a world, with every builtin. -/
def start (registry : Registry) (config : Config) (world : World) (console : Console)
    (tracer : Tracer) : Session :=
  ⟨registry, config, ⟨framesWith Builtin.all, world, console, tracer, 0⟩⟩

/-- What evaluation in the session depends on. -/
def setting (s : Session) : Setting := ⟨s.registry, s.config.maxCallDepth⟩

/-- How objects are shown in the session. -/
def legend (s : Session) : Legend := s.registry.legend s.machine.world

/-- The result of a run, as that of a source text. -/
def resultOf : Except Stop Value → Except Failure Value
  | .ok v => .ok v
  | .error (.exit _ v) => .ok v
  | .error (.fault e) => .error (.eval e)
  | .error .exhausted => .error .exhausted
  | .error .stuck => .error .stuck

/-- Evaluates a program. -/
def evalProgram (fuel : Nat) (p : Program) (s : Session) : Except Failure Value × Session :=
  let ⟨registry, config, machine⟩ := s
  let (result, machine) :=
    ScriptConsole.evalProgram ⟨registry, config.maxCallDepth⟩ fuel rootFrame p
      { machine with depth := 0 }
  (resultOf result, ⟨registry, config, machine⟩)

/-- Evaluates a source text. -/
def eval (fuel : Nat) (source : String) (s : Session) : Except Failure Value × Session :=
  if s.config.maxSourceSize < source.utf8ByteSize then
    (.error (.tooLarge source.utf8ByteSize s.config.maxSourceSize), s)
  else
    match Program.ofSource source with
    | .error e => (.error (.source e), s)
    | .ok p => evalProgram fuel p s

/-- Prints a line. -/
def print (line : String) (s : Session) : Session :=
  { s with machine := { s.machine with console := s.machine.console.print line } }

/-- Whether a line has tokens and the last of them is no semicolon. A line with a malformed token is
left alone. -/
def needsTerminator (line : String) : Bool :=
  match tokens? line with
  | .error _ => false
  | .ok tokens =>
    match tokens.reverse.find? fun t => !t.kind.isEof with
    | some t => !t.kind.isSymbol .semicolon
    | none => false

/-- A line with its missing semicolon. It is put on a line of its own, so that a comment at the end
does not swallow it. -/
def terminated (line : String) : String :=
  if needsTerminator line then line ++ "\n;" else line

/-- A line without the blanks at its end. -/
def trimmed (line : String) : String :=
  String.ofList (Text.dropBlankEnd line.toList)

/-- Prints the outcome of a line: a result in its source-like form, unless it is `null` or results
are not shown, and a failure with its wording. -/
def report (result : Except Failure Value) (s : Session) : Session :=
  match result with
  | .ok .null => s
  | .ok v => if s.config.echoResults then s.print (v.repr s.legend) else s
  | .error e => s.print s!"error: {e.message s.legend}"

/-- Evaluates a line as it is typed. -/
def evalLine (fuel : Nat) (line : String) (s : Session) : Except Failure Value × Session :=
  let (result, s) := s.eval fuel (terminated (trimmed line))
  (result, s.report result)

/-- Evaluates a line of input unless it is blank, and says whether it fails. -/
def answer (fuel : Nat) (line : String) (s : Session) : Bool × Session :=
  if Text.allBlank line.toList then (false, s)
  else
    match s.evalLine fuel line with
    | (.ok _, s) => (false, s)
    | (.error _, s) => (true, s)

/-- Answers the lines that wait at the console, at most so many of them, and counts the failures
on top of those before. -/
def runLines (fuel : Nat) : (lines failures : Nat) → Session → Nat × Session
  | 0, failures, s => (failures, s)
  | lines + 1, failures, s =>
    match s.machine.console.nextLine with
    | (none, _) => (failures, s)
    | (some line, console) =>
      let s := { s with machine := { s.machine with console } }
      match s.answer fuel line with
      | (false, s) => runLines fuel lines failures s
      | (true, s) => runLines fuel lines (failures + 1) s

/-- Answers the lines that wait at the console, closes it, and gives the number of failures. -/
def run (fuel : Nat) (s : Session) : Nat × Session :=
  let (failures, s) := s.runLines fuel s.machine.console.input.length 0
  (failures, { s with machine := { s.machine with console := s.machine.console.close } })

/-! ### Globals -/

/-- Binds a global name. -/
def setGlobal (name : String) (v : Value) (s : Session) : Session :=
  { s with
    machine := { s.machine with frames := s.machine.frames.setGlobal rootFrame name v } }

/-- The value of a global name. -/
def getGlobal? (name : String) (s : Session) : Option Value :=
  s.machine.frames.getGlobal? rootFrame name

/-- The global names that are not those of builtins, in ascending order. -/
def globalNames (s : Session) : List String :=
  (s.machine.frames.names rootFrame).filter fun n =>
    !(Builtin.all.map Builtin.name).contains n

/-! ### The host -/

/-- A step on the machine outside of any program. -/
def perform {α : Type} (x : Run α) (s : Session) : Except Stop α × Session :=
  let ⟨registry, config, machine⟩ := s
  let (result, machine) := x machine
  (result, ⟨registry, config, machine⟩)

/-- Reads a member of a value. -/
def member (target : Value) (name : String) (s : Session) : Except Stop Value × Session :=
  s.perform (HostAccess.member s.registry target name)

/-- Makes an object without a record in the trace. -/
def constructQuietly (className : String) (args : List Value) (s : Session) :
    Except Stop Value × Session :=
  match s.registry.find? className with
  | none => (.error (.fault (.noHostClass className)), s)
  | some ref =>
    let tracer := s.machine.tracer
    let quiet := { s with machine := { s.machine with tracer := Tracer.disabled } }
    let (result, s) := quiet.perform (HostAccess.construct s.registry ref args)
    (result, { s with machine := { s.machine with tracer } })

/-- Makes an object whose state no class knows, and binds it to a global name. -/
def bindForeign (name : String) (ref : ClassRef) (s : Session) : Value × Session :=
  let (v, world) := s.machine.world.newObject ref .foreign
  let s := { s with machine := { s.machine with world } }
  (v, s.setGlobal name v)

/-! ### The trace -/

/-- Writes the footer of the trace. -/
def finish (success : Bool) (s : Session) : Except TraceError Unit × Session :=
  let (result, tracer) := s.machine.tracer.finalize (if success then "success" else "error")
  (result, { s with machine := { s.machine with tracer } })

/-- The end of a session: a trace that was not finished gets its footer. -/
def close (s : Session) : Session :=
  let (_, tracer) := s.machine.tracer.finalize "unfinished"
  { s with machine := { s.machine with tracer } }

/-- The session, as text. -/
def summary (s : Session) : String :=
  "Shell \x7b rt: Runtime \x7b host: " ++ s.registry.summary
    ++ s!", depth: {s.machine.depth}, max_depth: {s.config.maxCallDepth} \x7d, config: "
    ++ s.config.summary ++ " \x7d"

end Session

end ScriptConsole
