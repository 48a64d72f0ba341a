import ScriptConsole.CommandLine
import Std.Time.DateTime.PlainDateTime
import Std.Time.DateTime.Timestamp

/-!
# The Program

The outer layer: files, standard input and output, the clock, and the exit code. Lines of input are
answered one by one as they come in.
-/

namespace ScriptConsole.CommandLine

/-- The budget of steps for one source text, far beyond what any run takes. -/
def budget : Nat := 1000000000000000000

/-- The wording of a failure of the system. -/
def systemWording : IO.Error → String
  | .noFileOrDirectory _ _ _ => "No such file or directory (os error 2)"
  | .permissionDenied _ _ _ => "Permission denied (os error 13)"
  | .inappropriateType _ code _ =>
    if code = 21 then "Is a directory (os error 21)" else "Not a directory (os error 20)"
  | e => toString e

/-- Access to the files of the system. -/
def systemFiles : FileAccess IO where
  read path := do
    try return .ok (← IO.FS.readFile path)
    catch e => return .error (systemWording e)
  create path := do
    try return .ok (← IO.FS.writeFile path "")
    catch e => return .error (systemWording e)

/-- The moment of the call, in the form of ISO 8601 with milliseconds. -/
def now : IO String := do
  let moment ← Std.Time.Timestamp.now
  let t := Std.Time.PlainDateTime.ofWallTime (.ofDuration moment.val)
  let padded (width : Nat) (n : Int) : String :=
    let digits := toString n.toNat
    String.ofList (List.replicate (width - digits.length) '0') ++ digits
  let date := s!"{padded 4 t.year}-{padded 2 t.month.val}-{padded 2 t.day.val}"
  let time := s!"{padded 2 t.hour.val}:{padded 2 t.minute.val}:{padded 2 t.second.val}"
  return s!"{date}T{time}.{padded 3 (t.nanosecond.val / 1000000)}Z"

/-- Writes lines. -/
def writeLines (stream : IO.FS.Stream) (lines : List String) : IO Unit := do
  for line in lines do
    stream.putStrLn line
  stream.flush

/-- Writes what a report says. -/
def writeReport (r : Report) : IO UInt32 := do
  writeLines (← IO.getStdout) r.output
  match r.trace with
  | some (path, lines) => IO.FS.writeFile path (String.join (lines.map fun l => l ++ "\n"))
  | none => pure ()
  writeLines (← IO.getStderr) r.errors
  return r.code

/-- The bytes up to the next newline or the end of the input, behind those in `line`, which has the
last byte first. -/
partial def lineBytes (input : IO.FS.Stream) (line : List UInt8) : IO (List UInt8) := do
  match (← input.read 1).toList with
  | [] => return line.reverse
  | b :: _ => if b = Text.newline then return (b :: line).reverse else lineBytes input (b :: line)

/-- Answers lines of input as they come in. -/
partial def converse (input output : IO.FS.Stream) (s : Session) : IO Unit := do
  match Text.inputLines (← lineBytes input []) with
  | [] => return
  | line :: _ =>
    let (_, s) := s.answer budget line
    writeLines output s.machine.console.output.toList
    converse input output
      { s with machine := { s.machine with console := s.machine.console.clear } }

/-- Answers the lines of the standard input. -/
def runConsole (i : Invocation) (globals : Option String) : IO UInt32 := do
  let prepared ← (do
    let config ← settings systemFiles i.maxCallDepth i.config
    openSession systemFiles config globals (Console.ofInput []) : Preparation IO Session).run
  match prepared with
  | .error t => writeReport (.failed t)
  | .ok s =>
    converse (← IO.getStdin) (← IO.getStdout) s
    return 0

/-- Does what some arguments ask for. -/
def run (args : List String) : IO UInt32 := do
  match Invocation.ofArgs args with
  | .error (.help topic) =>
    writeLines (← IO.getStdout) topic.lines
    return 0
  | .error .misuse =>
    writeLines (← IO.getStderr) Topic.misuse
    return 2
  | .ok i =>
    match i.command with
    | .repl globals => runConsole i globals
    | _ => writeReport (← report systemFiles budget (← now) [] i)

end ScriptConsole.CommandLine

/-- The program. -/
def main (args : List String) : IO UInt32 := ScriptConsole.CommandLine.run args
