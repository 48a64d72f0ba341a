import ScriptConsole.Number.Fixed

/-!
# Invocations

What the arguments of the command line ask for: one of three commands with its flags and files, and
two flags that every command has. Arguments are gone through from left to right, and the first that
is out of place decides; a request for help also ends the reading there.

* `--name value` and `--name=value` give a value to a flag. In the first form the value must not
  look like a flag. A flag is given at most once before the command and once behind it, and the
  value behind the command wins.
* Behind `--` every argument is an operand.
* The flags `--help` and `-h` and the command `help` ask for help.
-/

namespace ScriptConsole.CommandLine

/-- How the tree of a program is written. -/
inductive TreeForm where
  | dump
  | json
  deriving DecidableEq, Repr

/-- A flag that takes a value. -/
inductive Flag where
  | maxCallDepth
  | config
  | expr
  | trace
  | globals
  | form
  deriving DecidableEq, Repr

/-- What help is asked about. -/
inductive Topic where
  | program
  | eval
  | repl
  | parse
  | help
  deriving DecidableEq, Repr

/-- Why arguments ask for nothing to be run. -/
inductive Refusal where
  | help (topic : Topic)
  | misuse

/-- A command with what it works on. -/
inductive Command where
  | evalText (source : String) (trace : Option String)
  | evalFile (path : String) (trace : Option String)
  /-- There is nothing to evaluate. -/
  | evalNothing
  | repl (globals : Option String)
  | parse (path : String) (form : TreeForm)

/-- What the arguments ask for. -/
structure Invocation where
  maxCallDepth : Option Nat
  config : Option String
  command : Command

/-! ### Values of flags -/

/-- The form with a name. -/
def TreeForm.ofName? (name : String) : Option TreeForm :=
  if name = "pretty" then some .dump else if name = "json" then some .json else none

/-- The number that some decimal digits write. -/
def decimal? (digits : List Char) : Option Nat :=
  if digits.isEmpty || !digits.all Char.isDigit then none
  else some (digits.foldl (fun n c => 10 * n + (c.toNat - '0'.toNat)) 0)

/-- A depth below the limit. A sign may stand in front, so zero may be negative. -/
def depth? (text : String) : Option Nat :=
  match text.toList with
  | '-' :: digits => (decimal? digits).filter (· = 0)
  | '+' :: digits => (decimal? digits).filter (· < Number.limit32)
  | digits => (decimal? digits).filter (· < Number.limit32)

namespace Flag

/-- The name of a flag, without the dashes. -/
def name : Flag → String
  | maxCallDepth => "max-call-depth"
  | config => "config"
  | expr => "expr"
  | trace => "trace"
  | globals => "globals"
  | form => "format"

/-- Whether a flag can have the value. Paths are not empty. -/
def accepts : Flag → String → Bool
  | maxCallDepth, value => (depth? value).isSome
  | expr, _ => true
  | form, value => (TreeForm.ofName? value).isSome
  | config, value => !value.isEmpty
  | trace, value => !value.isEmpty
  | globals, value => !value.isEmpty

/-- The flags that every command has. -/
def common : List Flag := [maxCallDepth, config]

end Flag

/-! ### Reading arguments -/

/-- An argument by its form. -/
inductive Word where
  /-- `--` -/
  | separator
  /-- `--name` or `--name=value` -/
  | long (name : List Char) (value : Option (List Char))
  /-- `-letters` -/
  | short (letters : List Char)
  | operand

/-- The form of an argument. -/
def Word.ofText (arg : String) : Word :=
  match arg.toList with
  | ['-', '-'] => separator
  | '-' :: '-' :: rest =>
    long (rest.takeWhile (· ≠ '='))
      (if '=' ∈ rest then some ((rest.dropWhile (· ≠ '=')).drop 1) else none)
  | '-' :: c :: rest => short (c :: rest)
  | _ => operand

/-- Whether an argument is an operand by its form, and so can stand as a value behind a flag. -/
def isPlain (arg : String) : Bool :=
  match Word.ofText arg with
  | .operand => true
  | _ => false

/-- What may be given in one part of the command line. -/
structure Usage where
  topic : Topic
  flags : List Flag
  operands : Nat
  /-- Whether the first operand is the name of a command and ends the part. -/
  takesCommand : Bool

/-- What was given in one part of the command line. -/
structure Given where
  values : List (Flag × String)
  operands : List String

namespace Given

/-- The value of a flag. -/
def value? (g : Given) (flag : Flag) : Option String :=
  (g.values.find? fun e => e.1 = flag).map Prod.snd

/-- One more value for a flag. -/
def withValue (g : Given) (flag : Flag) (value : String) : Except Refusal Given :=
  if (g.value? flag).isSome || !flag.accepts value then .error .misuse
  else .ok { g with values := g.values ++ [(flag, value)] }

/-- One more operand. -/
def withOperand (u : Usage) (g : Given) (arg : String) : Except Refusal Given :=
  if g.operands.length < u.operands && !arg.isEmpty then
    .ok { g with operands := g.operands ++ [arg] }
  else .error .misuse

end Given

/-- The flag of a name. -/
def Usage.flag? (u : Usage) (name : List Char) : Option Flag :=
  u.flags.find? fun f => f.name.toList = name

/-- Reads one part of the command line and gives the arguments behind it, the first of which is the
name of a command. -/
def Usage.read (u : Usage) (g : Given) : List String → Except Refusal (Given × List String)
  | [] => .ok (g, [])
  | arg :: rest =>
    match Word.ofText arg with
    | .separator =>
      match rest.foldlM (Given.withOperand u) g with
      | .ok g => .ok (g, [])
      | .error e => .error e
    | .short letters => .error (if letters.head? = some 'h' then .help u.topic else .misuse)
    | .operand =>
      if u.takesCommand then .ok (g, arg :: rest)
      else
        match g.withOperand u arg with
        | .ok g => u.read g rest
        | .error e => .error e
    | .long name (some value) =>
      match u.flag? name with
      | none => .error .misuse
      | some flag =>
        match g.withValue flag (String.ofList value) with
        | .ok g => u.read g rest
        | .error e => .error e
    | .long name none =>
      match u.flag? name, rest with
      | none, _ => .error (if name = "help".toList then .help u.topic else .misuse)
      | some _, [] => .error .misuse
      | some flag, value :: rest =>
        if isPlain value then
          match g.withValue flag value with
          | .ok g => u.read g rest
          | .error e => .error e
        else .error .misuse

/-! ### The commands -/

namespace Usage

/-- What stands before the command. -/
def program : Usage := ⟨.program, Flag.common, 0, true⟩

/-- What stands behind `eval`. -/
def eval : Usage := ⟨.eval, Flag.common ++ [.expr, .trace], 1, false⟩

/-- What stands behind `repl`. -/
def repl : Usage := ⟨.repl, Flag.common ++ [.globals], 0, false⟩

/-- What stands behind `parse`. -/
def parse : Usage := ⟨.parse, Flag.common ++ [.form], 1, false⟩

/-- The command with a name. -/
def ofCommand? (name : String) : Option Usage :=
  if name = "eval" then some eval
  else if name = "repl" then some repl
  else if name = "parse" then some parse
  else none

end Usage

/-- The command of what stands behind its name. -/
def Command.ofGiven (topic : Topic) (g : Given) : Except Refusal Command :=
  match topic with
  | .eval =>
    let trace := g.value? .trace
    match g.value? .expr, g.operands with
    | some source, [] => .ok (.evalText source trace)
    | some _, _ => .error .misuse
    | none, path :: _ => .ok (.evalFile path trace)
    | none, [] => .ok .evalNothing
  | .repl => .ok (.repl (g.value? .globals))
  | .parse =>
    match g.operands with
    | path :: _ => .ok (.parse path (((g.value? .form).bind TreeForm.ofName?).getD .dump))
    | [] => .error .misuse
  | _ => .error .misuse

/-- What the arguments behind the command `help` ask for. -/
def Topic.ofArgs : List String → Refusal
  | [] => .help .program
  | [name] =>
    match Usage.ofCommand? name with
    | some u => .help u.topic
    | none => if name = "help" then .help .help else .misuse
  | _ => .misuse

/-- What some arguments ask for. -/
def Invocation.ofArgs (args : List String) : Except Refusal Invocation :=
  match Usage.program.read ⟨[], []⟩ args with
  | .error e => .error e
  | .ok (_, []) => .error .misuse
  | .ok (before, name :: rest) =>
    match Usage.ofCommand? name with
    | none => .error (if name = "help" then Topic.ofArgs rest else .misuse)
    | some usage => do
      let (behind, _) ← usage.read ⟨[], []⟩ rest
      let command ← Command.ofGiven usage.topic behind
      let value? (flag : Flag) := (behind.value? flag).or (before.value? flag)
      return ⟨(value? .maxCallDepth).bind depth?, value? .config, command⟩

end ScriptConsole.CommandLine
