import ScriptConsole.Eval.Machine

/-!
# Host Access During Evaluation

Reading members, following paths, and calling methods and constructors of the host. A call that
has arrived at a callable is traced, whether it succeeds or fails; the record shows the arguments
as they were given, and objects as they are after the call. That a record cannot be written does
not matter to the call.
-/

namespace ScriptConsole.HostAccess

variable (registry : Registry)

/-- The text of a value in the present world. -/
def display (v : Value) : Run String :=
  .look fun m => v.display (registry.legend m.world)

/-- Reads a member of a value. -/
def member (target : Value) (name : String) : Run Value := do
  let result ← .onWorld (registry.member target name)
  .ofExcept result

/-- Reads members one after the other. -/
def members (target : Value) : List String → Run Value
  | [] => pure target
  | name :: rest => do
    let inner ← member registry target name
    members inner rest

/-- The outcome of a call in a trace, when the world is as after the call. -/
def outcome (legend : Legend) : Except HostError Value → TraceOutput
  | .ok v => .ok legend v
  | .error e => .error e.message

/-- Makes the call that has been arrived at, and records it with its arguments as they were given.
-/
def call (target : Registry.Target) (args : List Value) : Run Value :=
  fun ⟨frames, world, console, tracer, depth⟩ =>
    let (result, world) := target.call world
    let tracer :=
      if tracer.sink.isSome then
        let legend := registry.legend world
        (tracer.record target.className target.member (TraceValue.ofValues legend args)
          (outcome legend result)).2
      else tracer
    let machine : Machine := ⟨frames, world, console, tracer, depth⟩
    match result with
    | .ok v => (.ok v, machine)
    | .error e =>
      (.error (.fault (.host (.raised target.className target.member e))), machine)

/-- Calls a method of a class or an object. -/
def invoke (target : Value) (name : String) (args : List Value) : Run Value := do
  let target ← .ofExcept (registry.methodTarget target name args)
  call registry target args

/-- Makes an object of a class. -/
def construct (ref : ClassRef) (args : List Value) : Run Value := do
  let target ← .ofExcept (registry.constructorTarget ref args)
  call registry target args

/-- The value of a path: the class that it starts with, or what the static fields behind it
hold. -/
def readPath (segments : List String) : Run Value := do
  let (ref, used) ← .ofExcept (registry.resolvePath segments)
  members registry (.hostClass ref) (segments.drop used)

/-- A call of a path whose class has been found: a construction if nothing is left of the path, and
a call of its last segment otherwise. -/
def callPath (ref : ClassRef) (path : List String) (args : List Value) : Run Value :=
  match path.getLast? with
  | none => construct registry ref args
  | some name => do
    let target ← members registry (.hostClass ref) path.dropLast
    invoke registry target name args

end ScriptConsole.HostAccess
