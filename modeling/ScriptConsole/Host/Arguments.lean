import ScriptConsole.Host.Registry

/-!
# Arguments of Host Callables

A callable asks for its arguments by position and kind. Overload selection has converted them to
the declared kinds already, so asking for another kind than the declared one, or for an argument
that is not there, is an error of the callable.
-/

namespace ScriptConsole.Arguments

/-- The error of an argument of another kind than asked for. -/
def mismatch (i : Nat) (want : String) (found : Option Value) : HostError :=
  let got := match found with
    | some v => v.kind.name
    | none => "nothing"
  .badArgument s!"argument {i + 1} should be {want}, got {got}"

/-- An argument as an integer. -/
def int (args : List Value) (i : Nat) : Except HostError Int32 :=
  match args[i]? with
  | some (.int n) => .ok n
  | other => .error (mismatch i "int" other)

/-- An argument as a double, which any number is. -/
def float (args : List Value) (i : Nat) : Except HostError Float :=
  match args[i]?.bind Value.toFloat? with
  | some x => .ok x
  | none => .error (mismatch i "float" args[i]?)

/-- An argument as a text. -/
def text (args : List Value) (i : Nat) : Except HostError String :=
  match args[i]? with
  | some (.text s) => .ok s
  | other => .error (mismatch i "string" other)

/-- An argument as an object whose state `view` understands. -/
def object {α : Type} (view : ObjectState → Option α) (args : List Value) (i : Nat) (w : World) :
    Except HostError α :=
  match args[i]? with
  | some (.object o c) =>
    match view (w.state o) with
    | some a => .ok a
    | none => .error (mismatch i c.name (some (.object o c)))
  | other => .error (mismatch i "object" other)

end ScriptConsole.Arguments

namespace ScriptConsole.HostCall

/-- A call that leaves the world as it is. -/
def answer (result : Except HostError Value) : HostCall := fun w => (result, w)

/-- A call that leaves the world as it is, and looks at it. -/
def inspect (result : World → Except HostError Value) : HostCall := fun w => (result w, w)

/-- A call that has succeeded. -/
def done (result : Value × World) : Except HostError Value × World := (.ok result.1, result.2)

end ScriptConsole.HostCall
