import ScriptConsole.Value.Fault

/-!
# Overloads

A member of a host class may have several signatures. A call looks for the ones with as many
parameters as there are arguments, each of which accepts its argument, and takes the cheapest: an
argument of exactly the declared kind costs nothing, a widening costs 1, and a parameter of any
kind costs 2. The callable then gets its arguments converted to the declared kinds. That there is
none, or no single cheapest one, is an error.
-/

namespace ScriptConsole

/-- The declared kind of a parameter. -/
inductive ParamType where
  | any
  | bool
  | int
  | long
  | float
  | char
  | text
  | list
  | function
  | hostClass
  /-- An object of the named class. -/
  | object (className : String)
  deriving DecidableEq, Repr

/-- One signature of a member, with what it stands for. -/
structure Overload (φ : Type) where
  params : List ParamType
  callable : φ

namespace ParamType

/-- The cost and the converted value of an argument, if the parameter accepts it. -/
def accept : ParamType → Value → Option (Nat × Value)
  | any, v => some (2, v)
  | bool, .bool b => some (0, .bool b)
  | int, .int n => some (0, .int n)
  | long, .long n => some (0, .long n)
  | float, .float x => some (0, .float x)
  | char, .char c => some (0, .char c)
  | text, .text s => some (0, .text s)
  | list, .list i items => some (0, .list i items)
  | function, .function f => some (0, .function f)
  | function, .builtin b => some (0, .builtin b)
  | hostClass, .hostClass c => some (0, .hostClass c)
  | object name, .object o c => if c.name = name then some (0, .object o c) else none
  | long, .int n => some (1, .long n.toInt64)
  | float, .int n => some (1, .float (Number.Binary64.ofInt n.toInt))
  | float, .long n => some (1, .float (Number.Binary64.ofInt n.toInt))
  | text, .char c => some (1, .text (String.singleton c))
  | text, .null => some (1, .null)
  | object _, .null => some (1, .null)
  | function, .null => some (1, .null)
  | list, .null => some (1, .null)
  | hostClass, .null => some (1, .null)
  | _, _ => none

end ParamType

/-- The total cost and the converted values of arguments, if a signature of as many parameters
accepts them. -/
def acceptAll : List ParamType → List Value → Option (Nat × List Value)
  | [], [] => some (0, [])
  | p :: params, v :: args =>
    match p.accept v, acceptAll params args with
    | some (cost, v), some (total, args) => some (cost + total, v :: args)
    | _, _ => none
  | _, _ => none

/-- A candidate that accepts the arguments. -/
structure Applicable (φ : Type) where
  cost : Nat
  callable : φ
  args : List Value

/-- The cheapest candidate seen so far, and whether another costs the same. -/
structure Cheapest (φ : Type) where
  best : Applicable φ
  tied : Bool

/-- The cheapest candidate after one more. -/
def Cheapest.update {φ : Type} (seen : Option (Cheapest φ)) (next : Applicable φ) :
    Option (Cheapest φ) :=
  match seen with
  | none => some ⟨next, false⟩
  | some c =>
    if c.best.cost < next.cost then some c
    else if c.best.cost = next.cost then some { c with tied := true }
    else some ⟨next, false⟩

/-- The candidates that accept the arguments. -/
def applicable {φ : Type} (candidates : List (Overload φ)) (args : List Value) :
    List (Applicable φ) :=
  candidates.filterMap fun c =>
    (acceptAll c.params args).map fun (cost, converted) => ⟨cost, c.callable, converted⟩

/-- The overload that a call takes, with its converted arguments. `what` names the member in
errors. -/
def selectOverload {φ : Type} (what : String) (candidates : List (Overload φ))
    (args : List Value) : Except HostFault (φ × List Value) :=
  match (applicable candidates args).foldl Cheapest.update none with
  | none => .error (.noOverload what (args.map Value.kind))
  | some ⟨best, tied⟩ =>
    if tied then .error (.ambiguous what (args.map Value.kind))
    else .ok (best.callable, best.args)

end ScriptConsole
