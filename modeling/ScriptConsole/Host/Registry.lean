import ScriptConsole.Host.Overload
import ScriptConsole.Host.World
import Std.Data.TreeMap.Basic

/-!
# Host Classes and Their Registry

A host class is described by its constructors, methods, static methods and fields, each of them a
function on the host world. A registry gives classes numbers and finds them by their dotted names.
A class that is registered under a name in use takes the name over; objects made before keep their
class.

How an object shows itself may involve other values, and so other objects. An object in whose text
it would itself occur has no text; `Registry.describe` therefore follows at most as many objects as
there are, and shows the rest by the names of their classes.
-/

namespace ScriptConsole

/-- What a host callable does: its result, and the world after it. -/
abbrev HostCall := World → Except HostError Value × World

/-- An object of the host with its class. -/
structure HostObject where
  id : ObjectId
  classRef : ClassRef

/-- A class of the host. -/
structure HostClass where
  name : String
  constructors : List (Overload (ClassRef → List Value → HostCall)) := []
  methods : Std.TreeMap String (List (Overload (HostObject → List Value → HostCall))) := ∅
  statics : Std.TreeMap String (List (Overload (List Value → HostCall))) := ∅
  fields : Std.TreeMap String (HostObject → World → Value × World) := ∅
  staticFields : Std.TreeMap String (World → Value × World) := ∅
  /-- The text of an object, given how other values are shown. -/
  display : Option ((Value → String) → ObjectState → String) := none
  /-- The items of an object, if it can be gone through. -/
  elements : Option (ObjectState → List Value) := none

namespace HostClass

/-- A class without members. -/
def named (name : String) : HostClass := { name }

/-- A class with one more constructor. -/
def constructor (c : HostClass) (params : List ParamType)
    (run : ClassRef → List Value → HostCall) : HostClass :=
  { c with constructors := c.constructors ++ [⟨params, run⟩] }

/-- A class with one more method. -/
def method (c : HostClass) (name : String) (params : List ParamType)
    (run : HostObject → List Value → HostCall) : HostClass :=
  { c with methods := c.methods.insert name ((c.methods.getD name []) ++ [⟨params, run⟩]) }

/-- A class with one more static method. -/
def static (c : HostClass) (name : String) (params : List ParamType)
    (run : List Value → HostCall) : HostClass :=
  { c with statics := c.statics.insert name ((c.statics.getD name []) ++ [⟨params, run⟩]) }

/-- A class with a field. -/
def field (c : HostClass) (name : String) (read : HostObject → World → Value × World) :
    HostClass :=
  { c with fields := c.fields.insert name read }

/-- A class with a static field. -/
def staticField (c : HostClass) (name : String) (read : World → Value × World) : HostClass :=
  { c with staticFields := c.staticFields.insert name read }

/-- A class whose objects show themselves. -/
def shown (c : HostClass) (display : (Value → String) → ObjectState → String) : HostClass :=
  { c with display := some display }

/-- A class whose objects can be gone through. -/
def iterable (c : HostClass) (elements : ObjectState → List Value) : HostClass :=
  { c with elements := some elements }

/-- Names between quotes and brackets. -/
def nameList (names : List String) : String :=
  "[" ++ String.intercalate ", " (names.map Text.quotedText) ++ "]"

/-- The name and the methods of a class, as text. -/
def summary (c : HostClass) : String :=
  "HostClass \x7b name: " ++ Text.quotedText c.name ++ ", methods: " ++ nameList c.methods.keys
    ++ ", static_methods: " ++ nameList c.statics.keys ++ " \x7d"

end HostClass

/-- The classes that have been registered, and the names in use. -/
structure Registry where
  classes : Array HostClass
  byName : Std.TreeMap String ClassRef

namespace Registry

/-- The name of the class of caught errors. -/
def errorClassName : String := "devcon.Error"

/-- No classes. -/
def empty : Registry := ⟨#[], ∅⟩

/-- The class that values refer to. -/
def hostClass (r : Registry) (c : ClassRef) : HostClass :=
  r.classes.getD c.id (.named c.name)

/-- Registers a class under its name. -/
def register (r : Registry) (c : HostClass) : Registry :=
  ⟨r.classes.push c, r.byName.insert c.name ⟨r.classes.size, c.name⟩⟩

/-- The class of caught errors. -/
def errorClass : HostClass :=
  let kindOf : ObjectState → Value
    | .error kind _ => .text kind
    | _ => .null
  let messageOf : ObjectState → Value
    | .error _ message => .text message
    | _ => .null
  (HostClass.named errorClassName)
    |>.field "kind" (fun o w => (kindOf (w.state o.id), w))
    |>.field "message" (fun o w => (messageOf (w.state o.id), w))
    |>.shown fun _ s =>
      match s with
      | .error kind message => s!"{kind}: {message}"
      | _ => s!"<{errorClassName}>"

/-- The registry with nothing but the class of caught errors. -/
def basic : Registry := empty.register errorClass

/-- The class with a name. -/
def find? (r : Registry) (name : String) : Option ClassRef := r.byName[name]?

/-- The classes in use, in the order of their names. -/
def names (r : Registry) : List String := r.byName.keys

/-- The names of the classes, as text. -/
def summary (r : Registry) : String :=
  "HostRegistry \x7b classes: " ++ HostClass.nameList r.names ++ " \x7d"

/-! ### How objects show themselves -/

/-- The text of an object in which at most `depth` objects are followed. -/
def describe (r : Registry) (w : World) : (depth : Nat) → ObjectId → ClassRef → String
  | 0, _, c => "<" ++ c.name ++ ">"
  | depth + 1, o, c =>
    match (r.hostClass c).display with
    | some display => display (fun v => v.repr (describe r w depth)) (w.state o)
    | none => "<" ++ c.name ++ ">"

/-- How objects are shown in a world. -/
def legend (r : Registry) (w : World) : Legend :=
  r.describe w (w.objects.size + 1)

/-- The items of an object, if it can be gone through. -/
def elements? (r : Registry) (w : World) (o : ObjectId) (c : ClassRef) : Option (List Value) :=
  (r.hostClass c).elements.map fun elements => elements (w.state o)

/-! ### Paths -/

/-- The longest of the first `n` prefixes of a path that names a class, with its length. -/
def resolvePrefix (r : Registry) (segments : List String) : (n : Nat) → Option (ClassRef × Nat)
  | 0 => none
  | n + 1 =>
    match r.find? (String.intercalate "." (segments.take (n + 1))) with
    | some c => some (c, n + 1)
    | none => resolvePrefix r segments n

/-- The class named by the longest possible prefix of a path, with the number of segments in
that prefix. -/
def resolvePath (r : Registry) (segments : List String) : Except EvalError (ClassRef × Nat) :=
  match r.resolvePrefix segments segments.length with
  | some found => .ok found
  | none => .error (.noHostPath segments)

/-! ### Members -/

/-- The error of reading a member that is no field. -/
def missingMember (c : HostClass) (name : String) (isMethod : Bool) : EvalError :=
  if isMethod then .host (.isMethod c.name name) else .host (.noField c.name name)

/-- Reads a static field of a class. -/
def staticMember (c : HostClass) (name : String) (isMethod : Bool) (w : World) :
    Except EvalError Value × World :=
  match c.staticFields[name]? with
  | some read => let (v, w) := read w; (.ok v, w)
  | none => (.error (missingMember c name isMethod), w)

/-- Reads a field: a static one of a class, one of an object or else a static one of its class. -/
def member (r : Registry) (target : Value) (name : String) (w : World) :
    Except EvalError Value × World :=
  match target with
  | .hostClass ref =>
    let c := r.hostClass ref
    staticMember c name (c.statics.contains name) w
  | .object o ref =>
    let c := r.hostClass ref
    match c.fields[name]? with
    | some read => let (v, w) := read ⟨o, ref⟩ w; (.ok v, w)
    | none =>
      staticMember c name (c.methods.contains name || c.statics.contains name) w
  | other => (.error (.type (.memberOf name other.kind)), w)

/-- A host callable that a call has arrived at: the names under which it is traced, and what it does
with its converted arguments. -/
structure Target where
  className : String
  member : String
  call : HostCall

/-- The callable that a call picks from overloads; `run` starts it. -/
def pick {φ : Type} (c : HostClass) (member what : String) (candidates : List (Overload φ))
    (args : List Value) (run : φ → List Value → HostCall) : Except EvalError Target :=
  match selectOverload what candidates args with
  | .error fault => .error (.host fault)
  | .ok (callable, converted) => .ok ⟨c.name, member, run callable converted⟩

/-- The callable that a call picks from the static methods of a class. -/
def staticTarget (c : HostClass) (member : String) (args : List Value) :
    Except EvalError Target :=
  match c.statics[member]? with
  | some candidates =>
    pick c member s!"{c.name}.{member}" candidates args fun run converted => run converted
  | none => .error (.host (.noMethod c.name member))

/-- The callable of a method call: a static method of a class, a method of an object or else a
static method of its class. -/
def methodTarget (r : Registry) (target : Value) (member : String) (args : List Value) :
    Except EvalError Target :=
  match target with
  | .hostClass ref => staticTarget (r.hostClass ref) member args
  | .object o ref =>
    let c := r.hostClass ref
    match c.methods[member]? with
    | some candidates =>
      pick c member s!"{c.name}.{member}" candidates args fun run => run ⟨o, ref⟩
    | none => staticTarget c member args
  | other => .error (.type (.methodOf member other.kind))

/-- The name under which constructions are traced. -/
def constructorName : String := "new"

/-- The callable of a construction. -/
def constructorTarget (r : Registry) (ref : ClassRef) (args : List Value) :
    Except EvalError Target :=
  let c := r.hostClass ref
  if c.constructors.isEmpty then .error (.host (.noConstructor c.name))
  else pick c constructorName c.name c.constructors args fun run => run ref

/-- The object that wraps an error for a handler. -/
def errorObject (r : Registry) (e : EvalError) (w : World) : Value × World :=
  let state := ObjectState.error e.kind (e.message (r.legend w))
  w.newObject ((r.find? errorClassName).getD ⟨r.classes.size, errorClassName⟩) state

end Registry

end ScriptConsole
