import ScriptConsole.Host.Arguments

/-!
# Scripted Classes

An embedder registers classes part by part: constructors, methods and fields, each with what it
does. A scripted class is one that is given as data: signatures, each with an action out of a fixed
list, and fields by their positions. A constructor keeps its converted arguments as the state of the
object. The state of an object that was not made by a scripted constructor counts as empty.

Scripted classes can do all that evaluation takes notice of in a host. They keep functions and lists
and hand them out again, they fail, they change states, and their objects can be gone through.
-/

namespace ScriptConsole.Scripted

/-- What a scripted method does with its converted arguments. -/
inductive Action where
  /-- The list of a tag and the arguments. -/
  | echo (tag : String)
  | fail (text : String)
  | bad (text : String)
  /-- The object itself. -/
  | self
  /-- The state as a list. -/
  | state
  /-- Takes the arguments as the new state. -/
  | set
  | argInt (i : Nat)
  | argFloat (i : Nat)
  | argText (i : Nat)
  /-- The state of an object of a scripted class as a list. -/
  | argObject (i : Nat)
  | nothing

/-- A signature with its action. -/
structure Method where
  name : String
  params : List ParamType
  action : Action

/-- A class given as data. -/
structure ClassSpec where
  name : String
  constructors : List (List ParamType)
  methods : List Method
  statics : List Method
  fields : List (String × Nat)
  staticFields : List (String × Value)
  display : Option String
  iterable : Bool

/-- The scripted state that a state holds. -/
def fields? : ObjectState → Option (List Value)
  | .fields values => some values
  | _ => none

/-- The scripted state that a state holds, or the empty one. -/
def fieldsOf (s : ObjectState) : List Value := (fields? s).getD []

/-- A call that makes a list. -/
def listCall (items : List Value) : HostCall := fun w => HostCall.done (w.newList items)

/-- Does an action. There is no object in a static call. -/
def Action.run (self : Option HostObject) (args : List Value) : Action → HostCall
  | .echo tag => listCall (.text tag :: args)
  | .fail text => .answer (.error (.failed text))
  | .bad text => .answer (.error (.badArgument text))
  | .self => .answer (.ok (match self with
      | some o => .object o.id o.classRef
      | none => .null))
  | .state => fun w =>
    listCall (match self with
      | some o => fieldsOf (w.state o.id)
      | none => []) w
  | .set => fun w =>
    match self with
    | some o =>
      match fields? (w.state o.id) with
      | some _ => (.ok .null, w.setState o.id (.fields args))
      | none => (.ok .null, w)
    | none => (.ok .null, w)
  | .argInt i => .answer ((Arguments.int args i).map .int)
  | .argFloat i => .answer ((Arguments.float args i).map .float)
  | .argText i => .answer ((Arguments.text args i).map .text)
  | .argObject i => fun w =>
    match Arguments.object fields? args i w with
    | .ok values => listCall values w
    | .error e => (.error e, w)
  | .nothing => .answer (.ok .null)

/-- The host class that the data describe. -/
def ClassSpec.toHostClass (spec : ClassSpec) : HostClass :=
  let base := HostClass.named spec.name
  let base := spec.constructors.foldl (fun c params =>
    c.constructor params fun ref args w => HostCall.done (w.newObject ref (.fields args))) base
  let base := spec.methods.foldl (fun c m =>
    c.method m.name m.params fun o args => m.action.run (some o) args) base
  let base := spec.statics.foldl (fun c m =>
    c.static m.name m.params fun args => m.action.run none args) base
  let base := spec.fields.foldl (fun c (name, i) =>
    c.field name fun o w => (((fieldsOf (w.state o.id))[i]?).getD .null, w)) base
  let base := spec.staticFields.foldl (fun c (name, v) => c.staticField name fun w => (v, w)) base
  let base := match spec.display with
    | some text =>
      base.shown fun textOf s =>
        text ++ "[" ++ String.intercalate ", " ((fieldsOf s).map textOf) ++ "]"
    | none => base
  if spec.iterable then base.iterable fieldsOf else base

end ScriptConsole.Scripted
