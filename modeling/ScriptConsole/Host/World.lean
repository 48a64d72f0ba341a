import ScriptConsole.Value

/-!
# The Host World

Everything of the host that calls can see and change: the objects with their hidden states, how
many players have been made, and the supply of identities for lists and functions. Objects are
never given up, so the number of an object is its place in the order of their making.
-/

namespace ScriptConsole

/-- A point or a displacement in the plane. -/
structure Vec2 where
  x : Float
  y : Float

namespace Vec2

/-- The sum, coordinate by coordinate. -/
def add (a b : Vec2) : Vec2 := ⟨a.x + b.x, a.y + b.y⟩

/-- Both coordinates times a factor. -/
def scale (a : Vec2) (k : Float) : Vec2 := ⟨a.x * k, a.y * k⟩

end Vec2

/-- A player of the game. -/
structure Player where
  name : String
  health : Int32
  position : Vec2

/-- The hidden state of a host object. -/
inductive ObjectState where
  | vec2 (v : Vec2)
  | player (p : Player)
  /-- A caught error. -/
  | error (kind message : String)
  /-- The fields of an object of a scripted class. -/
  | fields (values : List Value)
  /-- A state that no class knows. -/
  | foreign

/-- The state of the host. -/
structure World where
  objects : Array ObjectState
  players : Nat
  nextIdentity : Identity

namespace World

/-- The world before anything was made. -/
def empty : World := ⟨#[], 0, 0⟩

/-- The hidden state of an object. -/
def state (w : World) (o : ObjectId) : ObjectState := w.objects.getD o .foreign

/-- Makes an object. -/
def newObject (w : World) (c : ClassRef) (s : ObjectState) : Value × World :=
  (.object w.objects.size c, { w with objects := w.objects.push s })

/-- Changes the hidden state of an object. -/
def setState (w : World) (o : ObjectId) (s : ObjectState) : World :=
  { w with objects := w.objects.setIfInBounds o s }

/-- Makes a list. -/
def newList (w : World) (items : List Value) : Value × World :=
  (.list w.nextIdentity items, { w with nextIdentity := w.nextIdentity + 1 })

/-- Makes a function. -/
def newFunction (w : World) (params : List String) (body : List Expr) (frame : FrameId) :
    Value × World :=
  (.function ⟨w.nextIdentity, params, body, frame⟩, { w with nextIdentity := w.nextIdentity + 1 })

end World

end ScriptConsole
