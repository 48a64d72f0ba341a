import ScriptConsole.Host.Arguments
import ScriptConsole.Number.Fixed

/-!
# The Demo World

A small host for trying the console out: points of the plane (`game.Vec2`), players (`game.Player`)
and a few functions on numbers (`std.Math`).

A player starts at the origin with full health. Damage never takes the health below zero and healing
never above the maximum; a player without health is not alive.
-/

namespace ScriptConsole.Demo

/-- The greatest health of a player. -/
def maxHealth : Int := 100

/-- A whole number brought into the range of a player's health. -/
def clampHealth (n : Int) : Int32 := Int32.ofInt (max 0 (min maxHealth n))

/-- The 32-bit integer that is next to a whole number. -/
def saturated (n : Int) : Int32 := Int32.ofInt (max (-2147483648) (min 2147483647 n))

/-! ### Points -/

/-- The name of the class of points. -/
def vec2Name : String := "game.Vec2"

/-- The point that a state holds. -/
def vec2? : ObjectState → Option Vec2
  | .vec2 v => some v
  | _ => none

/-- The point that a state holds, or the origin. -/
def vec2Of (s : ObjectState) : Vec2 := (vec2? s).getD ⟨0, 0⟩

/-- Makes a point of a class. -/
def newVec2 (c : ClassRef) (v : Vec2) : HostCall := fun w => HostCall.done (w.newObject c (.vec2 v))

/-- Goes on with a result, or fails with its error. -/
def given {α : Type} (result : Except HostError α) (next : α → HostCall) : HostCall :=
  match result with
  | .ok a => next a
  | .error e => .answer (.error e)

/-- The point with the coordinates given as the first two arguments. -/
def vec2Arguments (args : List Value) : Except HostError Vec2 := do
  let x ← Arguments.float args 0
  let y ← Arguments.float args 1
  return ⟨x, y⟩

/-- The point given as the first argument. -/
def vec2Argument (args : List Value) : World → Except HostError Vec2 :=
  Arguments.object vec2? args 0

/-- Points: their coordinates, sum, scaling and length. -/
def vec2Class : HostClass :=
  (HostClass.named vec2Name)
    |>.constructor [.float, .float] (fun c args => given (vec2Arguments args) (newVec2 c))
    |>.field "x" (fun o w => (.float (vec2Of (w.state o.id)).x, w))
    |>.field "y" (fun o w => (.float (vec2Of (w.state o.id)).y, w))
    |>.method "add" [.object vec2Name] (fun o args w =>
        given (vec2Argument args w)
          (fun b => newVec2 o.classRef ((vec2Of (w.state o.id)).add b)) w)
    |>.method "scale" [.float] (fun o args w =>
        given (Arguments.float args 0)
          (fun k => newVec2 o.classRef ((vec2Of (w.state o.id)).scale k)) w)
    |>.method "length" [] (fun o _ => .inspect fun w =>
        let v := vec2Of (w.state o.id)
        .ok (.float (Number.Binary64.hypotenuse v.x v.y)))
    |>.shown (fun _ s =>
        let v := vec2Of s
        s!"Vec2({Number.displayFloat v.x}, {Number.displayFloat v.y})")
    |>.iterable (fun s =>
        let v := vec2Of s
        [.float v.x, .float v.y])

/-! ### Players -/

/-- The name of the class of players. -/
def playerName : String := "game.Player"

/-- The player that a state holds. -/
def player? : ObjectState → Option Player
  | .player p => some p
  | _ => none

/-- The player that an object is, or the error that it is none. -/
def playerOf (o : HostObject) (w : World) : Except HostError Player :=
  match player? (w.state o.id) with
  | some p => .ok p
  | none => .error (.failed s!"{o.classRef.name} is not a player")

/-- Makes a player. -/
def newPlayer (c : ClassRef) (args : List Value) : HostCall :=
  given (Arguments.text args 0) fun name w =>
    if name.isEmpty then (.error (.badArgument "player name is empty"), w)
    else
      HostCall.done ({ w with players := w.players + 1 }.newObject c
        (.player ⟨name, clampHealth maxHealth, ⟨0, 0⟩⟩))

/-- Gives an object that is a player another health, which is the result. -/
def setHealth (o : HostObject) (p : Player) (health : Int32) : HostCall := fun w =>
  (.ok (.int health), w.setState o.id (.player { p with health }))

/-- Takes health away. -/
def damage (o : HostObject) (args : List Value) : HostCall := fun w =>
  given (playerOf o w) (fun p =>
    given (Arguments.int args 0) fun amount =>
      if amount < 0 then .answer (.error (.badArgument "damage must not be negative"))
      else setHealth o p (max 0 (saturated (p.health.toInt - amount.toInt)))) w

/-- Gives health back. -/
def heal (o : HostObject) (args : List Value) : HostCall := fun w =>
  given (playerOf o w) (fun p =>
    given (Arguments.int args 0) fun amount =>
      setHealth o p (clampHealth (saturated (p.health.toInt + amount.toInt)).toInt)) w

/-- Moves a player; the result is the new position, a point of the given class. -/
def move (vec2Ref : ClassRef) (o : HostObject) (delta : Vec2) : HostCall := fun w =>
  given (playerOf o w) (fun p w =>
    let position := p.position.add delta
    newVec2 vec2Ref position (w.setState o.id (.player { p with position }))) w

/-- A field of players; of other states it is `null`. -/
def playerField (read : Player → Value) (o : HostObject) (w : World) : Value × World :=
  match player? (w.state o.id) with
  | some p => (read p, w)
  | none => (.null, w)

/-- Players: their fields, damage, healing and moves, and how many have been made. -/
def playerClass (vec2Ref : ClassRef) : HostClass :=
  (HostClass.named playerName)
    |>.constructor [.text] newPlayer
    |>.static "count" [] (fun _ => .inspect fun w => .ok (.int (Int32.ofNat w.players)))
    |>.field "name" (playerField fun p => .text p.name)
    |>.field "health" (playerField fun p => .int p.health)
    |>.field "alive" (fun o w =>
        match player? (w.state o.id) with
        | some p => (.bool (p.health > 0), w)
        | none => (.bool false, w))
    |>.field "position" (fun o w =>
        match player? (w.state o.id) with
        | some p => w.newObject vec2Ref (.vec2 p.position)
        | none => (.null, w))
    |>.method "damage" [.int] damage
    |>.method "heal" [.int] heal
    |>.method "moveBy" [.float, .float] (fun o args => given (vec2Arguments args) (move vec2Ref o))
    |>.method "moveBy" [.object vec2Name]
        (fun o args w => given (vec2Argument args w) (move vec2Ref o) w)
    |>.shown (fun _ s =>
        match player? s with
        | some p => s!"<Player {p.name} hp={p.health.toInt}>"
        | none => s!"<{playerName}>")

/-! ### Numbers -/

/-- The name of the class of functions on numbers. -/
def mathName : String := "std.Math"

/-- The ratio of a circle's circumference to its diameter. -/
def pi : Float := Float.ofBits 0x400921FB54442D18

/-- The greater of two doubles. A NaN loses against any number. -/
def maxFloat (x y : Float) : Float :=
  if x.isNaN then y else if y > x then y else x

/-- The sign of a double as a double. -/
def signFloat (x : Float) : Float :=
  if x == 0 then 0 else if x.isNaN then x else if x < 0 then -1 else 1

/-- The sign of an integer. -/
def signInt64 (n : Int64) : Int64 := if n < 0 then -1 else if n == 0 then 0 else 1

/-- Functions on numbers, most of them with a signature for integers and one for doubles. -/
def mathClass : HostClass :=
  (HostClass.named mathName)
    |>.staticField "PI" (fun w => (.float pi, w))
    |>.static "abs" [.int] (fun args => .answer do
        let n ← Arguments.int args 0
        match Number.int32? n.toInt.natAbs with
        | some m => .ok (.int m)
        | none => .error (.failed "abs overflows int"))
    |>.static "abs" [.float] (fun args => .answer do
        let x ← Arguments.float args 0
        .ok (.float x.abs))
    |>.static "max" [.int, .int] (fun args => .answer do
        let m ← Arguments.int args 0
        let n ← Arguments.int args 1
        .ok (.int (if m < n then n else m)))
    |>.static "max" [.float, .float] (fun args => .answer do
        let x ← Arguments.float args 0
        let y ← Arguments.float args 1
        .ok (.float (maxFloat x y)))
    |>.static "sign" [.long] (fun args => .answer <|
        .ok (.long (signInt64 ((args.head?.bind Value.toInt64?).getD 0))))
    |>.static "sign" [.float] (fun args => .answer do
        let x ← Arguments.float args 0
        .ok (.float (signFloat x)))
    |>.static "sqrt" [.float] (fun args => .answer do
        let x ← Arguments.float args 0
        if x < 0 then
          .error (.failed s!"sqrt of negative number {Number.FloatLayout.plain.write x}")
        else .ok (.float x.sqrt))

/-! ### The registry -/

/-- The registry with the classes of the demo world. -/
def registry : Registry :=
  let basic := Registry.basic.register vec2Class
  let vec2Ref := (basic.find? vec2Name).getD ⟨0, vec2Name⟩
  (basic.register (playerClass vec2Ref)).register mathClass

end ScriptConsole.Demo
