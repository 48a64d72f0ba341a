import ScriptConsole.Eval.HostAccess
import ScriptConsole.Host.Demo
import ScriptConsole.Proofs.Host.Callables
import ScriptConsole.Proofs.Tracing.Ledger

/-!
# The Players of the Demo World

A script reaches the demo world by four kinds of requests: it makes objects, calls methods and
static methods, and reads fields. A request that succeeds does one of a few things to the world
(`Demo.Deed`): it looks, makes a point, makes a player, or changes the health or the position of one
player. A request that fails does nothing, whether no callable was found for it or a callable has
refused its arguments, because a callable asks for all of them before it changes anything.

What one request keeps, every sequence of requests keeps: no health leaves its range, and the number
of players that the class of players tells is that of those who have been made.

## Main results

* `Demo.Deed.healthy`, `Demo.Deed.players_eq`: what each of these deeds keeps and counts.
* `Demo.plays_registry`: the callables and fields of the demo world do nothing else.
* `Demo.Request.proper`: one request.
* `Demo.players_stay_valid`: every sequence of them.
-/

namespace ScriptConsole

/-! ### Worlds -/

namespace World

/-- A new object has the state it is made with, and the others keep theirs. -/
theorem state_newObject (w : World) (c : ClassRef) (s : ObjectState) (o : ObjectId) :
    (w.newObject c s).2.state o = if o = w.objects.size then s else w.state o := by
  simp only [state, newObject, Array.getD_eq_getD_getElem?, Array.getElem?_push]
  split <;> rfl

/-- A change of state reaches no other object, and none that has not been made. -/
theorem state_setState (w : World) (o o' : ObjectId) (s : ObjectState) :
    (w.setState o s).state o' = if o' = o ∧ o < w.objects.size then s else w.state o' := by
  simp only [state, setState, Array.getD_eq_getD_getElem?, Array.getElem?_setIfInBounds]
  grind

/-- Whether the health of every player is in its range. -/
def Healthy (w : World) : Prop :=
  ∀ o p, w.state o = .player p → 0 ≤ p.health.toInt ∧ p.health.toInt ≤ Demo.maxHealth

variable {w : World}

/-- Another object does not matter if it is no player, or one whose health is in the range. -/
theorem Healthy.newObject (h : w.Healthy) (c : ClassRef) {s : ObjectState}
    (valid : ∀ p, s = .player p → 0 ≤ p.health.toInt ∧ p.health.toInt ≤ Demo.maxHealth) :
    (w.newObject c s).2.Healthy := by
  intro o p hp
  rw [state_newObject] at hp
  split at hp
  · exact valid p hp
  · exact h o p hp

/-- A player may be given any health in the range. -/
theorem Healthy.setState (h : w.Healthy) (o : ObjectId) {p : Player}
    (valid : 0 ≤ p.health.toInt ∧ p.health.toInt ≤ Demo.maxHealth) :
    (w.setState o (.player p)).Healthy := by
  intro o' p' hp
  rw [state_setState] at hp
  split at hp
  · cases hp
    exact valid
  · exact h o' p' hp

end World

namespace Demo

/-- The health that a number is brought to. -/
theorem toInt_clampHealth (n : Int) : (clampHealth n).toInt = max 0 (min maxHealth n) := by
  unfold clampHealth maxHealth
  exact Int32.toInt_ofInt_of_le (by omega) (by omega)

/-- Saturation is a clamp of the exact value. -/
theorem toInt_saturated (n : Int) :
    (saturated n).toInt = max (-2147483648) (min 2147483647 n) :=
  Int32.toInt_ofInt_of_le (by omega) (by omega)

/-- The lower clamp of a machine integer is that of its value. -/
theorem toInt_max_zero (n : Int32) : (max 0 n).toInt = max 0 n.toInt := by
  show (if 0 ≤ n then n else 0).toInt = _
  split
  · next positive =>
    have := Int32.le_iff_toInt_le.mp positive
    simp only [Int32.toInt_zero] at this
    omega
  · next negative =>
    have := mt Int32.le_iff_toInt_le.mpr negative
    simp only [Int32.toInt_zero] at this ⊢
    omega

/-! ### Deeds -/

/-- What a request that succeeds does to a world, and how many players it makes. -/
inductive Deed (w : World) : Nat → World → Prop
  | look : Deed w 0 w
  | point (c : ClassRef) (v : Vec2) : Deed w 0 (w.newObject c (.vec2 v)).2
  /-- A new player has a name and full health, and stands at the origin. -/
  | player (c : ClassRef) {name : String} {health : Int32} : name ≠ "" →
      health.toInt = maxHealth →
      Deed w 1 ({ w with players := w.players + 1 }.newObject c (.player ⟨name, health, ⟨0, 0⟩⟩)).2
  | harm {o : ObjectId} {p : Player} {amount health : Int32} : w.state o = .player p →
      0 ≤ amount.toInt → health.toInt = max 0 (p.health.toInt - amount.toInt) →
      Deed w 0 (w.setState o (.player { p with health }))
  | heal {o : ObjectId} {p : Player} {amount health : Int32} : w.state o = .player p →
      health.toInt = max 0 (min maxHealth (p.health.toInt + amount.toInt)) →
      Deed w 0 (w.setState o (.player { p with health }))
  | move {o : ObjectId} {p : Player} (c : ClassRef) (delta : Vec2) : w.state o = .player p →
      Deed w 0 ((w.setState o (.player { p with position := p.position.add delta })).newObject c
        (.vec2 (p.position.add delta))).2

namespace Deed

variable {w w' : World} {births : Nat}

/-- No deed takes a health out of its range. -/
theorem healthy (deed : Deed w births w') (h : w.Healthy) : w'.Healthy := by
  cases deed with
  | look => exact h
  | point c v => exact h.newObject c nofun
  | player c named full =>
      refine World.Healthy.newObject (w := { w with players := w.players + 1 }) h c fun p hp => ?_
      cases hp
      rw [full]
      decide
  | harm hp positive less =>
      have := h _ _ hp
      refine h.setState _ ?_
      dsimp only
      omega
  | heal hp more =>
      refine h.setState _ ?_
      have : 0 ≤ maxHealth := by decide
      dsimp only
      omega
  | @move o p c delta hp =>
      have moved : (w.setState o (.player { p with position := p.position.add delta })).Healthy :=
        h.setState o (h o p hp)
      exact moved.newObject c nofun

/-- A deed makes as many players as it says. -/
theorem players_eq (deed : Deed w births w') : w'.players = w.players + births := by
  cases deed <;> rfl

end Deed

/-- Whether a request either does something of a kind, or fails and changes nothing. -/
structure Proper {ε : Type} (births : Nat) (w : World) (outcome : Except ε Value × World) :
    Prop where
  done : ∀ v, outcome.1 = .ok v → Deed w births outcome.2
  failed : ∀ e, outcome.1 = .error e → outcome.2 = w

namespace Proper

variable {ε : Type} {w w' : World} {births : Nat}

/-- A deed is proper with whatever value. -/
theorem ok (v : Value) (deed : Deed w births w') :
    Proper births w ((.ok v, w') : Except ε Value × World) :=
  ⟨fun _ _ => deed, nofun⟩

/-- A failure that changes nothing is proper. -/
theorem error (e : ε) : Proper births w ((.error e, w) : Except ε Value × World) :=
  ⟨nofun, fun _ _ => rfl⟩

/-- An answer without a look at the world makes no players. -/
theorem answer (result : Except HostError Value) : Proper 0 w (HostCall.answer result w) := by
  cases result with
  | ok v => exact .ok v .look
  | error e => exact .error e

/-- How its errors are told does not matter. -/
theorem mapError {ε' : Type} {outcome : Except ε Value × World} (h : Proper births w outcome)
    (f : ε → ε') : Proper births w (outcome.1.mapError f, outcome.2) := by
  obtain ⟨_ | v, w'⟩ := outcome
  · obtain rfl : w' = w := h.failed _ rfl
    exact .error _
  · exact .ok v (h.done v rfl)

/-- A request goes on only if it is given what it asks for. -/
theorem given {α : Type} {result : Except HostError α} {next : α → HostCall}
    (h : ∀ a, result = .ok a → Proper births w (next a w)) :
    Proper births w (Demo.given result next w) := by
  cases result with
  | ok a => exact h a rfl
  | error e => exact .error e

end Proper

/-! ### Callables -/

/-- Whether a call of the host, in a world with healthy players, does a deed or nothing. -/
def Plays (births : Nat) (x : HostCall) : Prop := ∀ w, w.Healthy → Proper births w (x w)

/-- A new point is no player. -/
theorem plays_newVec2 (c : ClassRef) (v : Vec2) : Plays 0 (newVec2 c v) :=
  fun _ _ => .ok _ (.point c v)

/-- The constructor of players makes one. -/
theorem plays_newPlayer (c : ClassRef) (args : List Value) : Plays 1 (newPlayer c args) := by
  refine fun w _ => .given fun name _ => ?_
  split
  · exact .error _
  · next named =>
    refine .ok _ (.player c ?_ ((toInt_clampHealth maxHealth).trans rfl))
    rintro rfl
    exact named rfl

/-- An object that passes for a player is in the state of that player. -/
theorem state_of_playerOf {o : HostObject} {w : World} {p : Player} (h : playerOf o w = .ok p) :
    w.state o.id = .player p := by
  unfold playerOf at h
  split at h
  · next p' found =>
    cases h
    unfold player? at found
    split at found
    · next hstate => rw [hstate, Option.some.inj found]
    · cases found
  · cases h

/-- Damage leaves the health in its range. -/
theorem plays_damage (o : HostObject) (args : List Value) : Plays 0 (damage o args) := by
  refine fun _ _ => .given fun p hp => .given fun amount _ => ?_
  have here := state_of_playerOf hp
  split
  · exact .error _
  · next positive =>
    rw [Int32.lt_iff_toInt_lt] at positive
    have positive : 0 ≤ amount.toInt := Int.not_lt.mp positive
    refine .ok _ (.harm here positive ?_)
    -- the health is a 32-bit integer already, and it only gets less
    have := Int32.toInt_lt p.health
    rw [toInt_max_zero, toInt_saturated]
    omega

/-- So does healing. -/
theorem plays_heal (o : HostObject) (args : List Value) : Plays 0 (heal o args) := by
  refine fun _ _ => .given fun p hp => .given fun amount _ => ?_
  -- what does not fit 32 bits is beyond the range of a health
  have health : (clampHealth (saturated (p.health.toInt + amount.toInt)).toInt).toInt =
      max 0 (min maxHealth (p.health.toInt + amount.toInt)) := by
    rw [toInt_clampHealth, toInt_saturated, maxHealth]
    omega
  exact .ok _ (.heal (state_of_playerOf hp) health)

/-- A moved point is a new point. -/
theorem plays_move (c : ClassRef) (o : HostObject) (delta : Vec2) : Plays 0 (move c o delta) :=
  fun _ _ => .given fun _ hp => .ok _ (.move c delta (state_of_playerOf hp))

end Demo

/-! ### Classes and registries -/

open Demo (Plays Deed)

/-- Whether the constructors of a class make so many players, and its other parts none, and all of
them do nothing else to a world with healthy players. -/
structure HostClass.Plays (births : Nat) (c : HostClass) : Prop where
  constructors : ∀ o ∈ c.constructors, ∀ ref args, Demo.Plays births (o.callable ref args)
  methods : ∀ {name : String} {candidates : List (Overload (HostObject → List Value → HostCall))},
    c.methods[name]? = some candidates → ∀ o ∈ candidates, ∀ self args,
    Demo.Plays 0 (o.callable self args)
  statics : ∀ {name : String} {candidates : List (Overload (List Value → HostCall))},
    c.statics[name]? = some candidates → ∀ o ∈ candidates, ∀ args, Demo.Plays 0 (o.callable args)
  fields : ∀ {name : String} {read : HostObject → World → Value × World},
    c.fields[name]? = some read → ∀ self w, Deed w 0 (read self w).2
  staticFields : ∀ {name : String} {read : World → Value × World},
    c.staticFields[name]? = some read → ∀ w, Deed w 0 (read w).2

namespace HostClass

/-- A class with a name alone has nothing that could do anything. -/
theorem plays_named (births : Nat) (name : String) : (named name).Plays births where
  constructors o mem := absurd mem List.not_mem_nil
  methods h := by cases h
  statics h := by cases h
  fields h := by cases h
  staticFields h := by cases h

namespace Plays

variable {births : Nat} {c : HostClass} (hc : c.Plays births)

include hc

/-- A constructor that makes as many players as the class says. -/
theorem constructor (params : List ParamType) {run : ClassRef → List Value → HostCall}
    (h : ∀ ref args, Demo.Plays births (run ref args)) : (c.constructor params run).Plays births :=
  { hc with
    constructors := fun o mem => by
      rcases List.mem_append.mp mem with before | new
      · exact hc.constructors o before
      · rw [List.mem_singleton.mp new]
        exact h }

/-- A method that makes no players. -/
theorem method (name : String) (params : List ParamType)
    {run : HostObject → List Value → HostCall} (h : ∀ self args, Demo.Plays 0 (run self args)) :
    (c.method name params run).Plays births :=
  { hc with
    methods := fun {_ _} found o mem => by
      rcases callable_eq_or_exists found mem with rfl | ⟨before, old, mem⟩
      · exact h
      · exact hc.methods old o mem }

/-- A static method that makes no players. -/
theorem static (name : String) (params : List ParamType) {run : List Value → HostCall}
    (h : ∀ args, Demo.Plays 0 (run args)) : (c.static name params run).Plays births :=
  { hc with
    statics := fun {_ _} found o mem => by
      rcases callable_eq_or_exists found mem with rfl | ⟨before, old, mem⟩
      · exact h
      · exact hc.statics old o mem }

/-- A field whose reading makes no players. -/
theorem field (name : String) {read : HostObject → World → Value × World}
    (h : ∀ self w, Deed w 0 (read self w).2) : (c.field name read).Plays births :=
  { hc with
    fields := fun {_ _} found => by
      rcases read_eq_or_found found with rfl | before
      · exact h
      · exact hc.fields before }

/-- A static field whose reading makes no players. -/
theorem staticField (name : String) {read : World → Value × World}
    (h : ∀ w, Deed w 0 (read w).2) : (c.staticField name read).Plays births :=
  { hc with
    staticFields := fun {_ _} found => by
      rcases read_eq_or_found found with rfl | before
      · exact h
      · exact hc.staticFields before }

/-- How objects are shown and gone through does not matter. -/
theorem shown (display : (Value → String) → ObjectState → String) :
    (c.shown display).Plays births :=
  { hc with }

/-- Whether a class is iterable has no effect on the world. -/
theorem iterable (elements : ObjectState → List Value) : (c.iterable elements).Plays births :=
  { hc with }

end Plays

end HostClass

namespace Demo

/-- The class of errors makes no players. -/
theorem plays_errorClass : Registry.errorClass.Plays 0 :=
  .shown (.field (.field (HostClass.plays_named _ _) _ fun _ _ => .look) _ fun _ _ => .look) _

/-- The class of points makes no players. -/
theorem plays_vec2Class : vec2Class.Plays 0 := by
  refine .iterable (.shown (.method (.method (.method (.field (.field (.constructor
    (HostClass.plays_named _ _) _ ?new) _ ?x) _ ?y) _ _ ?add) _ _ ?scale) _ _ ?length) _) _
  case new => exact fun c args w h => .given fun v _ => plays_newVec2 c v w h
  case x => exact fun o w => .look
  case y => exact fun o w => .look
  case add => exact fun o args w h => .given fun b _ => plays_newVec2 _ _ w h
  case scale => exact fun o args w h => .given fun k _ => plays_newVec2 _ _ w h
  case length => exact fun o args w h => .ok _ .look

/-- A field of a player is a number, or a point that is made for the reading. -/
theorem deed_playerField (read : Player → Value) (o : HostObject) (w : World) :
    Deed w 0 (playerField read o w).2 := by
  unfold playerField
  split <;> exact .look

/-- The constructor of the class of players makes one, and its methods keep health in the range. -/
theorem plays_playerClass (c : ClassRef) : (playerClass c).Plays 1 := by
  refine .shown (.method (.method (.method (.method (.field (.field (.field (.field (.static
    (.constructor (HostClass.plays_named _ _) _ ?new) _ _ ?count) _ ?name) _ ?health) _ ?alive) _
    ?position) _ _ ?damage) _ _ ?heal) _ _ ?moveBy) _ _ ?moveByPoint) _
  case new => exact plays_newPlayer
  case count => exact fun args w h => .ok _ .look
  case name => exact deed_playerField _
  case health => exact deed_playerField _
  case alive =>
    intro o w
    split <;> exact .look
  case position =>
    intro o w
    split
    · exact .point c _
    · exact .look
  case damage => exact plays_damage
  case heal => exact plays_heal
  case moveBy => exact fun o args w h => .given fun delta _ => plays_move c o delta w h
  case moveByPoint => exact fun o args w h => .given fun delta _ => plays_move c o delta w h

/-- Functions on numbers do not look at the world. -/
theorem plays_mathClass : mathClass.Plays 0 := by
  refine .static (.static (.static (.static (.static (.static (.static (.staticField
    (HostClass.plays_named _ _) _ ?pi) _ _ ?absInt) _ _ ?absFloat) _ _ ?maxInt) _ _ ?maxFloat) _ _
    ?signLong) _ _ ?signFloat) _ _ ?sqrt
  case pi => exact fun w => .look
  all_goals exact fun args w _ => .answer _

/-- How many players a constructor of a class makes: only the class of players makes any. -/
def births (c : HostClass) : Nat := if c.name = playerName then 1 else 0

/-- Whether every class of a registry does to the world what the demo world admits. -/
def RegistryPlays (r : Registry) : Prop :=
  ∀ ref, (r.hostClass ref).Plays (births (r.hostClass ref))

/-- A registry of such classes admits another one. -/
theorem registryPlays_register {r : Registry} (h : RegistryPlays r) {c : HostClass}
    (hc : c.Plays (births c)) : RegistryPlays (r.register c) := by
  intro ref
  rw [Registry.hostClass_register]
  split
  · exact hc
  · exact h ref

/-- The demo world does nothing else. -/
theorem plays_registry : RegistryPlays registry := by
  have empty : RegistryPlays Registry.empty := fun ref => HostClass.plays_named _ ref.name
  have errors : Registry.errorClass.Plays (births Registry.errorClass) := plays_errorClass
  have points : vec2Class.Plays (births vec2Class) := plays_vec2Class
  have players : ∀ c, (playerClass c).Plays (births (playerClass c)) := plays_playerClass
  have numbers : mathClass.Plays (births mathClass) := plays_mathClass
  exact registryPlays_register (registryPlays_register (registryPlays_register
    (registryPlays_register empty errors) points) (players _)) numbers

/-! ### Requests -/

/-- What a script can ask of the demo world. -/
inductive Request where
  | construct (ref : ClassRef) (args : List Value)
  | invoke (target : Value) (name : String) (args : List Value)
  | member (target : Value) (name : String)

namespace Request

/-- How a request is carried out. -/
def run : Request → Run Value
  | construct ref args => HostAccess.construct registry ref args
  | invoke target name args => HostAccess.invoke registry target name args
  | member target name => HostAccess.member registry target name

/-- How many players a request makes if it succeeds. -/
def births : Request → Nat
  | construct ref _ => Demo.births (registry.hostClass ref)
  | _ => 0

/-- The machine after some requests. -/
def after (requests : List Request) (m : Machine) : Machine :=
  requests.foldl (fun m r => (r.run m).2) m

/-- How many players some requests make, one after the other. -/
def made : List Request → Machine → Nat
  | [], _ => 0
  | r :: rest, m => (if (r.run m).1.isOk then r.births else 0) + made rest (r.run m).2

end Request

section

variable {m : Machine} {args : List Value} {births : Nat}

/-- A computation aside leaves the machine as it is. -/
theorem ofExcept_apply {α : Type} (r : Except EvalError α) (m : Machine) :
    Run.ofExcept r m = (r.mapError .fault, m) := by
  cases r <;> rfl

/-- A call comes to what its callable does. -/
theorem proper_call {target : Registry.Target} (plays : Plays births target.call)
    (h : m.world.Healthy) :
    Proper births m.world ((HostAccess.call registry target args m).1,
      (HostAccess.call registry target args m).2.world) := by
  rw [HostAccess.call_apply]
  have answer : (Visit.mk target args m.world).answer = (target.call m.world).1.mapError
      fun e => .fault (.host (.raised target.className target.member e)) := by
    unfold Visit.answer Visit.result
    cases (target.call m.world).1 <;> rfl
  rw [answer]
  exact (plays m.world h).mapError _

/-- A request for a callable comes to what that does; if none is found, nothing has happened. -/
theorem proper_find {result : Except EvalError Registry.Target}
    (plays : ∀ target, result = .ok target → Plays births target.call) (h : m.world.Healthy)
    {x : Run Value} (hx : x = Run.ofExcept result >>= fun t => HostAccess.call registry t args) :
    Proper births m.world ((x m).1, (x m).2.world) := by
  subst hx
  cases result with
  | ok target => exact proper_call (plays target rfl) h
  | error e => exact .error _

/-- What a call of a static method arrives at. -/
theorem plays_staticTarget {c : HostClass} (hc : c.Plays births) {name : String}
    {target : Registry.Target} (h : Registry.staticTarget c name args = .ok target) :
    Plays 0 target.call := by
  unfold Registry.staticTarget at h
  split at h
  · next candidates found =>
    obtain ⟨o, mem, _, converted, -, rfl⟩ := Registry.exists_of_pick h
    exact hc.statics found o mem converted
  · cases h

/-- What a call of a method arrives at. -/
theorem plays_methodTarget {v : Value} {name : String} {target : Registry.Target}
    (h : registry.methodTarget v name args = .ok target) : Plays 0 target.call := by
  unfold Registry.methodTarget at h
  split at h
  · exact plays_staticTarget (plays_registry _) h
  · next o ref =>
    dsimp only at h
    split at h
    · next candidates found =>
      obtain ⟨overload, mem, _, converted, -, rfl⟩ := Registry.exists_of_pick h
      exact (plays_registry ref).methods found overload mem ⟨o, ref⟩ converted
    · exact plays_staticTarget (plays_registry _) h
  · cases h

/-- What a call of a constructor arrives at. -/
theorem plays_constructorTarget {ref : ClassRef} {target : Registry.Target}
    (h : registry.constructorTarget ref args = .ok target) :
    Plays (Demo.births (registry.hostClass ref)) target.call := by
  unfold Registry.constructorTarget at h
  dsimp only at h
  split at h
  · cases h
  · obtain ⟨overload, mem, _, converted, -, rfl⟩ := Registry.exists_of_pick h
    exact (plays_registry ref).constructors overload mem ref converted

end

/-- A static member of a class is read without a player being made. -/
theorem proper_staticMember {c : HostClass} {births : Nat} (hc : c.Plays births) (name : String)
    (isMethod : Bool) (w : World) : Proper 0 w (Registry.staticMember c name isMethod w) := by
  unfold Registry.staticMember
  split
  · next read found => exact .ok _ (hc.staticFields found w)
  · exact .error _

/-- A member of a value is read without a player being made. -/
theorem proper_member (v : Value) (name : String) (w : World) :
    Proper 0 w (registry.member v name w) := by
  unfold Registry.member
  split
  · exact proper_staticMember (plays_registry _) _ _ w
  · next o ref =>
    dsimp only
    split
    · next read found => exact .ok _ ((plays_registry ref).fields found ⟨o, ref⟩ w)
    · exact proper_staticMember (plays_registry _) _ _ w
  · exact .error _

namespace Request

/-- The reading of a member, in terms of the world alone. -/
theorem member_apply (target : Value) (name : String) (m : Machine) :
    (member target name).run m = ((registry.member target name m.world).1.mapError .fault,
      { m with world := (registry.member target name m.world).2 }) :=
  ofExcept_apply _ _

/-- A request does one deed, or it fails and nothing has happened. -/
theorem proper (r : Request) {m : Machine} (h : m.world.Healthy) :
    Proper r.births m.world ((r.run m).1, (r.run m).2.world) := by
  cases r with
  | construct ref args => exact proper_find (fun _ => plays_constructorTarget) h rfl
  | invoke target name args => exact proper_find (fun _ => plays_methodTarget) h rfl
  | member target name =>
      rw [member_apply]
      exact (proper_member target name m.world).mapError _

/-- What one request keeps and counts. -/
theorem step (r : Request) {m : Machine} (h : m.world.Healthy) :
    (r.run m).2.world.Healthy ∧ (r.run m).2.world.players =
      m.world.players + if (r.run m).1.isOk then r.births else 0 := by
  obtain ⟨done, failed⟩ := r.proper h
  dsimp only at done failed
  cases hr : (r.run m).1 with
  | ok v => exact ⟨(done v hr).healthy h, (done v hr).players_eq⟩
  | error e => exact ⟨(failed e hr).symm ▸ h, congrArg World.players (failed e hr)⟩

/-- Requests keep health in its range, by induction on them. -/
theorem healthy_after (requests : List Request) {m : Machine} (h : m.world.Healthy) :
    (after requests m).world.Healthy := by
  induction requests generalizing m with
  | nil => exact h
  | cons r rest ih => exact ih (r.step h).1

/-- The players are counted one by one. -/
theorem players_after (requests : List Request) {m : Machine} (h : m.world.Healthy) :
    (after requests m).world.players = m.world.players + made requests m := by
  induction requests generalizing m with
  | nil => rfl
  | cons r rest ih =>
      calc (after rest (r.run m).2).world.players
          = (r.run m).2.world.players + made rest (r.run m).2 := ih (r.step h).1
        _ = m.world.players + ((if (r.run m).1.isOk then r.births else 0)
              + made rest (r.run m).2) := by rw [(r.step h).2, Nat.add_assoc]

end Request

/-! ### The class of players -/

/-- The class of points, and that of players. -/
def vec2Ref : ClassRef := ⟨1, vec2Name⟩

def playerRef : ClassRef := ⟨2, playerName⟩

/-- The name of the class of players leads to it. -/
theorem find?_player : registry.find? playerName = some playerRef := rfl

/-- The class that the reference stands for. -/
theorem hostClass_playerRef : registry.hostClass playerRef = playerClass vec2Ref := rfl

section

variable {m : Machine} {o : ObjectId} {p : Player}

/-- Reading a field of a player that makes nothing. -/
theorem run_field {name : String} {read : HostObject → World → Value × World} {v : Value}
    (found : (playerClass vec2Ref).fields[name]? = some read)
    (hv : read ⟨o, playerRef⟩ m.world = (v, m.world)) :
    (Request.member (.object o playerRef) name).run m = (.ok v, m) := by
  have here : registry.member (.object o playerRef) name m.world = (.ok v, m.world) := by
    simp only [Registry.member, hostClass_playerRef, found, hv]
  rw [Request.member_apply, here]
  rfl

/-- The health of a player is what its field reads. -/
theorem run_health (hp : m.world.state o = .player p) :
    (Request.member (.object o playerRef) "health").run m = (.ok (.int p.health), m) := by
  refine run_field rfl ?_
  unfold playerField
  rw [hp]
  rfl

/-- A player is alive as long as there is health. -/
theorem run_alive (hp : m.world.state o = .player p) :
    (Request.member (.object o playerRef) "alive").run m =
      (.ok (.bool (0 < p.health.toInt)), m) := by
  refine run_field rfl ?_
  rw [hp]
  simp only [player?, gt_iff_lt, Int32.lt_iff_toInt_lt]
  rfl

/-- What is told as the number of players, by their class or by one of them. -/
theorem run_count {target : Value}
    (ht : target = .hostClass playerRef ∨ target = .object o playerRef) :
    ((Request.invoke target "count" []).run m).1 = .ok (.int (Int32.ofNat m.world.players)) := by
  have found : registry.methodTarget target "count" [] =
      .ok ⟨playerName, "count", .inspect fun w => .ok (.int (Int32.ofNat w.players))⟩ := by
    rcases ht with rfl | rfl <;> rfl
  have arrived : (Request.invoke target "count" []).run m = HostAccess.call registry _ [] m :=
    Run.bind_ok ((ofExcept_apply _ m).trans (by rw [found]; rfl))
  rw [arrived, HostAccess.call_apply]
  rfl

end

/-- What holds of the players in a machine after requests that have made so many of them, where
`ref` is their class. -/
structure PlayersLaw (ref : ClassRef) (made : Nat) (m : Machine) : Prop where
  inRange : ∀ {o p}, m.world.state o = .player p → 0 ≤ p.health.toInt ∧ p.health.toInt ≤ maxHealth
  health : ∀ {o p}, m.world.state o = .player p →
    (Request.member (.object o ref) "health").run m = (.ok (.int p.health), m)
  alive : ∀ {o p}, m.world.state o = .player p →
    (Request.member (.object o ref) "alive").run m = (.ok (.bool (0 < p.health.toInt)), m)
  /-- Unless there are too many of them for an integer, the class and its objects tell how many
  players have been made. -/
  count : made < 2147483648 → ∀ {target o}, target = .hostClass ref ∨ target = .object o ref →
    ∃ n, ((Request.invoke target "count" []).run m).1 = .ok (.int n) ∧ n.toInt = made
  done : ∀ {r : Request} {v}, (r.run m).1 = .ok v → Deed m.world r.births (r.run m).2.world
  failed : ∀ {r : Request} {e}, (r.run m).1 = .error e → (r.run m).2.world = m.world

/-- Players stay valid whatever is asked of the demo world, and requests that fail change nothing.
-/
theorem players_stay_valid (requests : List Request) (m : Machine) (fresh : m.world = .empty) :
    ∃ ref, registry.find? playerName = some ref ∧
      PlayersLaw ref (Request.made requests m) (Request.after requests m) := by
  have nobody : m.world.Healthy := by
    intro o p hp
    rw [fresh] at hp
    cases hp
  have healthy := Request.healthy_after requests nobody
  have players : (Request.after requests m).world.players = Request.made requests m := by
    rw [Request.players_after requests nobody, fresh]
    exact Nat.zero_add _
  refine ⟨playerRef, find?_player, ?_⟩
  exact
    { inRange := healthy _ _
      health := run_health
      alive := run_alive
      count := fun few target o ht => by
        refine ⟨_, run_count ht, ?_⟩
        rw [players]
        exact Int32.toInt_ofNat_of_lt few
      done := (Request.proper _ healthy).done _
      failed := (Request.proper _ healthy).failed _ }

/-- A player that is harmed, and two requests that fail. -/
theorem players_stay_valid_harmed :
    let m : Machine := ⟨.empty, .empty, Console.ofInput [], .disabled, 0⟩
    let ann := Value.object 0 playerRef
    let requests := [.construct playerRef [.text "Ann"], .construct playerRef [.text ""],
      .invoke ann "damage" [.int 130], .invoke ann "heal" [.int (-5)],
      .invoke ann "damage" [.int (-1)]]
    m.world = .empty ∧ Request.made requests m = 1 ∧
      ∃ ref, registry.find? playerName = some ref ∧
        PlayersLaw ref (Request.made requests m) (Request.after requests m) := by
  intro m ann requests
  exact ⟨rfl, by decide +kernel, players_stay_valid requests m rfl⟩

end Demo

end ScriptConsole
