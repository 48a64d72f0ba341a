import ScriptConsole.Proofs.Evaluation.Shapes
import ScriptConsole.Proofs.Host.Callables

/-!
# Hosts That Do Not Look at Code

A host may keep functions, show them and hand them back. If none of its callables, fields and texts
tells functions apart by where their code stands, the host comes to alike results from alike worlds
and alike arguments (`Registry.Blind`).

## Main results

* `selectOverload_shape`: which overload a call takes does not depend on places.
* `Registry.Blind.legend_eq`: alike worlds show their objects in the same way.
* `Registry.Blind.member`, `Registry.Blind.methodTarget`, `Registry.Blind.constructorTarget`: what
  the host gives for alike values is alike.
-/

namespace ScriptConsole

open Value (Alike AlikeEach)

/-! ### Worlds -/

/-- A state of an object without the places of the code in it. -/
def ObjectState.shape : ObjectState → ObjectState
  | fields values => fields (values.map Value.shape)
  | s => s

/-- Whether two worlds are the same up to the places of the code in them. -/
structure World.Alike (w w' : World) : Prop where
  objects : w.objects.map ObjectState.shape = w'.objects.map ObjectState.shape
  players : w.players = w'.players
  nextIdentity : w.nextIdentity = w'.nextIdentity

namespace World

variable {w w' : World}

/-- A world is like itself. -/
theorem Alike.refl (w : World) : w.Alike w := ⟨rfl, rfl, rfl⟩

/-- Alike worlds have equally many objects. -/
theorem Alike.size_eq (h : w.Alike w') : w.objects.size = w'.objects.size := by
  simpa using congrArg Array.size h.objects

/-- Their objects are in states of one shape. -/
theorem Alike.state (h : w.Alike w') (o : ObjectId) : (w.state o).shape = (w'.state o).shape := by
  have through : ∀ w : World, (w.state o).shape =
      (w.objects.map ObjectState.shape).getD o .foreign := by
    intro w
    simp only [World.state, Array.getD_eq_getD_getElem?, Array.getElem?_map]
    cases w.objects[o]? <;> rfl
  rw [through w, h.objects, through w']

/-- Whether values together with worlds are alike. -/
structure AlikeWith (a b : Value × World) : Prop where
  value : a.1.Alike b.1
  world : a.2.Alike b.2

/-- Alike worlds are alike with one more object each. -/
theorem Alike.newObject (h : w.Alike w') (c : ClassRef) {s s' : ObjectState}
    (same : s.shape = s'.shape) : AlikeWith (w.newObject c s) (w'.newObject c s') where
  value := congrArg (Value.object · c) h.size_eq
  world := ⟨by simp [World.newObject, same, h.objects], h.players, h.nextIdentity⟩

/-- Alike worlds are alike with a state changed in each. -/
theorem Alike.setState (h : w.Alike w') (o : ObjectId) {s s' : ObjectState}
    (same : s.shape = s'.shape) : (w.setState o s).Alike (w'.setState o s') :=
  ⟨by simp [World.setState, same, h.objects], h.players, h.nextIdentity⟩

/-- Alike worlds are alike with one more list each. -/
theorem Alike.newList (h : w.Alike w') {items items' : List Value}
    (same : AlikeEach items items') : AlikeWith (w.newList items) (w'.newList items') where
  value := by
    show Value.list _ (Value.shapeItems items) = .list _ (Value.shapeItems items')
    rw [Value.shapeItems_eq_map, same, Value.shapeItems_eq_map, h.nextIdentity]
  world := ⟨h.objects, h.players, congrArg (· + 1) h.nextIdentity⟩

/-- Alike worlds are alike with one more function each. -/
theorem Alike.newFunction (h : w.Alike w') (params : List String) {body body' : List Expr}
    (same : body.map Expr.shape = body'.map Expr.shape) (frame : FrameId) :
    AlikeWith (w.newFunction params body frame) (w'.newFunction params body' frame) where
  value := by
    show Value.function ⟨_, _, body.map Expr.shape, _⟩ = .function ⟨_, _, body'.map Expr.shape, _⟩
    rw [h.nextIdentity, same]
  world := ⟨h.objects, h.players, congrArg (· + 1) h.nextIdentity⟩

end World

/-! ### Overloads -/

/-- A parameter accepts a value and its shape alike. -/
theorem ParamType.accept_shape (p : ParamType) (v : Value) :
    p.accept v.shape = (p.accept v).map fun (cost, v) => (cost, v.shape) := by
  cases p <;> cases v <;> try rfl
  next name o c =>
    show (if c.name = name then some (0, Value.object o c) else none) =
      Option.map _ (if c.name = name then some (0, Value.object o c) else none)
    split <;> rfl

/-- So do several parameters. -/
theorem acceptAll_shape (params : List ParamType) (args : List Value) :
    acceptAll params (args.map Value.shape) =
      (acceptAll params args).map fun (cost, vs) => (cost, vs.map Value.shape) := by
  induction params generalizing args with
  | nil => cases args <;> rfl
  | cons p params ih =>
      cases args with
      | nil => rfl
      | cons v args =>
          simp only [List.map_cons, acceptAll, p.accept_shape, ih]
          cases p.accept v <;> cases acceptAll params args <;> rfl

section

variable {φ : Type}

/-- A candidate with its arguments without places. -/
def Applicable.shape (c : Applicable φ) : Applicable φ :=
  ⟨c.cost, c.callable, c.args.map Value.shape⟩

/-- The same candidates apply to values and to their shapes. -/
theorem applicable_shape (candidates : List (Overload φ)) (args : List Value) :
    applicable candidates (args.map Value.shape) =
      (applicable candidates args).map Applicable.shape := by
  unfold applicable
  rw [List.map_filterMap]
  refine congrArg (fun f => candidates.filterMap f) (funext fun c => ?_)
  rw [acceptAll_shape]
  cases acceptAll c.params args <;> rfl

/-- The cheapest candidate with its arguments without places. -/
def Cheapest.shape (c : Cheapest φ) : Cheapest φ := ⟨c.best.shape, c.tied⟩

/-- The cheapest candidate is found by cost alone. -/
theorem Cheapest.update_shape (seen : Option (Cheapest φ)) (next : Applicable φ) :
    update (seen.map shape) next.shape = (update seen next).map shape := by
  cases seen with
  | none => rfl
  | some c =>
      show (if c.best.cost < next.cost then _ else if c.best.cost = next.cost then _ else _) =
        Option.map shape
          (if c.best.cost < next.cost then _ else if c.best.cost = next.cost then _ else _)
      by_cases cheaper : c.best.cost < next.cost
      · rw [if_pos cheaper, if_pos cheaper]
        rfl
      by_cases same : c.best.cost = next.cost
      · rw [if_neg cheaper, if_pos same, if_neg cheaper, if_pos same]
        rfl
      · rw [if_neg cheaper, if_neg same, if_neg cheaper, if_neg same]
        rfl

/-- The same of all candidates, by induction on them. -/
theorem Cheapest.foldl_shape (seen : Option (Cheapest φ)) (candidates : List (Applicable φ)) :
    (candidates.map Applicable.shape).foldl update (seen.map shape) =
      (candidates.foldl update seen).map shape := by
  induction candidates generalizing seen with
  | nil => rfl
  | cons next rest ih =>
      rw [List.map_cons, List.foldl_cons, List.foldl_cons, ← ih, update_shape]

/-- Which overload a call takes does not depend on the places of code in its arguments. -/
theorem selectOverload_shape (what : String) (candidates : List (Overload φ)) (args : List Value) :
    selectOverload what candidates (args.map Value.shape) =
      (selectOverload what candidates args).map fun (f, vs) => (f, vs.map Value.shape) := by
  have kinds : (args.map Value.shape).map Value.kind = args.map Value.kind := by
    rw [List.map_map]
    exact List.map_congr_left fun v _ => v.kind_shape
  have cheapest := Cheapest.foldl_shape none (applicable candidates args)
  rw [Option.map_none, ← applicable_shape] at cheapest
  rw [selectOverload, selectOverload, kinds, cheapest]
  cases (applicable candidates args).foldl Cheapest.update none with
  | none => rfl
  | some c =>
      obtain ⟨best, tied⟩ := c
      cases tied <;> rfl

end

/-! ### Callables -/

/-- Whether two outcomes of the host are the same up to the places of code: the same error, or alike
values; and alike worlds. -/
structure AlikeOutcomes {ε : Type} (a b : Except ε Value × World) : Prop where
  result : a.1.map Value.shape = b.1.map Value.shape
  world : a.2.Alike b.2

/-- Whether two callables come to the same in alike worlds. -/
def HostCall.Alike (x y : HostCall) : Prop :=
  ∀ ⦃w w' : World⦄, w.Alike w' → AlikeOutcomes (x w) (y w')

/-- Whether a class tells no functions apart by where their code stands. -/
structure HostClass.Blind (c : HostClass) : Prop where
  constructors : ∀ o ∈ c.constructors, ∀ ref {args args'}, AlikeEach args args' →
    (o.callable ref args).Alike (o.callable ref args')
  methods : ∀ {name : String} {candidates : List (Overload (HostObject → List Value → HostCall))},
    c.methods[name]? = some candidates → ∀ o ∈ candidates, ∀ self {args args'},
    AlikeEach args args' → (o.callable self args).Alike (o.callable self args')
  statics : ∀ {name : String} {candidates : List (Overload (List Value → HostCall))},
    c.statics[name]? = some candidates → ∀ o ∈ candidates, ∀ {args args'},
    AlikeEach args args' → (o.callable args).Alike (o.callable args')
  fields : ∀ {name : String} {read : HostObject → World → Value × World},
    c.fields[name]? = some read → ∀ self {w w' : World}, w.Alike w' →
    World.AlikeWith (read self w) (read self w')
  staticFields : ∀ {name : String} {read : World → Value × World},
    c.staticFields[name]? = some read → ∀ {w w' : World}, w.Alike w' →
    World.AlikeWith (read w) (read w')
  display : ∀ display ∈ c.display, ∀ {show₁ show₂ : Value → String},
    (∀ {v v' : Value}, v.Alike v' → show₁ v = show₂ v') →
    ∀ {s s' : ObjectState}, s.shape = s'.shape → display show₁ s = display show₂ s'
  elements : ∀ elements ∈ c.elements, ∀ {s s' : ObjectState}, s.shape = s'.shape →
    AlikeEach (elements s) (elements s')

/-- A class without members tells nothing apart. -/
theorem HostClass.blind_named (name : String) : (HostClass.named name).Blind where
  constructors o mem := absurd mem List.not_mem_nil
  methods h := nomatch h
  statics h := nomatch h
  fields h := nomatch h
  staticFields h := nomatch h
  display _ mem := by cases mem
  elements _ mem := by cases mem

/-- Whether a host tells no functions apart by where their code stands. -/
def Registry.Blind (r : Registry) : Prop := ∀ c : ClassRef, (r.hostClass c).Blind

namespace Registry

variable {r : Registry} (blind : r.Blind) {w w' : World}

include blind

/-- Objects are shown alike in alike worlds. -/
theorem Blind.describe_eq (h : w.Alike w') (depth : Nat) (o : ObjectId) (c : ClassRef) :
    r.describe w depth o c = r.describe w' depth o c := by
  induction depth generalizing o c with
  | zero => rfl
  | succ depth ih =>
      rw [describe, describe]
      cases hdisplay : (r.hostClass c).display with
      | none => rfl
      | some display =>
          have same : r.describe w depth = r.describe w' depth := funext fun o => funext (ih o)
          refine (blind c).display display hdisplay (fun {v v'} alike => ?_) (h.state o)
          rw [same]
          exact alike.repr_eq _

/-- Alike worlds show their objects in the same way. -/
theorem Blind.legend_eq (h : w.Alike w') : r.legend w = r.legend w' := by
  unfold legend
  rw [h.size_eq]
  exact funext fun o => funext fun c => blind.describe_eq h _ o c

/-- The elements of an object have the same shapes in alike worlds. -/
theorem Blind.elements? (h : w.Alike w') (o : ObjectId) (c : ClassRef) :
    (r.elements? w o c).map (List.map Value.shape) =
      (r.elements? w' o c).map (List.map Value.shape) := by
  unfold Registry.elements?
  cases helements : (r.hostClass c).elements with
  | none => rfl
  | some elements => exact congrArg some ((blind c).elements elements helements (h.state o))

omit blind in
/-- Members of a value are those of its shape. -/
theorem member_shape (target : Value) (name : String) (w : World) :
    r.member target.shape name w = r.member target name w := by
  cases target <;> rfl

/-- Reading a member of alike values. -/
theorem Blind.member {target target' : Value} (alike : target.Alike target') (name : String)
    (h : w.Alike w') : AlikeOutcomes (r.member target name w) (r.member target' name w') := by
  have static : ∀ c : HostClass, c.Blind → ∀ isMethod : Bool,
      AlikeOutcomes (staticMember c name isMethod w) (staticMember c name isMethod w') := by
    intro c unseeing isMethod
    unfold staticMember
    cases hread : c.staticFields[name]? with
    | none => exact ⟨rfl, h⟩
    | some read =>
        have same := unseeing.staticFields hread h
        exact ⟨congrArg Except.ok same.value, same.world⟩
  rw [← member_shape target', ← alike, member_shape]
  cases target with
  | hostClass ref => exact static _ (blind ref) _
  | object o ref =>
      simp only [Registry.member]
      cases hread : (r.hostClass ref).fields[name]? with
      | none => exact static _ (blind ref) _
      | some read =>
          have same := (blind ref).fields hread ⟨o, ref⟩ h
          exact ⟨congrArg Except.ok same.value, same.world⟩
  | _ => exact ⟨rfl, h⟩

/-- Whether two callables that calls have arrived at are traced under the same names and come to the
same. -/
structure Target.Alike (t t' : Target) : Prop where
  className : t.className = t'.className
  member : t.member = t'.member
  call : t.call.Alike t'.call

/-- Whether two searches for a callable find alike ones, or fail with the same error. -/
def AlikeTargets : Except EvalError Target → Except EvalError Target → Prop
  | .ok t, .ok t' => t.Alike t'
  | .error e, .error e' => e = e'
  | _, _ => False

section

variable {args args' : List Value} (alike : AlikeEach args args')

include alike

omit blind in
/-- The same candidate is picked for alike arguments. -/
theorem pick_alike {φ : Type} {c : HostClass} {member what : String}
    {candidates : List (Overload φ)} {run : φ → List Value → HostCall}
    (calls : ∀ o ∈ candidates, ∀ {args args'}, AlikeEach args args' →
      (run o.callable args).Alike (run o.callable args')) :
    AlikeTargets (pick c member what candidates args run)
      (pick c member what candidates args' run) := by
  have same := (selectOverload_shape what candidates args).symm.trans
    ((congrArg _ alike).trans (selectOverload_shape what candidates args'))
  unfold pick
  cases first : selectOverload what candidates args with
  | error fault =>
      cases second : selectOverload what candidates args' with
      | error fault' =>
          rw [first, second] at same
          exact congrArg EvalError.host (Except.error.inj same)
      | ok found =>
          rw [first, second] at same
          cases same
  | ok found =>
      cases second : selectOverload what candidates args' with
      | error fault' =>
          rw [first, second] at same
          cases same
      | ok found' =>
          rw [first, second] at same
          obtain ⟨callable, converted⟩ := found
          obtain ⟨callable', converted'⟩ := found'
          obtain ⟨rfl, hconverted⟩ := Prod.mk.inj (Except.ok.inj same)
          obtain ⟨o, mem, rfl, -⟩ := exists_of_selectOverload first
          exact ⟨rfl, rfl, calls o mem hconverted⟩

omit blind in
/-- Calls of a static method arrive at alike targets. -/
theorem staticTarget_alike {c : HostClass} (unseeing : c.Blind) (name : String) :
    AlikeTargets (staticTarget c name args) (staticTarget c name args') := by
  unfold staticTarget
  split
  · next candidates found =>
    exact pick_alike alike fun o mem {_ _} same => unseeing.statics found o mem same
  · rfl

omit blind alike in
/-- Methods of a value are those of its shape. -/
theorem methodTarget_shape (target : Value) (name : String) (args : List Value) :
    r.methodTarget target.shape name args = r.methodTarget target name args := by
  cases target <;> rfl

/-- The callable of a call of alike values. -/
theorem Blind.methodTarget {target target' : Value} (same : target.Alike target') (name : String) :
    AlikeTargets (r.methodTarget target name args) (r.methodTarget target' name args') := by
  rw [← methodTarget_shape target', ← same, methodTarget_shape]
  cases target with
  | hostClass ref => exact staticTarget_alike alike (blind ref) name
  | object o ref =>
      simp only [Registry.methodTarget]
      split
      · next candidates found =>
        exact pick_alike alike fun p mem {_ _} same => (blind ref).methods found p mem _ same
      · exact staticTarget_alike alike (blind ref) name
  | _ => rfl

/-- The callable of a construction. -/
theorem Blind.constructorTarget (ref : ClassRef) :
    AlikeTargets (r.constructorTarget ref args) (r.constructorTarget ref args') := by
  unfold Registry.constructorTarget
  dsimp only
  split
  · rfl
  · exact pick_alike alike fun o mem {_ _} same => (blind ref).constructors o mem ref same

end

end Registry

end ScriptConsole
