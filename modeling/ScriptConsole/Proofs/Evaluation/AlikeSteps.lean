import ScriptConsole.Proofs.Evaluation.AlikeRuns

/-!
# Steps That Do Not Look at Places

The steps that evaluation takes itself are in step with themselves on alike values: they look names
up and bind them, ask the host, apply operators and carry out the builtins that call nothing back.

## Main results

* `HostAccess.alike_call`: a call of the host, with its record in the trace.
* `Plain.alike_apply`: a builtin that calls nothing back.
-/

namespace ScriptConsole

open Value (AlikeEach)

namespace Run

/-- A result that has been computed aside. -/
theorem alike_ofExcept {r q : Except EvalError Value} (h : r.map Value.shape = q.map Value.shape) :
    Alike Value.Alike (.ofExcept r) (.ofExcept q) := by
  refine .ofExcept ?_
  cases r with
  | ok a =>
      cases q with
      | ok b => exact Except.ok.inj h
      | error e => cases h
  | error e =>
      cases q with
      | ok b => cases h
      | error e' => exact Except.error.inj h

/-- A computation that is the same on both sides. -/
theorem alike_ofExcept_eq {α : Type} (r : Except EvalError α) :
    Alike Eq (.ofExcept r) (.ofExcept r) := by
  refine .ofExcept ?_
  cases r <;> rfl

end Run

open Run (Alike)

/-- Whether there are values on both sides, and alike ones, or on neither. -/
def AlikeFound (a b : Option Value) : Prop := a.map Value.shape = b.map Value.shape

/-- What has been found under a name, or the error that there is nothing. -/
theorem Plain.alike_bound (name : String) {a b : Option Value} (h : AlikeFound a b) :
    Alike Value.Alike (bound name a) (bound name b) := by
  cases a with
  | none =>
      cases b with
      | none => exact .fault _
      | some b => cases h
  | some a =>
      cases b with
      | none => cases h
      | some b => exact .pure (Option.some.inj h)

/-- What a name is bound to in alike frames. -/
theorem alike_lookupName (env : FrameId) (name : String) :
    Alike Value.Alike (lookupName env name) (lookupName env name) :=
  (Alike.look (R := AlikeFound) fun alike => alike.frames.lookup? env name).bind fun h =>
    Plain.alike_bound name h

/-- Alike values are bound in alike frames. -/
theorem alike_defineName (env : FrameId) (name : String) {v v' : Value} (h : v.Alike v') :
    Alike Value.Alike (defineName env name v) (defineName env name v') :=
  .onFrames fun alike => ⟨h, alike.define env name h⟩

section host

variable {registry : Registry} (blind : registry.Blind)

include blind

namespace HostAccess

/-- Alike values are shown alike. -/
theorem alike_display {v v' : Value} (h : v.Alike v') :
    Alike Eq (display registry v) (display registry v') :=
  .look fun alike => by rw [blind.legend_eq alike.world, h.display_eq]

/-- Members of alike values are alike. -/
theorem alike_member {target target' : Value} (h : target.Alike target') (name : String) :
    Alike Value.Alike (member registry target name) (member registry target' name) := by
  refine Alike.bind (Alike.onWorld (R := fun a b => a.map Value.shape = b.map Value.shape)
    fun alike => ?_) fun same => Run.alike_ofExcept same
  have outcomes := blind.member h name alike
  exact ⟨outcomes.result, outcomes.world⟩

/-- Members of members, by induction on the path. -/
theorem alike_members {target target' : Value} (h : target.Alike target') (names : List String) :
    Alike Value.Alike (members registry target names) (members registry target' names) := by
  induction names generalizing target target' with
  | nil => exact .pure h
  | cons name rest ih => exact (alike_member blind h name).bind fun same => ih same

/-- What a path leads to in alike worlds. -/
theorem alike_readPath (segments : List String) :
    Alike Value.Alike (readPath registry segments) (readPath registry segments) := by
  refine (Run.alike_ofExcept_eq _).bind fun {a b} same => ?_
  subst same
  exact alike_members blind (.refl _) _

omit blind in
/-- A result is traced by its shape. -/
theorem outcome_eq (legend : Legend) {r q : Except HostError Value}
    (h : r.map Value.shape = q.map Value.shape) : outcome legend r = outcome legend q := by
  have through : ∀ r : Except HostError Value, outcome legend (r.map Value.shape) =
      outcome legend r := by
    intro r
    cases r with
    | ok v => simp only [Except.map, outcome, TraceOutput.ok, TraceValue.ofValue_shape]
    | error e => rfl
  rw [← through r, h, through]

omit blind in
/-- Arguments are traced by their shapes. -/
theorem ofValues_eq (legend : Legend) {args args' : List Value} (h : AlikeEach args args') :
    TraceValue.ofValues legend args = TraceValue.ofValues legend args' := by
  rw [← TraceValue.ofShapes_eq, Value.shapeItems_eq_map, h, ← Value.shapeItems_eq_map,
    TraceValue.ofShapes_eq]

/-- A call of alike callables: the same record in the trace, and alike results. -/
theorem alike_call {target target' : Registry.Target} (same : target.Alike target')
    {args args' : List Value} (h : AlikeEach args args') :
    Alike Value.Alike (call registry target args) (call registry target' args') := by
  rintro ⟨frames, world, console, tracer, depth⟩ ⟨frames', world', console', tracer', depth'⟩ alike
  obtain ⟨hframes, hworld, rfl, rfl, rfl⟩ := alike
  have outcomes := same.call hworld
  rcases hp : target.call world with ⟨result, after⟩
  rcases hq : target'.call world' with ⟨result', after'⟩
  rw [hp, hq] at outcomes
  simp only [call, hp, hq]
  have hafter : after.Alike after' := outcomes.world
  have hresult : result.map Value.shape = result'.map Value.shape := outcomes.result
  rw [blind.legend_eq hafter, outcome_eq _ hresult, ofValues_eq _ h, same.className, same.member]
  cases result with
  | ok v =>
      cases result' with
      | ok v' => exact .ok (Except.ok.inj hresult) ⟨hframes, hafter, rfl, rfl, rfl⟩
      | error e => cases hresult
  | error e =>
      cases result' with
      | ok v' => cases hresult
      | error e' =>
          cases hresult
          exact .stop (.fault (.same _)) ⟨hframes, hafter, rfl, rfl, rfl⟩

omit blind in
/-- What a search for a callable has found. -/
theorem alike_ofTargets {r q : Except EvalError Registry.Target} (h : Registry.AlikeTargets r q) :
    Alike Registry.Target.Alike (.ofExcept r) (.ofExcept q) := by
  refine .ofExcept ?_
  cases r <;> cases q <;> exact h

/-- A method is called with alike arguments. -/
theorem alike_invoke {target target' : Value} (same : target.Alike target') (name : String)
    {args args' : List Value} (h : AlikeEach args args') :
    Alike Value.Alike (invoke registry target name args) (invoke registry target' name args') :=
  (alike_ofTargets (blind.methodTarget h same name)).bind fun found => alike_call blind found h

/-- A constructor is called with alike arguments. -/
theorem alike_construct (ref : ClassRef) {args args' : List Value} (h : AlikeEach args args') :
    Alike Value.Alike (construct registry ref args) (construct registry ref args') :=
  (alike_ofTargets (blind.constructorTarget h ref)).bind fun found => alike_call blind found h

/-- What a path leads to is called with alike arguments. -/
theorem alike_callPath (ref : ClassRef) (path : List String) {args args' : List Value}
    (h : AlikeEach args args') :
    Alike Value.Alike (callPath registry ref path args) (callPath registry ref path args') := by
  unfold callPath
  split
  · exact alike_construct blind ref h
  · exact (alike_members blind (.refl _) _).bind fun same => alike_invoke blind same _ h

end HostAccess

/-- Operators do not look at places. -/
theorem alike_applyBinary (op : BinaryOp) {a a' b b' : Value} (first : a.Alike a')
    (second : b.Alike b') :
    Alike Value.Alike (applyBinary registry op a b) (applyBinary registry op a' b') := by
  refine (Alike.look (R := Eq) fun alike => ?_).bind fun {r q} same => ?_
  · rw [blind.legend_eq alike.world, first.binary_eq second]
  · subst same
    exact Run.alike_ofExcept rfl

end host

/-! ### Builtins -/

namespace Plain

/-- An argument that has to be a name. -/
theorem alike_nameArgument (b : Builtin) {v v' : Value} (h : v.Alike v') :
    Alike Eq (nameArgument b v) (nameArgument b v') := by
  unfold nameArgument
  rw [h.toText?_eq, h.kind_eq]
  split
  · exact .pure rfl
  · exact .fault _

/-- An argument that has to be an integer. -/
theorem alike_integerArgument (b : Builtin) {v v' : Value} (h : v.Alike v') :
    Alike Eq (integerArgument b v) (integerArgument b v') := by
  unfold integerArgument
  rw [h.toInt64?_eq, h.kind_eq]
  split
  · exact .pure rfl
  · exact .fault _

/-- Lists of alike elements. -/
theorem alike_newList {items items' : List Value} (h : AlikeEach items items') :
    Alike Value.Alike (newList items) (newList items') :=
  .onWorld fun alike => ⟨(alike.newList h).value, (alike.newList h).world⟩

/-- The name of a type shows in the shape. -/
theorem typeName_shape (v : Value) : typeName v.shape = typeName v := by cases v <;> rfl

/-- Whether a value is a narrow integer shows in the shape. -/
theorem isInt_shape (v : Value) : isInt v.shape = isInt v := by cases v <;> rfl

/-- Ranges are made of numbers. -/
theorem alike_range {a a' b b' : Value} (first : a.Alike a') (second : b.Alike b') :
    Alike Value.Alike (range a b) (range a' b') := by
  unfold range
  refine (alike_integerArgument _ first).bind fun {low low'} same => ?_
  subst same
  refine (alike_integerArgument _ second).bind fun {high high'} same => ?_
  subst same
  rw [← isInt_shape a, first, isInt_shape, ← isInt_shape b, second, isInt_shape]
  split
  · exact alike_newList rfl
  · dsimp only
    split
    · exact .fault _
    · exact alike_newList rfl

/-- Elements of alike sequences. -/
theorem alike_element {items items' : List Value} (h : AlikeEach items items') (index : Int64) :
    Alike Value.Alike (element items index) (element items' index) := by
  have found : AlikeFound ((place? items.length index).bind fun i => items[i]?)
      ((place? items'.length index).bind fun i => items'[i]?) := by
    rw [h.length_eq]
    cases place? items'.length index with
    | none => rfl
    | some i => exact h.getElem? i
  unfold element
  rw [h.length_eq] at found ⊢
  generalize ((place? items'.length index).bind fun i => items[i]?) = a,
    ((place? items'.length index).bind fun i => items'[i]?) = b at found
  cases a <;> cases b
  · exact .fault _
  · cases found
  · cases found
  · exact .pure (Option.some.inj found)

/-- What stands at an index of alike sequences. -/
theorem alike_get {sequence sequence' index index' : Value} (first : sequence.Alike sequence')
    (second : index.Alike index') :
    Alike Value.Alike (get sequence index) (get sequence' index') := by
  unfold get
  refine (alike_integerArgument _ second).bind fun {i i'} same => ?_
  subst same
  rcases first.cases with ⟨identity, items, items', rfl, rfl, same⟩ | ⟨f, f', rfl, rfl, -⟩ | rfl
  · exact alike_element same i
  · exact .fault _
  · cases sequence with
    | list _ items => exact alike_element (.refl _) i
    | text s => exact alike_element (.refl _) i
    | _ => exact .fault _

/-- An argument that has to be a number of calls. -/
theorem alike_exitDepth {v v' : Value} (h : v.Alike v') :
    Alike Eq (exitDepth v) (exitDepth v') := by
  unfold exitDepth
  refine (alike_integerArgument _ h).bind fun {d d'} same => ?_
  subst same
  split
  · exact .pure rfl
  · exact .fault _

section host

variable {registry : Registry} (blind : registry.Blind)

include blind

/-- A line is made of what the arguments show. -/
theorem alike_joined {args args' : List Value} (h : AlikeEach args args') :
    Alike Eq (joined registry args) (joined registry args') :=
  .look fun alike => by
    rw [blind.legend_eq alike.world, h.map_eq fun v => v.display_shape _]

/-- What a step on the items of an object gives, if the object can be gone through. -/
theorem alike_onElements {α β : Type} {R : α → β → Prop} (o : ObjectId) (c : ClassRef)
    {fault : EvalError} {f : List Value → α} {g : List Value → β}
    (h : ∀ {items items' : List Value}, AlikeEach items items' → R (f items) (g items')) :
    Alike R
      (fun m => match registry.elements? m.world o c with
        | some items => (.ok (f items), m)
        | none => (.error (.fault fault), m))
      (fun m => match registry.elements? m.world o c with
        | some items => (.ok (g items), m)
        | none => (.error (.fault fault), m)) := by
  intro m m' alike
  have same := blind.elements? alike.world o c
  dsimp only
  cases first : registry.elements? m.world o c <;>
    cases second : registry.elements? m'.world o c <;> rw [first, second] at same
  · exact .stop (.fault (.same _)) alike
  · cases same
  · cases same
  · exact .ok (h (Option.some.inj same)) alike

/-- The lengths of alike sequences are equal. -/
theorem alike_length {v v' : Value} (h : v.Alike v') :
    Alike Value.Alike (length registry v) (length registry v') := by
  unfold length
  rcases h.cases with ⟨_, items, items', rfl, rfl, same⟩ | ⟨f, f', rfl, rfl, -⟩ | rfl
  · exact .pure (congrArg (fun n => (size n).shape) same.length_eq)
  · exact .fault _
  · cases v with
    | text s => exact .pure rfl
    | list _ items => exact .pure rfl
    | object o c =>
        exact alike_onElements blind o c fun same =>
          congrArg (fun n => (size n).shape) same.length_eq
    | _ => exact .fault _

/-- The elements of alike sequences are alike. -/
theorem alike_elements {v v' : Value} (h : v.Alike v') :
    Alike AlikeEach (elements registry v) (elements registry v') := by
  unfold elements
  rcases h.cases with ⟨_, items, items', rfl, rfl, same⟩ | ⟨f, f', rfl, rfl, -⟩ | rfl
  · exact .pure same
  · exact .fault _
  · cases v with
    | text s => exact .pure (.refl _)
    | list _ items => exact .pure (.refl _)
    | object o c => exact alike_onElements blind o c fun same => same
    | _ => exact .fault _

section

variable (env : FrameId)

/-- A line that is printed is the same. -/
theorem alike_print {args args' : List Value} (h : AlikeEach args args') :
    Alike Value.Alike (apply registry env .print args) (apply registry env .print args') :=
  (alike_joined blind h).bind fun {line line'} same => by
    subst same
    exact (Alike.print line).bind fun _ => .pure rfl

/-- Builtins without arguments. -/
theorem alike_applyNone (b : Builtin) :
    Alike Value.Alike (apply registry env b []) (apply registry env b []) := by
  cases b with
  | print => exact alike_print blind env rfl
  | list => exact alike_newList rfl
  | exit => exact .stop (.exit 1 rfl)
  | locals =>
      refine (Alike.look (R := Eq) fun alike => alike.frames.names env).bind
        fun {names _} same => ?_
      subst same
      exact alike_newList (.refl _)
  | globals =>
      refine (Alike.look (R := Eq) fun {m m'} alike => ?_).bind fun {names _} same => ?_
      · rw [alike.frames.root, alike.frames.names]
      · subst same
        exact alike_newList (.refl _)
  | _ => exact .stop .stuck

/-- Builtins with one argument. -/
theorem alike_applyOne (b : Builtin) {v v' : Value} (h : v.Alike v') :
    Alike Value.Alike (apply registry env b [v]) (apply registry env b [v']) := by
  cases b with
  | print => exact alike_print blind env (h.cons rfl)
  | list => exact alike_newList (h.cons rfl)
  | throw => exact .stop (.fault (.thrown h))
  | negation => exact .pure (congrArg (fun b => Value.bool !b) h.truthy_eq)
  | isNull => exact .pure (congrArg (fun k : Kind => Value.bool (k = .null)) h.kind_eq)
  | isClass => exact .pure (congrArg (fun k : Kind => Value.bool (k = .hostClass)) h.kind_eq)
  | isBound =>
      exact (alike_nameArgument _ h).bind fun {name name'} same => by
        subst same
        exact .look fun alike => congrArg Value.bool (alike.frames.isBound env name)
  | getGlobal =>
      exact (alike_nameArgument _ h).bind fun {name name'} same => by
        subst same
        exact (Alike.look (R := AlikeFound) fun alike => alike.frames.getGlobal? env name).bind
          fun found => alike_bound name found
  | getParentVar =>
      exact (alike_nameArgument _ h).bind fun {name name'} same => by
        subst same
        exact (Alike.look (R := AlikeFound) fun alike => alike.frames.getOuter? env name).bind
          fun found => alike_bound name found
  | exit => exact .stop (.exit 1 h)
  | display =>
      exact (HostAccess.alike_display blind h).bind fun same => .pure (congrArg Value.text same)
  | typeOf => exact .pure (congrArg Value.text (by rw [← typeName_shape, h, typeName_shape]))
  | length => exact alike_length blind h
  | _ => exact .stop .stuck

/-- Builtins with two arguments. -/
theorem alike_applyTwo (b : Builtin) {a a' v v' : Value} (first : a.Alike a')
    (second : v.Alike v') :
    Alike Value.Alike (apply registry env b [a, v]) (apply registry env b [a', v']) := by
  cases b with
  | print => exact alike_print blind env (first.cons (second.cons rfl))
  | list => exact alike_newList (first.cons (second.cons rfl))
  | range => exact alike_range first second
  | both => exact .pure (congrArg Value.bool (by rw [first.truthy_eq, second.truthy_eq]))
  | either => exact .pure (congrArg Value.bool (by rw [first.truthy_eq, second.truthy_eq]))
  | eql => exact .pure (congrArg Value.bool (first.eql_eq second))
  | setGlobal =>
      exact (alike_nameArgument _ first).bind fun {name name'} same => by
        subst same
        exact .onFrames fun alike => ⟨second, alike.setGlobal env name second⟩
  | exitMany =>
      exact (alike_exitDepth first).bind fun {depth depth'} same => by
        subst same
        exact .stop (.exit depth second)
  | get => exact alike_get first second
  | _ => exact .stop .stuck

/-- Builtins that call nothing back do the same with alike arguments. -/
theorem alike_apply (b : Builtin) {args args' : List Value} (h : AlikeEach args args') :
    Alike Value.Alike (apply registry env b args) (apply registry env b args') := by
  rcases h.forall₂ with _ | ⟨first, _ | ⟨second, _ | ⟨third, rest⟩⟩⟩
  · exact alike_applyNone blind env b
  · exact alike_applyOne blind env b first
  · exact alike_applyTwo blind env b first second
  · cases b with
    | print => exact alike_print blind env h
    | list => exact alike_newList h
    | _ => exact .stop .stuck

end

end host

end Plain

end ScriptConsole
