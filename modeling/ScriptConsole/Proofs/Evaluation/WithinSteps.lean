import ScriptConsole.Eval.Evaluator
import ScriptConsole.Proofs.Host.Honest

/-!
# Steps That Keep to a Discipline

A run keeps to a discipline if on a machine that does, it leaves one that does, at a later stage,
and ends with a result or a stop that may be at hand then (`Run.Within`). What it starts from is
fixed with the stage; what is known of it then is still known at later stages.

The steps that evaluation takes itself are such runs: they look names up and bind them, ask a host
that keeps to the discipline, apply operators and carry out the builtins that call nothing back.

## Main results

* `Run.Within.bind` and its like: runs that keep to a discipline, put together.
* `HostAccess.within_call`: a call of the host.
* `Plain.within_apply`: a builtin that calls nothing back.
-/

namespace ScriptConsole

variable {σ : Type} {D : Discipline σ} {n : σ}

/-- Whether a run has ended within a discipline, at a stage not before `n`, with a result of some
kind. -/
inductive WithinEnd {α : Type} (D : Discipline σ) (n : σ) (R : σ → α → Prop) :
    Except Stop α × Machine → Prop
  | ok {n' : σ} {a : α} {m : Machine} : D.Later n n' → m.Within D n' → R n' a →
      WithinEnd D n R (.ok a, m)
  | stop {n' : σ} {e : Stop} {m : Machine} : D.Later n n' → m.Within D n' →
      D.HasEach n' e.values → WithinEnd D n R (.error e, m)

/-- What ends within a discipline from a later stage on does so from an earlier one on. -/
theorem WithinEnd.weaken {α : Type} {R : σ → α → Prop} {n' : σ} (later : D.Later n n')
    {o : Except Stop α × Machine} (h : WithinEnd D n' R o) : WithinEnd D n R o := by
  cases h with
  | ok further machine result => exact .ok (D.trans later further) machine result
  | stop further machine values => exact .stop (D.trans later further) machine values

/-- Whether a computation aside gives something that may be at hand, or an error that carries
nothing. -/
structure Discipline.HasOutcome (D : Discipline σ) (n : σ) (r : Except EvalError Value) : Prop where
  value : D.HasResult n r
  error : ∀ e, r = .error e → e.values = []

/-- Scalars may always be at hand. -/
theorem Value.Scalar.hasOutcome {r : Except EvalError Value} (h : Scalar r) :
    D.HasOutcome n r := by
  cases h with
  | ok scalar => exact ⟨Discipline.hasResult_ok (D.scalar scalar), by simp⟩
  | error none => exact ⟨by simp [Discipline.HasResult], fun _ same => Except.error.inj same ▸ none⟩

namespace Run

variable {α β : Type} {R : σ → α → Prop} {S : σ → β → Prop}

/-- Whether a run keeps to a discipline from a stage on. -/
def Within (D : Discipline σ) (n : σ) (R : σ → α → Prop) (x : Run α) : Prop :=
  ∀ m, m.Within D n → WithinEnd D n R (x m)

namespace Within

/-- A result that is right at the stage there is. -/
theorem pure {a : α} (h : R n a) : Within D n R (Pure.pure a) :=
  fun _ within_ => .ok (D.refl n) within_ h

/-- Runs one after the other: the second starts at whatever stage the first has come to. -/
theorem bind {x : Run α} {f : α → Run β} (first : x.Within D n R)
    (second : ∀ n', D.Later n n' → ∀ a, R n' a → (f a).Within D n' S) :
    (x >>= f).Within D n S := by
  intro m within_
  have ends := first m within_
  rw [bind_apply]
  generalize x m = o at ends
  cases ends with
  | ok later machine result => exact (second _ later _ result _ machine).weaken later
  | stop later machine values => exact .stop later machine values

/-- A stop with values that may be at hand. -/
theorem stop {e : Stop} (h : D.HasEach n e.values) : Within D n R (.stop e : Run α) :=
  fun _ within_ => .stop (D.refl n) within_ h

/-- An error that carries nothing. -/
theorem fault {e : EvalError} (h : e.values = []) : Within D n R (.fault e : Run α) := by
  have none : D.HasEach n (Stop.fault e).values := by
    rw [Stop.values, h]
    exact Discipline.hasEach_nil
  exact stop none

/-- A look at the machine, with a result that is right of all machines at the stage. -/
theorem look {f : Machine → α} (h : ∀ m : Machine, m.Within D n → R n (f m)) :
    Within D n R (.look f) :=
  fun m within_ => .ok (D.refl n) within_ (h m within_)

/-- What is done with the world goes on to a stage with no more frames. -/
theorem onWorld {f : World → α × World} (h : ∀ w, w.Keeps D n → World.Done D n R (f w)) :
    Within D n R (.onWorld f) := by
  rintro ⟨frames, world, console, tracer, depth⟩ within_
  obtain ⟨n', beside, kept, result⟩ := h world within_.world
  exact .ok beside.later ⟨within_.frames.mono beside, kept⟩ result

/-- What is done with the frames goes on to a stage with the same next identity. -/
theorem onFrames {f : Frames → α × Frames}
    (h : ∀ fs : Frames, fs.Within D n → ∃ n', D.Later n n' ∧ (∀ i, D.next n i → D.next n' i) ∧
      (f fs).2.Within D n' ∧ R n' (f fs).1) : Within D n R (.onFrames f) := by
  rintro ⟨frames, world, console, tracer, depth⟩ within_
  obtain ⟨n', later, next, kept, result⟩ := h frames within_.frames
  have world' : world.Keeps D n' :=
    ⟨next _ within_.world.next, fun o => (within_.world.kept o).mono later⟩
  exact .ok later ⟨kept, world'⟩ result

/-- Lines are printed without a change in what is held. -/
theorem print (line : String) : Within D n (fun _ _ => True) (.print line) :=
  fun _ within_ => .ok (D.refl n) ⟨within_.frames, within_.world⟩ trivial

/-- The result of a computation aside, or an error that carries nothing. -/
theorem ofExcept {r : Except EvalError α} (value : ∀ a, r = .ok a → R n a)
    (error : ∀ e, r = .error e → e.values = []) : Within D n R (.ofExcept r) := by
  cases r with
  | ok a => exact pure (value a rfl)
  | error e => exact fault (error e rfl)

/-- A computation aside that gives something that may be at hand. -/
theorem ofOutcome {r : Except EvalError Value} (h : D.HasOutcome n r) :
    Within D n D.Has (.ofExcept r) :=
  ofExcept h.value h.error

/-- A handler starts at the stage that the failed run has come to, with what the error carries. -/
theorem catchFault {x : Run α} {handler : EvalError → Run α} (first : x.Within D n R)
    (second : ∀ n', D.Later n n' → ∀ e : EvalError, D.HasEach n' e.values →
      (handler e).Within D n' R) : (x.catchFault handler).Within D n R := by
  intro m within_
  have ends := first m within_
  unfold Run.catchFault
  generalize x m = o at ends
  cases ends with
  | ok later machine result => exact .ok later machine result
  | @stop n' e m' later machine values =>
      cases e with
      | fault e => exact (second _ later e values _ machine).weaken later
      | _ => exact .stop later machine values

/-- An exit that becomes the value of a call is a value that may be at hand. -/
theorem absorbExit {x : Run Value} (inside : x.Within D n fun n v => D.HasEach n [v]) :
    x.absorbExit.Within D n fun n v => D.HasEach n [v] := by
  intro m within_
  have ends := inside m within_
  unfold Run.absorbExit
  generalize x m = o at ends
  cases ends with
  | ok later machine result => exact .ok later machine result
  | @stop n' e m' later machine values =>
      cases e with
      | exit depth v =>
          dsimp only
          split
          · exact .ok later machine values
          · exact .stop later machine values
      | _ => exact .stop later machine values

/-- How many calls are running does not matter. -/
theorem deeper {x : Run α} (inside : x.Within D n R) : x.deeper.Within D n R := by
  rintro ⟨frames, world, console, tracer, depth⟩ within_
  have ends := inside ⟨frames, world, console, tracer, depth + 1⟩
    ⟨within_.frames, within_.world⟩
  simp only [Run.deeper]
  generalize x _ = o at ends
  cases ends with
  | ok later machine result => exact .ok later ⟨machine.frames, machine.world⟩ result
  | stop later machine values => exact .stop later ⟨machine.frames, machine.world⟩ values

end Within

end Run

open Run (Within)

/-! ### Names -/

/-- What has been found under a name, or the error that there is nothing. -/
theorem Plain.within_bound (name : String) {found : Option Value} (h : D.HasFound n found) :
    (bound name found).Within D n D.Has := by
  cases found with
  | some v => exact .pure (h v rfl)
  | none => exact .fault rfl

/-- What a name is bound to may be at hand. -/
theorem within_lookupName (env : FrameId) (name : String) :
    (lookupName env name).Within D n D.Has := by
  refine (Within.look (R := D.HasFound) fun m within_ v found => ?_).bind
    fun n' _ found has => Plain.within_bound name has
  exact within_.frames.search found

/-- A binding in one frame or another. -/
theorem within_binding (frame : Frames → FrameId) (name : String) {v : Value} (has : D.Has n v) :
    (Run.onFrames fun fs => (v, fs.define (frame fs) name v)).Within D n D.Has :=
  .onFrames fun fs within_ =>
    ⟨n, D.refl n, fun _ next => next, within_.define (frame fs) name has, has⟩

/-- A name is bound in a frame. -/
theorem within_defineName (env : FrameId) (name : String) {v : Value} (has : D.Has n v) :
    (defineName env name v).Within D n D.Has :=
  within_binding (fun _ => env) name has

/-! ### The host -/

namespace HostAccess

variable {registry : Registry}

/-- How a value is shown is no value. -/
theorem within_display (v : Value) :
    (display registry v).Within D n fun _ _ => True :=
  .look fun _ _ => trivial

section

variable (keeps : registry.Keeps D)

include keeps

/-- What a member holds may be at hand. -/
theorem within_member (target : Value) (name : String) :
    (member registry target name).Within D n D.Has := by
  refine (Within.onWorld (R := D.HasOutcome) fun w kept => ?_).bind
    fun n' _ r has => .ofOutcome has
  obtain ⟨n', beside, after, result⟩ := keeps.member target name kept
  exact ⟨n', beside, after, result, fun e failed =>
    (Registry.rejection_of_member failed).values_eq_nil⟩

/-- Members of members, by induction on the path. -/
theorem within_members {target : Value} (has : D.Has n target) (names : List String) :
    (members registry target names).Within D n D.Has := by
  induction names generalizing n target with
  | nil => exact .pure has
  | cons name rest ih => exact (within_member keeps target name).bind fun n' _ v => ih

/-- What a path of the host leads to may be at hand. -/
theorem within_readPath (segments : List String) :
    (readPath registry segments).Within D n D.Has := by
  have resolved : (Run.ofExcept (registry.resolvePath segments)).Within D n fun _ _ => True :=
    .ofExcept (fun _ _ => trivial) fun e failed =>
      (Registry.rejection_of_resolvePath failed).values_eq_nil
  exact resolved.bind fun n' _ found _ =>
    within_members keeps (D.scalar rfl) _

omit keeps in
/-- A call of the host, with its record in the trace. -/
theorem within_call {target : Registry.Target} (keeps : target.call.Keeps D n)
    (args : List Value) : (call registry target args).Within D n D.Has := by
  rintro ⟨frames, world, console, tracer, depth⟩ within_
  obtain ⟨n', beside, kept, has⟩ := keeps world within_.world
  have frames' := within_.frames.mono beside
  rcases hc : target.call world with ⟨result, after⟩
  rw [hc] at kept has
  simp only [call, hc]
  cases result with
  | ok v => exact .ok beside.later ⟨frames', kept⟩ (has v rfl)
  | error e => exact .stop beside.later ⟨frames', kept⟩ Discipline.hasEach_nil

/-- A call of what a search finds. -/
theorem within_callFound {args : List Value} (has : D.HasEach n args)
    {search : Except EvalError Registry.Target}
    (found : ∀ target, search = .ok target → registry.Offers args target)
    (rejected : ∀ e, search = .error e → Rejection e) :
    (do let target ← Run.ofExcept search; call registry target args).Within D n D.Has := by
  have searched : (Run.ofExcept search).Within D n fun _ target => registry.Offers args target :=
    .ofExcept found fun e failed => (rejected e failed).values_eq_nil
  exact searched.bind fun n' later target offered =>
    within_call (keeps.offers offered (has.mono later)) args

/-- A call of a method. -/
theorem within_invoke (target : Value) (name : String) {args : List Value}
    (has : D.HasEach n args) : (invoke registry target name args).Within D n D.Has :=
  within_callFound keeps has (fun _ => Registry.offers_of_methodTarget) fun _ =>
    Registry.rejection_of_methodTarget

/-- A call of a constructor. -/
theorem within_construct (ref : ClassRef) {args : List Value} (has : D.HasEach n args) :
    (construct registry ref args).Within D n D.Has :=
  within_callFound keeps has (fun _ => Registry.offers_of_constructorTarget) fun _ =>
    Registry.rejection_of_constructorTarget

/-- A call of what a path of the host leads to. -/
theorem within_callPath (ref : ClassRef) (path : List String) {args : List Value}
    (has : D.HasEach n args) : (callPath registry ref path args).Within D n D.Has := by
  unfold callPath
  split
  · exact within_construct keeps ref has
  · exact (within_members keeps (D.scalar rfl) _).bind fun n' later target _ =>
      within_invoke keeps target _ (has.mono later)

end

end HostAccess

/-- Operators give scalars. -/
theorem within_applyBinary (registry : Registry) (op : BinaryOp) (a b : Value) :
    (applyBinary registry op a b).Within D n D.Has := by
  refine (Within.look (R := fun _ r => Value.Scalar r) fun m _ => ?_).bind
    fun n' _ r scalar => .ofOutcome scalar.hasOutcome
  exact Value.scalar_binary _ op a b

/-! ### Builtins -/

namespace Plain

/-- An argument that has to be a name. -/
theorem within_nameArgument (b : Builtin) (v : Value) :
    (nameArgument b v).Within D n fun _ _ => True := by
  unfold nameArgument
  split
  · exact .pure trivial
  · exact .fault rfl

/-- An argument that has to be an integer. -/
theorem within_integerArgument (b : Builtin) (v : Value) :
    (integerArgument b v).Within D n fun _ _ => True := by
  unfold integerArgument
  split
  · exact .pure trivial
  · exact .fault rfl

/-- A list is made. -/
theorem within_newList {items : List Value} (has : D.HasEach n items) :
    (newList items).Within D n D.Has :=
  .onWorld fun _ kept => kept.newList has

/-- The number of elements is a scalar. -/
theorem scalar_size (count : Nat) : (size count).isScalar = true := by
  unfold size
  split <;> rfl

/-- Values that come out of scalars only. -/
theorem hasEach_of_scalar {vs : List Value} (h : ∀ v ∈ vs, v.isScalar = true) : D.HasEach n vs :=
  fun v mem => D.scalar (h v mem)

/-- Numbers are scalars. -/
theorem hasEach_rangeItems (narrow : Bool) (low high : Int) :
    D.HasEach n (rangeItems narrow low high) := by
  refine hasEach_of_scalar fun v mem => ?_
  obtain ⟨i, -, rfl⟩ := List.mem_map.mp mem
  split <;> rfl

/-- Characters are scalars. -/
theorem hasEach_characters (text : String) : D.HasEach n (characters text) := by
  refine hasEach_of_scalar fun v mem => ?_
  obtain ⟨c, -, rfl⟩ := List.mem_map.mp mem
  rfl

/-- Texts are scalars. -/
theorem hasEach_texts (names : List String) : D.HasEach n (names.map .text) := by
  refine hasEach_of_scalar fun v mem => ?_
  obtain ⟨name, -, rfl⟩ := List.mem_map.mp mem
  rfl

/-- A range is made of numbers. -/
theorem within_range (a b : Value) : (range a b).Within D n D.Has := by
  refine (within_integerArgument _ a).bind fun _ _ low _ =>
    (within_integerArgument _ b).bind fun _ _ high _ => ?_
  split
  · exact within_newList Discipline.hasEach_nil
  · dsimp only
    split
    · exact .fault rfl
    · exact within_newList (hasEach_rangeItems _ _ _)

/-- An element of a sequence may be at hand if all of them may. -/
theorem within_element {items : List Value} (has : D.HasEach n items) (index : Int64) :
    (element items index).Within D n D.Has := by
  unfold element
  split
  · next v found =>
    obtain ⟨i, -, at_⟩ := Option.bind_eq_some_iff.mp found
    exact .pure (has.getElem? at_)
  · exact .fault rfl

/-- What stands at an index of a sequence may be at hand if the sequence may. -/
theorem within_get {sequence : Value} (has : D.Has n sequence) (index : Value) :
    (get sequence index).Within D n D.Has := by
  refine (within_integerArgument _ index).bind fun n' later i _ => ?_
  split
  · exact within_element (D.items (D.mono later has)) i
  · exact within_element (hasEach_characters _) i
  · exact .fault rfl

/-- An argument that has to be a number of calls. -/
theorem within_exitDepth (v : Value) : (exitDepth v).Within D n fun _ _ => True := by
  refine (within_integerArgument _ v).bind fun _ _ depth _ => ?_
  split
  · exact .pure trivial
  · exact .fault rfl

section

variable {registry : Registry} (keeps : registry.Keeps D)

include keeps

/-- The elements that a loop goes through. -/
theorem within_elements {v : Value} (has : D.Has n v) :
    (elements registry v).Within D n D.HasEach := by
  unfold elements
  cases v with
  | list i items => exact .pure (D.items has)
  | text text => exact .pure (hasEach_characters text)
  | object o c =>
      intro m within_
      dsimp only
      split
      · next items found => exact .ok (D.refl n) within_ (keeps.elements? within_.world found)
      · exact .stop (D.refl n) within_ Discipline.hasEach_nil
  | _ => exact .fault rfl

omit keeps

/-- The length of a sequence is a number. -/
theorem within_length (v : Value) : (length registry v).Within D n D.Has := by
  unfold length
  cases v with
  | list i items => exact .pure (D.scalar (scalar_size _))
  | text text => exact .pure (D.scalar (scalar_size _))
  | object o c =>
      intro m within_
      dsimp only
      split
      · exact .ok (D.refl n) within_ (D.scalar (scalar_size _))
      · exact .stop (D.refl n) within_ Discipline.hasEach_nil
  | _ => exact .fault rfl

/-- Printing gives `null`. -/
theorem within_print (env : FrameId) (args : List Value) :
    (apply registry env .print args).Within D n D.Has := by
  have text : (joined registry args).Within D n fun _ _ => True := .look fun _ _ => trivial
  exact text.bind fun _ _ line _ => (Within.print line).bind fun _ _ _ _ =>
    .pure (D.scalar rfl)

/-- The names of a frame, as a list. -/
theorem within_names (f : Machine → List String) :
    (do let names ← Run.look f; newList (names.map .text)).Within D n D.Has :=
  (Within.look (R := fun _ _ => True) fun _ _ => trivial).bind fun _ _ names _ =>
    within_newList (hasEach_texts names)

/-- The value of a name that is looked for in some way. -/
theorem within_found (b : Builtin) (v : Value) {search : String → Machine → Option Value}
    (h : ∀ (name : String) (n : σ) (m : Machine), m.Within D n → D.HasFound n (search name m)) :
    (do
      let name ← nameArgument b v
      let found ← Run.look (search name)
      bound name found).Within D n D.Has := by
  refine (within_nameArgument b v).bind fun n' _ name _ => ?_
  exact (Within.look (R := D.HasFound) (h name n')).bind fun _ _ found has =>
    within_bound name has

/-- Builtins without arguments. -/
theorem within_applyNone (env : FrameId) (b : Builtin) :
    (apply registry env b []).Within D n D.Has := by
  cases b with
  | print => exact within_print env _
  | list => exact within_newList Discipline.hasEach_nil
  | exit => exact .stop (Discipline.hasEach_singleton.mpr (D.scalar rfl))
  | locals => exact within_names _
  | globals => exact within_names _
  | _ => exact .stop Discipline.hasEach_nil

/-- Builtins with one argument. -/
theorem within_applyOne (env : FrameId) (b : Builtin) {v : Value} (has : D.Has n v) :
    (apply registry env b [v]).Within D n D.Has := by
  have only : D.HasEach n [v] := Discipline.hasEach_singleton.mpr has
  cases b with
  | print => exact within_print env _
  | list => exact within_newList only
  | throw => exact .stop only
  | negation | isNull | isClass | typeOf => exact .pure (D.scalar rfl)
  | isBound =>
      exact (within_nameArgument _ v).bind fun _ _ name _ =>
        .look fun _ _ => D.scalar rfl
  | getGlobal => exact within_found _ v fun name n m within_ u own => within_.frames.bound _ _ _ own
  | getParentVar =>
      exact within_found _ v fun name n m within_ u found => within_.frames.search found
  | exit => exact .stop only
  | display =>
      exact (HostAccess.within_display v).bind fun _ _ text _ => .pure (D.scalar rfl)
  | length => exact within_length v
  | _ => exact .stop Discipline.hasEach_nil

/-- Builtins with two arguments. -/
theorem within_applyTwo (env : FrameId) (b : Builtin) {a v : Value} (first : D.Has n a)
    (second : D.Has n v) : (apply registry env b [a, v]).Within D n D.Has := by
  have both : D.HasEach n [a, v] :=
    Discipline.hasEach_cons.mpr ⟨first, Discipline.hasEach_singleton.mpr second⟩
  cases b with
  | print => exact within_print env _
  | list => exact within_newList both
  | range => exact within_range a v
  | both | either | eql => exact .pure (D.scalar rfl)
  | setGlobal =>
      refine (within_nameArgument _ a).bind fun n' later name _ => ?_
      exact within_binding (fun fs => fs.root env) name (D.mono later second)
  | exitMany =>
      refine (within_exitDepth a).bind fun n' later depth _ => ?_
      exact .stop (Discipline.hasEach_singleton.mpr (D.mono later second))
  | get => exact within_get first v
  | _ => exact .stop Discipline.hasEach_nil

/-- Builtins that call nothing back keep to the stock of their arguments. -/
theorem within_apply (env : FrameId) (b : Builtin) {args : List Value} (has : D.HasEach n args) :
    (apply registry env b args).Within D n D.Has := by
  rcases args with _ | ⟨a, _ | ⟨v, _ | ⟨w, rest⟩⟩⟩
  · exact within_applyNone env b
  · exact within_applyOne env b (Discipline.hasEach_cons.mp has).1
  · obtain ⟨first, others⟩ := Discipline.hasEach_cons.mp has
    exact within_applyTwo env b first (Discipline.hasEach_cons.mp others).1
  · cases b with
    | print => exact within_print env _
    | list => exact within_newList has
    | _ => exact .stop Discipline.hasEach_nil

end

end Plain

end ScriptConsole
