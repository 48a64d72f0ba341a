import ScriptConsole.Proofs.Evaluation.Stock
import ScriptConsole.Proofs.Frames.Growth

/-!
# What Is Kept of Values

While something is evaluated, frames, lists and functions are made. What is known of the values that
are at hand depends on what has been made so far, and it must not get lost when more is made: that
is a `Discipline`. It says which values may be at hand at which stage, it goes on to a later stage
with everything that is made, and what may be at hand at one stage may be so at all later ones.

A stage says how many frames there are and which identity is the next to be given out, as far as the
discipline depends on them.

Stocks are disciplines whose stages are numbers of frames (`Stock.discipline`). That identities tell
values apart is another one.

## Main results

* `Discipline.has_of_holds`: what is inside of a value that may be at hand may be at hand as well.
* `World.Keeps`, `Frames.Within` and `Machine.Within`, with what the operations on worlds and frames
  do to them.
-/

namespace ScriptConsole

/-- Which values may be at hand at each stage of an evaluation. -/
structure Discipline (σ : Type) where
  /-- Whether the second stage is the first or comes after it. -/
  Later : σ → σ → Prop
  /-- How many frames there are at a stage. -/
  frames : σ → Nat
  /-- Whether an identity may be the next to be given out. -/
  next : σ → Identity → Prop
  /-- Whether a value may be at hand. -/
  Has : σ → Value → Prop
  refl : ∀ n : σ, Later n n
  trans : ∀ {n n' n'' : σ}, Later n n' → Later n' n'' → Later n n''
  frames_mono : ∀ {n n' : σ}, Later n n' → frames n ≤ frames n'
  mono : ∀ {n n' : σ}, Later n n' → ∀ {v : Value}, Has n v → Has n' v
  scalar : ∀ {n : σ} {v : Value}, v.isScalar = true → Has n v
  items : ∀ {n : σ} {i : Identity} {items : List Value}, Has n (.list i items) →
    ∀ v ∈ items, Has n v
  newFrame : ∀ n : σ, ∃ n', Later n n' ∧ frames n' = frames n + 1 ∧ ∀ i, next n i → next n' i
  newList : ∀ {n : σ} {i : Identity} {items : List Value}, next n i → (∀ v ∈ items, Has n v) →
    ∃ n', Later n n' ∧ frames n' = frames n ∧ next n' (i + 1) ∧ Has n' (.list i items)
  newFunction : ∀ {n : σ} {f : Closure}, next n f.identity → f.frame < frames n →
    ∃ n', Later n n' ∧ frames n' = frames n ∧ next n' (f.identity + 1) ∧ Has n' (.function f)

namespace Discipline

variable {σ : Type} {D : Discipline σ} {n n' n'' : σ}

/-- Whether each of some values may be at hand. -/
def HasEach (D : Discipline σ) (n : σ) (vs : List Value) : Prop := ∀ v ∈ vs, D.Has n v

/-- A frame that there is stays. -/
theorem lt_frames {frame : FrameId} (made : frame < D.frames n) (later : D.Later n n') :
    frame < D.frames n' :=
  Nat.lt_of_lt_of_le made (D.frames_mono later)

/-- Values that may be at hand may be so at all later stages. -/
theorem HasEach.mono {vs : List Value} (h : D.HasEach n vs) (later : D.Later n n') :
    D.HasEach n' vs :=
  fun v mem => D.mono later (h v mem)

/-- Nothing is asked of no values. -/
theorem hasEach_nil : D.HasEach n [] := fun _ mem => absurd mem List.not_mem_nil

/-- What is asked of values is asked of the first and of the others. -/
@[simp] theorem hasEach_cons {v : Value} {vs : List Value} :
    D.HasEach n (v :: vs) ↔ D.Has n v ∧ D.HasEach n vs :=
  List.forall_mem_cons

/-- What is asked of one value in a list is what is asked of the value. -/
@[simp] theorem hasEach_singleton {v : Value} : D.HasEach n [v] ↔ D.Has n v :=
  List.forall_mem_singleton

/-- An element of values that may be at hand may be at hand. -/
theorem HasEach.getElem? {vs : List Value} (h : D.HasEach n vs) {i : Nat} {v : Value}
    (at_ : vs[i]? = some v) : D.Has n v :=
  h v (List.mem_of_getElem? at_)

/-- What is inside of a value that may be at hand may be at hand as well. -/
theorem has_of_holds {v u : Value} (h : D.Has n v) (held : v.Holds u) : D.Has n u := by
  induction held with
  | self => exact h
  | item mem _ ih => exact ih (D.items h _ mem)

/-- Whether a value may be at hand, if there is one. -/
def HasFound (D : Discipline σ) (n : σ) (found : Option Value) : Prop :=
  ∀ v, found = some v → D.Has n v

/-- Whether the result of a computation may be at hand, if there is one. -/
def HasResult {ε : Type} (D : Discipline σ) (n : σ) (r : Except ε Value) : Prop :=
  ∀ v, r = .ok v → D.Has n v

/-- A result that is a value may be at hand if the value may. -/
theorem hasResult_ok {ε : Type} {v : Value} (has : D.Has n v) :
    D.HasResult n (.ok v : Except ε Value) :=
  fun _ same => Except.ok.inj same ▸ has

/-- Nothing is asked of an error. -/
theorem hasResult_error {ε : Type} (e : ε) : D.HasResult n (.error e : Except ε Value) := nofun

/-- Whether a stage is a later one with no more frames than before. -/
structure Beside (D : Discipline σ) (n n' : σ) : Prop where
  later : D.Later n n'
  frames : D.frames n' = D.frames n

/-- Every stage is beside itself. -/
theorem Beside.refl (n : σ) : D.Beside n n := ⟨D.refl n, rfl⟩

/-- Stages beside one another, one after the other. -/
theorem Beside.trans (h : D.Beside n n') (h' : D.Beside n' n'') : D.Beside n n'' :=
  ⟨D.trans h.later h'.later, h'.frames.trans h.frames⟩

end Discipline

/-- A stock, whose stages are numbers of frames. Identities do not matter to it. -/
def Stock.discipline (s : Stock) : Discipline Nat where
  Later n n' := n ≤ n'
  frames n := n
  next _ _ := True
  Has := s.Has
  refl := Nat.le_refl
  trans := Nat.le_trans
  frames_mono le := le
  mono le _ h := h.mono le
  scalar := Stock.has_of_scalar
  items h := Stock.has_list.mp h
  newFrame n := ⟨n + 1, Nat.le_succ n, rfl, fun _ _ => trivial⟩
  newList {n} {_} {_} _ h := ⟨n, Nat.le_refl n, rfl, trivial, Stock.has_list.mpr h⟩
  newFunction {n} {_} _ made :=
    ⟨n, Nat.le_refl n, rfl, trivial, Stock.has_function.mpr (s.made made)⟩

variable {σ : Type} {D : Discipline σ} {n n' : σ}

/-! ### Worlds -/

/-- Whether all that the objects of a world keep may be at hand, and the next identity is the next
one at the stage as well. -/
structure World.Keeps (D : Discipline σ) (n : σ) (w : World) : Prop where
  next : D.next n w.nextIdentity
  kept : ∀ o, D.HasEach n (w.state o).values

namespace World

/-- Whether what is done with a world leaves one that keeps to a discipline, at a later stage that
has no more frames, and a result of some kind. -/
def Done {α : Type} (D : Discipline σ) (n : σ) (R : σ → α → Prop) (o : α × World) : Prop :=
  ∃ n', D.Beside n n' ∧ o.2.Keeps D n' ∧ R n' o.1

variable {w : World}

/-- A world that stays as it is, with a result that is right at the stage there is. -/
theorem Keeps.done {α : Type} {R : σ → α → Prop} {a : α} (h : w.Keeps D n) (result : R n a) :
    Done D n R (a, w) :=
  ⟨n, .refl n, h, result⟩

/-- A world that stays as it is, with a value that may be at hand. -/
theorem Keeps.ok {ε : Type} (h : w.Keeps D n) {v : Value} (has : D.Has n v) :
    Done D n D.HasResult ((.ok v, w) : Except ε Value × World) :=
  h.done (Discipline.hasResult_ok has)

/-- A world that stays as it is, with an error. -/
theorem Keeps.error {ε : Type} (h : w.Keeps D n) (e : ε) :
    Done D n D.HasResult ((.error e, w) : Except ε Value × World) :=
  h.done (Discipline.hasResult_error e)

/-- A value that is given as a result. -/
theorem Done.answer {ε : Type} {a : Value × World} (h : Done D n D.Has a) :
    Done D n D.HasResult ((.ok a.1, a.2) : Except ε Value × World) :=
  let ⟨n', beside, kept, has⟩ := h
  ⟨n', beside, kept, Discipline.hasResult_ok has⟩

/-- Nothing but a scalar comes out, and the world stays as it is. -/
theorem Keeps.scalar (h : w.Keeps D n) {v : Value} (scalar : v.isScalar = true) :
    Done D n D.Has (v, w) :=
  h.done (D.scalar scalar)

/-- Objects are made of what may be at hand, and the stage stays the same. -/
theorem Keeps.newObject (h : w.Keeps D n) (c : ClassRef) {state : ObjectState}
    (keeps : D.HasEach n state.values) : Done D n D.Has (w.newObject c state) := by
  refine ⟨n, .refl n, ⟨h.next, fun o => ?_⟩, D.scalar rfl⟩
  simp only [World.newObject, World.state, Array.getD_eq_getD_getElem?, Array.getElem?_push]
  split
  · exact keeps
  · rw [← Array.getD_eq_getD_getElem?]
    exact h.kept o

/-- The state of an object changes to what may be at hand. -/
theorem Keeps.setState (h : w.Keeps D n) (o : ObjectId) {state : ObjectState}
    (keeps : D.HasEach n state.values) : (w.setState o state).Keeps D n := by
  refine ⟨h.next, fun o' => ?_⟩
  simp only [World.setState, World.state, Array.getD_eq_getD_getElem?,
    Array.getElem?_setIfInBounds]
  split
  · split
    · exact keeps
    · exact Discipline.hasEach_nil
  · rw [← Array.getD_eq_getD_getElem?]
    exact h.kept o'

/-- A list of values that may be at hand takes the discipline on to a stage where the list may be.
-/
theorem Keeps.newList (h : w.Keeps D n) {items : List Value} (keeps : D.HasEach n items) :
    Done D n D.Has (w.newList items) := by
  obtain ⟨n', le, same, next, has⟩ := D.newList h.next keeps
  exact ⟨n', ⟨le, same⟩, ⟨next, fun o => (h.kept o).mono le⟩, has⟩

/-- A function of a frame that there is takes the discipline on to a stage where it may be at hand.
-/
theorem Keeps.newFunction (h : w.Keeps D n) (params : List String) (body : List Expr)
    {frame : FrameId} (made : frame < D.frames n) :
    Done D n D.Has (w.newFunction params body frame) := by
  obtain ⟨n', le, same, next, has⟩ :=
    D.newFunction (f := ⟨w.nextIdentity, params, body, frame⟩) h.next made
  exact ⟨n', ⟨le, same⟩, ⟨next, fun o => (h.kept o).mono le⟩, has⟩

/-- A world keeps to a stock if its objects do. -/
theorem keeps_discipline_iff {s : Stock} {n : Nat} :
    w.Keeps s.discipline n ↔ w.Within s n :=
  ⟨fun h => h.kept, fun h => ⟨trivial, h⟩⟩

end World

/-! ### Frames -/

/-- Whether there are as many frames as at a stage, with one root, and names are bound only to
values that may be at hand. -/
structure Frames.Within (D : Discipline σ) (n : σ) (fs : Frames) : Prop where
  count : fs.nextId = D.frames n
  oneRoot : fs.OneRoot
  bound : ∀ h name v, fs.own? h name = some v → D.Has n v

namespace Frames

variable {fs : Frames}

/-- Frames that keep to a discipline still do so at a stage beside. -/
theorem Within.mono (h : fs.Within D n) (beside : D.Beside n n') : fs.Within D n' :=
  ⟨h.count.trans beside.frames.symm, h.oneRoot,
    fun frame name v own => D.mono beside.later (h.bound frame name v own)⟩

/-- What a search in some frames finds may be at hand. -/
theorem Within.search (h : fs.Within D n) {name : String} {l : List FrameId} {v : Value}
    (found : fs.search name l = some v) : D.Has n v := by
  induction l with
  | nil => cases found
  | cons frame rest ih =>
      rw [Frames.search] at found
      split at found
      · next own =>
        cases found
        exact h.bound frame name _ own
      · exact ih found

/-- A binding to a value that may be at hand, in whatever frame. -/
theorem Within.define (h : fs.Within D n) (frame : FrameId) (name : String) {v : Value}
    (has : D.Has n v) : (fs.define frame name v).Within D n := by
  refine ⟨(nextId_define _ _ _ _).trans h.count, (grows_define fs frame name v).oneRoot h.oneRoot,
    fun frame' name' u own => ?_⟩
  simp only [own?, Frames.define, Frames.frame, Frame.getD_modify] at own
  split at own
  · rw [Std.TreeMap.getElem?_insert] at own
    split at own
    · cases own
      exact has
    · exact h.bound _ _ _ own
  · exact h.bound _ _ _ own

/-- One more frame, at a later stage that has it. -/
theorem Within.newChild (h : fs.Within D n) (frame : FrameId) (later : D.Later n n')
    (more : D.frames n' = D.frames n + 1) : (fs.newChild frame).2.Within D n' := by
  refine ⟨by simp [h.count, more], (grows_newChild fs frame).oneRoot h.oneRoot,
    fun frame' name v own => ?_⟩
  rw [own?, frame_newChild] at own
  split at own
  · cases own
  · exact D.mono later (h.bound _ _ _ own)

end Frames

/-! ### Machines -/

/-- Whether all that a machine holds may be at hand. -/
structure Machine.Within (D : Discipline σ) (n : σ) (m : Machine) : Prop where
  frames : m.frames.Within D n
  world : m.world.Keeps D n

/-- Whatever a machine holds may be at hand. -/
theorem Machine.Within.has {m : Machine} (h : m.Within D n) {u : Value} (holds : m.Holds u) :
    D.Has n u := by
  cases holds with
  | bound own held => exact D.has_of_holds (h.frames.bound _ _ _ own) held
  | kept mem held => exact D.has_of_holds (h.world.kept _ _ mem) held

end ScriptConsole
