import ScriptConsole.Frames
import Std.Data.TreeMap.Lemmas

/-!
# How Frames Grow

Frames are made and never given up, and bindings are made and changed and never removed. What may
become of frames while something is evaluated in one of them is a relation (`Frames.Grows`): frames
are added, none of them a root, and bindings of frames that were there before are made or changed in
the frame of the evaluation and in roots, and nowhere else.

The relation is reflexive and transitive, so that it carries over from the steps of an evaluation to
the whole of it. A call of a function moves on to a frame that it has made itself, which is none of
those that were there before (`Frames.Grows.call`).

## Main results

* `Frames.isRoot_root`: chains end in roots.
* `Frames.grows_define`, `Frames.grows_setGlobal`, `Frames.grows_newChild`: the operations on
  frames.
* `Frames.Grows.oneRoot`: frames with one root go on to have one.
-/

namespace ScriptConsole

namespace Frames

variable {fs : Frames}

/-! ### Operations on frames, one frame at a time -/

/-- A frame that has not been made is blank. -/
theorem frame_of_nextId_le {h : FrameId} (le : fs.nextId ≤ h) : fs.frame h = .blank :=
  Frame.getD_of_size_le le

/-- A frame that has not been made binds nothing. -/
theorem own?_of_nextId_le {h : FrameId} (le : fs.nextId ≤ h) (name : String) :
    fs.own? h name = none := by
  rw [own?, frame_of_nextId_le le]
  rfl

/-- A definition makes no frame. -/
@[simp] theorem nextId_define (fs : Frames) (h : FrameId) (name : String) (v : Value) :
    (fs.define h name v).nextId = fs.nextId := by
  simp [define, nextId]

/-- It leaves the frames around as they are. -/
@[simp] theorem outer_define (fs : Frames) (h : FrameId) (name : String) (v : Value)
    (h' : FrameId) : ((fs.define h name v).frame h').outer = (fs.frame h').outer := by
  simp only [define, frame, Frame.getD_modify]
  split <;> rfl

/-- It leaves the other frames as they are. -/
theorem frame_define_of_ne {h h' : FrameId} (ne : h' ≠ h) (name : String) (v : Value) :
    (fs.define h name v).frame h' = fs.frame h' := by
  simp only [define, frame, Frame.getD_modify]
  rw [if_neg fun both => ne both.1.symm]

/-- What a frame binds behind a definition in it. -/
theorem own?_define {h : FrameId} (lt : h < fs.nextId) (name name' : String) (v : Value) :
    (fs.define h name v).own? h name' = if name = name' then some v else fs.own? h name' := by
  have made : h < fs.all.size := lt
  simp only [own?, define, frame, Frame.getD_modify, made, and_self, if_true,
    Std.TreeMap.getElem?_insert, Std.compare_eq_iff_eq]

/-- A new frame takes the next identity. -/
@[simp] theorem nextId_newChild (fs : Frames) (h : FrameId) :
    (fs.newChild h).2.nextId = fs.nextId + 1 := by
  simp [newChild, nextId]

/-- It is empty, and the others are as they were. -/
theorem frame_newChild (fs : Frames) (h h' : FrameId) :
    (fs.newChild h).2.frame h' =
      if h' = fs.nextId then ⟨∅, fs.around h⟩ else fs.frame h' :=
  Frame.getD_push _ _ _

/-- A new root leaves all other frames as they are. -/
theorem frame_newRoot (fs : Frames) (h : FrameId) :
    fs.newRoot.2.frame h = if h = fs.nextId then ⟨∅, []⟩ else fs.frame h :=
  Frame.getD_push _ _ _

/-- Around every frame there is one at least. -/
theorem around_ne_nil (lt : 0 < fs.nextId) (h : FrameId) : fs.around h ≠ [] := by
  unfold around
  split
  · simp [chain]
  · simp [chain]

/-! ### Roots -/

/-- A root has no frames around it. -/
theorem isRoot_iff {h : FrameId} : fs.isRoot h = true ↔ (fs.frame h).outer = [] :=
  List.isEmpty_iff

/-- The root of a frame inside another is the root of that. -/
theorem root_of_outer {h p : FrameId} (inside : (fs.frame h).outer = p :: (fs.frame p).outer) :
    fs.root h = fs.root p := by
  rw [root, inside, root]
  cases (fs.frame p).outer <;> rfl

/-- Chains end in roots, which were made before. -/
theorem isRoot_root (fs : Frames) (h : FrameId) : fs.isRoot (fs.root h) = true ∧ fs.root h ≤ h := by
  induction h using Nat.strongRecOn with
  | _ h ih =>
      rcases fs.linked h with root | ⟨p, lt, inside⟩
      · have here : fs.root h = h := by
          rw [Frames.root, frame, root]
          rfl
        rw [here]
        exact ⟨isRoot_iff.mpr root, Nat.le_refl h⟩
      · rw [root_of_outer inside]
        exact ⟨(ih p lt).1, Nat.le_trans (ih p lt).2 (Nat.le_of_lt lt)⟩

/-- Whether the first frame is the only root. -/
def OneRoot (fs : Frames) : Prop := 0 < fs.nextId ∧ ∀ h < fs.nextId, fs.isRoot h = true → h = 0

/-- Where there is one root, every chain ends in it. -/
theorem OneRoot.root_eq (one : fs.OneRoot) {h : FrameId} (lt : h < fs.nextId) : fs.root h = 0 :=
  one.2 _ (Nat.lt_of_le_of_lt (fs.isRoot_root h).2 lt) (fs.isRoot_root h).1

/-! ### Growth -/

/-- What no evaluation undoes: frames are not given up and stay where they are, and no binding is
removed. -/
structure Keeps (fs fs' : Frames) : Prop where
  nextId : fs.nextId ≤ fs'.nextId
  outer : ∀ h < fs.nextId, (fs'.frame h).outer = (fs.frame h).outer
  bound : ∀ h name, (fs.own? h name).isSome = true → (fs'.own? h name).isSome = true

/-- What may become of frames while something is evaluated in the frame `env`, or in none of those
that there are. -/
structure Grows (env : Option FrameId) (fs fs' : Frames) : Prop extends Keeps fs fs' where
  /-- Only the frame of the evaluation and roots may change. -/
  same : ∀ h < fs.nextId, some h ≠ env → fs.isRoot h = false → fs'.frame h = fs.frame h
  /-- Frames are made inside others, if there are any. -/
  inside : 0 < fs.nextId → ∀ h, fs.nextId ≤ h → h < fs'.nextId → fs'.isRoot h = false

namespace Keeps

variable {fs' fs'' : Frames}

/-- Nothing is lost where nothing is done. -/
theorem refl (fs : Frames) : Keeps fs fs := ⟨Nat.le_refl _, fun _ _ => rfl, fun _ _ h => h⟩

/-- What is kept twice is kept. -/
theorem trans (first : Keeps fs fs') (second : Keeps fs' fs'') : Keeps fs fs'' where
  nextId := Nat.le_trans first.nextId second.nextId
  outer h lt := by
    rw [second.outer h (Nat.lt_of_lt_of_le lt first.nextId), first.outer h lt]
  bound h name some := second.bound h name (first.bound h name some)

/-- Roots stay roots. -/
theorem isRoot (keeps : Keeps fs fs') {h : FrameId} (lt : h < fs.nextId) :
    fs'.isRoot h = fs.isRoot h := by
  rw [Frames.isRoot, keeps.outer h lt, Frames.isRoot]

/-- Frames keep their roots. -/
theorem root_eq (keeps : Keeps fs fs') {h : FrameId} (made : h < fs.nextId) :
    fs'.root h = fs.root h := by
  rw [root, keeps.outer h made, root]

end Keeps

namespace Grows

variable {env : Option FrameId} {fs' fs'' : Frames}

/-- Nothing grows where nothing is done. -/
theorem refl (env : Option FrameId) (fs : Frames) : Grows env fs fs where
  toKeeps := .refl fs
  same _ _ _ _ := rfl
  inside _ _ le lt := absurd lt (Nat.not_lt.mpr le)

/-- What grows twice grows. -/
theorem trans (first : Grows env fs fs') (second : Grows env fs' fs'') : Grows env fs fs'' where
  toKeeps := first.toKeeps.trans second.toKeeps
  same h lt ne root := by
    rw [second.same h (Nat.lt_of_lt_of_le lt first.nextId) ne (first.isRoot lt ▸ root),
      first.same h lt ne root]
  inside some h le lt := by
    by_cases made : h < fs'.nextId
    · rw [second.isRoot made]
      exact first.inside some h le made
    · exact second.inside (Nat.lt_of_lt_of_le some first.nextId) h (Nat.le_of_not_lt made) lt

/-- What happens in no frame that there is might as well happen in one of them. -/
theorem weaken (grows : Grows none fs fs') (env : Option FrameId) : Grows env fs fs' where
  toKeeps := grows.toKeeps
  same h lt _ root := grows.same h lt (by simp) root
  inside := grows.inside

/-- What happens in a frame that was made meanwhile happens in none of those before. -/
theorem call (first : Grows none fs fs') {h : FrameId} (second : Grows (some h) fs' fs'')
    (made : fs.nextId ≤ h) : Grows none fs fs'' where
  toKeeps := first.toKeeps.trans second.toKeeps
  same h' lt _ root := by
    have ne : some h' ≠ some h := fun heq => by
      obtain rfl := Option.some.inj heq
      exact Nat.not_lt.mpr made lt
    rw [second.same h' (Nat.lt_of_lt_of_le lt first.nextId) ne (first.isRoot lt ▸ root),
      first.same h' lt (by simp) root]
  inside some h' le lt := by
    by_cases made' : h' < fs'.nextId
    · rw [second.isRoot made']
      exact first.inside some h' le made'
    · exact second.inside (Nat.lt_of_lt_of_le some first.nextId) h' (Nat.le_of_not_lt made') lt

/-- Frames with one root go on to have one. -/
theorem oneRoot (grows : Grows env fs fs') (one : fs.OneRoot) : fs'.OneRoot := by
  refine ⟨Nat.lt_of_lt_of_le one.1 grows.nextId, fun h lt root => ?_⟩
  by_cases made : h < fs.nextId
  · exact one.2 h made (grows.isRoot made ▸ root)
  · rw [grows.inside one.1 h (Nat.le_of_not_lt made) lt] at root
    exact absurd root (by simp)

end Grows

/-- A new root takes nothing away. -/
theorem keeps_newRoot (fs : Frames) : Keeps fs fs.newRoot.2 := by
  have old : ∀ h < fs.nextId, fs.newRoot.2.frame h = fs.frame h := by
    intro h lt
    rw [frame_newRoot, if_neg (Nat.ne_of_lt lt)]
  refine ⟨by simp [newRoot, nextId], fun h lt => by rw [old h lt], fun h name some => ?_⟩
  by_cases lt : h < fs.nextId
  · rwa [own?, old h lt, ← own?]
  · rw [own?_of_nextId_le (Nat.le_of_not_lt lt)] at some
    cases some

/-- A definition changes one frame. -/
theorem grows_define (fs : Frames) (h : FrameId) (name : String) (v : Value) :
    Grows (some h) fs (fs.define h name v) where
  nextId := by simp
  outer h' _ := outer_define fs h name v h'
  bound h' name' some := by
    by_cases ne : h' = h
    · subst ne
      by_cases lt : h' < fs.nextId
      · rw [own?_define lt]
        split
        · rfl
        · exact some
      · rw [own?_of_nextId_le (Nat.le_of_not_lt lt)] at some
        exact absurd some (by simp)
    · rwa [own?, frame_define_of_ne ne, ← own?]
  same h' _ ne _ := frame_define_of_ne (fun heq => ne (congrArg some heq)) name v
  inside _ h' le lt := absurd lt (by simpa using le)

/-- A global definition changes no frame but a root. -/
theorem grows_setGlobal (fs : Frames) (h : FrameId) (name : String) (v : Value) :
    Grows none fs (fs.setGlobal h name v) where
  toKeeps := (grows_define fs _ name v).toKeeps
  same h' _ _ root := by
    refine frame_define_of_ne (fun heq => ?_) name v
    rw [heq, (fs.isRoot_root h).1] at root
    exact absurd root (by simp)
  inside := (grows_define fs _ name v).inside

/-- A new frame changes no other. -/
theorem grows_newChild (fs : Frames) (h : FrameId) : Grows none fs (fs.newChild h).2 := by
  have old : ∀ h' < fs.nextId, (fs.newChild h).2.frame h' = fs.frame h' := by
    intro h' lt
    rw [frame_newChild, if_neg (Nat.ne_of_lt lt)]
  refine ⟨⟨by simp, fun h' lt => by rw [old h' lt], ?_⟩, fun h' lt _ _ => old h' lt, ?_⟩
  · intro h' name some
    by_cases lt : h' < fs.nextId
    · rwa [own?, old h' lt, ← own?]
    · rw [own?_of_nextId_le (Nat.le_of_not_lt lt)] at some
      exact absurd some (by simp)
  · intro some h' le lt
    rw [nextId_newChild] at lt
    obtain rfl : h' = fs.nextId := Nat.le_antisymm (Nat.le_of_lt_succ lt) le
    rw [Frames.isRoot, frame_newChild, if_pos rfl]
    exact List.isEmpty_eq_false_iff.mpr (around_ne_nil some h)

end Frames

end ScriptConsole
