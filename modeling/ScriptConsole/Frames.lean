import ScriptConsole.Value
import Std.Data.TreeMap.Basic

/-!
# Frames

A frame binds names to values. Frames are kept in one growing list and known by their numbers;
each has the frames around it, the innermost first, so a name is looked up along a chain that ends
in a root. A frame is never given up: a function keeps the frame where it was made for as long as
anything can call the function.

* `Frames.define` binds a name in one frame and shadows the frames around it.
* `Frames.lookup?` finds the innermost binding along a chain.
* `Frames.setGlobal` and `Frames.getGlobal?` concern the root of a chain only.

Frames come with the proof that they are **linked**: around a frame is nothing, or a frame that was
made before it and whatever is around that one.
-/

namespace ScriptConsole

/-- One frame: its own bindings, and the frames around it from the inside out. -/
structure Frame where
  vars : Std.TreeMap String Value
  outer : List FrameId

namespace Frame

/-- A frame without bindings and without frames around it, which stands for numbers that were
never given out. -/
def blank : Frame := ⟨∅, []⟩

/-- Whether around each of some frames is nothing, or an earlier frame and what is around that. -/
def Linked (all : Array Frame) : Prop :=
  ∀ h, (all.getD h blank).outer = [] ∨
    ∃ p < h, (all.getD h blank).outer = p :: (all.getD p blank).outer

/-- One more frame is the last. -/
theorem getD_push (all : Array Frame) (f : Frame) (h : FrameId) :
    (all.push f).getD h blank = if h = all.size then f else all.getD h blank := by
  simp only [Array.getD_eq_getD_getElem?, Array.getElem?_push]
  split <;> rfl

/-- A change of a frame leaves the others as they are. -/
theorem getD_modify (all : Array Frame) (change : Frame → Frame) (h h' : FrameId) :
    (all.modify h change).getD h' blank =
      if h = h' ∧ h < all.size then change (all.getD h' blank) else all.getD h' blank := by
  simp only [Array.getD_eq_getD_getElem?, Array.getElem?_modify]
  split
  · next heq =>
    subst heq
    by_cases hlt : h < all.size <;> simp [hlt]
  · next hne => simp [hne]

/-- Behind the last frame there are only blank ones. -/
theorem getD_of_size_le {all : Array Frame} {h : FrameId} (le : all.size ≤ h) :
    all.getD h blank = blank := by
  simp [Array.getD_eq_getD_getElem?, le]

/-- Frames stay linked with one more inside one of them. -/
theorem Linked.push {all : Array Frame} (linked : Linked all) {outer : List FrameId}
    (inside : outer = [] ∨ ∃ p < all.size, outer = p :: (all.getD p blank).outer) :
    Linked (all.push ⟨∅, outer⟩) := by
  intro h
  rw [getD_push]
  split
  · next heq =>
    rcases inside with rfl | ⟨p, lt, rfl⟩
    · exact .inl rfl
    · refine .inr ⟨p, heq ▸ lt, ?_⟩
      rw [getD_push, if_neg (Nat.ne_of_lt lt)]
  · rcases linked h with root | ⟨p, lt, link⟩
    · exact .inl root
    · have made : h < all.size := by
        refine Nat.lt_of_not_le fun le => ?_
        rw [getD_of_size_le le] at link
        exact absurd link (by simp [blank])
      refine .inr ⟨p, lt, ?_⟩
      rw [getD_push, if_neg (Nat.ne_of_lt (Nat.lt_trans lt made)), link]

/-- They stay so if a change keeps what is around. -/
theorem Linked.modify {all : Array Frame} (linked : Linked all) (h : FrameId)
    {change : Frame → Frame} (same : ∀ f, (change f).outer = f.outer) :
    Linked (all.modify h change) := by
  have outer : ∀ h', ((all.modify h change).getD h' blank).outer = (all.getD h' blank).outer := by
    intro h'
    rw [getD_modify]
    split
    · exact same _
    · rfl
  intro h'
  simp only [outer]
  exact linked h'

end Frame

/-- All frames ever made. -/
structure Frames where
  all : Array Frame
  linked : Frame.Linked all

namespace Frames

/-- No frames. -/
def empty : Frames := ⟨#[], fun _ => .inl rfl⟩

/-- The frame of a number. -/
def frame (fs : Frames) (h : FrameId) : Frame := fs.all.getD h .blank

/-- The number of the next frame to be made. -/
def nextId (fs : Frames) : FrameId := fs.all.size

/-- A new root. -/
def newRoot (fs : Frames) : FrameId × Frames :=
  (fs.nextId, ⟨fs.all.push ⟨∅, []⟩, fs.linked.push (.inl rfl)⟩)

/-- A frame and those around it, from the inside out. -/
def chain (fs : Frames) (h : FrameId) : List FrameId :=
  h :: (fs.frame h).outer

/-- What is around a new frame inside another. A frame that was never made stands for the first
one. -/
def around (fs : Frames) (h : FrameId) : List FrameId :=
  if h < fs.nextId then fs.chain h
  else if 0 < fs.nextId then fs.chain 0
  else []

/-- What is around a frame is a frame with what is around that. -/
theorem around_linked (fs : Frames) (h : FrameId) :
    fs.around h = [] ∨ ∃ p < fs.nextId, fs.around h = p :: (fs.frame p).outer := by
  unfold around
  split
  · next lt => exact .inr ⟨h, lt, rfl⟩
  · split
    · next lt => exact .inr ⟨0, lt, rfl⟩
    · exact .inl rfl

/-- A new frame inside another. -/
def newChild (fs : Frames) (h : FrameId) : FrameId × Frames :=
  (fs.nextId, ⟨fs.all.push ⟨∅, fs.around h⟩, fs.linked.push (fs.around_linked h)⟩)

/-- The root of a chain. -/
def root (fs : Frames) (h : FrameId) : FrameId :=
  (fs.frame h).outer.getLastD h

/-- Whether a frame is a root. -/
def isRoot (fs : Frames) (h : FrameId) : Bool :=
  (fs.frame h).outer.isEmpty

/-- The binding of a name in one frame. -/
def own? (fs : Frames) (h : FrameId) (name : String) : Option Value :=
  (fs.frame h).vars[name]?

/-- The innermost binding of a name along a list of frames. -/
def search (fs : Frames) (name : String) : List FrameId → Option Value
  | [] => none
  | h :: rest =>
    match fs.own? h name with
    | some v => some v
    | none => search fs name rest

/-- The innermost binding of a name along the chain of a frame. -/
def lookup? (fs : Frames) (h : FrameId) (name : String) : Option Value :=
  fs.search name (fs.chain h)

/-- Whether a name is bound along the chain of a frame. -/
def isBound (fs : Frames) (h : FrameId) (name : String) : Bool :=
  (fs.lookup? h name).isSome

/-- Binds a name in one frame. -/
def define (fs : Frames) (h : FrameId) (name : String) (v : Value) : Frames :=
  ⟨fs.all.modify h fun f => { f with vars := f.vars.insert name v },
    fs.linked.modify h fun _ => rfl⟩

/-- Binds a name in the root of a chain. -/
def setGlobal (fs : Frames) (h : FrameId) (name : String) (v : Value) : Frames :=
  fs.define (fs.root h) name v

/-- The binding of a name in the root of a chain. -/
def getGlobal? (fs : Frames) (h : FrameId) (name : String) : Option Value :=
  fs.own? (fs.root h) name

/-- The innermost binding of a name around a frame. -/
def getOuter? (fs : Frames) (h : FrameId) (name : String) : Option Value :=
  fs.search name (fs.frame h).outer

/-- The names bound in a frame, in ascending order. -/
def names (fs : Frames) (h : FrameId) : List String :=
  (fs.frame h).vars.keys

/-- The number of names bound in a frame. -/
def size (fs : Frames) (h : FrameId) : Nat :=
  (fs.frame h).vars.size

/-- The number of bindings and the standing of a frame, as text. -/
def summary (fs : Frames) (h : FrameId) : String :=
  s!"Env \x7b vars: {fs.size h}, global: {fs.isRoot h} \x7d"

end Frames

end ScriptConsole
