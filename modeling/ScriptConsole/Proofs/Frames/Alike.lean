import ScriptConsole.Proofs.Evaluation.Shapes
import ScriptConsole.Proofs.Frames.Growth

/-!
# Frames Up to the Places of Code

Frames whose bindings are alike are searched and listed alike, and stay so when alike values are
bound in them or a new frame is made.

## Main results

* `Frames.Alike.lookup?`, `Frames.Alike.names`: what is found.
* `Frames.Alike.define`, `Frames.Alike.newChild`: what changes.
-/

namespace ScriptConsole

/-- Whether frames are the same up to the places of the code that is bound in them. -/
structure Frames.Alike (fs fs' : Frames) : Prop where
  nextId : fs.nextId = fs'.nextId
  outer : ∀ h, (fs.frame h).outer = (fs'.frame h).outer
  own? : ∀ h name, (fs.own? h name).map Value.shape = (fs'.own? h name).map Value.shape

namespace Frames.Alike

variable {fs fs' : Frames}

/-- Frames are like themselves. -/
theorem refl (fs : Frames) : fs.Alike fs := ⟨rfl, fun _ => rfl, fun _ _ => rfl⟩

/-- Alike frames have the same chains. -/
theorem chain (h : fs.Alike fs') (env : FrameId) : fs.chain env = fs'.chain env :=
  congrArg (env :: ·) (h.outer env)

/-- They have the same frames around each. -/
theorem around (h : fs.Alike fs') (env : FrameId) : fs.around env = fs'.around env := by
  simp only [Frames.around, h.nextId, h.chain]

/-- They have the same roots. -/
theorem root (h : fs.Alike fs') (env : FrameId) : fs.root env = fs'.root env := by
  rw [Frames.root, h.outer, Frames.root]

/-- A search finds alike values in them. -/
theorem search (h : fs.Alike fs') (name : String) (envs : List FrameId) :
    (fs.search name envs).map Value.shape = (fs'.search name envs).map Value.shape := by
  induction envs with
  | nil => rfl
  | cons env rest ih =>
      have own := h.own? env name
      simp only [Frames.search]
      cases first : fs.own? env name <;> cases second : fs'.own? env name <;>
        rw [first, second] at own
      · exact ih
      · cases own
      · cases own
      · exact own

/-- So does a lookup. -/
theorem lookup? (h : fs.Alike fs') (env : FrameId) (name : String) :
    (fs.lookup? env name).map Value.shape = (fs'.lookup? env name).map Value.shape := by
  rw [Frames.lookup?, h.chain, Frames.lookup?]
  exact h.search name _

/-- The same names are bound in them. -/
theorem isBound (h : fs.Alike fs') (env : FrameId) (name : String) :
    fs.isBound env name = fs'.isBound env name := by
  rw [Frames.isBound, ← Option.isSome_map, h.lookup?, Option.isSome_map, Frames.isBound]

/-- The globals in them are alike. -/
theorem getGlobal? (h : fs.Alike fs') (env : FrameId) (name : String) :
    (fs.getGlobal? env name).map Value.shape = (fs'.getGlobal? env name).map Value.shape := by
  rw [Frames.getGlobal?, h.root, Frames.getGlobal?]
  exact h.own? _ name

/-- So is what is bound further out. -/
theorem getOuter? (h : fs.Alike fs') (env : FrameId) (name : String) :
    (fs.getOuter? env name).map Value.shape = (fs'.getOuter? env name).map Value.shape := by
  rw [Frames.getOuter?, h.outer, Frames.getOuter?]
  exact h.search name _

/-- The same names are listed in them. -/
theorem names (h : fs.Alike fs') (env : FrameId) : fs.names env = fs'.names env := by
  have members : ∀ name, name ∈ fs.names env ↔ name ∈ fs'.names env := by
    intro name
    have own := congrArg Option.isSome (h.own? env name)
    rw [Option.isSome_map, Option.isSome_map] at own
    simp only [Frames.names, Std.TreeMap.mem_keys, Std.TreeMap.mem_iff_isSome_getElem?]
    exact Bool.eq_iff_iff.mp own
  have distinct : ∀ fs : Frames, (fs.names env).Nodup := fun fs =>
    (Std.TreeMap.distinct_keys (t := (fs.frame env).vars)).imp fun ne same =>
      ne (Std.compare_eq_iff_eq.mpr same)
  refine List.Perm.eq_of_pairwise (fun a b _ _ lt gt => ?_) Std.TreeMap.ordered_keys
    Std.TreeMap.ordered_keys ((List.perm_ext_iff_of_nodup (distinct fs) (distinct fs')).mpr members)
  cases (Std.TransCmp.lt_trans lt gt).symm.trans (Std.compare_eq_iff_eq.mpr rfl)

/-- They stay alike under definitions of alike values. -/
theorem define (h : fs.Alike fs') (env : FrameId) (name : String) {v v' : Value}
    (same : v.Alike v') : (fs.define env name v).Alike (fs'.define env name v') := by
  refine ⟨by simp [h.nextId], fun g => by simp [h.outer], fun g name' => ?_⟩
  by_cases here : g = env
  · subst here
    by_cases made : g < fs.nextId
    · rw [own?_define made, own?_define (h.nextId ▸ made)]
      split
      · exact congrArg some same
      · exact h.own? g name'
    · have behind : ∀ (fs : Frames) (v : Value), fs.nextId ≤ g →
          (fs.define g name v).own? g name' = none := fun fs v le =>
        own?_of_nextId_le (by rwa [nextId_define]) name'
      rw [behind _ _ (Nat.le_of_not_lt made), behind _ _ (h.nextId ▸ Nat.le_of_not_lt made)]
  · have other : ∀ (fs : Frames) (v : Value),
        (fs.define env name v).own? g name' = fs.own? g name' := fun fs v => by
      rw [Frames.own?, frame_define_of_ne here, Frames.own?]
    rw [other, other]
    exact h.own? g name'

/-- They do so under global ones. -/
theorem setGlobal (h : fs.Alike fs') (env : FrameId) (name : String) {v v' : Value}
    (same : v.Alike v') : (fs.setGlobal env name v).Alike (fs'.setGlobal env name v') := by
  rw [Frames.setGlobal, h.root, Frames.setGlobal]
  exact h.define _ name same

/-- They do so with one more frame each. -/
theorem newChild (h : fs.Alike fs') (env : FrameId) :
    (fs.newChild env).1 = (fs'.newChild env).1 ∧
      (fs.newChild env).2.Alike (fs'.newChild env).2 := by
  refine ⟨h.nextId, by simp [h.nextId], fun g => ?_, fun g name => ?_⟩
  · rw [frame_newChild, frame_newChild, h.nextId, h.around]
    split
    · rfl
    · exact h.outer g
  · simp only [Frames.own?, frame_newChild, h.nextId]
    split
    · rfl
    · exact h.own? g name

end Frames.Alike

end ScriptConsole
