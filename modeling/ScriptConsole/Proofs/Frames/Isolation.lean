import ScriptConsole.Proofs.Frames.Globals
import ScriptConsole.Session

/-!
# Isolation of Frames

Functions share the frames where they were made, they may be kept anywhere, and they may be called
long after the call that made them has ended. Even so, frames are isolated from one another.
Evaluation in a frame changes that frame; it changes roots through `setGlobal`; and of the frames
that were there before it changes no other. The frame of a call is new, and with the end of the call
it has its bindings for good.

Nothing is said here of how many roots there are. A session makes one, before and after every source
text (`Session.oneRoot_start`, `Session.oneRoot_eval`), which is where the chains of its frames end,
and then that root is the only other frame to change (`Isolated.single`). Still, a global name can
be bound to a function of another session, and that function takes the root of its own session along
(`other_root_changes`). So a root that is not the one of the evaluation is out of reach until a
function is called that was made under it (`Isolated.others`), and then it is reached as any root is
(`Isolated.roots`).

## Main results

* `Frames.Later.same`: what happens later leaves all other frames as they are.
* `lexical_isolation`: the frames of an evaluation.
-/

namespace ScriptConsole

/-! ### Sessions have one root -/

namespace Session

/-- Binding names in the root makes no further root. -/
theorem oneRoot_framesWith (builtins : List Builtin) : (framesWith builtins).OneRoot := by
  have one : Frames.empty.newRoot.2.OneRoot :=
    ⟨Nat.zero_lt_one, fun _ lt _ => Nat.lt_one_iff.mp lt⟩
  unfold framesWith
  generalize Frames.empty.newRoot.2 = fs at one ⊢
  induction builtins generalizing fs with
  | nil => exact one
  | cons b rest ih => exact ih _ ((fs.grows_define rootFrame b.name (.builtin b)).oneRoot one)

/-- A session starts with one root. -/
theorem oneRoot_start (registry : Registry) (config : Config) (world : World) (console : Console)
    (tracer : Tracer) : (start registry config world console tracer).machine.frames.OneRoot :=
  oneRoot_framesWith Builtin.all

/-- Evaluation of a source text makes no further root. -/
theorem oneRoot_eval (fuel : Nat) (source : String) {s : Session}
    (one : s.machine.frames.OneRoot) : (s.eval fuel source).2.machine.frames.OneRoot := by
  unfold eval
  split
  · exact one
  split
  · exact one
  · next p _ =>
    have grows := Task.growing_run s.setting fuel (.block rootFrame .null p.statements)
      { s.machine with depth := 0 }
    exact frames_endProgram _ _ ▸ grows.oneRoot one

end Session

/-! ### Later evaluations -/

/-- What becomes of frames through everything that may happen later: evaluations, none of them in
the frame `h`, global names that are bound from outside, and the starts of other sessions. -/
inductive Frames.Later (h : FrameId) : Frames → Frames → Prop
  | refl (fs : Frames) : Later h fs fs
  | run {fs : Frames} {m : Machine} (st : Setting) (fuel : Nat) (t : Task) :
      Later h fs m.frames → t.env? ≠ some h → Later h fs (t.run st fuel m).2.frames
  | bind {fs fs' : Frames} (env : FrameId) (name : String) (v : Value) :
      Later h fs fs' → Later h fs (fs'.setGlobal env name v)
  | root {fs fs' : Frames} : Later h fs fs' → Later h fs fs'.newRoot.2

/-- A frame that is no root stays as it is as long as nothing is evaluated in it. -/
theorem Frames.Later.same {h : FrameId} {fs fs' : Frames} (later : Later h fs fs')
    (made : h < fs.nextId) (root : fs.isRoot h = false) :
    h < fs'.nextId ∧ fs'.isRoot h = false ∧ fs'.frame h = fs.frame h := by
  have onward : ∀ {mid fs' : Frames}, mid.Keeps fs' →
      (mid.isRoot h = false → h < mid.nextId → fs'.frame h = mid.frame h) →
      h < mid.nextId ∧ mid.isRoot h = false ∧ mid.frame h = fs.frame h →
      h < fs'.nextId ∧ fs'.isRoot h = false ∧ fs'.frame h = fs.frame h := by
    rintro mid fs' keeps spares ⟨lt, root, same⟩
    exact ⟨Nat.lt_of_lt_of_le lt keeps.nextId, keeps.isRoot lt ▸ root, (spares root lt).trans same⟩
  induction later with
  | refl => exact ⟨made, root, rfl⟩
  | @run m st fuel t _ ne ih =>
      have grows := t.growing_run st fuel m
      exact onward grows.toKeeps (fun root lt => grows.same h lt ne.symm root) ih
  | @bind fs' env name v _ ih =>
      have grows := fs'.grows_setGlobal env name v
      exact onward grows.toKeeps (fun root lt => grows.same h lt nofun root) ih
  | @root fs' _ ih =>
      refine onward fs'.keeps_newRoot (fun _ lt => ?_) ih
      rw [frame_newRoot, if_neg (Nat.ne_of_lt lt)]

/-! ### Isolation -/

/-- How far the frames of an evaluation in the frame `env` are isolated from one another, when the
evaluation takes frames from `fs` to `fs'` and has the history `l`. -/
structure Isolated (env : FrameId) (fs fs' : Frames) (l : List Event) : Prop where
  /-- Of the frames that were there before, only that of the evaluation and its root may change, and
  another root if a function is called that was made under it. -/
  others : ∀ h < fs.nextId, h ≠ env → h ≠ fs.root env → fs'.frame h ≠ fs.frame h →
    fs.isRoot h = true ∧ ∃ e ∈ l, ∃ g, e.newFrame? = some g ∧ fs'.root g = h
  /-- Calls of `setGlobal` make of every frame but that of the evaluation what becomes of it. -/
  roots : ∀ h < fs.nextId, h ≠ env → fs'.frame h = (fs.frame h).withAll (globals h l)
  /-- Where there is one root, the frame of the evaluation and that root are all that may change. -/
  single : fs.OneRoot → ∀ h < fs.nextId, h ≠ env → h ≠ fs.root env → fs'.frame h = fs.frame h
  /-- Where there is one root, it stays the only one. -/
  oneRoot : fs.OneRoot → fs'.OneRoot
  /-- No binding is removed, and no frame gets a different one around it. -/
  keeps : fs.Keeps fs'
  /-- The same between any two moments of the evaluation. -/
  kept : l.Pairwise fun a b => a.machine.frames.Keeps b.machine.frames
  /-- The frame of a call is none of those that were there before. -/
  new : ∀ e ∈ l, ∀ h, e.newFrame? = some h → fs.nextId ≤ h
  /-- The frame of a call is none of those of earlier calls. -/
  distinct : l.Pairwise fun a b => ∀ h h', a.newFrame? = some h → b.newFrame? = some h' → h < h'
  /-- The frame of a call that has ended does not change for the rest of the evaluation. -/
  left : l.Pairwise fun a b => ∀ h, a.leftFrame? = some h →
    b.machine.frames.frame h = a.machine.frames.frame h
  /-- The frame of a call that has ended does not change later, either. -/
  afterwards : ∀ e ∈ l, ∀ h, e.leftFrame? = some h → ∀ fs'', fs'.Later h fs'' →
    fs''.frame h = e.machine.frames.frame h

/-- What has bound a name in a root: a call of `setGlobal` in a frame whose chain ends there. -/
theorem Event.of_global? {r : FrameId} {e : Event} {binding : String × Value}
    (bound : e.global? r = some binding) :
    ∃ env, e.task.env? = some env ∧ e.machine.frames.root env = r := by
  unfold global? at bound
  split at bound
  · next env a v _ m =>
    split at bound
    · next here => exact ⟨env, rfl, here⟩
    · cases bound
  · cases bound

/-- A frame that was never made is its own root. -/
theorem Frames.root_of_nextId_le {fs : Frames} {h : FrameId} (le : fs.nextId ≤ h) :
    fs.root h = h := by
  rw [root, frame_of_nextId_le le]
  rfl

section

variable {st : Setting} {fuel : Nat} {t : Task} {env : FrameId} {m : Machine}

/-- If a name is bound in a root other than that of the evaluation, then a function is called
that was made under it. -/
theorem called_under (made : env < m.frames.nextId) (ht : t.env? = some env) {r : FrameId}
    (lt : r < m.frames.nextId) (other : r ≠ m.frames.root env) {e : Event}
    (mem : e ∈ history st fuel [] t m) {binding : String × Value}
    (bound : e.global? r = some binding) :
    m.frames.isRoot r = true ∧ ∃ e' ∈ history st fuel [] t m, ∃ g, e'.newFrame? = some g ∧
      (t.run st fuel m).2.frames.root g = r := by
  have orderly := orderly_history st fuel (Nat.lt_of_le_of_lt (Nat.zero_le _) made) (m := m)
    (t := t) fun h heq => Option.some.inj (ht.symm.trans heq) ▸ made
  obtain ⟨env', inside, root⟩ := e.of_global? bound
  have before := (orderly.grows e mem).toKeeps
  have after := orderly.keeps e mem
  refine ⟨?_, ?_⟩
  · rw [← before.isRoot lt, ← root]
    exact (e.machine.frames.isRoot_root env').1
  rcases frame_of_mem mem inside with here | ⟨e', mem', new⟩
  · obtain rfl := Option.some.inj (ht.symm.trans here)
    exact absurd (root.symm.trans (before.root_eq made)) other
  · refine ⟨e', mem', env', new, ?_⟩
    have made' : env' < e.machine.frames.nextId := by
      refine Nat.lt_of_not_le fun le => ?_
      rw [Frames.root_of_nextId_le le] at root
      exact Nat.not_lt.mpr (Nat.le_trans before.nextId le) (root ▸ lt)
    exact (after.root_eq made').trans root

/-- **Lexical isolation.** Whatever is evaluated in a frame, and however the evaluation ends,
frames are isolated from one another. -/
theorem lexical_isolation (made : env < m.frames.nextId) (ht : t.env? = some env) :
    Isolated env m.frames (t.run st fuel m).2.frames (history st fuel [] t m) := by
  have grows := t.growing_run st fuel m
  have any : 0 < m.frames.nextId := Nat.lt_of_le_of_lt (Nat.zero_le _) made
  have orderly := orderly_history st fuel any (t := t) fun h heq =>
    Option.some.inj (ht.symm.trans heq) ▸ made
  have roots : ∀ h < m.frames.nextId, h ≠ env → (t.run st fuel m).2.frames.frame h =
      (m.frames.frame h).withAll (globals h (history st fuel [] t m)) := fun h lt ne =>
    accounts_history st fuel lt fun heq => ne (Option.some.inj (heq.symm.trans ht))
  have others : ∀ h < m.frames.nextId, h ≠ env → h ≠ m.frames.root env →
      (t.run st fuel m).2.frames.frame h ≠ m.frames.frame h →
      m.frames.isRoot h = true ∧ ∃ e ∈ history st fuel [] t m, ∃ g, e.newFrame? = some g ∧
        (t.run st fuel m).2.frames.root g = h := by
    intro h lt ne other changed
    have some : globals h (history st fuel [] t m) ≠ [] := fun nothing => by
      rw [roots h lt ne, nothing] at changed
      exact changed rfl
    obtain ⟨binding, mem⟩ := List.exists_mem_of_ne_nil _ some
    obtain ⟨e, mem, bound⟩ := List.mem_filterMap.mp mem
    exact called_under made ht lt other mem bound
  constructor
  · exact others
  · exact roots
  · intro one h lt ne other
    refine Classical.byContradiction fun changed => ?_
    have root := (others h lt ne other changed).1
    exact other ((one.2 h lt root).trans (one.root_eq made).symm)
  · exact grows.oneRoot
  · exact grows.toKeeps
  · exact orderly.kept
  · exact fun e mem h new => (orderly.made e mem h new).1
  · exact orderly.makes
  · exact orderly.leaves
  · intro e mem h left fs'' later
    obtain ⟨le, lt, same⟩ := orderly.left e mem h left
    exact (later.same lt (grows.inside any h le lt)).2.2.trans same

end

/-- In a frame inside the only root, a call of a function that takes a name and binds it globally:
the frame of the call is new, and the root is all that changes of what was there before. -/
theorem lexical_isolation_call :
    let fs := ((Session.framesWith Builtin.all).newChild Session.rootFrame).2
    let m : Machine := ⟨fs, World.empty, Console.ofInput [], Tracer.disabled, 0⟩
    let name (text : String) : Ident := ⟨text, .empty 0⟩
    let body : Expr := .call (.var (name "setGlobal")) [.var (name "x"), .literal .null (.empty 0)]
      (.empty 0)
    let t : Task := .expr 1 (.call (.paren (.func [name "x"] [body] (.empty 0)) (.empty 0))
      [.literal (.text "y") (.empty 0)] (.empty 0))
    fs.OneRoot ∧ 1 < fs.nextId ∧ fs.root 1 ≠ 1 ∧
      Isolated 1 fs (t.run ⟨Registry.empty, 8⟩ 20 m).2.frames
        (history ⟨Registry.empty, 8⟩ 20 [] t m) := by
  intro fs m name body t
  have start := Session.oneRoot_framesWith Builtin.all
  have one : fs.OneRoot := (Frames.grows_newChild _ _).oneRoot start
  have next := Frames.nextId_newChild (Session.framesWith Builtin.all) Session.rootFrame
  have made : 1 < fs.nextId := Nat.lt_of_lt_of_eq (Nat.lt_add_of_pos_left start.1) next.symm
  refine ⟨one, made, ?_, lexical_isolation (t := t) (m := m) made rfl⟩
  rw [one.root_eq made]
  exact Nat.zero_ne_one

/-- With two roots, a frame may change that is neither that of the evaluation nor its root. A global
name `f` of the first root is bound to the function `() { setGlobal("y", null); }` of the second. In
a frame inside the first, `f()` comes to a value and binds `y` in the second. -/
theorem other_root_changes :
    let name (text : String) : Ident := ⟨text, .empty 0⟩
    let body : Expr := .call (.var (name "setGlobal"))
      [.literal (.text "y") (.empty 0), .literal .null (.empty 0)] (.empty 0)
    let roots := (Frames.empty.newRoot.2.newRoot.2.newChild 0).2
    let supplied := roots.define 1 "setGlobal" (.builtin .setGlobal)
    let fs := supplied.define 0 "f" (.function ⟨0, [], [body], 1⟩)
    let m : Machine := ⟨fs, World.empty, Console.ofInput [], Tracer.disabled, 0⟩
    let t : Task := .expr 2 (.call (.var (name "f")) [] (.empty 0))
    let st : Setting := ⟨Registry.empty, 8⟩
    2 < fs.nextId ∧ (t.run st 20 m).1.toOption.isSome = true ∧
      ∃ h < fs.nextId, h ≠ 2 ∧ h ≠ fs.root 2 ∧ (fs.own? h "y").isSome = false ∧
        ((t.run st 20 m).2.frames.own? h "y").isSome = true := by
  intro name body roots supplied fs m t st
  exact ⟨by decide, by decide +kernel, 1, by decide, by decide, by decide +kernel,
    by decide +kernel, by decide +kernel⟩

end ScriptConsole
