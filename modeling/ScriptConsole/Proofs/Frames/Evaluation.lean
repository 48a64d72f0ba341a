import ScriptConsole.Proofs.Evaluation.History
import ScriptConsole.Proofs.Evaluation.Steps
import ScriptConsole.Proofs.Frames.Growth

/-!
# Frames Under Evaluation

Whatever is evaluated in a frame makes frames grow as in that frame (`Task.growing_run`): this is
so for each step that a task takes itself, and courses carry it over. A call of a function makes a
frame, moves on to it for its body, and is evaluated in none of the frames that there were.

## Main results

* `Task.Step.growing`: the steps.
* `Task.enter_ok`: a call gets the next frame.
* `Task.growing_run`: whole evaluations, by induction on the fuel.
-/

namespace ScriptConsole

namespace Run

variable {α β : Type} {env : Option FrameId}

/-- A run that makes frames grow as in the frame `env`. -/
def Growing (env : Option FrameId) (x : Run α) : Prop :=
  ∀ m : Machine, m.frames.Grows env (x m).2.frames

/-- A quiet run changes no frames. -/
theorem Quiet.growing {x : Run α} (h : x.Quiet) (env : Option FrameId) : x.Growing env := by
  intro m
  rw [(h m).frames]
  exact .refl env m.frames

/-- Neither does a stop. -/
theorem growing_stop (s : Stop) (env : Option FrameId) : (stop s : Run α).Growing env :=
  fun m => .refl env m.frames

/-- What changes no frame may be said to change one. -/
theorem Growing.weaken {x : Run α} (h : x.Growing none) (env : Option FrameId) : x.Growing env :=
  fun m => (h m).weaken env

/-- Runs one after the other change what each of them does. -/
theorem Growing.bind {x : Run α} {f : α → Run β} (hx : x.Growing env)
    (hf : ∀ a, (f a).Growing env) : (x >>= f).Growing env := by
  intro m
  have first := hx m
  rw [bind_apply]
  rcases hm : x m with ⟨s | a, m'⟩ <;> rw [hm] at first
  · exact first
  · exact first.trans (hf a m')

/-- What is done with the frames changes them so far as it does. -/
theorem growing_onFrames {f : Frames → α × Frames} (h : ∀ fs : Frames, fs.Grows env (f fs).2) :
    (onFrames f).Growing env := fun m => h m.frames

/-- A failed run and its handler change what each of them does. -/
theorem Growing.catchFault {x : Run α} {handler : EvalError → Run α} (hx : x.Growing env)
    (hh : ∀ e, (handler e).Growing env) : (x.catchFault handler).Growing env := by
  intro m
  have first := hx m
  unfold Run.catchFault
  split
  · next e m' hm =>
    rw [hm] at first
    exact first.trans (hh e m')
  · exact first

/-- The end of a call does nothing to frames. -/
theorem frames_absorbExit (x : Run Value) (m : Machine) :
    (x.absorbExit m).2.frames = (x m).2.frames := by
  unfold Run.absorbExit
  split
  · next hm =>
    rw [hm]
    split <;> rfl
  · rfl

end Run

/-- The end of a program does nothing to frames. -/
theorem frames_endProgram (x : Run Value) (m : Machine) :
    (endProgram x m).2.frames = (x m).2.frames := by
  unfold endProgram
  split
  · next hm => rw [hm]
  · rfl

/-- Binding parameters binds them in their frame. -/
theorem grows_bindAll (fs : Frames) (h : FrameId) (names : List String) (vs : List Value) :
    fs.Grows (some h) (bindAll fs h names vs) := by
  fun_induction bindAll fs h names vs with
  | case1 fs name names v vs ih => exact (fs.grows_define h name v).trans ih
  | case2 => exact .refl _ _

namespace Task

variable {st : Setting}

/-- A builtin changes the frame that it is called in at most. -/
theorem growing_apply (registry : Registry) (env : FrameId) (b : Builtin) (args : List Value) :
    (Plain.apply registry env b args).Growing (some env) := by
  by_cases setGlobal : b = .setGlobal
  · subst setGlobal
    match args with
    | [a, v] =>
        refine ((Plain.simple_nameArgument _ a).quiet.growing _).bind fun name => ?_
        exact (Run.growing_onFrames fun fs => fs.grows_setGlobal env name v).weaken _
    | [] | [_] | _ :: _ :: _ :: _ => exact Run.growing_stop _ _
  · intro m
    rw [Plain.frames_apply registry env args setGlobal]
    exact .refl _ _

/-- A call of a function is refused, or it gets a frame. -/
theorem beginCall_cases (f : Closure) (args : List Value) (m : Machine) :
    (∃ e, beginCall st f args m = (.error (.fault e), m)) ∨
      beginCall st f args m = enter f args m := by
  rw [beginCall_apply]
  split
  · exact .inl ⟨_, rfl⟩
  · split
    · exact .inl ⟨_, rfl⟩
    · exact .inr rfl

/-- The frame of a call is the next one, and frames grow. -/
theorem enter_ok (f : Closure) (args : List Value) (m : Machine) :
    ∃ m', enter f args m = (.ok m.frames.nextId, m') ∧ m.frames.nextId < m'.frames.nextId ∧
      m.frames.Grows none m'.frames := by
  have parameters := grows_bindAll (m.frames.newChild f.frame).2 m.frames.nextId f.params args
  refine ⟨_, rfl, ?_, (m.frames.grows_newChild f.frame).call parameters (Nat.le_refl _)⟩
  have := parameters.nextId
  rw [Frames.nextId_newChild] at this
  exact this

/-- The beginning of a call makes a frame and changes no other. -/
theorem growing_beginCall (f : Closure) (args : List Value) :
    (beginCall st f args).Growing none := by
  intro m
  rcases beginCall_cases f args m with ⟨e, h⟩ | h
  · rw [h]
    exact .refl none m.frames
  · obtain ⟨m', hm, -, grows⟩ := enter_ok f args m
    rw [h, hm]
    exact grows

/-- A step of a task changes the frame of the task at most. -/
theorem Step.growing {t : Task} {β : Type} {x : Run β} (h : Step st t x) : x.Growing t.env? := by
  cases h with
  | simple h => exact h.quiet.growing _
  | host _ h => exact h.growing _
  | define => exact Run.growing_onFrames fun fs => fs.grows_define _ _ _
  | builtin => exact growing_apply _ _ _ _
  | begin => exact growing_beginCall _ _

end Task

/-- What a task hands on makes frames grow as in the frame of the task. -/
theorem Run.Growing.handedOn {α : Type} {env : Option FrameId} {u : Task} {x : Run α}
    (h : x.Growing u.env?) (handed : u.env? = env ∨ u.env? = none) : x.Growing env := by
  rcases handed with same | none
  · exact same ▸ h
  · exact Run.Growing.weaken (none ▸ h) env

/-- A course makes the frames of one task grow, if what it hands on has no other frame. -/
theorem Course.growing_exec {α : Type} {env : Option FrameId} {run : (t : Task) → Run t.Result}
    (inside : ∀ u, (run u).Growing u.env?) {c : Course α}
    (every : c.All (fun x => x.Growing env) fun u => u.env? = env ∨ u.env? = none) :
    (c.exec run).Growing env :=
  exec_of_all (fun a => (Run.quiet_pure a).growing env) Run.Growing.bind
    (every.imp id fun {u} handed => (inside u).handedOn handed)

/-- **Growth.** Whatever is evaluated makes frames grow as in its frame. -/
theorem Task.growing_run (st : Setting) (fuel : Nat) (t : Task) :
    (t.run st fuel).Growing t.env? := by
  induction fuel generalizing t with
  | zero =>
      rw [run_zero]
      exact Run.growing_stop _ _
  | succ fuel ih =>
      have every := plan_all st t
      rw [run_succ]
      rcases exists_steps st t with ⟨f, args, rfl⟩ | ⟨env, thunk, handler, rfl⟩ | ⟨⟨c, hc⟩, -⟩
      · refine fun m => ?_
        rw [plan, Plan.exec, Run.bind_apply]
        rcases beginCall_cases f args m with ⟨e, h⟩ | h
        · rw [h]
          exact .refl none m.frames
        · obtain ⟨m', hm, -, grows⟩ := enter_ok f args m
          have body := ih (.block m.frames.nextId .null f.body) m'.deeper
          rw [h, hm, Run.frames_absorbExit]
          exact grows.call body (Nat.le_refl _)
      · obtain ⟨-, handled⟩ := every
        exact (ih (.apply env thunk [])).catchFault fun e =>
          Course.growing_exec ih ((handled e).imp Step.growing id)
      · rw [hc] at every ⊢
        exact Course.growing_exec ih (every.imp Step.growing id)

end ScriptConsole
