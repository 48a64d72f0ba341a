import ScriptConsole.Proofs.Evaluation.Simple

/-!
# Quiet Steps

Most steps of evaluation change nothing but the host world, the console and the trace: they are
**quiet** (`Run.Quiet`), which is to say that they bind nothing, enter and leave no function, and
stop by nothing but an error. Simple steps are quiet, and so are calls of the host and whatever
leads to them.

## Main results

* `Run.Quiet.bind`: quiet steps one after the other.
* `Run.Simple.quiet`: simple steps.
* `HostAccess.quiet_invoke`, `HostAccess.quiet_callPath`, `HostAccess.quiet_construct`: calls of the
  host.
-/

namespace ScriptConsole

namespace Run

variable {α β : Type}

/-- What a step has made of a machine when it has bound nothing, entered and left no function, and
stopped by nothing but an error. -/
structure Unmoved (m : Machine) (o : Except Stop α × Machine) : Prop where
  frames : o.2.frames = m.frames
  depth : o.2.depth = m.depth
  stop : ∀ s, o.1 = .error s → ∃ e, s = .fault e

/-- What does not move the machine is no exit. -/
theorem Unmoved.exit {m : Machine} {o : Except Stop α × Machine} (h : Unmoved m o) (d : Nat)
    (v : Value) : o.1 ≠ .error (.exit d v) := fun same => by
  obtain ⟨e, he⟩ := h.stop _ same
  cases he

/-- A result with the frames and the depth there were. -/
theorem Unmoved.ok {m m' : Machine} (a : α) (frames : m'.frames = m.frames)
    (depth : m'.depth = m.depth) : Unmoved m (Except.ok a, m') :=
  ⟨frames, depth, fun s (h : Except.ok a = .error s) => nomatch h⟩

/-- An error with the frames and the depth there were. -/
theorem Unmoved.fault {m m' : Machine} (e : EvalError) (frames : m'.frames = m.frames)
    (depth : m'.depth = m.depth) : Unmoved m ((Except.error (.fault e) : Except Stop α), m') :=
  ⟨frames, depth, fun _ h => ⟨e, (Except.error.inj h).symm⟩⟩

/-- A step that binds nothing, enters and leaves no function, and stops by nothing but an error. -/
def Quiet (x : Run α) : Prop := ∀ m, Unmoved m (x m)

/-- A result alone is quiet. -/
theorem quiet_pure (a : α) : Quiet (pure a : Run α) := fun _ => .ok a rfl rfl

/-- So are quiet runs one after the other. -/
theorem Quiet.bind {x : Run α} {f : α → Run β} (hx : x.Quiet) (hf : ∀ a, (f a).Quiet) :
    (x >>= f).Quiet := by
  intro m
  have first := hx m
  rw [bind_apply]
  rcases hm : x m with ⟨s | a, m'⟩ <;> rw [hm] at first
  · refine ⟨first.frames, first.depth, fun s' h => first.stop s' ?_⟩
    exact congrArg Except.error (Except.error.inj h)
  · have second := hf a m'
    exact ⟨second.frames.trans first.frames, second.depth.trans first.depth, second.stop⟩

/-- So is a look at the machine. -/
theorem quiet_look (f : Machine → α) : (look f).Quiet := fun _ => .ok _ rfl rfl

/-- So is an error. -/
theorem quiet_fault (e : EvalError) : (fault e : Run α).Quiet := fun _ => .fault e rfl rfl

/-- Simple steps are quiet, since the few that they are put together from are. -/
theorem Simple.quiet {x : Run α} (h : x.Simple) : x.Quiet := by
  induction h with
  | pure a => exact quiet_pure a
  | fault e => exact quiet_fault e
  | look f => exact quiet_look _
  | onWorld f => exact fun _ => .ok _ rfl rfl
  | print line => exact fun _ => .ok _ rfl rfl
  | bind _ _ ihx ihf => exact ihx.bind ihf

end Run

/-! ### Calls of the host -/

namespace HostAccess

open Run

variable (registry : Registry)

/-- A call of the host is quiet. -/
theorem quiet_call (target : Registry.Target) (args : List Value) :
    (call registry target args).Quiet := by
  rintro ⟨frames, world, console, tracer, depth⟩
  simp only [call]
  split
  · exact .ok _ rfl rfl
  · exact .fault _ rfl rfl

/-- So is that of a method. -/
theorem quiet_invoke (target : Value) (name : String) (args : List Value) :
    (invoke registry target name args).Quiet :=
  (simple_ofExcept _).quiet.bind fun target => quiet_call registry target args

/-- So is that of a constructor. -/
theorem quiet_construct (ref : ClassRef) (args : List Value) :
    (construct registry ref args).Quiet :=
  (simple_ofExcept _).quiet.bind fun target => quiet_call registry target args

/-- So is that of what a path leads to. -/
theorem quiet_callPath (ref : ClassRef) (path : List String) (args : List Value) :
    (callPath registry ref path args).Quiet := by
  unfold callPath
  split
  · exact quiet_construct registry ref args
  · exact (simple_members registry _ _).quiet.bind fun target => quiet_invoke registry target _ args

end HostAccess

/-! ### Builtins -/

namespace Plain

open Run

/-- Of the builtins that call nothing back, only `setGlobal` does anything to frames. -/
theorem frames_apply (registry : Registry) (env : FrameId) {b : Builtin} (args : List Value)
    (setGlobal : b ≠ .setGlobal) (m : Machine) :
    (apply registry env b args m).2.frames = m.frames := by
  rcases apply_cases registry env b args with simple | ⟨_, _, rfl, _⟩ | ⟨v, _, exit⟩ |
    ⟨d, v, rfl, rfl⟩ | ⟨stuck, -⟩
  · exact (simple.quiet m).frames
  · exact absurd rfl setGlobal
  · rw [exit]
    rfl
  · have depth := ((simple_exitDepth d).quiet m).frames
    show ((exitDepth d >>= fun n => Run.stop (.exit n v)) m).2.frames = _
    rw [bind_apply]
    rcases hd : exitDepth d m with ⟨s | n, m'⟩ <;> rw [hd] at depth <;> exact depth
  · rw [stuck]
    rfl

end Plain

end ScriptConsole
