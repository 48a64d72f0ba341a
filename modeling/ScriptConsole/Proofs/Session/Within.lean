import ScriptConsole.Proofs.Evaluation.Within
import ScriptConsole.Proofs.Frames.Isolation
import ScriptConsole.Proofs.Session.Limits

/-!
# Sessions Within a Discipline

A session keeps to a discipline as long as nothing else comes in from outside: the builtins that are
bound at its start, the world that it starts in, what its host hands out, and what operations bind
to global names (`Session.Obeys`). Then all that is ever at hand in it may be so, before, during and
after every evaluation.

## Main results

* `Session.Within.after`: sessions keep to a discipline through all operations.
* `Session.Within.events`: and so does everything that happens during a program.
* `Session.within_startWith`: sessions at their start.
-/

namespace ScriptConsole

variable {σ : Type} {D : Discipline σ} {n : σ}

/-- The end of a program, whose exits become its values. -/
theorem Run.Within.endProgram {x : Run Value}
    (inside : x.Within D n fun n v => D.HasEach n [v]) :
    (endProgram x).Within D n fun n v => D.HasEach n [v] := by
  intro m within_
  have ends := inside m within_
  unfold ScriptConsole.endProgram
  generalize x m = o at ends
  cases ends with
  | ok later machine result => exact .ok later machine result
  | @stop n' e m' later machine values =>
      cases e with
      | exit depth v => exact .ok later machine values
      | _ => exact .stop later machine values

namespace Session

variable {s : Session}

/-- Whether a session keeps to a discipline, at some stage. -/
structure Within (D : Discipline σ) (s : Session) : Prop where
  host : s.registry.Keeps D
  machine : ∃ n, s.machine.Within D n

/-- A program is a task within the discipline. -/
theorem within_task (h : s.machine.Within D n) (p : Program) : (task p).Within D n :=
  Task.within_block (h.frames.count ▸ h.frames.oneRoot.1) (D.scalar rfl) p.statements

/-- A machine at the start of a program. -/
theorem within_reset (h : s.machine.Within D n) : s.machine.reset.Within D n :=
  ⟨h.frames, h.world⟩

/-- Everything that happens during a program keeps to the discipline. -/
theorem Within.events (h : s.Within D) (fuel : Nat) (p : Program) :
    ∀ e ∈ s.events fuel p, e.Within D := by
  have host : s.setting.registry.Keeps D := h.host
  obtain ⟨n, machine⟩ := h.machine
  exact Task.within_history host fuel [] (within_task machine p) (within_reset machine)

/-- Programs and the console keep a session within its discipline. -/
theorem steady_within (D : Discipline σ) : Steady (Within D) where
  program fuel p s h := by
    have host : s.setting.registry.Keeps D := h.host
    obtain ⟨n, machine⟩ := h.machine
    have inside := Task.within_run host fuel (within_task machine p)
    have ends := inside.endProgram _ (within_reset machine)
    rw [evalProgram_eq]
    generalize ScriptConsole.endProgram ((task p).run s.setting fuel) s.machine.reset = o at ends
    cases ends with
    | ok _ machine _ => exact ⟨h.host, _, machine⟩
    | stop _ machine _ => exact ⟨h.host, _, machine⟩
  console c s h := ⟨h.host, h.machine.imp fun _ machine => ⟨machine.frames, machine.world⟩⟩

/-! ### Operations -/

/-- Whether an operation brings in only what may be at hand, whatever the stage. -/
def Operation.Obeys (D : Discipline σ) (s : Session) : Operation → Prop
  | setGlobal _ v => ∀ n, s.machine.Within D n → D.Has n v
  | _ => True

/-- Whether operations, one after the other, bring in only what may be at hand. -/
def Obeys (D : Discipline σ) : Session → List Operation → Prop
  | _, [] => True
  | s, op :: ops => op.Obeys D s ∧ Obeys D (op.apply s) ops

/-- What an operation does to a session. -/
theorem Within.apply (h : s.Within D) {op : Operation} (obeys : op.Obeys D s) :
    (op.apply s).Within D := by
  cases op with
  | eval fuel source => exact (steady_within D).eval fuel source h
  | line fuel text => exact (steady_within D).evalLine fuel text h
  | run fuel => exact (steady_within D).run fuel h
  | setGlobal name v =>
      obtain ⟨n, machine⟩ := h.machine
      exact ⟨h.host, n, machine.frames.define _ name (obeys n machine), machine.world⟩
  | finish success =>
      exact ⟨h.host, h.machine.imp fun _ machine => ⟨machine.frames, machine.world⟩⟩

/-- Sessions keep to a discipline through all operations, by induction on them. -/
theorem Within.after {ops : List Operation} (h : s.Within D) (obeys : s.Obeys D ops) :
    (s.after ops).Within D := by
  induction ops generalizing s with
  | nil => exact h
  | cons op ops ih => exact ih (h.apply obeys.1) obeys.2

section

variable {stock : Stock}

/-- Whether an operation brings in only what is of a stock. -/
def Operation.Supplies (stock : Stock) (s : Session) : Operation → Prop
  | setGlobal _ v => stock.Has s.machine.frames.nextId v
  | _ => True

/-- Whether operations, one after the other, bring in only what is of a stock. -/
def Supplied (stock : Stock) : Session → List Operation → Prop
  | _, [] => True
  | s, op :: ops => op.Supplies stock s ∧ Supplied stock (op.apply s) ops

/-- What is of a stock may be at hand. -/
theorem Supplied.obeys {ops : List Operation} (h : s.Supplied stock ops) :
    s.Obeys stock.discipline ops := by
  induction ops generalizing s with
  | nil => trivial
  | cons op ops ih =>
      refine ⟨?_, ih h.2⟩
      cases op with
      | setGlobal name v =>
          intro n machine
          have has : stock.Has s.machine.frames.nextId v := h.1
          rwa [machine.frames.count] at has
      | _ => trivial

end

/-! ### The start -/

/-- A new session in a world, with some builtins. -/
def startWith (builtins : List Builtin) (registry : Registry) (config : Config) (world : World)
    (console : Console) (tracer : Tracer) : Session :=
  ⟨registry, config, ⟨framesWith builtins, world, console, tracer, 0⟩⟩

example (registry : Registry) (config : Config) (world : World) (console : Console)
    (tracer : Tracer) : start registry config world console tracer =
      startWith Builtin.all registry config world console tracer := by
  rfl

/-- There is one frame at the start, in which nothing but the builtins is bound. -/
theorem within_framesWith {builtins : List Builtin}
    (allowed : ∀ b ∈ builtins, D.Has n (.builtin b)) (one : D.frames n = 1) :
    (framesWith builtins).Within D n := by
  have first : Frames.empty.newRoot.2.Within D n := by
    refine ⟨one.symm, oneRoot_framesWith [], fun h name v own => ?_⟩
    have frame : Frames.empty.newRoot.2.frame h = if h = 0 then ⟨∅, []⟩ else .blank :=
      Frame.getD_push _ _ _
    rw [Frames.own?, frame] at own
    split at own <;> cases own
  unfold framesWith
  generalize Frames.empty.newRoot.2 = fs at first ⊢
  induction builtins generalizing fs with
  | nil => exact first
  | cons b rest ih =>
      obtain ⟨head, others⟩ := List.forall_mem_cons.mp allowed
      exact ih others _ (first.define rootFrame b.name head)

/-- A new session keeps to a discipline that allows its builtins, its host and its world. -/
theorem within_startWith {builtins : List Builtin}
    (allowed : ∀ b ∈ builtins, D.Has n (.builtin b)) (one : D.frames n = 1) {registry : Registry}
    (host : registry.Keeps D) (config : Config) {world : World} (kept : world.Keeps D n)
    (console : Console) (tracer : Tracer) :
    (startWith builtins registry config world console tracer).Within D :=
  ⟨host, n, within_framesWith allowed one, kept⟩

end Session

end ScriptConsole
