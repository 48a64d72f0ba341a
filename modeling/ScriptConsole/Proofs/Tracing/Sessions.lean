import ScriptConsole.Proofs.Session.Operations
import ScriptConsole.Proofs.Tracing.Ledger

/-!
# Ledgers of Sessions

The ledger of an operation on a session lists the callables of the host that it runs. As in a single
evaluation, an operation other than `finish` does one thing to the tracer, which is to record its
ledger.

## Main results

* `Session.eval_withTracer`: the evaluation of a source text.
* `Session.tracer_apply`: what an operation does to the tracer.
-/

namespace ScriptConsole.Session

/-- The session with another tracer. -/
def withTracer (s : Session) (tracer : Tracer) : Session :=
  { s with machine := s.machine.withTracer tracer }

/-- A session with a tracer has that tracer. -/
@[simp] theorem tracer_withTracer (s : Session) (tracer : Tracer) :
    (s.withTracer tracer).machine.tracer = tracer := rfl

/-- It has the same configuration. -/
@[simp] theorem config_withTracer (s : Session) (tracer : Tracer) :
    (s.withTracer tracer).config = s.config := rfl

/-- It has the same setting. -/
@[simp] theorem setting_withTracer (s : Session) (tracer : Tracer) :
    (s.withTracer tracer).setting = s.setting := rfl

/-- It begins the next program with that tracer. -/
@[simp] theorem reset_withTracer (s : Session) (tracer : Tracer) :
    (s.withTracer tracer).machine.reset = s.machine.reset.withTracer tracer := rfl

/-- A session has the tracer that it has. -/
@[simp] theorem withTracer_self (s : Session) : s.withTracer s.machine.tracer = s := rfl

/-- The program of a source text, unless the text is too large or is none. -/
def accepted (source : String) (s : Session) : Option Program :=
  if s.config.maxSourceSize < source.utf8ByteSize then none else (Program.ofSource source).toOption

/-- The callables of the host that are run when a source text is evaluated. -/
def visits (fuel : Nat) (source : String) (s : Session) : List Visit :=
  match s.accepted source with
  | none => []
  | some p => ScriptConsole.visits s.setting fuel (task p) s.machine.reset

variable (fuel : Nat) (s : Session) (tracer : Tracer)

/-- A program runs the same with any tracer, which records its visits. -/
theorem evalProgram_withTracer (p : Program) :
    (s.withTracer tracer).evalProgram fuel p =
      ((s.evalProgram fuel p).1,
        (s.evalProgram fuel p).2.withTracer (tracer.recordAll s.registry
          (ScriptConsole.visits s.setting fuel (task p) s.machine.reset))) := by
  have traced := traced_endProgram ((task p).traced_run s.setting fuel)
  obtain ⟨same, -⟩ := traced s.machine.reset tracer
  rw [evalProgram_eq, evalProgram_eq, setting_withTracer, reset_withTracer, same]
  rfl

/-- Evaluation of a source text records its ledger, and does not depend on the tracer otherwise. -/
theorem eval_withTracer (source : String) :
    (s.withTracer tracer).eval fuel source =
        ((s.eval fuel source).1,
          (s.eval fuel source).2.withTracer (tracer.recordAll s.registry (s.visits fuel source))) ∧
      (s.withTracer tracer).visits fuel source = s.visits fuel source := by
  unfold eval visits accepted
  rw [config_withTracer]
  split
  · exact ⟨rfl, rfl⟩
  cases Program.ofSource source with
  | error e => exact ⟨rfl, rfl⟩
  | ok p =>
      refine ⟨evalProgram_withTracer fuel s tracer p, ?_⟩
      exact ((task p).traced_run s.setting fuel s.machine.reset tracer).2

/-- What the evaluation of a source text does to the tracer. -/
theorem tracer_eval (source : String) :
    (s.eval fuel source).2.machine.tracer =
      s.machine.tracer.recordAll s.registry (s.visits fuel source) := by
  obtain ⟨same, -⟩ := eval_withTracer fuel s s.machine.tracer source
  rw [withTracer_self] at same
  rw [same]
  rfl

/-! ### Operations -/

/-- The callables of the host that are run when a line of input is answered. -/
def answerVisits (fuel : Nat) (line : String) (s : Session) : List Visit :=
  if Text.allBlank line.toList then [] else s.visits fuel (terminated (trimmed line))

/-- The callables of the host that are run when the lines that wait at the console are answered, at
most so many of them. -/
def lineVisits (fuel : Nat) : (lines : Nat) → Session → List Visit
  | 0, _ => []
  | lines + 1, s =>
    match s.machine.console.nextLine with
    | (none, _) => []
    | (some line, console) =>
      let s := s.withConsole console
      s.answerVisits fuel line ++ lineVisits fuel lines (s.answer fuel line).2

/-- The callables of the host that are run by an operation. -/
def Operation.visits (s : Session) : Operation → List Visit
  | eval fuel source => s.visits fuel source
  | line fuel text => s.visits fuel (terminated (trimmed text))
  | run fuel => s.lineVisits fuel s.machine.console.input.length
  | setGlobal _ _ => []
  | finish _ => []

/-- The callables of the host that are run by some operations, one after the other. -/
def visitsOf (s : Session) : List Operation → List Visit
  | [] => []
  | op :: ops => op.visits s ++ (op.apply s).visitsOf ops

/-- No operation registers a class. -/
theorem registry_kept (registry : Registry) : Kept fun s => s.registry = registry where
  program _ _ {_} same := same
  console _ {_} same := same
  setGlobal _ _ {_} same := same
  finish _ {_} same := same

/-- A report is not traced. -/
theorem tracer_report (result : Except Failure Value) :
    (s.report result).machine.tracer = s.machine.tracer := by
  unfold report
  split
  · rfl
  · split <;> rfl
  · rfl

/-- A line of input is traced as the source that it becomes. -/
theorem tracer_evalLine (line : String) :
    (s.evalLine fuel line).2.machine.tracer =
      s.machine.tracer.recordAll s.registry (s.visits fuel (terminated (trimmed line))) := by
  rw [← tracer_eval]
  exact tracer_report _ _

/-- So is one whose result is printed. -/
theorem tracer_answer (line : String) :
    (s.answer fuel line).2.machine.tracer =
      s.machine.tracer.recordAll s.registry (s.answerVisits fuel line) := by
  have answered := tracer_evalLine fuel s line
  unfold answer answerVisits
  split
  · rfl
  · split <;> next hs => rw [hs] at answered; exact answered

/-- Lines are traced one after the other. -/
theorem tracer_runLines (lines failures : Nat) :
    (s.runLines fuel lines failures).2.machine.tracer =
      s.machine.tracer.recordAll s.registry (s.lineVisits fuel lines) := by
  induction lines generalizing failures s with
  | zero => rfl
  | succ lines ih =>
      rw [runLines, lineVisits]
      rcases s.machine.console.nextLine with ⟨_ | line, console⟩
      · rfl
      have answered := tracer_answer fuel (s.withConsole console) line
      have registry := (registry_kept s.registry).steady.answer fuel line
        (show (s.withConsole console).registry = s.registry from rfl)
      have rest (failures : Nat) := ih ((s.withConsole console).answer fuel line).2 failures
      rw [registry, answered] at rest
      dsimp only
      rw [Tracer.recordAll_append]
      rw [withConsole] at rest ⊢
      split <;> next hs =>
        rw [hs] at rest ⊢
        exact rest _

/-- What an operation does to the tracer: `finish` ends the trace, and all others record what they
run. -/
theorem tracer_apply (op : Operation) :
    (op.apply s).machine.tracer =
      match op with
      | .finish success =>
        (s.machine.tracer.finalize (if success then "success" else "error")).2
      | op => s.machine.tracer.recordAll s.registry (op.visits s) := by
  cases op with
  | eval fuel source => exact tracer_eval fuel s source
  | line fuel text => exact tracer_evalLine fuel s text
  | run fuel => exact tracer_runLines fuel s _ 0
  | setGlobal name v => rfl
  | finish success => rfl

end ScriptConsole.Session
