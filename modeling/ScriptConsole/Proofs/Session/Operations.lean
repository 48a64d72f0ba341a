import ScriptConsole.Proofs.Evaluation.Plan
import ScriptConsole.Session

/-!
# Operations on Sessions

A session is used through a few operations, in any order and any number of times. What they do to
a session is made of four things (`Session.Kept`): a program is evaluated, the console is read,
printed on or closed, a global name is bound, and the trace is finished. Whatever these four keep
holds after every sequence of operations.

## Main results

* `Session.Kept.after`: what is kept holds after all operations.
-/

namespace ScriptConsole

/-- The machine with the count of running function bodies set to zero. -/
def Machine.reset (m : Machine) : Machine := { m with depth := 0 }

namespace Session

/-- What a program does, as a task. -/
def task (p : Program) : Task := .block rootFrame .null p.statements

/-- A program is evaluated by the run of its task. -/
theorem evalProgram_eq (fuel : Nat) (p : Program) (s : Session) :
    s.evalProgram fuel p =
      (resultOf (endProgram ((task p).run s.setting fuel) s.machine.reset).1,
        { s with machine := (endProgram ((task p).run s.setting fuel) s.machine.reset).2 }) :=
  rfl

/-- The result of a program that uses its budget up or gets stuck says so, and no other does. -/
theorem resultOf_endProgram_eq_iff {x : Run Value} {m : Machine} {stop : Stop}
    (odd : stop = .exhausted ∨ stop = .stuck) :
    resultOf (endProgram x m).1 = resultOf (.error stop) ↔ (x m).1 = .error stop := by
  unfold endProgram
  rcases x m with ⟨(_ | _ | _ | _) | _, _⟩ <;> rcases odd with rfl | rfl <;> simp [resultOf]

/-! ### Operations -/

/-- What a session can be asked for. -/
inductive Operation where
  | eval (fuel : Nat) (source : String)
  | line (fuel : Nat) (text : String)
  /-- Answers the lines that wait at the console. -/
  | run (fuel : Nat)
  | setGlobal (name : String) (v : Value)
  | finish (success : Bool)

/-- The session after an operation. -/
def Operation.apply (s : Session) : Operation → Session
  | eval fuel source => (s.eval fuel source).2
  | line fuel text => (s.evalLine fuel text).2
  | run fuel => (s.run fuel).2
  | setGlobal name v => s.setGlobal name v
  | finish success => (s.finish success).2

/-- The session after some operations. -/
def after (s : Session) (ops : List Operation) : Session := ops.foldl Operation.apply s

/-- The first operation, then the others. -/
@[simp] theorem after_cons (s : Session) (op : Operation) (ops : List Operation) :
    s.after (op :: ops) = (op.apply s).after ops := rfl

/-- The session with another console. -/
def withConsole (s : Session) (c : Console) : Session :=
  { s with machine := { s.machine with console := c } }

/-- A property of sessions that programs and the console keep. -/
structure Steady (P : Session → Prop) : Prop where
  program : ∀ (fuel : Nat) (p : Program) {s : Session}, P s → P (s.evalProgram fuel p).2
  console : ∀ (c : Console) {s : Session}, P s → P (s.withConsole c)

namespace Steady

variable {P : Session → Prop} {s : Session}

/-- A steady property outlives the evaluation of a source. -/
theorem eval (steady : Steady P) (fuel : Nat) (source : String) (h : P s) :
    P (s.eval fuel source).2 := by
  unfold Session.eval
  split
  · exact h
  split
  · exact h
  · exact steady.program fuel _ h

/-- It outlives a report. -/
theorem report (steady : Steady P) (result : Except Failure Value) (h : P s) :
    P (s.report result) := by
  unfold Session.report
  split
  · exact h
  · split
    · exact steady.console _ h
    · exact h
  · exact steady.console _ h

/-- It outlives a line of input. -/
theorem evalLine (steady : Steady P) (fuel : Nat) (line : String) (h : P s) :
    P (s.evalLine fuel line).2 :=
  steady.report _ (steady.eval fuel _ h)

/-- It outlives one whose result is printed. -/
theorem answer (steady : Steady P) (fuel : Nat) (line : String) (h : P s) :
    P (s.answer fuel line).2 := by
  have answered := steady.evalLine fuel line h
  unfold Session.answer
  split
  · exact h
  split <;> next hs => rw [hs] at answered; exact answered

/-- It outlives several of them, by induction on their number. -/
theorem runLines (steady : Steady P) (fuel lines failures : Nat) (h : P s) :
    P (s.runLines fuel lines failures).2 := by
  induction lines generalizing failures s with
  | zero => exact h
  | succ lines ih =>
      unfold Session.runLines
      split
      · exact h
      · next line console _ =>
        have answered := steady.answer fuel line (steady.console console h)
        dsimp only
        split <;> next hs =>
          rw [withConsole, hs] at answered
          exact ih _ answered

/-- It outlives all that wait. -/
theorem run (steady : Steady P) (fuel : Nat) (h : P s) : P (s.run fuel).2 :=
  steady.console _ (steady.runLines fuel _ 0 h)

end Steady

/-- A property of sessions that the four things keep which operations are made of. -/
structure Kept (P : Session → Prop) : Prop where
  program : ∀ (fuel : Nat) (p : Program) {s : Session}, P s → P (s.evalProgram fuel p).2
  console : ∀ (c : Console) {s : Session}, P s → P (s.withConsole c)
  setGlobal : ∀ (name : String) (v : Value) {s : Session}, P s → P (s.setGlobal name v)
  finish : ∀ (success : Bool) {s : Session}, P s → P (s.finish success).2

namespace Kept

variable {P : Session → Prop} {s : Session}

/-- What is kept by programs and the console is steady. -/
theorem steady (kept : Kept P) : Steady P := ⟨kept.program, kept.console⟩

/-- What is kept outlives every operation. -/
theorem apply (kept : Kept P) (op : Operation) (h : P s) : P (op.apply s) := by
  cases op with
  | eval fuel source => exact kept.steady.eval fuel source h
  | line fuel text => exact kept.steady.evalLine fuel text h
  | run fuel => exact kept.steady.run fuel h
  | setGlobal name v => exact kept.setGlobal name v h
  | finish success => exact kept.finish success h

/-- What is kept holds after all operations, by induction on them. -/
theorem after (kept : Kept P) (ops : List Operation) (h : P s) : P (s.after ops) := by
  induction ops generalizing s with
  | nil => exact h
  | cons op ops ih => exact ih (kept.apply op h)

end Kept

end Session

end ScriptConsole
