import ScriptConsole.Console
import ScriptConsole.Frames
import ScriptConsole.Host.Registry
import ScriptConsole.Trace.Tracer

/-!
# Machines and Runs

A machine is everything that evaluation changes: the frames, the host world, the console, the tracer
and the number of function bodies that are running. A `Run` takes a machine to a result and a
machine. It may stop early: by an exit that unwinds a number of function calls, by an error, because
its budget of steps is used up, or because a builtin got arguments that its arity rules out.

Stopping early keeps every change made before. In a sequence of runs, the first that stops early
ends the sequence with the same stop; only `Run.catchFault` and `Run.absorbExit` do otherwise.

## Main results

* `Run` is a lawful monad.
* `bind_stop`: what follows a run that stopped does not take place.
-/

namespace ScriptConsole

/-- The state of evaluation. -/
structure Machine where
  frames : Frames
  world : World
  console : Console
  tracer : Tracer
  /-- How many function bodies are running. -/
  depth : Nat

/-- What evaluation depends on and does not change. -/
structure Setting where
  registry : Registry
  /-- How many function bodies may run at once. -/
  maxDepth : Nat

/-- Why a run stops before its end. -/
inductive Stop where
  /-- An exit with a value out of `depth` function calls. -/
  | exit (depth : Nat) (value : Value)
  | fault (error : EvalError)
  /-- The budget of steps is used up; nothing is known about the outcome. -/
  | exhausted
  /-- A builtin got arguments that its arity rules out. -/
  | stuck

/-- A step from a machine to a result and a machine. -/
def Run (α : Type) := Machine → Except Stop α × Machine

namespace Run

variable {α β : Type}

/-- The step that changes nothing. -/
@[inline] protected def pure (a : α) : Run α := fun m => (.ok a, m)

/-- One step after another; the second does not take place if the first stops. -/
@[inline] protected def bind (x : Run α) (f : α → Run β) : Run β := fun m =>
  match x m with
  | (.ok a, m) => f a m
  | (.error s, m) => (.error s, m)

instance : Monad Run where
  pure := Run.pure
  bind := Run.bind

/-- Two runs, in terms of the machines between them. -/
theorem bind_apply (x : Run α) (f : α → Run β) (m : Machine) :
    (x >>= f) m = match x m with
      | (.ok a, m) => f a m
      | (.error s, m) => (.error s, m) := rfl

/-- Behind a result the second run goes on. -/
theorem bind_ok {x : Run α} {f : α → Run β} {m m' : Machine} {a : α} (h : x m = (.ok a, m')) :
    (x >>= f) m = f a m' := by
  simp [bind_apply, h]

/-- What follows a run that stopped does not take place. -/
theorem bind_stop {x : Run α} {f : α → Run β} {m m' : Machine} {s : Stop}
    (h : x m = (.error s, m')) : (x >>= f) m = (.error s, m') := by
  simp [bind_apply, h]

protected theorem id_map (x : Run α) : id <$> x = x := by
  funext m
  show (match x m with | (.ok a, m) => (.ok a, m) | (.error s, m) => (.error s, m)) = x m
  rcases x m with ⟨_ | _, _⟩ <;> rfl

protected theorem bind_assoc {γ : Type} (x : Run α) (f : α → Run β) (g : β → Run γ) :
    x >>= f >>= g = x >>= fun a => f a >>= g := by
  funext m
  simp only [bind_apply]
  rcases x m with ⟨_ | _, _⟩ <;> rfl

instance : LawfulMonad Run :=
  LawfulMonad.mk' Run Run.id_map (fun _ _ => rfl) Run.bind_assoc

/-- Stops. -/
def stop (s : Stop) : Run α := fun m => (.error s, m)

/-- Stops with an error. -/
def fault (e : EvalError) : Run α := stop (.fault e)

/-- Looks at the machine. -/
def look (f : Machine → α) : Run α := fun m => (.ok (f m), m)

/-- The result of a computation that does not touch the machine. -/
def ofExcept (r : Except EvalError α) : Run α := fun m =>
  match r with
  | .ok a => (.ok a, m)
  | .error e => (.error (.fault e), m)

/-- A computation on the host world. -/
def onWorld (f : World → α × World) : Run α := fun ⟨frames, world, console, tracer, depth⟩ =>
  let (a, world) := f world
  (.ok a, ⟨frames, world, console, tracer, depth⟩)

/-- A computation on the frames. -/
def onFrames (f : Frames → α × Frames) : Run α := fun ⟨frames, world, console, tracer, depth⟩ =>
  let (a, frames) := f frames
  (.ok a, ⟨frames, world, console, tracer, depth⟩)

/-- Prints a line. -/
def print (line : String) : Run Unit := fun ⟨frames, world, console, tracer, depth⟩ =>
  (.ok (), ⟨frames, world, console.print line, tracer, depth⟩)

/-- Hands an error over to a handler. Exits pass. -/
def catchFault (x : Run α) (handler : EvalError → Run α) : Run α := fun m =>
  match x m with
  | (.error (.fault e), m) => handler e m
  | other => other

/-- The end of a function call: an exit out of one call becomes its value, and one out of more
calls goes on with one call less. -/
def absorbExit (x : Run Value) : Run Value := fun m =>
  match x m with
  | (.error (.exit depth v), m) =>
    if depth ≤ 1 then (.ok v, m) else (.error (.exit (depth - 1) v), m)
  | other => other

/-- A run inside one more function body. -/
def deeper (x : Run α) : Run α := fun ⟨frames, world, console, tracer, depth⟩ =>
  let (r, ⟨frames, world, console, tracer, depth⟩) :=
    x ⟨frames, world, console, tracer, depth + 1⟩
  (r, ⟨frames, world, console, tracer, depth - 1⟩)

end Run

end ScriptConsole
