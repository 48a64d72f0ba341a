import ScriptConsole.Eval.Evaluator
import ScriptConsole.Proofs.Frames.Alike
import ScriptConsole.Proofs.Host.Blind

/-!
# Runs in Step

Two runs are in step if on machines that are the same up to the places of code they end alike: both
with results that are related, or both with stops that are alike, and again on such machines. The
same has then been printed, and the same calls of the host have been traced.

## Main results

* `Run.Alike.bind` and its like: runs in step, put together.
-/

namespace ScriptConsole

/-! ### Machines -/

/-- Whether machines are the same up to the places of the code in them. -/
structure Machine.Alike (m m' : Machine) : Prop where
  frames : m.frames.Alike m'.frames
  world : m.world.Alike m'.world
  console : m.console = m'.console
  tracer : m.tracer = m'.tracer
  depth : m.depth = m'.depth

/-- A machine is like itself. -/
theorem Machine.Alike.refl (m : Machine) : m.Alike m := ⟨.refl _, .refl _, rfl, rfl, rfl⟩

/-! ### Stops and ends -/

/-- Whether two errors are the same up to the places of the code in a thrown value. -/
inductive EvalError.Alike : EvalError → EvalError → Prop
  | same (e : EvalError) : Alike e e
  | thrown {v v' : Value} : v.Alike v' → Alike (.thrown v) (.thrown v')

/-- Whether two stops are the same up to the places of the code in them. -/
inductive Stop.Alike : Stop → Stop → Prop
  | exit (depth : Nat) {v v' : Value} : v.Alike v' → Alike (.exit depth v) (.exit depth v')
  | fault {e e' : EvalError} : e.Alike e' → Alike (.fault e) (.fault e')
  | exhausted : Alike .exhausted .exhausted
  | stuck : Alike .stuck .stuck

/-- Whether two runs have ended alike: with results that are related or with alike stops, and with
alike machines. -/
inductive AlikeEnds {α β : Type} (R : α → β → Prop) :
    Except Stop α × Machine → Except Stop β × Machine → Prop
  | ok {a : α} {b : β} {m m' : Machine} : R a b → m.Alike m' → AlikeEnds R (.ok a, m) (.ok b, m')
  | stop {s s' : Stop} {m m' : Machine} :
      s.Alike s' → m.Alike m' → AlikeEnds R (.error s, m) (.error s', m')

namespace Run

variable {α β γ δ : Type} {R : α → β → Prop} {S : γ → δ → Prop}

/-- Whether two runs end alike on alike machines. -/
def Alike (R : α → β → Prop) (x : Run α) (y : Run β) : Prop :=
  ∀ ⦃m m' : Machine⦄, m.Alike m' → AlikeEnds R (x m) (y m')

namespace Alike

/-- Alike results. -/
theorem pure {a : α} {b : β} (h : R a b) : Alike R (Pure.pure a) (Pure.pure b) :=
  fun _ _ alike => .ok h alike

/-- Alike runs one after the other, where the second is alike for alike results of the first. -/
theorem bind {x : Run α} {y : Run β} {f : α → Run γ} {g : β → Run δ} (first : Alike R x y)
    (second : ∀ {a b}, R a b → Alike S (f a) (g b)) : Alike S (x >>= f) (y >>= g) := by
  intro m m' alike
  have ends := first alike
  rw [bind_apply, bind_apply]
  generalize x m = p, y m' = q at ends
  cases ends with
  | ok h alike => exact second h alike
  | stop h alike => exact .stop h alike

/-- Alike stops. -/
theorem stop {s s' : Stop} (h : s.Alike s') :
    Alike R (.stop s : Run α) (.stop s' : Run β) :=
  fun _ _ alike => .stop h alike

/-- The same error in both runs. -/
theorem fault (e : EvalError) : Alike R (.fault e : Run α) (.fault e : Run β) :=
  stop (.fault (.same e))

/-- Looks at alike machines that see alike things. -/
theorem look {f : Machine → α} {g : Machine → β}
    (h : ∀ {m m' : Machine}, m.Alike m' → R (f m) (g m')) : Alike R (.look f) (.look g) :=
  fun _ _ alike => .ok (h alike) alike

/-- What is done alike with alike worlds. -/
theorem onWorld {f : World → α × World} {g : World → β × World}
    (h : ∀ {w w' : World}, w.Alike w' → R (f w).1 (g w').1 ∧ (f w).2.Alike (g w').2) :
    Alike R (.onWorld f) (.onWorld g) := by
  rintro ⟨frames, world, console, tracer, depth⟩ ⟨frames', world', console', tracer', depth'⟩ alike
  have same := h alike.world
  exact .ok same.1 ⟨alike.frames, same.2, alike.console, alike.tracer, alike.depth⟩

/-- What is done alike with alike frames. -/
theorem onFrames {f : Frames → α × Frames} {g : Frames → β × Frames}
    (h : ∀ {fs fs' : Frames}, fs.Alike fs' → R (f fs).1 (g fs').1 ∧ (f fs).2.Alike (g fs').2) :
    Alike R (.onFrames f) (.onFrames g) := by
  rintro ⟨frames, world, console, tracer, depth⟩ ⟨frames', world', console', tracer', depth'⟩ alike
  have same := h alike.frames
  exact .ok same.1 ⟨same.2, alike.world, alike.console, alike.tracer, alike.depth⟩

/-- The same line in both runs. -/
theorem print (line : String) : Alike Eq (Run.print line) (Run.print line) := by
  rintro ⟨frames, world, console, tracer, depth⟩ ⟨frames', world', console', tracer', depth'⟩ alike
  exact .ok rfl ⟨alike.frames, alike.world, congrArg (·.print line) alike.console, alike.tracer,
    alike.depth⟩

/-- Alike results of computations aside. -/
theorem ofExcept {r : Except EvalError α} {q : Except EvalError β}
    (h : match r, q with
      | .ok a, .ok b => R a b
      | .error e, .error e' => e = e'
      | _, _ => False) : Alike R (.ofExcept r) (.ofExcept q) := by
  intro m m' alike
  cases r with
  | ok a =>
      cases q with
      | ok b => exact .ok h alike
      | error e => exact h.elim
  | error e =>
      cases q with
      | ok b => exact h.elim
      | error e' =>
          obtain rfl : e = e' := h
          exact .stop (.fault (.same e)) alike

/-- Alike runs with alike handlers. -/
theorem catchFault {x : Run α} {y : Run β} {f : EvalError → Run α} {g : EvalError → Run β}
    (first : Alike R x y) (second : ∀ {e e' : EvalError}, e.Alike e' → Alike R (f e) (g e')) :
    Alike R (x.catchFault f) (y.catchFault g) := by
  intro m m' alike
  have ends := first alike
  unfold Run.catchFault
  generalize x m = p, y m' = q at ends
  cases ends with
  | ok h alike => exact .ok h alike
  | stop h alike =>
      cases h with
      | fault same => exact second same alike
      | exit depth same => exact .stop (.exit depth same) alike
      | exhausted => exact .stop .exhausted alike
      | stuck => exact .stop .stuck alike

/-- Alike exits that end. -/
theorem absorbExit {x y : Run Value} (inside : Alike Value.Alike x y) :
    Alike Value.Alike x.absorbExit y.absorbExit := by
  intro m m' alike
  have ends := inside alike
  unfold Run.absorbExit
  generalize x m = p, y m' = q at ends
  cases ends with
  | ok h alike => exact .ok h alike
  | stop h alike =>
      cases h with
      | exit depth same =>
          dsimp only
          split
          · exact .ok same alike
          · exact .stop (.exit _ same) alike
      | fault same => exact .stop (.fault same) alike
      | exhausted => exact .stop .exhausted alike
      | stuck => exact .stop .stuck alike

/-- Alike runs with one more call. -/
theorem deeper {x : Run α} {y : Run β} (inside : Alike R x y) :
    Alike R x.deeper y.deeper := by
  rintro ⟨frames, world, console, tracer, depth⟩ ⟨frames', world', console', tracer', depth'⟩ alike
  have ends := @inside ⟨frames, world, console, tracer, depth + 1⟩
    ⟨frames', world', console', tracer', depth' + 1⟩
    ⟨alike.frames, alike.world, alike.console, alike.tracer, congrArg (· + 1) alike.depth⟩
  simp only [Run.deeper]
  generalize x _ = p, y _ = q at ends
  cases ends with
  | ok h alike =>
      exact .ok h ⟨alike.frames, alike.world, alike.console, alike.tracer,
        congrArg (· - 1) alike.depth⟩
  | stop h alike =>
      exact .stop h ⟨alike.frames, alike.world, alike.console, alike.tracer,
        congrArg (· - 1) alike.depth⟩

end Alike

end Run

end ScriptConsole
