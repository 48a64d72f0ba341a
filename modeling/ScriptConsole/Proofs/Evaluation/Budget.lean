import ScriptConsole.Proofs.Evaluation.Plan

/-!
# Budgets

A budget of steps decides how long an evaluation goes on, and nothing else: an evaluation that does
not use its budget up comes to the same with any greater budget.

Plans make no difference between budgets. What they hand on is evaluated within a smaller budget, so
the claim carries over from there, by induction on the budget.

## Main results

* `Task.run_of_le`: evaluations within two budgets.
-/

namespace ScriptConsole

namespace Run

variable {α β : Type}

/-- Whether a run comes to the same as another unless its budget is used up. -/
def Below (x y : Run α) : Prop := ∀ m, (x m).1 = .error .exhausted ∨ x m = y m

/-- A run is below itself. -/
theorem Below.refl (x : Run α) : x.Below x := fun _ => .inr rfl

/-- What is below something is below whatever that is below. -/
theorem Below.trans {x y z : Run α} (first : x.Below y) (second : y.Below z) : x.Below z := by
  intro m
  rcases first m with h | h
  · exact .inl h
  · rw [h]
    exact second m

/-- A run that is out of fuel is below every other. -/
theorem below_exhausted (x : Run α) : (Run.stop .exhausted).Below x := fun _ => .inl rfl

/-- Runs one after the other are below others if each of them is. -/
theorem Below.bind {x y : Run α} {f g : α → Run β} (first : x.Below y)
    (second : ∀ a, (f a).Below (g a)) : (x >>= f).Below (y >>= g) := by
  intro m
  rw [bind_apply, bind_apply]
  rcases first m with h | h
  · rcases hm : x m with ⟨r, m'⟩
    rw [hm] at h
    obtain rfl : r = .error .exhausted := h
    exact .inl rfl
  · rw [← h]
    obtain ⟨_ | a, m'⟩ := x m
    · exact .inr rfl
    · exact second a m'

/-- So are a failed run and its handler. -/
theorem Below.catchFault {x y : Run α} {f g : EvalError → Run α} (first : x.Below y)
    (second : ∀ e, (f e).Below (g e)) : (x.catchFault f).Below (y.catchFault g) := by
  intro m
  unfold Run.catchFault
  rcases first m with h | h
  · rcases hm : x m with ⟨r, m'⟩
    rw [hm] at h
    obtain rfl : r = .error .exhausted := h
    exact .inl rfl
  · rw [← h]
    obtain ⟨(_ | e | _ | _) | a, m'⟩ := x m
    · exact .inr rfl
    · exact second e m'
    all_goals exact .inr rfl

/-- So is an exit that ends. -/
theorem Below.absorbExit {x y : Run Value} (inside : x.Below y) :
    x.absorbExit.Below y.absorbExit := by
  intro m
  unfold Run.absorbExit
  rcases inside m with h | h
  · rcases hm : x m with ⟨r, m'⟩
    rw [hm] at h
    obtain rfl : r = .error .exhausted := h
    exact .inl rfl
  · rw [h]
    exact .inr rfl

/-- So is a run with one more call. -/
theorem Below.deeper {x y : Run α} (inside : x.Below y) : x.deeper.Below y.deeper := by
  rintro ⟨frames, world, console, tracer, depth⟩
  simp only [Run.deeper]
  rcases inside ⟨frames, world, console, tracer, depth + 1⟩ with h | h
  · exact .inl h
  · rw [h]
    exact .inr rfl

end Run

variable {run run' : (t : Task) → Run t.Result}

/-- A course is below another run of it if what it hands on is. -/
theorem Course.exec_below {α : Type} (inside : ∀ t, (run t).Below (run' t)) (c : Course α) :
    (c.exec run).Below (c.exec run') := by
  induction c with
  | done a => exact .refl _
  | act x next ih => exact (Run.Below.refl x).bind ih
  | sub t next ih => exact (inside t).bind ih

/-- So is a plan. -/
theorem Plan.exec_below {α : Type} (inside : ∀ t, (run t).Below (run' t)) (p : Plan α) :
    (p.exec run).Below (p.exec run') := by
  cases p with
  | steps c => exact c.exec_below inside
  | call enter body => exact (Run.Below.refl enter).bind fun frame => (inside _).deeper.absorbExit
  | attempt env thunk handler =>
      exact (inside _).catchFault fun e => (handler e).exec_below inside

namespace Task

variable {st : Setting}

/-- A task is below itself with more fuel, by induction on the fuel. -/
theorem run_below_succ (fuel : Nat) (t : Task) :
    (t.run st fuel).Below (t.run st (fuel + 1)) := by
  induction fuel generalizing t with
  | zero =>
      rw [run_zero]
      exact Run.below_exhausted _
  | succ fuel ih =>
      rw [run_succ, run_succ]
      exact (t.plan st).exec_below ih

/-- An evaluation that does not use its budget up comes to the same with a greater one. -/
theorem run_of_le {fuel fuel' : Nat} (le : fuel ≤ fuel') (t : Task) :
    (t.run st fuel).Below (t.run st fuel') := by
  induction le with
  | refl => exact .refl _
  | step _ ih => exact ih.trans (run_below_succ _ t)

end Task

end ScriptConsole
