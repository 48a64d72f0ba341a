import ScriptConsole.Proofs.Evaluation.Depth

/-!
# Loops Without an End

A loop under a condition goes on as long as its condition holds. If that is always so, and neither
the condition nor the body stops early, no budget suffices for the loop, however great it is.

What happens within all budgets at once is told by what comes out if the budget suffices
(`Run.Yields`): nothing comes out of a loop without an end.

## Main results

* `Task.loop_endless`: loops whose condition always holds.
* `Task.loop_endless_constant`: among them those whose condition is a function that gives a literal.
-/

namespace ScriptConsole

variable {α β : Type} {m : Machine}

/-- Whether a run uses its budget up or ends with a result and a machine of some kind. -/
def Run.Yields (x : Run α) (m : Machine) (R : α → Machine → Prop) : Prop :=
  (x m).1 = .error .exhausted ∨ ∃ a m', x m = (.ok a, m') ∧ R a m'

namespace Run

variable {R : α → Machine → Prop}

/-- A run that is out of fuel leaves some machine. -/
theorem exists_of_exhausted {x : Run α} (short : (x m).1 = .error .exhausted) :
    ∃ m', x m = (.error .exhausted, m') :=
  ⟨(x m).2, Prod.ext short rfl⟩

/-- What comes to a result yields it. -/
theorem yields_of_ok {x : Run α} {a : α} {m' : Machine} (ends : x m = (.ok a, m')) (h : R a m') :
    x.Yields m R :=
  .inr ⟨a, m', ends, h⟩

/-- What is yielded may be said to be less. -/
theorem Yields.imp {S : α → Machine → Prop} {x : Run α} (h : x.Yields m R)
    (weaker : ∀ a m', R a m' → S a m') : x.Yields m S := by
  obtain short | ⟨a, m', ends, result⟩ := h
  · exact .inl short
  · exact .inr ⟨a, m', ends, weaker a m' result⟩

/-- Runs one after the other yield what the second does. -/
theorem Yields.bind {x : Run α} {f : α → Run β} {S : β → Machine → Prop} (first : x.Yields m R)
    (second : ∀ a m', R a m' → (f a).Yields m' S) : (x >>= f).Yields m S := by
  obtain short | ⟨a, m', ends, result⟩ := first
  · obtain ⟨m', stopped⟩ := exists_of_exhausted short
    exact .inl (by rw [bind_stop stopped])
  · have rest := second a m' result
    unfold Yields at rest ⊢
    rwa [bind_ok ends]

/-- What follows a run out of which nothing comes does not take place. -/
theorem Yields.never {x : Run α} {f : α → Run β} {S : β → Machine → Prop}
    (h : x.Yields m fun _ _ => False) : (x >>= f).Yields m S :=
  h.bind fun _ _ impossible => impossible.elim

/-- An exit that would end a call does not arise where a result is yielded. -/
theorem Yields.absorbExit {x : Run Value} {R : Value → Machine → Prop} (h : x.Yields m R) :
    x.absorbExit.Yields m R := by
  unfold Yields Run.absorbExit
  obtain short | ⟨v, m', ends, result⟩ := h
  · obtain ⟨m', stopped⟩ := exists_of_exhausted short
    exact .inl (by rw [stopped])
  · exact .inr ⟨v, m', by rw [ends], result⟩

/-- What a run yields it yields with one more call. -/
theorem Yields.deeper {x : Run α} {P : α → Prop} (h : x.Yields m.deeper fun a _ => P a) :
    x.deeper.Yields m fun a _ => P a := by
  unfold Yields
  rw [deeper_apply]
  obtain short | ⟨a, m', ends, result⟩ := h
  · exact .inl short
  · exact .inr ⟨a, m'.shallower, by rw [ends], result⟩

end Run

/-- Whether a function has no parameters and a literal as its body. -/
def Closure.IsConstant (f : Closure) (l : Literal) : Prop :=
  f.params = [] ∧ ∃ span, f.body = [.literal l span]

namespace Task

variable {st : Setting} {env : FrameId}

/-- What a task gives within all budgets is what its plan gives. -/
theorem yields_of_plan {t : Task} {R : t.Result → Machine → Prop}
    (h : ∀ fuel, ((t.plan st).exec fun u => u.run st fuel).Yields m R) (fuel : Nat) :
    (t.run st fuel).Yields m R := by
  cases fuel with
  | zero =>
      rw [run_zero]
      exact .inl rfl
  | succ fuel =>
      rw [run_succ]
      exact h fuel

/-- A task leaves the count of running bodies as it was. -/
theorem yields_level {t : Task} {R : t.Result → Machine → Prop} {fuel : Nat}
    (h : (t.run st fuel).Yields m R) :
    (t.run st fuel).Yields m fun a m' => R a m' ∧ m'.depth = m.depth := by
  obtain short | ⟨a, m', ends, result⟩ := h
  · exact .inl short
  · have level := level_run st fuel t m
    rw [ends] at level
    exact Run.yields_of_ok ends ⟨result, level⟩

/-- A loop goes on for ever if its condition always holds, by induction on the budget. -/
theorem loop_endless {condition body : Value} {P : Machine → Prop}
    (holds : ∀ fuel m, P m → ((apply env condition []).run st fuel).Yields m
      fun c m' => c.truthy = true ∧ P m')
    (goesOn : ∀ fuel m, P m → ((apply env body []).run st fuel).Yields m fun _ m' => P m')
    (fuel : Nat) (again : P m) :
    ((loop env condition body).run st fuel).Yields m fun _ _ => False := by
  induction fuel generalizing m with
  | zero =>
      rw [run_zero]
      exact .inl rfl
  | succ fuel ih =>
      rw [run_succ]
      refine (holds fuel m again).bind fun c m' checked => ?_
      dsimp only
      rw [if_pos checked.1]
      refine (goesOn fuel m' checked.2).bind fun _ m'' again => ?_
      exact (ih again).never

/-- A function that is constant gives its literal, where there is room for a call. -/
theorem yields_constant {f : Closure} {l : Literal} (constant : f.IsConstant l)
    (room : m.depth < st.maxDepth) (fuel : Nat) :
    ((apply env (.function f) []).run st fuel).Yields m
      fun v m' => v = l.value ∧ m'.depth = m.depth := by
  obtain ⟨params, span, body⟩ := constant
  have literal : ∀ fuel frame m, ((expr frame (.literal l span)).run st fuel).Yields m
      fun v _ => v = l.value :=
    fun fuel _ _ => yields_of_plan (fun _ => Run.yields_of_ok rfl rfl) fuel
  have rest : ∀ fuel frame v m, ((block frame v []).run st fuel).Yields m fun v' _ => v' = v :=
    fun fuel _ _ _ => yields_of_plan (fun _ => Run.yields_of_ok rfl rfl) fuel
  have inside : ∀ fuel frame m, ((block frame .null f.body).run st fuel).Yields m
      fun v _ => v = l.value := by
    intro fuel frame m
    rw [body]
    refine yields_of_plan (fun fuel => ?_) fuel
    refine (literal fuel frame m).bind fun v m' same => ?_
    subst same
    exact (rest fuel frame _ m').bind fun v' m'' same => Run.yields_of_ok rfl same
  have called : ∀ fuel, ((closure f []).run st fuel).Yields m fun v _ => v = l.value := by
    refine yields_of_plan fun fuel => ?_
    have entered : beginCall st f [] m = enter f [] m := by
      rw [beginCall_apply, if_neg (by rw [params]; simp), if_neg (Nat.not_le.mpr room)]
    refine Run.Yields.bind (R := fun _ _ => True) (Run.yields_of_ok entered trivial)
      fun frame m' _ => ?_
    exact (inside fuel frame m'.deeper).deeper.absorbExit
  refine yields_level (yields_of_plan (fun fuel => ?_) fuel)
  exact (called fuel).bind fun v m' same => Run.yields_of_ok rfl same

/-- A loop between constant functions goes on for ever if the literal of its condition holds. -/
theorem loop_endless_constant {f g : Closure} {l k : Literal} (condition : f.IsConstant l)
    (body : g.IsConstant k) (holds : l.value.truthy = true) (room : m.depth < st.maxDepth)
    (fuel : Nat) :
    ((loop env (.function f) (.function g)).run st fuel).Yields m fun _ _ => False := by
  refine loop_endless (P := fun m => m.depth < st.maxDepth) (fun fuel m room => ?_)
    (fun fuel m room => ?_) fuel room
  · exact (yields_constant condition room fuel).imp fun v m' given =>
      ⟨given.1 ▸ holds, given.2.trans_lt room⟩
  · exact (yields_constant body room fuel).imp fun v m' given => given.2.trans_lt room

end Task

end ScriptConsole
