import ScriptConsole.Proofs.Evaluation.Budget

/-!
# Outcomes of Evaluation

What a task comes to does not depend on its budget, as long as that suffices. Here budgets are left
out: `Task.ComesTo` relates a task and a machine to the outcome within every budget that is great
enough, and `Course.ComesTo` does so for the steps and tasks of a plan. What a course comes to is
found by going through it, step by step and task by task.

## Main results

* `Task.ComesTo.unique`: there is one outcome at most.
* `Task.comesTo_iff_of_steps`: a task comes to what its course comes to.
* `Course.comesTo_sub_iff`: a task that is handed on, and what follows it.
-/

namespace ScriptConsole

variable {st : Setting} {α β : Type} {m m' : Machine}

/-- What a task comes to within every budget that is great enough. -/
def Task.ComesTo (st : Setting) (t : Task) (m : Machine) (out : Except Stop t.Result × Machine) :
    Prop :=
  out.1 ≠ .error .exhausted ∧ ∃ fuel, t.run st fuel m = out

/-- What a course comes to within every budget that is great enough. -/
def Course.ComesTo (st : Setting) (c : Course α) (m : Machine) (out : Except Stop α × Machine) :
    Prop :=
  out.1 ≠ .error .exhausted ∧ ∃ fuel, c.exec (fun u => u.run st fuel) m = out

namespace Task

variable {t : Task} {out out' : Except Stop t.Result × Machine}

theorem ComesTo.run_of_le {fuel fuel' : Nat} (enough : out.1 ≠ .error .exhausted)
    (h : t.run st fuel m = out) (le : fuel ≤ fuel') : t.run st fuel' m = out := by
  rcases Task.run_of_le le t m with short | same
  · exact absurd (h ▸ short) enough
  · exact same.symm.trans h

/-- A task comes to one outcome at most. -/
theorem ComesTo.unique (h : t.ComesTo st m out) (h' : t.ComesTo st m out') : out = out' := by
  obtain ⟨enough, fuel, run⟩ := h
  obtain ⟨enough', fuel', run'⟩ := h'
  rw [← run_of_le enough run (Nat.le_max_left fuel fuel'),
    run_of_le enough' run' (Nat.le_max_right fuel fuel')]

/-- A task comes to what its course comes to. -/
theorem comesTo_iff_of_steps {c : Course t.Result} (plan : t.plan st = .steps c) :
    t.ComesTo st m out ↔ c.ComesTo st m out := by
  have run : ∀ fuel, t.run st (fuel + 1) = c.exec fun u => u.run st fuel := fun fuel => by
    rw [run_succ, plan]
    rfl
  refine and_congr_right fun enough => ⟨?_, ?_⟩
  · rintro ⟨fuel, h⟩
    cases fuel with
    | zero =>
        rw [run_zero] at h
        exact absurd (congrArg Prod.fst h).symm enough
    | succ fuel => exact ⟨fuel, run fuel ▸ h⟩
  · rintro ⟨fuel, h⟩
    exact ⟨fuel + 1, run fuel ▸ h⟩

end Task

namespace Course

variable {out : Except Stop α × Machine}

@[simp] theorem comesTo_done_iff {a : α} : (done a).ComesTo st m out ↔ out = (.ok a, m) := by
  refine ⟨fun ⟨_, _, h⟩ => h.symm, ?_⟩
  rintro rfl
  exact ⟨nofun, 0, rfl⟩

theorem comesTo_act_ok {x : Run β} {next : β → Course α} {b : β} (h : x m = (.ok b, m')) :
    (act x next).ComesTo st m out ↔ (next b).ComesTo st m' out := by
  have step : ∀ fuel, (act x next).exec (fun u => u.run st fuel) m =
      (next b).exec (fun u => u.run st fuel) m' := fun _ => Run.bind_ok h
  unfold ComesTo
  simp only [step]

/-- A step is all of a course that ends with it. -/
theorem comesTo_lastly_iff {x : Run α} :
    (Task.lastly x).ComesTo st m out ↔ out.1 ≠ .error .exhausted ∧ x m = out := by
  unfold ComesTo
  simp only [Task.exec_lastly, exists_const]

/-- A task that is handed on comes to a result, and what follows goes on from there; or it stops,
and the course stops with it. -/
theorem comesTo_sub_iff {u : Task} {next : u.Result → Course α} :
    (sub u next).ComesTo st m out ↔
      (∃ a m', u.ComesTo st m (.ok a, m') ∧ (next a).ComesTo st m' out) ∨
        ∃ s m', u.ComesTo st m (.error s, m') ∧ out = (.error s, m') := by
  constructor
  · rintro ⟨enough, fuel, h⟩
    rcases run : u.run st fuel m with ⟨s | a, m'⟩
    · have stopped := Run.bind_stop (f := fun a => (next a).exec fun u => u.run st fuel) run
      obtain rfl : _ = out := stopped.symm.trans h
      have more : s ≠ .exhausted := fun short => enough (congrArg Except.error short)
      exact .inr ⟨s, m', ⟨fun same => more (Except.error.inj same), fuel, run⟩, rfl⟩
    · have through := Run.bind_ok (f := fun a => (next a).exec fun u => u.run st fuel) run
      exact .inl ⟨a, m', ⟨nofun, fuel, run⟩, enough, fuel, through.symm.trans h⟩
  · rintro (⟨a, m', ⟨-, fuel, run⟩, enough, fuel', h⟩ | ⟨s, m', ⟨enough, fuel, run⟩, rfl⟩)
    · have within : u.run st (max fuel fuel') m = (.ok a, m') :=
        Task.ComesTo.run_of_le nofun run (Nat.le_max_left _ _)
      refine ⟨enough, max fuel fuel', (Run.bind_ok within).trans ?_⟩
      rcases (next a).exec_below (fun u => Task.run_of_le (Nat.le_max_right fuel fuel') u) m'
        with short | same
      · exact absurd (h ▸ short) enough
      · exact same.symm.trans h
    · exact ⟨fun short => enough (congrArg _ (Except.error.inj short)), fuel, Run.bind_stop run⟩

/-- A task that is handed on is all of a course that ends with it. -/
theorem comesTo_sub_done_iff {u : Task} {out : Except Stop u.Result × Machine} :
    (sub u done).ComesTo st m out ↔ u.ComesTo st m out := by
  simp only [ComesTo, exec, bind_pure, Task.ComesTo]

end Course

namespace Task

variable {env : FrameId} {b : Builtin} {args : List Value} {out : Except Stop Value × Machine}

/-- A call of a builtin comes to what the builtin comes to, if it takes that many arguments. -/
theorem comesTo_apply_iff (accepts : b.arity.accepts args.length = true) :
    (apply env (.builtin b) args).ComesTo st m out ↔ (builtin env b args).ComesTo st m out := by
  have plan : (apply env (.builtin b) args).plan st = .steps (.sub (.builtin env b args) .done) :=
    congrArg Plan.steps (if_pos accepts)
  rw [comesTo_iff_of_steps plan]
  exact Course.comesTo_sub_done_iff

/-- A call of a builtin that calls nothing back is one step. -/
theorem comesTo_plain_iff (accepts : b.arity.accepts args.length = true)
    (plain : builtinPlan st env b args = .steps (lastly (Plain.apply st.registry env b args))) :
    (apply env (.builtin b) args).ComesTo st m out ↔
      out.1 ≠ .error .exhausted ∧ Plain.apply st.registry env b args m = out := by
  rw [comesTo_apply_iff accepts, comesTo_iff_of_steps (t := builtin env b args) plain]
  exact Course.comesTo_lastly_iff

end Task

end ScriptConsole
