import ScriptConsole.Proofs.Evaluation.Depth

/-!
# Limits That Are Never Met

The number of function bodies that may run at once is looked at in one place: where a function is
called. A run in which no call is refused there goes on in the same way with any greater limit, step
by step, whatever it does with errors. That no call is refused is said of the history of the run:
its result need not show a refusal, since a handler may have taken the error, or its message may
have gone into a text.

The two runs are in step (`InStep`): they come to the same result on the same machine, and the same
happens on the way. The induction is on the budget. What a task hands on is in step because no call
is refused in there, and the plan that hands it on is the same apart from the start of a call, which
does the same where it refuses nothing.

## Main results

* `Task.inStep`: runs with two limits are in step as long as the smaller one is not met.
-/

namespace ScriptConsole

/-- A setting with another limit. -/
def Setting.withLimit (st : Setting) (limit : Nat) : Setting := { st with maxDepth := limit }

/-- Whether a call of a function stops because as many bodies are running as are allowed. -/
def Event.isRefusal : Event → Bool
  | .stop _ (.closure _ _) (.error (.fault (.callDepth _))) _ => true
  | _ => false

/-- Whether no call is refused among some events. -/
def Unrefused (events : List Event) : Prop := ∀ e ∈ events, e.isRefusal = false

/-- No call is refused in two histories if none is in each. -/
theorem unrefused_append {l l' : List Event} :
    Unrefused (l ++ l') ↔ Unrefused l ∧ Unrefused l' := List.forall_mem_append

theorem unrefused_cons {e : Event} {l : List Event} :
    Unrefused (e :: l) ↔ e.isRefusal = false ∧ Unrefused l := List.forall_mem_cons

/-! ### Plans in step -/

section

variable {run run' : (t : Task) → Run t.Result} {events events' : Task → Machine → List Event}

/-- What is handed on comes to the same in two ways and the same happens in it, as long as no call
is refused. -/
def SameInside (run run' : (t : Task) → Run t.Result)
    (events events' : Task → Machine → List Event) : Prop :=
  ∀ t m, Unrefused (events t m) → run' t m = run t m ∧ events' t m = events t m

/-- A course goes on in the same way if what it hands on does. -/
theorem Course.inStep (same : SameInside run run' events events') {α : Type} (c : Course α)
    (m : Machine)
    (unrefused : Unrefused (c.log run events m)) :
    c.exec run' m = c.exec run m ∧ c.log run' events' m = c.log run events m := by
  induction c generalizing m with
  | done a => exact ⟨rfl, rfl⟩
  | act x next ih =>
      simp only [log] at unrefused ⊢
      simp only [exec, Run.bind_apply]
      rcases hm : x m with ⟨_ | b, m'⟩
      · exact ⟨rfl, rfl⟩
      · rw [hm] at unrefused
        exact ih b m' unrefused
  | sub t next ih =>
      simp only [log] at unrefused ⊢
      obtain ⟨front, behind⟩ := unrefused_append.mp unrefused
      obtain ⟨sameRun, sameLog⟩ := same t m front
      simp only [exec, Run.bind_apply]
      rw [sameRun, sameLog]
      rcases hm : run t m with ⟨_ | a, m'⟩
      · exact ⟨rfl, rfl⟩
      · rw [hm] at behind
        obtain ⟨sameEnd, sameBehind⟩ := ih a m' behind
        exact ⟨sameEnd, congrArg _ sameBehind⟩

/-- So does a plan. -/
theorem Plan.inStep (same : SameInside run run' events events') {α : Type} (p : Plan α)
    (m : Machine)
    (unrefused : Unrefused (p.log run events m)) :
    p.exec run' m = p.exec run m ∧ p.log run' events' m = p.log run events m := by
  cases p with
  | steps c => exact c.inStep same m unrefused
  | call enter body =>
      simp only [log] at unrefused ⊢
      simp only [exec, Run.bind_apply]
      rcases hm : enter m with ⟨_ | frame, m'⟩
      · exact ⟨rfl, rfl⟩
      · rw [hm] at unrefused
        obtain ⟨sameRun, sameLog⟩ := same _ _ unrefused
        refine ⟨?_, sameLog⟩
        simp only [Run.absorbExit, Run.deeper_apply, sameRun]
  | attempt env thunk handler =>
      simp only [log] at unrefused ⊢
      obtain ⟨front, behind⟩ := unrefused_append.mp unrefused
      obtain ⟨sameRun, sameLog⟩ := same _ _ front
      simp only [exec, Run.catchFault]
      rw [sameRun, sameLog]
      rcases hm : run (.apply env thunk []) m with ⟨(_ | e | _ | _) | _, m'⟩
      case error.fault =>
        rw [hm] at behind
        obtain ⟨sameEnd, sameBehind⟩ := (handler e).inStep same m' behind
        exact ⟨sameEnd, congrArg _ sameBehind⟩
      all_goals exact ⟨rfl, rfl⟩

end

/-! ### Runs in step -/

/-- Whether a task is carried out in the same way with another limit: the result, the machine and
everything that happens are the same. -/
def InStep (st : Setting) (limit fuel : Nat) (ctx : List Task) (t : Task) (m : Machine) : Prop :=
  t.run (st.withLimit limit) fuel m = t.run st fuel m ∧
    history (st.withLimit limit) fuel ctx t m = history st fuel ctx t m

variable {st : Setting} {limit : Nat}

/-- The start of a call with a greater limit is the same or was refused before. -/
theorem beginCall_withLimit (le : st.maxDepth ≤ limit) (f : Closure) (args : List Value)
    (m : Machine) :
    beginCall (st.withLimit limit) f args m = beginCall st f args m ∨
      beginCall st f args m = (.error (.fault (.callDepth st.maxDepth)), m) := by
  rw [Task.beginCall_apply, Task.beginCall_apply]
  split
  · exact .inl rfl
  rcases Nat.lt_or_ge m.depth st.maxDepth with room | full
  · have more : m.depth < (st.withLimit limit).maxDepth := Nat.lt_of_lt_of_le room le
    rw [if_neg (Nat.not_le.mpr room), if_neg (Nat.not_le.mpr more)]
    exact .inl rfl
  · exact .inr (if_pos full)

/-- A call that is not refused starts in the same way with a greater limit. -/
theorem beginCall_of_stopped (le : st.maxDepth ≤ limit) {fuel : Nat} {ctx : List Task} {f : Closure}
    {args : List Value} {m : Machine}
    (unrefused : ((Task.closure f args).stopped st (fuel + 1) ctx m).isRefusal = false) :
    beginCall (st.withLimit limit) f args m = beginCall st f args m := by
  rcases beginCall_withLimit le f args m with same | refused
  · exact same
  · have run : (Task.closure f args).run st (fuel + 1) m =
        (.error (.fault (.callDepth st.maxDepth)), m) := by
      rw [Task.run_succ]
      simp only [Task.plan, Plan.exec]
      exact Run.bind_stop refused
    rw [Task.stopped, run] at unrefused
    cases unrefused

/-- Only the start of a call depends on the limit. -/
theorem Task.plan_withLimit (st : Setting) (limit : Nat) (t : Task) :
    t.plan (st.withLimit limit) = t.plan st ∨ ∃ f args, t = .closure f args := by
  cases t with
  | closure f args => exact .inr ⟨f, args, rfl⟩
  | _ => exact .inl rfl

/-- Runs with two limits are in step as long as the smaller one is not met. -/
theorem Task.inStep (le : st.maxDepth ≤ limit) (fuel : Nat) (ctx : List Task) (t : Task)
    (m : Machine) (unrefused : Unrefused (history st fuel ctx t m)) :
    InStep st limit fuel ctx t m := by
  induction fuel generalizing ctx t m with
  | zero => simp [InStep, history, stopped, run_zero]
  | succ fuel ih =>
      simp only [history, unrefused_cons, unrefused_append] at unrefused
      obtain ⟨-, inside, own, -⟩ := unrefused
      have same : SameInside (fun u => u.run st fuel) (fun u => u.run (st.withLimit limit) fuel)
          (history st fuel (t :: ctx)) (history (st.withLimit limit) fuel (t :: ctx)) :=
        fun u m' unrefused => ih (t :: ctx) u m' unrefused
      -- first the tasks handed on, with the plan as it is; then the plan itself
      obtain ⟨sameRun, sameLog⟩ := (t.plan st).inStep same m inside
      -- the plan is the same with either limit, or that of a call, which was not refused
      have samePlan :
          (t.plan (st.withLimit limit)).exec (fun u => u.run (st.withLimit limit) fuel) m =
            (t.plan st).exec (fun u => u.run (st.withLimit limit) fuel) m ∧
          (t.plan (st.withLimit limit)).log (fun u => u.run (st.withLimit limit) fuel)
              (history (st.withLimit limit) fuel (t :: ctx)) m =
            (t.plan st).log (fun u => u.run (st.withLimit limit) fuel)
              (history (st.withLimit limit) fuel (t :: ctx)) m := by
        rcases t.plan_withLimit st limit with same | ⟨f, args, rfl⟩
        · rw [same]
          exact ⟨rfl, rfl⟩
        · have start := beginCall_of_stopped le own
          simp only [plan, Plan.exec, Plan.log, Run.bind_apply, start, and_self]
      have result : t.run (st.withLimit limit) (fuel + 1) m = t.run st (fuel + 1) m := by
        rw [run_succ, run_succ]
        exact samePlan.1.trans sameRun
      refine ⟨result, ?_⟩
      simp only [history, stopped, result]
      rw [samePlan.2, sameLog]

end ScriptConsole
