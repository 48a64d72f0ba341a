import ScriptConsole.Proofs.Evaluation.Plan

/-!
# Histories of Evaluation

The history of a task is the list of everything that starts and stops while it is carried out, in
the order in which it happens. An event names its task, the tasks around it from the inside out,
the machine at that moment and, where a task stops, the outcome.

Two events stand side by side in a history if nothing but quiet steps, bindings and exits of the
task around them can have happened in between; if they show the same machine, nothing has.

## Main results

* `history_eq`: a history starts with the start of its task and ends with its stop, whose outcome
  and machine are those of the run.
* `context_of_mem`: whatever happens in a history happens inside the tasks around it.
* `run_of_stop_mem`: whatever stops in a history is an evaluation.
* `Plan.log_eq_flatMap`: whatever happens, happens in the tasks that are handed on.
* `exists_history_of_start`: from the start of a task on, a history goes on with that of the task.
-/

namespace ScriptConsole

/-- Something that happens during evaluation. -/
inductive Event where
  | start (context : List Task) (t : Task) (m : Machine)
  | stop (context : List Task) (t : Task) (outcome : Except Stop t.Result) (m : Machine)

namespace Event

/-- The tasks around the event, from the inside out. -/
def context : Event → List Task
  | start ctx _ _ => ctx
  | stop ctx _ _ _ => ctx

/-- The task that starts or stops. -/
def task : Event → Task
  | start _ t _ => t
  | stop _ t _ _ => t

/-- The machine at the event. -/
def machine : Event → Machine
  | start _ _ m => m
  | stop _ _ _ m => m

end Event

/-- A machine in which one more function body is running. -/
def Machine.deeper (m : Machine) : Machine := { m with depth := m.depth + 1 }

/-- A machine in which one function body less is running. -/
def Machine.shallower (m : Machine) : Machine := { m with depth := m.depth - 1 }

/-- A run with one more call is run on a deeper machine. -/
theorem Run.deeper_apply {α : Type} (x : Run α) (m : Machine) :
    deeper x m = ((x m.deeper).1, (x m.deeper).2.shallower) := rfl

section

variable {α ε : Type} (run : (t : Task) → Run t.Result) (history : Task → Machine → List ε)

/-- What happens in a course, if tasks are run and have histories as given. -/
def Course.log : Course α → Machine → List ε
  | done _, _ => []
  | act x next, m =>
    match x m with
    | (.ok b, m) => (next b).log m
    | (.error _, _) => []
  | sub t next, m =>
    history t m ++
      match run t m with
      | (.ok a, m) => (next a).log m
      | (.error _, _) => []

/-- What happens in a plan, if tasks are run and have histories as given. -/
def Plan.log : Plan α → Machine → List ε
  | steps c, m => c.log run history m
  | call enter body, m =>
    match enter m with
    | (.ok frame, m) => history (.block frame .null body) m.deeper
    | (.error _, _) => []
  | attempt env thunk handler, m =>
    history (.apply env thunk []) m ++
      match run (.apply env thunk []) m with
      | (.error (.fault e), m) => (handler e).log run history m
      | _ => []

end

/-- The stop of a task, with the outcome of its run. -/
def Task.stopped (st : Setting) (fuel : Nat) (ctx : List Task) (t : Task) (m : Machine) : Event :=
  .stop ctx t (t.run st fuel m).1 (t.run st fuel m).2

/-- What happens when a task is carried out, within a budget and inside other tasks. -/
def history (st : Setting) : (fuel : Nat) → (ctx : List Task) → Task → Machine → List Event
  | 0, ctx, t, m => [.start ctx t m, t.stopped st 0 ctx m]
  | fuel + 1, ctx, t, m =>
    .start ctx t m ::
      ((t.plan st).log (fun u => u.run st fuel) (history st fuel (t :: ctx)) m ++
        [t.stopped st (fuel + 1) ctx m])

/-- A history starts with the start of its task and ends with its stop. -/
theorem history_eq (st : Setting) (fuel : Nat) (ctx : List Task) (t : Task) (m : Machine) :
    ∃ inside, history st fuel ctx t m =
      .start ctx t m :: (inside ++ [t.stopped st fuel ctx m]) := by
  cases fuel with
  | zero => exact ⟨[], rfl⟩
  | succ fuel => exact ⟨_, rfl⟩

/-- The last event of a task is that it stops. -/
theorem getLast?_history (st : Setting) (fuel : Nat) (ctx : List Task) (t : Task) (m : Machine) :
    (history st fuel ctx t m).getLast? = some (t.stopped st fuel ctx m) := by
  obtain ⟨inside, heq⟩ := history_eq st fuel ctx t m
  rw [heq, ← List.cons_append, List.getLast?_append]
  rfl

variable {st : Setting} {fuel : Nat} {ctx : List Task} {t : Task} {m : Machine}

/-- What happens in a course happens in the tasks that it hands on, one after the other. -/
theorem Course.log_eq_flatMap {α ε : Type} (run : (t : Task) → Run t.Result)
    (history : Task → Machine → List ε) (c : Course α) (m : Machine) :
    c.log run history m =
      (c.log run (fun u m => [(u, m)]) m).flatMap fun (u, m) => history u m := by
  induction c generalizing m with
  | done a => rfl
  | act x next ih =>
      simp only [log]
      split
      · exact ih _ _
      · rfl
  | sub t next ih =>
      simp only [log, List.flatMap_append, List.flatMap_singleton]
      congr 1
      split
      · exact ih _ _
      · rfl

/-- What happens in a plan happens in the tasks that it hands on, one after the other. -/
theorem Plan.log_eq_flatMap {α ε : Type} (run : (t : Task) → Run t.Result)
    (history : Task → Machine → List ε) (p : Plan α) (m : Machine) :
    p.log run history m =
      (p.log run (fun u m => [(u, m)]) m).flatMap fun (u, m) => history u m := by
  cases p with
  | steps c => exact c.log_eq_flatMap run history m
  | call enter body =>
      simp only [log]
      split
      · exact (List.flatMap_singleton _ _).symm
      · rfl
  | attempt env thunk handler =>
      simp only [log, List.flatMap_append, List.flatMap_singleton]
      congr 1
      split
      · exact Course.log_eq_flatMap run history _ _
      · rfl

/-- Whatever happens in a plan happens in a task that it hands on. -/
theorem Plan.mem_log {α ε : Type} {run : (t : Task) → Run t.Result}
    {history : Task → Machine → List ε} {p : Plan α} {m : Machine} {e : ε}
    (h : e ∈ p.log run history m) : ∃ u m', e ∈ history u m' := by
  rw [Plan.log_eq_flatMap] at h
  obtain ⟨⟨u, m'⟩, -, mem⟩ := List.mem_flatMap.mp h
  exact ⟨u, m', mem⟩

/-- Whatever happens in a history happens inside the tasks around it. -/
theorem context_of_mem {e : Event} (h : e ∈ history st fuel ctx t m) : ctx <:+ e.context := by
  induction fuel generalizing ctx t m with
  | zero =>
      simp only [history, List.mem_cons, List.not_mem_nil, or_false] at h
      rcases h with rfl | rfl <;> exact List.suffix_refl ctx
  | succ fuel ih =>
      simp only [history, List.mem_cons, List.mem_append, List.not_mem_nil, or_false] at h
      rcases h with rfl | h | rfl
      · exact List.suffix_refl ctx
      · obtain ⟨u, m', h⟩ := Plan.mem_log h
        exact (List.suffix_cons t ctx).trans (ih h)
      · exact List.suffix_refl ctx

/-- Right inside the tasks around a history, only its own task stops. -/
theorem eq_stopped_of_mem {u : Task} {outcome : Except Stop u.Result} {m' : Machine}
    (h : .stop ctx u outcome m' ∈ history st fuel ctx t m) :
    .stop ctx u outcome m' = t.stopped st fuel ctx m := by
  cases fuel with
  | zero => simpa [history] using h
  | succ fuel =>
      simp only [history, List.mem_cons, List.mem_append, List.not_mem_nil, or_false, reduceCtorEq,
        false_or] at h
      rcases h with h | h
      · obtain ⟨u', m'', h⟩ := Plan.mem_log h
        have longer := (context_of_mem h).length_le
        simp only [Event.context, List.length_cons] at longer
        omega
      · exact h

/-- Whatever stops in a history is an evaluation. -/
theorem run_of_stop_mem {ctx' : List Task} {u : Task} {outcome : Except Stop u.Result}
    {m' : Machine} (h : .stop ctx' u outcome m' ∈ history st fuel ctx t m) :
    ∃ fuel' m'', u.run st fuel' m'' = (outcome, m') := by
  induction fuel generalizing ctx t m with
  | zero =>
      simp only [history, Task.stopped, List.mem_cons, List.not_mem_nil, or_false, reduceCtorEq,
        false_or] at h
      obtain ⟨rfl, rfl, rfl, rfl⟩ := Event.stop.inj h
      exact ⟨0, m, rfl⟩
  | succ fuel ih =>
      simp only [history, Task.stopped, List.mem_cons, List.mem_append, List.not_mem_nil, or_false,
        reduceCtorEq, false_or] at h
      rcases h with h | h
      · obtain ⟨u', m', h⟩ := Plan.mem_log h
        exact ih h
      · obtain ⟨rfl, rfl, rfl, rfl⟩ := Event.stop.inj h
        exact ⟨fuel + 1, m, rfl⟩

/-! ### Histories inside histories -/

/-- Whether the history of every task that starts among some events comes next in full. -/
def Begins (st : Setting) (l : List Event) : Prop :=
  ∀ ⦃pre post : List Event⦄ ⦃ctx : List Task⦄ ⦃t : Task⦄ ⦃m : Machine⦄,
    l = pre ++ .start ctx t m :: post →
    ∃ fuel rest, .start ctx t m :: post = history st fuel ctx t m ++ rest

/-- Nothing has to begin where nothing happens. -/
theorem begins_nil : Begins st [] := by
  intro pre post ctx t m h
  simp at h

/-- A stop alone begins nothing. -/
theorem begins_stop (ctx : List Task) (t : Task) (outcome : Except Stop t.Result) (m : Machine) :
    Begins st [.stop ctx t outcome m] := by
  intro pre post ctx' u m' h
  cases pre with
  | nil => simp at h
  | cons e pre => simp at h

/-- Events behind events begin as each of them do. -/
theorem Begins.append {l l' : List Event} (h : Begins st l) (h' : Begins st l') :
    Begins st (l ++ l') := by
  intro pre post ctx t m heq
  rcases List.append_eq_append_iff.mp heq with ⟨front, -, hl'⟩ | ⟨front, hl, hpost⟩
  · exact h' hl'
  · cases front with
    | nil =>
        rw [List.nil_append] at hpost
        exact h' (hpost.symm.trans (List.nil_append _).symm)
    | cons e front =>
        obtain ⟨rfl, rfl⟩ := List.cons.inj hpost
        obtain ⟨fuel, rest, hrest⟩ := h hl
        refine ⟨fuel, rest ++ l', ?_⟩
        rw [← List.append_assoc, ← hrest]
        rfl

/-- A course begins as what it hands on does. -/
theorem Course.begins_log {α : Type} {run : (t : Task) → Run t.Result}
    {history : Task → Machine → List Event} (inside : ∀ u m, Begins st (history u m))
    (c : Course α) (m : Machine) : Begins st (c.log run history m) := by
  induction c generalizing m with
  | done a => exact begins_nil
  | act x next ih =>
      simp only [log]
      split
      · exact ih _ _
      · exact begins_nil
  | sub t next ih =>
      simp only [log]
      refine (inside t m).append ?_
      split
      · exact ih _ _
      · exact begins_nil

/-- So does a plan. -/
theorem Plan.begins_log {α : Type} {run : (t : Task) → Run t.Result}
    {history : Task → Machine → List Event} (inside : ∀ u m, Begins st (history u m))
    (p : Plan α) (m : Machine) : Begins st (p.log run history m) := by
  cases p with
  | steps c => exact Course.begins_log inside c m
  | call enter body =>
      simp only [log]
      split
      · exact inside _ _
      · exact begins_nil
  | attempt env thunk handler =>
      simp only [log]
      refine (inside _ m).append ?_
      split
      · exact Course.begins_log inside _ _
      · exact begins_nil

/-- From the start of a task on, a history goes on with that of the task. -/
theorem exists_history_of_start (st : Setting) (fuel : Nat) (ctx : List Task) (t : Task)
    (m : Machine) : Begins st (history st fuel ctx t m) := by
  induction fuel generalizing ctx t m with
  | zero =>
      intro pre post ctx' u m' h
      cases pre with
      | nil =>
          obtain ⟨hstart, hpost⟩ := List.cons.inj h
          obtain ⟨rfl, rfl, rfl⟩ := Event.start.inj hstart
          exact ⟨0, [], by rw [List.append_nil]; exact h.symm⟩
      | cons e pre =>
          obtain ⟨-, hpre⟩ := List.cons.inj h
          exact begins_stop _ _ _ _ hpre
  | succ fuel ih =>
      intro pre post ctx' u m' h
      cases pre with
      | nil =>
          obtain ⟨hstart, hpost⟩ := List.cons.inj h
          obtain ⟨rfl, rfl, rfl⟩ := Event.start.inj hstart
          exact ⟨fuel + 1, [], by rw [List.append_nil]; exact h.symm⟩
      | cons e pre =>
          obtain ⟨-, hpre⟩ := List.cons.inj h
          exact (Plan.begins_log (ih (t :: ctx)) _ _).append (begins_stop _ _ _ _) hpre

end ScriptConsole
