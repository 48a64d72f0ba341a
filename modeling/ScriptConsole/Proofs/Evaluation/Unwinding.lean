import ScriptConsole.Proofs.Evaluation.Exits

/-!
# Unwinding

An exit is passed on from task to task (`Follows`), and every call of a function on its way takes
one from it, until the last one that it leads out of results in its value. The stops on the way
are its `unwinding`, a function of the tasks around it. They stand right behind the exit in the
history, so that nothing else happens in between, and the machine stays the same apart from the
function bodies that are left.

How far an exit goes is a matter of counting calls: out of `d` calls, with `k` of them around it, it
ends the innermost `min d k`. If there are not enough of them, it ends the program.

## Main results

* `unwinding_isPrefix`: the unwinding of an exit is what comes next, by induction on the tasks
  around it.
* `countP_unwinding`, `unwinding_of_le`, `run_of_unwinding`: how far it goes.
* `exit_law`: **the law of exits**.
-/

namespace ScriptConsole

/-- The number of calls of functions among some tasks. -/
def callCount (ctx : List Task) : Nat := ctx.countP Task.isCall

/-- A machine in which so many function bodies less are running. -/
def Machine.shallowerBy (n : Nat) (m : Machine) : Machine := { m with depth := m.depth - n }

theorem Machine.shallowerBy_shallower (n : Nat) (m : Machine) :
    m.shallower.shallowerBy n = m.shallowerBy (n + 1) := by
  simp only [shallower, shallowerBy, Nat.sub_sub, Nat.add_comm 1 n]

/-- The stops of tasks, from the inside out, around an exit out of `d` calls with the value `v`,
up to the last call that it leads out of. -/
def unwinding (v : Value) : (d : Nat) → Machine → (ctx : List Task) → List Event
  | _, _, [] => []
  | d, m, p :: ctx =>
    .stop ctx p (p.passed (.exit d v)) (p.left m) ::
      if p.isCall then
        if d ≤ 1 then [] else unwinding v (d - 1) m.shallower ctx
      else unwinding v d m ctx

/-- Whether a task stops with an exit. -/
def Event.isExit : Event → Bool
  | .stop _ _ (.error (.exit _ _)) _ => true
  | _ => false

/-! ### The events that unwind an exit -/

section

variable {v : Value} {d : Nat} {m : Machine} {ctx : List Task} {p : Task}

theorem unwinding_cons_of_not_isCall (h : p.isCall = false) :
    unwinding v d m (p :: ctx) = .stop ctx p (.error (.exit d v)) m :: unwinding v d m ctx := by
  rw [unwinding, Task.passed_of_not_isCall h, Task.left_of_not_isCall h, h]
  rfl

theorem unwinding_cons_call {f : Closure} {args : List Value} (h : 1 < d) :
    unwinding v d m (.closure f args :: ctx) =
      .stop ctx (.closure f args) (.error (.exit (d - 1) v)) m.shallower ::
        unwinding v (d - 1) m.shallower ctx := by
  simp [unwinding, Task.passed, Task.left, Task.isCall, Nat.not_le.mpr h]

theorem unwinding_cons_lastCall {f : Closure} {args : List Value} :
    unwinding v 1 m (.closure f args :: ctx) =
      [.stop ctx (.closure f args) (.ok v) m.shallower] := by
  simp [unwinding, Task.passed, Task.left, Task.isCall]

/-- The tasks that an exit ends are the innermost ones around it. -/
theorem map_task_unwinding_isPrefix :
    (unwinding v d m ctx).map Event.task <+: ctx := by
  induction ctx generalizing d m with
  | nil => exact List.prefix_rfl
  | cons p ctx ih =>
      rw [unwinding, List.map_cons, Event.task, List.prefix_cons_inj]
      split
      · split
        · exact List.nil_prefix
        · exact ih
      · exact ih

/-- An exit ends as many calls as it leads out of, or all that there are. -/
theorem countP_unwinding (h : 1 ≤ d) :
    (unwinding v d m ctx).countP (·.task.isCall) = min d (callCount ctx) := by
  induction ctx generalizing d m with
  | nil => simp [unwinding, callCount]
  | cons p ctx ih =>
      cases hp : p.isCall with
      | false =>
          rw [unwinding_cons_of_not_isCall hp, List.countP_cons, ih h, callCount, callCount,
            List.countP_cons]
          simp [Event.task, hp]
      | true =>
          obtain ⟨f, args, rfl⟩ := Task.isCall_iff.mp hp
          rcases Nat.lt_or_eq_of_le h with hlt | rfl
          · rw [unwinding_cons_call hlt, List.countP_cons, ih (by omega), callCount, callCount,
              List.countP_cons]
            simp only [Event.task, hp, if_true]
            omega
          · rw [unwinding_cons_lastCall, callCount, List.countP_cons]
            simp only [List.countP_cons, List.countP_nil, Event.task, hp, if_true]
            omega

/-- If there are calls enough, the last one that an exit ends results in its value, and all that is
ended before passes the exit on. -/
theorem unwinding_of_le (h : 1 ≤ d) (le : d ≤ callCount ctx) :
    ∃ front ctx' f args, unwinding v d m ctx =
        front ++ [.stop ctx' (.closure f args) (.ok v) (m.shallowerBy d)] ∧
      ∀ e ∈ front, e.isExit = true := by
  induction ctx generalizing d m with
  | nil =>
      simp only [callCount, List.countP_nil] at le
      omega
  | cons p ctx ih =>
      cases hp : p.isCall with
      | false =>
          have le' : d ≤ callCount ctx := by simpa [callCount, List.countP_cons, hp] using le
          obtain ⟨front, ctx', f, args, heq, hfront⟩ := ih (m := m) h le'
          refine ⟨.stop ctx p (.error (.exit d v)) m :: front, ctx', f, args, ?_, ?_⟩
          · rw [unwinding_cons_of_not_isCall hp, heq, List.cons_append]
          · exact List.forall_mem_cons.mpr ⟨rfl, hfront⟩
      | true =>
          obtain ⟨f, args, rfl⟩ := Task.isCall_iff.mp hp
          rcases Nat.lt_or_eq_of_le h with hlt | rfl
          · have le' : d - 1 ≤ callCount ctx := by
              simp only [callCount, List.countP_cons, hp, if_true] at le ⊢
              omega
            obtain ⟨front, ctx', g, vs, heq, hfront⟩ := ih (m := m.shallower) (by omega) le'
            have depth : m.shallower.shallowerBy (d - 1) = m.shallowerBy d := by
              rw [Machine.shallowerBy_shallower, Nat.sub_add_cancel h]
            refine ⟨.stop ctx (.closure f args) (.error (.exit (d - 1) v)) m.shallower :: front,
              ctx', g, vs, ?_, ?_⟩
            · rw [unwinding_cons_call hlt, heq, List.cons_append, depth]
            · exact List.forall_mem_cons.mpr ⟨rfl, hfront⟩
          · exact ⟨[], ctx, f, args, unwinding_cons_lastCall, by simp⟩

end

/-! ### The events behind an exit -/

section

variable {st : Setting} {fuel : Nat} {t u : Task} {m m' : Machine} {ctx : List Task} {d : Nat}
  {v : Value} {pre post : List Event}

/-- What stops inside another task does not end a history. -/
theorem exists_next {p : Task} {s : Stop}
    (h : history st fuel [] t m = pre ++ .stop (p :: ctx) u (.error s) m' :: post) :
    ∃ next post', post = next :: post' ∧ Follows st (.stop (p :: ctx) u (.error s) m') next := by
  have chain := history_chain st fuel [] t m
  have last := getLast?_history st fuel [] t m
  rw [h] at chain last
  cases post with
  | nil =>
      rw [List.getLast?_append] at last
      exact absurd (Option.some.inj last) (by simp [Task.stopped])
  | cons next post' =>
      refine ⟨next, post', rfl, ?_⟩
      have chain' := (List.isChain_append.mp chain).2.1
      exact (List.isChain_cons.mp chain').1 next rfl

/-- Behind an exit inside another task, that task stops. -/
theorem exists_passed {p : Task}
    (h : history st fuel [] t m = pre ++ .stop (p :: ctx) u (.error (.exit d v)) m' :: post) :
    ∃ post', post = .stop ctx p (p.passed (.exit d v)) (p.left m') :: post' := by
  obtain ⟨next, post', rfl, follows⟩ := exists_next h
  obtain rfl : next = .stop ctx p (p.passed (.exit d v)) (p.left m') := by
    simpa [Follows] using follows
  exact ⟨post', rfl⟩

/-- What comes next after an exit is its unwinding. -/
theorem unwinding_isPrefix (hd : 1 ≤ d)
    (h : history st fuel [] t m = pre ++ .stop ctx u (.error (.exit d v)) m' :: post) :
    unwinding v d m' ctx <+: post := by
  induction ctx generalizing pre u d m' post with
  | nil => exact List.nil_prefix
  | cons p ctx ih =>
      obtain ⟨post', rfl⟩ := exists_passed h
      rw [List.append_cons] at h
      cases hp : p.isCall with
      | false =>
          rw [Task.passed_of_not_isCall hp, Task.left_of_not_isCall hp] at h ⊢
          rw [unwinding_cons_of_not_isCall hp]
          exact (List.prefix_cons_inj _).mpr (ih hd h)
      | true =>
          obtain ⟨f, args, rfl⟩ := Task.isCall_iff.mp hp
          rcases Nat.lt_or_eq_of_le hd with hlt | rfl
          · have passed : Task.passed (.closure f args) (.exit d v) = .error (.exit (d - 1) v) := by
              simp [Task.passed, Nat.not_le.mpr hlt]
            rw [passed] at h ⊢
            rw [unwinding_cons_call hlt]
            exact (List.prefix_cons_inj _).mpr (ih (by omega) h)
          · rw [unwinding_cons_lastCall]
            exact ⟨post', rfl⟩

/-- An exit that there are not calls enough for is the outcome of the whole run. -/
theorem run_of_unwinding (few : callCount ctx < d)
    (h : history st fuel [] t m = pre ++ .stop ctx u (.error (.exit d v)) m' :: post) :
    t.run st fuel m =
      (.error (.exit (d - callCount ctx) v), m'.shallowerBy (callCount ctx)) := by
  induction ctx generalizing pre u d m' post with
  | nil =>
      have mem : .stop [] u (.error (.exit d v)) m' ∈ history st fuel [] t m := by simp [h]
      obtain ⟨-, rfl, houtcome, hmachine⟩ := Event.stop.inj (eq_stopped_of_mem mem)
      exact Prod.ext (eq_of_heq houtcome).symm hmachine.symm
  | cons p ctx ih =>
      obtain ⟨post', rfl⟩ := exists_passed h
      rw [List.append_cons] at h
      cases hp : p.isCall with
      | false =>
          have count : callCount (p :: ctx) = callCount ctx := by
            simp [callCount, hp]
          rw [Task.passed_of_not_isCall hp, Task.left_of_not_isCall hp] at h
          rw [count] at few ⊢
          exact ih few h
      | true =>
          obtain ⟨f, args, rfl⟩ := Task.isCall_iff.mp hp
          have count : callCount (.closure f args :: ctx) = callCount ctx + 1 := by
            simp [callCount, hp]
          rw [count] at few ⊢
          have passed : Task.passed (.closure f args) (.exit d v) = .error (.exit (d - 1) v) := by
            simp [Task.passed, show ¬d ≤ 1 by omega]
          rw [passed] at h
          rw [ih (by omega) h, Nat.sub_sub, Nat.add_comm 1 (callCount ctx)]
          exact congrArg (Prod.mk _) (Machine.shallowerBy_shallower _ _)

/-- What `exitMany` does. -/
theorem exitMany_of_mem {env : FrameId} {dv : Value} {outcome : Except Stop Value} {n : Int64}
    (h : .stop ctx (.builtin env .exitMany [dv, v]) outcome m' ∈ history st fuel [] t m)
    (hn : dv.toInt64? = some n) (low : 1 ≤ n.toInt) (high : n.toInt < Number.limit32) :
    outcome = .error .exhausted ∨ outcome = .error (.exit n.toInt.toNat v) := by
  obtain ⟨fuel', m'', hrun⟩ := run_of_stop_mem h
  cases fuel' with
  | zero =>
      rw [Task.run_zero] at hrun
      exact .inl (Prod.mk.inj hrun).1.symm
  | succ fuel' =>
      have depth := Plain.exitDepth_apply hn m''
      rw [if_pos ⟨low, high⟩] at depth
      have apply : Plain.apply st.registry env .exitMany [dv, v] m'' =
          (.error (.exit n.toInt.toNat v), m'') := by
        rw [Plain.apply, Run.bind_ok depth]
        rfl
      have plan : Task.plan st (.builtin env .exitMany [dv, v]) =
          .steps (Task.lastly (Plain.apply st.registry env .exitMany [dv, v])) := rfl
      rw [Task.run_succ, plan, Plan.exec, Task.exec_lastly, apply] at hrun
      exact .inr (Prod.mk.inj hrun).1.symm

end

/-! ### The law of exits -/

/-- How an exit out of `d` calls with the value `v`, on the machine `m'` and inside the tasks `ctx`,
unwinds the run of a task if `post` happens behind it. -/
structure Unwinds (st : Setting) (fuel : Nat) (t : Task) (m : Machine) (ctx : List Task) (d : Nat)
    (v : Value) (m' : Machine) (post : List Event) : Prop where
  /-- Right behind the exit come the stops of its unwinding. -/
  next : unwinding v d m' ctx <+: post
  /-- The tasks that it ends are the innermost ones around it. -/
  innermost : (unwinding v d m' ctx).map Event.task <+: ctx
  /-- The calls that it ends are as many as it leads out of, or all there are. -/
  calls : (unwinding v d m' ctx).countP (·.task.isCall) = min d (callCount ctx)
  /-- If there are calls enough, the outermost one that it ends results in its value, and whatever
  it ends before passes it on. -/
  outermost : d ≤ callCount ctx → ∃ front ctx' f args, unwinding v d m' ctx =
      front ++ [.stop ctx' (.closure f args) (.ok v) (m'.shallowerBy d)] ∧
    ∀ e ∈ front, e.isExit = true
  /-- If there are not, the run stops with what is left of it, -/
  outside : callCount ctx < d → t.run st fuel m =
    (.error (.exit (d - callCount ctx) v), m'.shallowerBy (callCount ctx))
  /-- and a program results in its value. -/
  program : callCount ctx < d → ∀ env p, t = .block env .null p.statements →
    evalProgram st fuel env p m = (.ok v, m'.shallowerBy (callCount ctx))

/-- The law of exits for the run of a task. -/
structure ExitLaw (st : Setting) (fuel : Nat) (t : Task) (m : Machine) : Prop where
  /-- Evaluation carries out plans, which fix the order of all that is done. -/
  order : ∀ n, t.run st (n + 1) = (t.plan st).exec fun u => u.run st n
  /-- The history ends with the outcome of the run. -/
  last : (history st fuel [] t m).getLast? =
    some (.stop [] t (t.run st fuel m).1 (t.run st fuel m).2)
  /-- When a task stops early, the task around it stops next, on the same machine and with the same
  stop, unless it is a call and the stop an exit or it is a `tryCatch` and the stop an error. -/
  follows : (history st fuel [] t m).IsChain (Follows st)
  /-- Every exit leads out of at least one call. -/
  depth : ∀ {ctx : List Task} {u : Task} {d : Nat} {v : Value} {m' : Machine},
    .stop ctx u (.error (.exit d v)) m' ∈ history st fuel [] t m → 1 ≤ d ∧ d < Number.limit32
  /-- `exitMany` makes the exit that it is asked for. -/
  exitMany : ∀ {ctx : List Task} {env : FrameId} {dv v : Value} {outcome : Except Stop Value}
    {m' : Machine} {n : Int64},
    .stop ctx (.builtin env .exitMany [dv, v]) outcome m' ∈ history st fuel [] t m →
    dv.toInt64? = some n → 1 ≤ n.toInt → n.toInt < Number.limit32 →
    outcome = .error .exhausted ∨ outcome = .error (.exit n.toInt.toNat v)
  /-- Every exit unwinds the calls that it leads out of. -/
  unwinds : ∀ {pre post : List Event} {ctx : List Task} {u : Task} {d : Nat} {v : Value}
    {m' : Machine},
    history st fuel [] t m = pre ++ .stop ctx u (.error (.exit d v)) m' :: post →
    Unwinds st fuel t m ctx d v m' post

/-- **The law of exits** holds of every run. -/
theorem exit_law (st : Setting) (fuel : Nat) (t : Task) (m : Machine) : ExitLaw st fuel t m where
  order _ := t.run_succ
  last := getLast?_history st fuel [] t m
  follows := history_chain st fuel [] t m
  depth h := by
    obtain ⟨fuel', m'', hrun⟩ := run_of_stop_mem h
    exact Task.bounded_run st fuel' _ m'' _ _ (congrArg Prod.fst hrun)
  exitMany := exitMany_of_mem
  unwinds {pre post ctx u d v m'} h := by
    have mem : .stop ctx u (.error (.exit d v)) m' ∈ history st fuel [] t m := by simp [h]
    obtain ⟨fuel', m'', hrun⟩ := run_of_stop_mem mem
    obtain ⟨hd, -⟩ := Task.bounded_run st fuel' u m'' d v (congrArg Prod.fst hrun)
    constructor
    · exact unwinding_isPrefix hd h
    · exact map_task_unwinding_isPrefix
    · exact countP_unwinding hd
    · exact unwinding_of_le hd
    · exact fun few => run_of_unwinding few h
    · rintro few env p rfl
      have outside := run_of_unwinding few h
      rw [Task.run] at outside
      rw [evalProgram, endProgram, outside]

end ScriptConsole
