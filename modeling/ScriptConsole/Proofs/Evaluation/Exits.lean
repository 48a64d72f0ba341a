import Mathlib.Data.List.Chain
import ScriptConsole.Proofs.Evaluation.History
import ScriptConsole.Proofs.Evaluation.Steps

/-!
# Exits

When a task stops early, the task around it takes no further step and stops as well, with the same
stop and on the same machine. There are two cases in which it is not so. A call of a function
absorbs an exit out of one call and takes one off an exit out of more, and `tryCatch` goes on from
an error of what it calls first. Both are told by the next event in the history (`Follows`).

Exits come from builtins alone, and lead out of at least one call wherever they are seen: the one
that would lead out of none is the value of a call.

## Main results

* `history_chain`: in every history, events follow as they may, by induction on the fuel.
* `Plain.exitDepth_apply`: out of how many calls an exit can be asked to lead.
* `Task.bounded_run`: exits lead out of at least one call.
-/

namespace ScriptConsole

namespace Task

/-- The outcome of a task when something that it has handed on stops early and it takes no further
step. -/
def passed : (p : Task) → Stop → Except Stop p.Result
  | closure _ _, .exit d v => if d ≤ 1 then .ok v else .error (.exit (d - 1) v)
  | _, s => .error s

/-- The machine when a task ends in this way: a call leaves its body. -/
def left (p : Task) (m : Machine) : Machine :=
  if p.isCall then m.shallower else m

end Task

/-- What may come next in a history. When a task stops early, the task around it stops with the
same stop and on the same machine, apart from two cases: a call of a function absorbs exits, and
an error of the first argument of `tryCatch` goes to the second. -/
def Follows (st : Setting) : Event → Event → Prop
  | .stop (p :: ctx) u (.error s) m, next =>
    match s, p.handler? u with
    | .fault e, some (env, handler) =>
      ∃ caught m', caughtValue st e m = (.ok caught, m') ∧
        next = .start (p :: ctx) (.apply env handler [caught]) m'
    | s, _ => next = .stop ctx p (p.passed s) (p.left m)
  | _, _ => True

namespace Task

variable {st : Setting}

/-- A stop passes through what is no call. -/
theorem passed_of_not_isCall {p : Task} (h : p.isCall = false) (s : Stop) :
    p.passed s = .error s := by
  cases p with
  | closure f vs => exact absurd h (by simp [isCall])
  | _ => rfl

/-- What is no call leaves no depth behind. -/
theorem left_of_not_isCall {p : Task} (h : p.isCall = false) (m : Machine) : p.left m = m := by
  simp [left, h]

end Task

/-! ### What follows what -/

variable {st : Setting} {fuel : Nat} {ctx : List Task} {t : Task}

/-- A history in front of further events. -/
theorem history_append_chain {u : Task} {m : Machine} {l : List Event}
    (inside : List.IsChain (Follows st) (history st fuel ctx u m))
    (rest : List.IsChain (Follows st) l)
    (link : ∀ e ∈ l.head?, Follows st (u.stopped st fuel ctx m) e) :
    List.IsChain (Follows st) (history st fuel ctx u m ++ l) := by
  refine List.isChain_append.mpr ⟨inside, rest, fun x hx y hy => ?_⟩
  rw [getLast?_history, Option.mem_some_iff] at hx
  exact hx ▸ link y hy

/-- The stop of a task follows what happened in its course, if the task handles none of the errors
of what it hands on. -/
theorem Course.log_chain (isCall : t.isCall = false)
    (inside : ∀ ctx u m, List.IsChain (Follows st) (history st fuel ctx u m)) {c : Course t.Result}
    (unhandled : c.All (fun _ => True) fun u => t.handler? u = none) (m : Machine) :
    List.IsChain (Follows st)
      (c.log (fun u => u.run st fuel) (history st fuel (t :: ctx)) m ++
        [.stop ctx t (c.exec (fun u => u.run st fuel) m).1
          (c.exec (fun u => u.run st fuel) m).2]) := by
  induction c generalizing m with
  | done a => exact .singleton _
  | act x next ih =>
      simp only [log, exec, Run.bind_apply]
      rcases x m with ⟨s | b, m'⟩
      · exact .singleton _
      · exact ih b (unhandled.2 b) m'
  | sub u next ih =>
      simp only [log, exec, Run.bind_apply, List.append_assoc]
      refine history_append_chain (inside _ u m) ?_ ?_
      · rcases u.run st fuel m with ⟨s | a, m'⟩
        · exact .singleton _
        · exact ih a (unhandled.2 a) m'
      · intro e he
        unfold Task.stopped
        rcases hrun : u.run st fuel m with ⟨s | a, m'⟩
        · rw [hrun] at he
          obtain rfl : _ = e := by simpa using he
          simp only [Follows, unhandled.1, Task.passed_of_not_isCall isCall,
            Task.left_of_not_isCall isCall]
        · trivial

/-- In front of a start, anything may come. -/
theorem start_chain {m : Machine} {l : List Event} (h : List.IsChain (Follows st) l) :
    List.IsChain (Follows st) (.start ctx t m :: l) :=
  List.isChain_cons.mpr ⟨fun _ _ => trivial, h⟩

/-- The events of a call of a function. -/
theorem call_chain {f : Closure} {args : List Value}
    (inside : ∀ ctx u m, List.IsChain (Follows st) (history st fuel ctx u m)) (m : Machine) :
    List.IsChain (Follows st) (history st (fuel + 1) ctx (.closure f args) m) := by
  refine start_chain ?_
  rw [Task.stopped, Task.run_succ]
  simp only [Task.plan, Plan.log, Plan.exec, Run.bind_apply]
  rcases beginCall st f args m with ⟨s | frame, m'⟩
  · exact .singleton _
  refine history_append_chain (inside _ _ _) (.singleton _) fun e he => ?_
  obtain rfl : _ = e := by simpa using he
  unfold Task.stopped
  simp only [Run.absorbExit, Run.deeper_apply]
  rcases hrun : (Task.block frame .null f.body).run st fuel m'.deeper with ⟨s | v, m''⟩
  · cases s with
    | exit d v =>
        simp only [Follows, Task.passed, Task.left, Task.isCall]
        split <;> rfl
    | _ => rfl
  · trivial

/-- There is always a value for the handler. -/
theorem caughtValue_ok (st : Setting) (e : EvalError) (m : Machine) :
    ∃ caught m', caughtValue st e m = (.ok caught, m') := by
  unfold caughtValue
  split
  · exact ⟨_, m, rfl⟩
  · exact ⟨_, _, rfl⟩

/-- The events of a `tryCatch`. -/
theorem attempt_chain {env : FrameId} {thunk handler : Value}
    (inside : ∀ ctx u m, List.IsChain (Follows st) (history st fuel ctx u m)) (m : Machine) :
    List.IsChain (Follows st)
      (history st (fuel + 1) ctx (.builtin env .tryCatch [thunk, handler]) m) := by
  refine start_chain ?_
  rw [Task.stopped, Task.run_succ]
  simp only [Task.plan, Task.builtinPlan, Plan.log, Plan.exec, Run.catchFault, List.append_assoc]
  refine history_append_chain (inside _ _ _) ?_ ?_
  · -- the events of the handler, if it is called at all
    rcases (Task.apply env thunk []).run st fuel m with ⟨s | v, m'⟩
    · cases s with
      | fault error =>
          have handled : (Course.act (caughtValue st error) fun caught =>
              .sub (.apply env handler [caught]) .done).All (fun _ => True)
                fun u => Task.handler? (.builtin env .tryCatch [thunk, handler]) u = none :=
            ⟨trivial, fun caught => ⟨rfl, fun _ => trivial⟩⟩
          exact Course.log_chain rfl inside handled m'
      | _ => exact .singleton _
    · exact .singleton _
  · -- from the last event of the body to the first behind it: the handler's start, or the end
    intro e he
    unfold Task.stopped
    rcases hrun : (Task.apply env thunk []).run st fuel m with ⟨s | v, m'⟩
    · rw [hrun] at he
      cases s with
      | fault error =>
          obtain ⟨caught, m'', hcaught⟩ := caughtValue_ok st error m'
          obtain ⟨events, hevents⟩ := history_eq st fuel
            (.builtin env .tryCatch [thunk, handler] :: ctx) (.apply env handler [caught]) m''
          refine ⟨caught, m'', hcaught, ?_⟩
          simp only [Course.log, hcaught, hevents, List.cons_append, List.head?_cons,
            Option.mem_some_iff] at he
          exact he.symm
      | _ =>
          obtain rfl : _ = e := by simpa using he
          rfl
    · trivial

/-- In every history, events follow as they may. -/
theorem history_chain (st : Setting) (fuel : Nat) (ctx : List Task) (t : Task) (m : Machine) :
    List.IsChain (Follows st) (history st fuel ctx t m) := by
  induction fuel generalizing ctx t m with
  | zero => exact start_chain (.singleton _)
  | succ fuel ih =>
      rcases t.exists_steps st with ⟨f, args, rfl⟩ | ⟨env, thunk, handler, rfl⟩ |
        ⟨⟨c, hc⟩, isCall, unhandled⟩
      · exact call_chain ih m
      · exact attempt_chain ih m
      · refine start_chain ?_
        rw [Task.stopped, Task.run_succ, hc]
        have every := Task.plan_all st t
        rw [hc] at every
        exact Course.log_chain isCall ih (every.imp (fun _ => trivial) fun _ => unhandled _) m

/-! ### Out of how many calls exits lead -/

/-- A run whose exits lead out of at least one call, and out of no more than can be asked for. -/
def Run.Bounded {α : Type} (x : Run α) : Prop :=
  ∀ m d v, (x m).1 = .error (.exit d v) → 1 ≤ d ∧ d < Number.limit32

namespace Run

variable {α β : Type}

/-- A quiet run is bounded, since it does not exit. -/
theorem Quiet.bounded {x : Run α} (h : x.Quiet) : x.Bounded :=
  fun m d v hx => absurd hx ((h m).exit d v)

/-- So is a result. -/
theorem bounded_pure (a : α) : (pure a : Run α).Bounded := (quiet_pure a).bounded

/-- So are bounded runs one after the other. -/
theorem Bounded.bind {x : Run α} {f : α → Run β} (hx : x.Bounded) (hf : ∀ a, (f a).Bounded) :
    (x >>= f).Bounded := by
  intro m d v h
  rw [bind_apply] at h
  rcases hm : x m with ⟨s | a, m'⟩ <;> rw [hm] at h
  · exact hx m d v (by rw [hm]; exact congrArg Except.error (Except.error.inj h))
  · exact hf a m' d v h

/-- So is what is done with the frames. -/
theorem bounded_onFrames (f : Frames → α × Frames) : (onFrames f).Bounded :=
  fun _ _ _ h => nomatch h

/-- So is a run with one more call. -/
theorem Bounded.deeper {x : Run α} (h : x.Bounded) : x.deeper.Bounded :=
  fun m d v hx => h m.deeper d v hx

/-- The end of a call takes one from an exit out of more calls than one. -/
theorem Bounded.absorbExit {x : Run Value} (h : x.Bounded) : x.absorbExit.Bounded := by
  intro m d v hx
  unfold Run.absorbExit at hx
  split at hx
  · next depth w m' hm =>
    obtain ⟨-, hlt⟩ := h m depth w (by rw [hm])
    split at hx
    · cases hx
    · obtain ⟨rfl, -⟩ := Stop.exit.inj (Except.error.inj hx)
      omega
  · exact h m d v hx

/-- A failed run and its handler are bounded if both are. -/
theorem Bounded.catchFault {x : Run α} {handler : EvalError → Run α} (h : x.Bounded)
    (hh : ∀ e, (handler e).Bounded) : (x.catchFault handler).Bounded := by
  intro m d v hx
  unfold Run.catchFault at hx
  split at hx
  · exact hh _ _ d v hx
  · exact h m d v hx

end Run

namespace Plain

/-- How many calls `exitMany` leads out of. -/
theorem exitDepth_apply {n : Int64} {v : Value} (hv : v.toInt64? = some n) (m : Machine) :
    exitDepth v m =
      if 1 ≤ n.toInt ∧ n.toInt < Number.limit32 then (.ok n.toInt.toNat, m)
      else (.error (.fault (.type (.exitDepth n))), m) := by
  have argument : integerArgument .exitMany v m = (.ok n, m) := by
    rw [integerArgument, hv]
    rfl
  rw [exitDepth, Run.bind_ok argument]
  split <;> rfl

/-- An exit out of many calls leads out of as many as its argument says. -/
theorem exitDepth_ok {d : Nat} {v : Value} {m m' : Machine} (h : exitDepth v m = (.ok d, m')) :
    1 ≤ d ∧ d < Number.limit32 := by
  cases hv : v.toInt64? with
  | none =>
      have argument : integerArgument .exitMany v m =
          (.error (.fault (.type (.integerWanted .exitMany v.kind))), m) := by
        rw [integerArgument, hv]
        rfl
      rw [exitDepth, Run.bind_stop argument] at h
      cases h
  | some n =>
      rw [exitDepth_apply hv] at h
      split at h
      · next range =>
        obtain ⟨heq, -⟩ := Prod.mk.inj h
        obtain rfl := Except.ok.inj heq
        omega
      · cases h

/-- Builtins are bounded, `exit` by its argument. -/
theorem bounded_apply (registry : Registry) (env : FrameId) (b : Builtin) (args : List Value) :
    (apply registry env b args).Bounded := by
  rcases apply_cases registry env b args with simple | ⟨a, v, rfl, rfl⟩ | ⟨v, _, exit⟩ |
    ⟨dv, v, rfl, rfl⟩ | ⟨stuck, -⟩
  · exact simple.quiet.bounded
  · exact (simple_nameArgument _ a).quiet.bounded.bind fun name => Run.bounded_onFrames _
  · intro m d w h
    rw [exit] at h
    obtain ⟨rfl, -⟩ := Stop.exit.inj (Except.error.inj h)
    exact ⟨Nat.le_refl 1, by decide⟩
  · intro m d w h
    rw [apply, Run.bind_apply] at h
    rcases hd : exitDepth dv m with ⟨s | depth, m'⟩ <;> rw [hd] at h
    · exact absurd (by rw [hd]; exact congrArg Except.error (Except.error.inj h))
        (((simple_exitDepth dv).quiet m).exit d w)
    · obtain ⟨rfl, -⟩ := Stop.exit.inj (Except.error.inj h)
      exact exitDepth_ok hd
  · rw [stuck]
    exact fun _ _ _ h => nomatch h

end Plain

namespace Task

/-- Every step of a task is bounded. -/
theorem Step.bounded {t : Task} {β : Type} {x : Run β} (h : Step st t x) : x.Bounded := by
  cases h with
  | simple h => exact h.quiet.bounded
  | host _ h => exact h.bounded
  | define => exact Run.bounded_onFrames _
  | builtin => exact Plain.bounded_apply _ _ _ _
  | @begin f args =>
      unfold beginCall
      split
      · exact (Run.quiet_fault _).bounded
      · refine (Run.quiet_look _).bounded.bind fun depth => ?_
        split
        · exact (Run.quiet_fault _).bounded
        · exact Run.bounded_onFrames _

end Task

/-- The bound is carried along by whatever a run is made of. -/
theorem Run.bounded_carried : Run.Carried fun x => x.Bounded where
  nothing := Run.bounded_pure
  sequence := Run.Bounded.bind
  body h := h.deeper.absorbExit
  attempt := Run.Bounded.catchFault

/-- Every exit leads out of at least one call. -/
theorem Task.bounded_run (st : Setting) (fuel : Nat) (t : Task) : (t.run st fuel).Bounded :=
  Run.bounded_carried.run Step.bounded (fun _ _ _ h => nomatch h) fuel t

end ScriptConsole
