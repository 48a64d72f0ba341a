import ScriptConsole.Proofs.Evaluation.Steps

/-!
# Arrivals at the Host

A task that calls the host does so at its end, and there are three of them: a call of a member, a
call of a path, and a call of a class. Whatever else they do leads up to a callable of the host
(`Arrival`) or to an error. All other tasks call the host only through the tasks that they hand on.

With the call itself set apart, the plan of a task is a `HostPlan`. Evaluation carries these out as
well, and no step of theirs calls the host.

## Main results

* `Task.run_hostPlan`: evaluation carries out host plans.
* `Task.hostPlan_all`: the steps of a host plan.
* `Run.Carried.run_arriving`: a property of all steps, and of the calls that have arrived, holds of
  whole evaluations, if plans carry it.
-/

namespace ScriptConsole

/-- A call that has arrived at a callable of the host, with its arguments as they were given. -/
structure Arrival where
  target : Registry.Target
  args : List Value

namespace HostAccess

variable (registry : Registry)

/-- The callable that a call of a member arrives at. -/
def methodArrival (target : Value) (name : String) (args : List Value) : Run Arrival := do
  let found ← .ofExcept (registry.methodTarget target name args)
  pure ⟨found, args⟩

/-- The callable that a construction arrives at. -/
def constructorArrival (ref : ClassRef) (args : List Value) : Run Arrival := do
  let found ← .ofExcept (registry.constructorTarget ref args)
  pure ⟨found, args⟩

/-- The callable that a call of a path arrives at, whose class has been found. -/
def pathArrival (ref : ClassRef) (path : List String) (args : List Value) : Run Arrival :=
  match path.getLast? with
  | none => constructorArrival registry ref args
  | some name => do
    let target ← members registry (.hostClass ref) path.dropLast
    methodArrival registry target name args

/-- The call that has arrived. -/
def arrive (a : Arrival) : Run Value := call registry a.target a.args

/-- A method is found, and then called. -/
theorem invoke_eq (target : Value) (name : String) (args : List Value) :
    invoke registry target name args =
      methodArrival registry target name args >>= arrive registry := by
  rw [methodArrival, bind_assoc]
  rfl

/-- So is a constructor. -/
theorem construct_eq (ref : ClassRef) (args : List Value) :
    construct registry ref args = constructorArrival registry ref args >>= arrive registry := by
  rw [constructorArrival, bind_assoc]
  rfl

/-- So is what a path leads to. -/
theorem callPath_eq (ref : ClassRef) (path : List String) (args : List Value) :
    callPath registry ref path args = pathArrival registry ref path args >>= arrive registry := by
  unfold callPath pathArrival
  cases path.getLast? with
  | none => exact construct_eq registry ref args
  | some name =>
      rw [bind_assoc]
      exact bind_congr fun target => invoke_eq registry target name args

/-- The search for a method is simple. -/
theorem simple_methodArrival (target : Value) (name : String) (args : List Value) :
    (methodArrival registry target name args).Simple :=
  (Run.simple_ofExcept _).bind fun _ => .pure _

/-- So is that for a constructor. -/
theorem simple_constructorArrival (ref : ClassRef) (args : List Value) :
    (constructorArrival registry ref args).Simple :=
  (Run.simple_ofExcept _).bind fun _ => .pure _

/-- So is that along a path. -/
theorem simple_pathArrival (ref : ClassRef) (path : List String) (args : List Value) :
    (pathArrival registry ref path args).Simple := by
  unfold pathArrival
  split
  · exact simple_constructorArrival registry ref args
  · exact (simple_members registry _ _).bind fun target =>
      simple_methodArrival registry target _ args

end HostAccess

/-- What a task does, with its own call of the host set apart. -/
inductive HostPlan : Type → Type 1 where
  /-- It makes none. -/
  | inside {α : Type} (p : Plan α) : HostPlan α
  /-- It makes one at its end. -/
  | outside (c : Course Arrival) : HostPlan Value

namespace HostPlan

variable {α : Type}

/-- Carries out a host plan, in which tasks are run as given. -/
def exec (registry : Registry) (run : (t : Task) → Run t.Result) : HostPlan α → Run α
  | inside p => p.exec run
  | outside c => c.exec run >>= HostAccess.arrive registry

/-- Whether all steps of a host plan, and all tasks that it hands on, are of some kind. -/
def All (step : {β : Type} → Run β → Prop) (handsOn : Task → Prop) : HostPlan α → Prop
  | inside p => p.All step handsOn
  | outside c => c.All step handsOn

/-- What holds of a plan of the host holds of it with less asked. -/
theorem All.imp {step step' : {β : Type} → Run β → Prop} {handsOn handsOn' : Task → Prop}
    {p : HostPlan α} (h : p.All step handsOn)
    (hstep : ∀ {β : Type} {x : Run β}, step x → step' x)
    (hsub : ∀ {t : Task}, handsOn t → handsOn' t) : p.All step' handsOn' := by
  cases p with
  | inside p => exact Plan.All.imp h hstep hsub
  | outside c => exact Course.All.imp h hstep hsub

end HostPlan

namespace Task

/-- What a task does, with its own call of the host set apart. -/
def hostPlan (st : Setting) : (t : Task) → HostPlan t.Result
  | callExpr env (.member target name _) args =>
    .outside (.sub (.expr env target) fun target => .sub (.arguments env args) fun args =>
      lastly (HostAccess.methodArrival st.registry target name.text args))
  | callExpr env (.hostPath segments _) args =>
    .outside (.act (.ofExcept (st.registry.resolvePath (segments.map Ident.text)))
      fun (ref, used) => .sub (.arguments env args) fun args =>
        lastly (HostAccess.pathArrival st.registry ref ((segments.map Ident.text).drop used) args))
  | apply _ (.hostClass ref) args =>
    .outside (lastly (HostAccess.constructorArrival st.registry ref args))
  | t => .inside (t.plan st)

variable {st : Setting} {fuel : Nat}

/-- Whether a task makes a call of the host can be read off it. -/
theorem hostPlan_of_not_asksHost {t : Task} (h : t.asksHost = false) :
    t.hostPlan st = .inside (t.plan st) := by
  cases t with
  | callExpr env callee args => cases callee <;> first | rfl | cases h
  | apply env callee args => cases callee <;> first | rfl | cases h
  | _ => rfl

/-- The three ways to call the host. -/
theorem exists_of_asksHost {t : Task} (h : t.asksHost = true) :
    (∃ env target name span args, t = .callExpr env (.member target name span) args) ∨
      (∃ env segments span args, t = .callExpr env (.hostPath segments span) args) ∨
      ∃ env ref args, t = .apply env (.hostClass ref) args := by
  cases t with
  | callExpr env callee args =>
      cases callee with
      | member target name span => exact .inl ⟨env, target, name, span, args, rfl⟩
      | hostPath segments span => exact .inr (.inl ⟨env, segments, span, args, rfl⟩)
      | _ => cases h
  | apply env callee args =>
      cases callee with
      | hostClass ref => exact .inr (.inr ⟨env, ref, args, rfl⟩)
      | _ => cases h
  | _ => cases h

/-- A host plan is a plan of the task. -/
theorem exec_hostPlan (t : Task) (run : (t : Task) → Run t.Result) :
    (t.hostPlan st).exec st.registry run = (t.plan st).exec run := by
  cases h : t.asksHost with
  | false =>
      rw [hostPlan_of_not_asksHost h]
      rfl
  | true =>
      rcases exists_of_asksHost h with ⟨env, target, name, span, args, rfl⟩ |
        ⟨env, segments, span, args, rfl⟩ | ⟨env, ref, args, rfl⟩
      · simp only [hostPlan, HostPlan.exec, plan, callExprCourse, Plan.exec, Course.exec,
          exec_lastly, bind_assoc, HostAccess.invoke_eq]
      · simp only [hostPlan, HostPlan.exec, plan, callExprCourse, Plan.exec, Course.exec,
          exec_lastly, bind_assoc, HostAccess.callPath_eq]
      · simp only [hostPlan, HostPlan.exec, plan, applyCourse, Plan.exec, exec_lastly,
          HostAccess.construct_eq]

/-- Evaluation carries out host plans. -/
theorem run_hostPlan (t : Task) :
    t.run st (fuel + 1) = (t.hostPlan st).exec st.registry fun u => u.run st fuel := by
  rw [run_succ, exec_hostPlan]

/-- The steps of a host plan are those of the task, and simple ones if it makes a call itself. -/
theorem hostPlan_all (st : Setting) (t : Task) :
    (t.hostPlan st).All (fun x => Step st t x ∧ (t.asksHost = true → x.Simple)) t.HandsOn := by
  cases h : t.asksHost with
  | false =>
      rw [hostPlan_of_not_asksHost h]
      exact (plan_all st t).imp (fun step => ⟨step, nofun⟩) id
  | true =>
      have simple {t : Task} {β : Type} {x : Run β} (hx : x.Simple) :
          Step st t x ∧ (true = true → x.Simple) := ⟨.simple hx, fun _ => hx⟩
      rcases exists_of_asksHost h with ⟨env, target, name, span, args, rfl⟩ |
        ⟨env, segments, span, args, rfl⟩ | ⟨env, ref, args, rfl⟩
      · exact ⟨.inl rfl, fun target => ⟨.inl rfl, fun args =>
          lastly_all (simple (HostAccess.simple_methodArrival _ target _ args))⟩⟩
      · exact ⟨simple (Run.simple_ofExcept _), fun _ => ⟨.inl rfl, fun args =>
          lastly_all (simple (HostAccess.simple_pathArrival _ _ _ args))⟩⟩
      · exact ⟨simple (HostAccess.simple_constructorArrival _ ref args), fun _ => trivial⟩

end Task

/-! ### Properties of whole evaluations -/

section

variable {P : {α : Type} → Run α → Prop} {st : Setting}

/-- What is carried along holds of a plan of the host whose steps have it. -/
theorem Run.Carried.hostPlan (carried : Run.Carried P) {α : Type} {registry : Registry}
    {run : (t : Task) → Run t.Result} (inside : ∀ u, P (run u))
    (arrive : ∀ a : Arrival, P (HostAccess.arrive registry a)) {p : HostPlan α}
    (steps : p.All P fun _ => True) : P (p.exec registry run) := by
  cases p with
  | inside p => exact carried.plan inside steps
  | outside c => exact carried.sequence (carried.course inside steps) arrive

/-- A property that is carried holds of whole evaluations if it holds of the steps of tasks, with
the calls of the host set apart, of calls that have arrived, and of the stop at the end of the
budget, by induction on the budget. -/
theorem Run.Carried.run_arriving (carried : Run.Carried P)
    (step : ∀ {t : Task} {β : Type} {x : Run β}, Task.Step st t x →
      (t.asksHost = true → x.Simple) → P x)
    (arrive : ∀ a : Arrival, P (HostAccess.arrive st.registry a))
    (exhausted : ∀ {α : Type}, P (Run.stop .exhausted : Run α)) (fuel : Nat) (t : Task) :
    P (t.run st fuel) := by
  induction fuel generalizing t with
  | zero =>
      rw [Task.run_zero]
      exact exhausted
  | succ fuel ih =>
      rw [Task.run_hostPlan]
      have steps := (Task.hostPlan_all st t).imp (fun s => step s.1 s.2) fun _ => trivial
      exact carried.hostPlan ih arrive steps

end

end ScriptConsole
