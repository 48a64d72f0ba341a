import ScriptConsole.Proofs.Evaluation.Plan
import ScriptConsole.Proofs.Evaluation.Quiet

/-!
# What Tasks Do Themselves

A task does little itself. An assignment binds its name in the frame of the task, a builtin that
calls nothing back does what it does, a call of a function makes a frame, and some calls and paths
end with a call of the host; every other step is simple. What a task hands on is evaluated in the
frame of the task, apart from calls of functions and their bodies.

A property of evaluation is thus a property of assignments, of builtins, of new frames, of calls of
the host and of simple steps (`Task.Step`), carried along plans (`Plan.All`).

## Main results

* `Task.plan_all`: the steps of a plan, and what it hands on.
* `Run.Carried.run`: a property of all steps holds of whole evaluations, if plans carry it.
* `Task.exists_steps`: which tasks do more than to take steps.
-/

namespace ScriptConsole

/-- Whether all steps of a course, and all tasks that it hands on, are of some kind. -/
def Course.All {α : Type} (step : {β : Type} → Run β → Prop) (handsOn : Task → Prop) :
    Course α → Prop
  | done _ => True
  | act x next => step x ∧ ∀ b, (next b).All step handsOn
  | sub t next => handsOn t ∧ ∀ a, (next a).All step handsOn

/-- The same for a plan, apart from the body that a call runs. -/
def Plan.All {α : Type} (step : {β : Type} → Run β → Prop) (handsOn : Task → Prop) :
    Plan α → Prop
  | steps c => c.All step handsOn
  | call enter _ => step enter
  | attempt env thunk handler =>
    handsOn (.apply env thunk []) ∧ ∀ e, (handler e).All step handsOn

/-- What holds of a course holds of it with less asked. -/
theorem Course.All.imp {α : Type} {step step' : {β : Type} → Run β → Prop}
    {handsOn handsOn' : Task → Prop} {c : Course α} (h : c.All step handsOn)
    (hstep : ∀ {β : Type} {x : Run β}, step x → step' x)
    (hsub : ∀ {t : Task}, handsOn t → handsOn' t) : c.All step' handsOn' := by
  induction c with
  | done a => trivial
  | act x next ih => exact ⟨hstep h.1, fun b => ih b (h.2 b)⟩
  | sub t next ih => exact ⟨hsub h.1, fun a => ih a (h.2 a)⟩

/-- What holds of nothing done, and of one run after another, holds of a course if it holds of its
steps and of the runs of what it hands on. -/
theorem Course.exec_of_all {α : Type} {P : {β : Type} → Run β → Prop}
    (nothing : ∀ {β : Type} (b : β), P (pure b : Run β))
    (sequence : ∀ {β γ : Type} {x : Run β} {f : β → Run γ}, P x → (∀ b, P (f b)) → P (x >>= f))
    {run : (t : Task) → Run t.Result} {c : Course α} (every : c.All P fun u => P (run u)) :
    P (c.exec run) := by
  induction c with
  | done a => exact nothing a
  | act x next ih => exact sequence every.1 fun b => ih b (every.2 b)
  | sub u next ih => exact sequence every.1 fun a => ih a (every.2 a)

/-- The same of a plan. -/
theorem Plan.All.imp {α : Type} {step step' : {β : Type} → Run β → Prop}
    {handsOn handsOn' : Task → Prop} {p : Plan α} (h : p.All step handsOn)
    (hstep : ∀ {β : Type} {x : Run β}, step x → step' x)
    (hsub : ∀ {t : Task}, handsOn t → handsOn' t) : p.All step' handsOn' := by
  cases p with
  | steps c => exact Course.All.imp h hstep hsub
  | call enter body => exact hstep h
  | attempt env thunk handler => exact ⟨hsub h.1, fun e => (h.2 e).imp hstep hsub⟩

namespace Task

/-- The frame in which a task is carried out, unless it makes one. -/
def env? : Task → Option FrameId
  | expr env _ => some env
  | arguments env _ => some env
  | callExpr env _ _ => some env
  | block env _ _ => some env
  | apply env _ _ => some env
  | closure _ _ => none
  | builtin env _ _ => some env
  | loop env _ _ => some env
  | each env _ _ => some env

/-- Whether a task ends with a call of the host, if it gets that far. -/
def asksHost : Task → Bool
  | callExpr _ (.member _ _ _) _ => true
  | callExpr _ (.hostPath _ _) _ => true
  | apply _ (.hostClass _) _ => true
  | _ => false

/-- The steps that a task may take itself. -/
inductive Step (st : Setting) : Task → {β : Type} → Run β → Prop
  | simple {t : Task} {β : Type} {x : Run β} : x.Simple → Step st t x
  | host {t : Task} {β : Type} {x : Run β} : t.asksHost = true → x.Quiet → Step st t x
  | define {env : FrameId} {name : Ident} {value : Expr} {span : Span} {v : Value} :
      Step st (.expr env (.assign name value span)) (defineName env name.text v)
  | builtin {env : FrameId} {b : Builtin} {args : List Value} :
      Step st (.builtin env b args) (Plain.apply st.registry env b args)
  | begin {f : Closure} {args : List Value} : Step st (.closure f args) (beginCall st f args)

/-- The tasks that a task may hand on. -/
def HandsOn (t u : Task) : Prop := u.env? = t.env? ∨ u.env? = none

variable {st : Setting}

/-- A last step is all there is to it. -/
theorem lastly_all {α : Type} {step : {β : Type} → Run β → Prop} {handsOn : Task → Prop}
    {x : Run α} (h : step x) : (lastly x).All step handsOn := ⟨h, fun _ => trivial⟩

/-- A name is looked up. -/
theorem simple_lookupName (env : FrameId) (name : String) : (lookupName env name).Simple :=
  (Run.Simple.look fun fs _ => fs.lookup? env name).bind fun found => Plain.simple_bound name found

/-- An operator is applied. -/
theorem simple_applyBinary (registry : Registry) (op : BinaryOp) (a b : Value) :
    (applyBinary registry op a b).Simple :=
  (Run.Simple.look fun _ w => Value.binary (registry.legend w) op a b).bind fun _ =>
    Run.simple_ofExcept _

/-- An error becomes a value. -/
theorem simple_caughtValue (e : EvalError) : (caughtValue st e).Simple := by
  unfold caughtValue
  split
  · exact .pure _
  · exact .onWorld _

/-- What the course of an expression is made of. -/
theorem exprCourse_all (env : FrameId) (e : Expr) :
    (exprCourse st env e).All (Step st (.expr env e)) (HandsOn (.expr env e)) := by
  cases e with
  | literal l span => trivial
  | var name => exact lastly_all (.simple (simple_lookupName env name.text))
  | assign name value span => exact ⟨.inl rfl, fun v => lastly_all .define⟩
  | func params body span => exact lastly_all (.simple (.onWorld _))
  | call callee args span => exact ⟨.inl rfl, fun _ => trivial⟩
  | hostPath segments span => exact lastly_all (.simple (HostAccess.simple_readPath _ _))
  | member target name span =>
      exact ⟨.inl rfl, fun v => lastly_all (.simple (HostAccess.simple_member _ v _))⟩
  | unary op operand span => exact ⟨.inl rfl, fun v => lastly_all (.simple (Run.simple_ofExcept _))⟩
  | binary left op right span =>
      refine ⟨.inl rfl, fun a => ?_⟩
      dsimp only
      split
      · trivial
      · exact ⟨.inl rfl, fun b => lastly_all (.simple (simple_applyBinary _ op a b))⟩
  | paren inner span => exact ⟨.inl rfl, fun _ => trivial⟩

/-- What that of arguments is made of. -/
theorem argumentsCourse_all (env : FrameId) (es : List Expr) :
    (argumentsCourse env es).All (Step st (.arguments env es)) (HandsOn (.arguments env es)) := by
  cases es with
  | nil => trivial
  | cons e rest => exact ⟨.inl rfl, fun v => ⟨.inl rfl, fun vs => trivial⟩⟩

/-- What that of a call is made of. -/
theorem callExprCourse_all (env : FrameId) (callee : Expr) (args : List Expr) :
    (callExprCourse st env callee args).All (Step st (.callExpr env callee args))
      (HandsOn (.callExpr env callee args)) := by
  unfold callExprCourse
  split
  · exact ⟨.inl rfl, fun target => ⟨.inl rfl, fun args =>
      lastly_all (.host rfl (HostAccess.quiet_invoke _ target _ args))⟩⟩
  · exact ⟨.simple (Run.simple_ofExcept _), fun _ => ⟨.inl rfl, fun args =>
      lastly_all (.host rfl (HostAccess.quiet_callPath _ _ _ args))⟩⟩
  · exact ⟨.inl rfl, fun f => ⟨.inl rfl, fun args => ⟨.inl rfl, fun _ => trivial⟩⟩⟩

/-- What that of statements is made of. -/
theorem blockCourse_all (env : FrameId) (last : Value) (body : List Expr) :
    (blockCourse env last body).All (Step st (.block env last body))
      (HandsOn (.block env last body)) := by
  cases body with
  | nil => trivial
  | cons e rest => exact ⟨.inl rfl, fun v => ⟨.inl rfl, fun _ => trivial⟩⟩

/-- What that of an application is made of. -/
theorem applyCourse_all (env : FrameId) (callee : Value) (args : List Value) :
    (applyCourse st env callee args).All (Step st (.apply env callee args))
      (HandsOn (.apply env callee args)) := by
  unfold applyCourse
  split
  · exact ⟨.inr rfl, fun _ => trivial⟩
  · split
    · exact ⟨.inl rfl, fun _ => trivial⟩
    · exact lastly_all (.simple (.fault _))
  · exact lastly_all (.host rfl (HostAccess.quiet_construct _ _ args))
  · exact lastly_all (.simple (.fault _))

/-- What the plan of a builtin is made of. -/
theorem builtinPlan_all (env : FrameId) (b : Builtin) (args : List Value) :
    (builtinPlan st env b args).All (Step st (.builtin env b args))
      (HandsOn (.builtin env b args)) := by
  unfold builtinPlan
  split
  · simp only [Plan.All]
    split
    · exact ⟨.inl rfl, fun _ => trivial⟩
    · trivial
  · exact ⟨.inl rfl, fun _ => trivial⟩
  · exact ⟨.inl rfl, fun _ => trivial⟩
  · exact ⟨.simple (Plain.simple_elements _ _), fun items => ⟨.inl rfl, fun _ => trivial⟩⟩
  · exact ⟨.inl rfl, fun e => ⟨.simple (simple_caughtValue e), fun caught =>
      ⟨.inl rfl, fun _ => trivial⟩⟩⟩
  · exact lastly_all .builtin

/-- What a round of `while` is made of. -/
theorem loopCourse_all (env : FrameId) (condition body : Value) :
    (loopCourse env condition body).All (Step st (.loop env condition body))
      (HandsOn (.loop env condition body)) := by
  refine ⟨.inl rfl, fun c => ?_⟩
  dsimp only
  split
  · exact ⟨.inl rfl, fun _ => ⟨.inl rfl, fun _ => trivial⟩⟩
  · trivial

/-- What a round of `forEach` is made of. -/
theorem eachCourse_all (env : FrameId) (body : Value) (items : List Value) :
    (eachCourse env body items).All (Step st (.each env body items))
      (HandsOn (.each env body items)) := by
  cases items with
  | nil => trivial
  | cons item rest => exact ⟨.inl rfl, fun _ => ⟨.inl rfl, fun _ => trivial⟩⟩

/-- What the plan of a task consists of. -/
theorem plan_all (st : Setting) (t : Task) : (t.plan st).All (Step st t) t.HandsOn := by
  cases t with
  | expr env e => exact exprCourse_all env e
  | arguments env es => exact argumentsCourse_all env es
  | callExpr env callee es => exact callExprCourse_all env callee es
  | block env last body => exact blockCourse_all env last body
  | apply env callee vs => exact applyCourse_all env callee vs
  | closure f vs => exact .begin
  | builtin env b vs => exact builtinPlan_all env b vs
  | loop env condition body => exact loopCourse_all env condition body
  | each env body items => exact eachCourse_all env body items

end Task

/-! ### Properties of whole evaluations -/

/-- A property of runs that holds of a whole plan if it holds of the parts. -/
structure Run.Carried (P : {α : Type} → Run α → Prop) : Prop where
  nothing : ∀ {α : Type} (a : α), P (pure a : Run α)
  sequence : ∀ {α β : Type} {x : Run α} {f : α → Run β}, P x → (∀ a, P (f a)) → P (x >>= f)
  body : ∀ {x : Run Value}, P x → P x.deeper.absorbExit
  attempt : ∀ {α : Type} {x : Run α} {handler : EvalError → Run α}, P x → (∀ e, P (handler e)) →
    P (x.catchFault handler)

section

variable {P : {α : Type} → Run α → Prop}

/-- What is carried along holds of a course whose steps have it. -/
theorem Run.Carried.course (carried : Run.Carried P) {α : Type} {run : (t : Task) → Run t.Result}
    (inside : ∀ u, P (run u)) {c : Course α} (steps : c.All P fun _ => True) : P (c.exec run) :=
  c.exec_of_all carried.nothing carried.sequence (steps.imp id fun {u} _ => inside u)

/-- The same of a plan. -/
theorem Run.Carried.plan (carried : Run.Carried P) {α : Type} {run : (t : Task) → Run t.Result}
    (inside : ∀ u, P (run u)) {p : Plan α} (steps : p.All P fun _ => True) : P (p.exec run) := by
  cases p with
  | steps c => exact carried.course inside steps
  | call enter body => exact carried.sequence steps fun frame => carried.body (inside _)
  | attempt env thunk handler =>
      exact carried.attempt (inside _) fun e => carried.course inside (steps.2 e)

/-- A property that is carried holds of whole evaluations if it holds of the steps of tasks and of
the stop at the end of the budget, by induction on the budget. -/
theorem Run.Carried.run (carried : Run.Carried P) {st : Setting}
    (step : ∀ {t : Task} {β : Type} {x : Run β}, Task.Step st t x → P x)
    (exhausted : ∀ {α : Type}, P (Run.stop .exhausted : Run α)) (fuel : Nat) (t : Task) :
    P (t.run st fuel) := by
  induction fuel generalizing t with
  | zero =>
      rw [Task.run_zero]
      exact exhausted
  | succ fuel ih =>
      rw [Task.run_succ]
      exact carried.plan ih ((Task.plan_all st t).imp step fun _ => trivial)

end

namespace Task

/-! ### Calls and handlers -/

/-- A call of a function is refused for its arguments, then for the functions that are running, or
else it gets a frame. -/
theorem beginCall_apply (st : Setting) (f : Closure) (args : List Value) (m : Machine) :
    beginCall st f args m =
      if args.length ≠ f.params.length then
        (.error (.fault (.arity f.describe (toString f.params.length) args.length)), m)
      else if st.maxDepth ≤ m.depth then (.error (.fault (.callDepth st.maxDepth)), m)
      else enter f args m := by
  unfold beginCall
  split
  · rfl
  · rw [Run.bind_ok (show Run.look Machine.depth m = (.ok m.depth, m) from rfl)]
    split <;> rfl

/-- Whether a task is a call of a function. -/
def isCall : Task → Bool
  | closure _ _ => true
  | _ => false

/-- Calls are the tasks of closures with arguments. -/
theorem isCall_iff {t : Task} : t.isCall = true ↔ ∃ f vs, t = .closure f vs := by
  cases t <;> simp [isCall]

/-- The handler that a task has for errors of something that it has handed on, and the frame in
which the handler is called. -/
def handler? : (p u : Task) → Option (FrameId × Value)
  | builtin env .tryCatch [_, handler], apply _ _ [] => some (env, handler)
  | _, _ => none

/-- Every task that is no call of a function and no `tryCatch` takes steps and handles no errors. -/
theorem exists_steps (st : Setting) (t : Task) :
    (∃ f vs, t = .closure f vs) ∨
      (∃ env thunk handler, t = .builtin env .tryCatch [thunk, handler]) ∨
      ((∃ c, t.plan st = .steps c) ∧ t.isCall = false ∧ ∀ u, t.handler? u = none) := by
  cases t with
  | closure f vs => exact .inl ⟨f, vs, rfl⟩
  | builtin env b vs =>
      simp only [plan, builtinPlan]
      split
      · exact .inr (.inr ⟨⟨_, rfl⟩, rfl, fun _ => rfl⟩)
      · exact .inr (.inr ⟨⟨_, rfl⟩, rfl, fun _ => rfl⟩)
      · exact .inr (.inr ⟨⟨_, rfl⟩, rfl, fun _ => rfl⟩)
      · exact .inr (.inr ⟨⟨_, rfl⟩, rfl, fun _ => rfl⟩)
      · exact .inr (.inl ⟨env, _, _, rfl⟩)
      · next other =>
        refine .inr (.inr ⟨⟨_, rfl⟩, rfl, fun u => ?_⟩)
        unfold handler?
        split
        · next heq =>
          obtain ⟨-, rfl, rfl⟩ := Task.builtin.inj heq
          exact absurd rfl (other _ _ rfl)
        · rfl
  | _ => exact .inr (.inr ⟨⟨_, rfl⟩, rfl, fun _ => rfl⟩)

end Task

end ScriptConsole
