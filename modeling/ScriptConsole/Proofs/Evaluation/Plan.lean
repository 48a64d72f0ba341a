import ScriptConsole.Eval.Evaluator

/-!
# Plans of Evaluation

The functions of the evaluator are one machine seen from nine sides. Here each of them, together
with its arguments, is a `Task`, and what a task does is data: its `Plan` lists, in order, the
steps that it takes itself and the tasks that it hands on, each with what follows for every
result.

* Most tasks take **steps** (`Course`). Whatever stops early ends the course.
* A **call** of a function makes a frame and runs a body in it, one level deeper, and absorbs exits.
* An **attempt** calls a function and has errors handled.

An unlimited budget would make a task the result of carrying out its plan. With a budget, a task
is its plan carried out with one unit of fuel less (`Task.run_succ`), so that anything that holds
of plans holds of evaluation by induction on the fuel, with no further look at the evaluator.

## Main results

* `Task.run_succ`: evaluation carries out plans.
-/

namespace ScriptConsole

/-- What the evaluator is asked for: one of its functions with its arguments. -/
inductive Task where
  | expr (env : FrameId) (e : Expr)
  | arguments (env : FrameId) (es : List Expr)
  | callExpr (env : FrameId) (callee : Expr) (args : List Expr)
  | block (env : FrameId) (last : Value) (body : List Expr)
  | apply (env : FrameId) (callee : Value) (args : List Value)
  | closure (f : Closure) (args : List Value)
  | builtin (env : FrameId) (b : Builtin) (args : List Value)
  | loop (env : FrameId) (condition body : Value)
  | each (env : FrameId) (body : Value) (items : List Value)

/-- The type of what a task results in. -/
abbrev Task.Result : Task → Type
  | arguments _ _ => List Value
  | _ => Value

/-- Carries out a task, within a budget. -/
def Task.run (st : Setting) (fuel : Nat) : (t : Task) → Run t.Result
  | expr env e => evalExpr st fuel env e
  | arguments env es => evalArgs st fuel env es
  | callExpr env callee es => evalCall st fuel env callee es
  | block env last body => evalBody st fuel env last body
  | apply env callee vs => callValue st fuel env callee vs
  | closure f vs => callClosure st fuel f vs
  | builtin env b vs => callBuiltin st fuel env b vs
  | loop env condition body => whileLoop st fuel env condition body
  | each env body items => eachLoop st fuel env body items

/-! ### Courses and plans -/

/-- Steps, and tasks handed on, one after the other up to a result. -/
inductive Course (α : Type) : Type 1 where
  | done (a : α)
  | act {β : Type} (x : Run β) (next : β → Course α)
  | sub (t : Task) (next : t.Result → Course α)

/-- Carries out a course, in which tasks are run as given. -/
def Course.exec {α : Type} (run : (t : Task) → Run t.Result) : Course α → Run α
  | done a => pure a
  | act x next => x >>= fun b => (next b).exec run
  | sub t next => run t >>= fun a => (next a).exec run

/-- What a task does. -/
inductive Plan : Type → Type 1 where
  | steps {α : Type} (c : Course α) : Plan α
  /-- Makes a frame and runs a body in it, one level deeper, and absorbs exits. -/
  | call (enter : Run FrameId) (body : List Expr) : Plan Value
  /-- Calls a function without arguments and goes on from an error with its handler. -/
  | attempt (env : FrameId) (thunk : Value) (handler : EvalError → Course Value) : Plan Value

/-- Carries out a plan, in which tasks are run as given. -/
def Plan.exec {α : Type} (run : (t : Task) → Run t.Result) : Plan α → Run α
  | steps c => c.exec run
  | call enter body => do
    let frame ← enter
    .absorbExit (.deeper (run (.block frame .null body)))
  | attempt env thunk handler =>
    .catchFault (run (.apply env thunk [])) fun e => (handler e).exec run

/-! ### The plans of the evaluator -/

/-- The start of a call of a function: a new frame, unless the arguments are too few or too many, or
too many functions are running. -/
def beginCall (st : Setting) (f : Closure) (args : List Value) : Run FrameId :=
  if args.length ≠ f.params.length then
    .fault (.arity f.describe (toString f.params.length) args.length)
  else do
    let depth ← .look Machine.depth
    if st.maxDepth ≤ depth then .fault (.callDepth st.maxDepth)
    else enter f args

/-- The value that a handler of errors gets. -/
def caughtValue (st : Setting) : EvalError → Run Value
  | .thrown v => pure v
  | e => .onWorld (st.registry.errorObject e)

namespace Task

/-- The course of a task without a result of its own. -/
def lastly {α : Type} (x : Run α) : Course α := .act x .done

/-- What evaluation of an expression does. -/
def exprCourse (st : Setting) (env : FrameId) : Expr → Course Value
  | .literal l _ => .done l.value
  | .var name => lastly (lookupName env name.text)
  | .assign name value _ => .sub (.expr env value) fun v => lastly (defineName env name.text v)
  | .func params body _ =>
    lastly (.onWorld fun w => w.newFunction (params.map Ident.text) body env)
  | .call callee args _ => .sub (.callExpr env callee args) .done
  | .hostPath segments _ => lastly (HostAccess.readPath st.registry (segments.map Ident.text))
  | .member target name _ =>
    .sub (.expr env target) fun v => lastly (HostAccess.member st.registry v name.text)
  | .unary op operand _ =>
    .sub (.expr env operand) fun v => lastly (.ofExcept (Value.unary op v))
  | .binary left op right _ =>
    .sub (.expr env left) fun a =>
      match shortCircuit? op a with
      | some v => .done v
      | none => .sub (.expr env right) fun b => lastly (applyBinary st.registry op a b)
  | .paren inner _ => .sub (.expr env inner) .done

/-- What evaluation of arguments does. -/
def argumentsCourse (env : FrameId) : List Expr → Course (List Value)
  | [] => .done []
  | e :: rest => .sub (.expr env e) fun v => .sub (.arguments env rest) fun vs => .done (v :: vs)

/-- What evaluation of a call expression does. -/
def callExprCourse (st : Setting) (env : FrameId) (callee : Expr) (args : List Expr) :
    Course Value :=
  match callee with
  | .member target name _ =>
    .sub (.expr env target) fun target =>
      .sub (.arguments env args) fun args =>
        lastly (HostAccess.invoke st.registry target name.text args)
  | .hostPath segments _ =>
    .act (.ofExcept (st.registry.resolvePath (segments.map Ident.text))) fun (ref, used) =>
      .sub (.arguments env args) fun args =>
        lastly (HostAccess.callPath st.registry ref ((segments.map Ident.text).drop used) args)
  | callee =>
    .sub (.expr env callee) fun f =>
      .sub (.arguments env args) fun args => .sub (.apply env f args) .done

/-- What evaluation of statements does. -/
def blockCourse (env : FrameId) (last : Value) : List Expr → Course Value
  | [] => .done last
  | e :: rest => .sub (.expr env e) fun v => .sub (.block env v rest) .done

/-- What calling a value does. -/
def applyCourse (st : Setting) (env : FrameId) (callee : Value) (args : List Value) :
    Course Value :=
  match callee with
  | .function f => .sub (.closure f args) .done
  | .builtin b =>
    if b.arity.accepts args.length then .sub (.builtin env b args) .done
    else lastly (.fault (.arity b.name b.arity.describe args.length))
  | .hostClass ref => lastly (HostAccess.construct st.registry ref args)
  | other => lastly (.fault (.notCallable other.kind))

/-- What calling a builtin does. -/
def builtinPlan (st : Setting) (env : FrameId) (b : Builtin) (args : List Value) : Plan Value :=
  match b, args with
  | .ifTrue, [condition, body] =>
    .steps (if condition.truthy then .sub (.apply env body []) .done else .done .null)
  | .ifElse, [condition, body, otherwise] =>
    .steps (.sub (.apply env (if condition.truthy then body else otherwise) []) .done)
  | .whileTrue, [condition, body] => .steps (.sub (.loop env condition body) .done)
  | .forEach, [sequence, body] =>
    .steps (.act (Plain.elements st.registry sequence) fun items =>
      .sub (.each env body items) .done)
  | .tryCatch, [body, handler] =>
    .attempt env body fun e =>
      .act (caughtValue st e) fun caught => .sub (.apply env handler [caught]) .done
  | b, args => .steps (lastly (Plain.apply st.registry env b args))

/-- What a round of a loop under a condition does. -/
def loopCourse (env : FrameId) (condition body : Value) : Course Value :=
  .sub (.apply env condition []) fun c =>
    if c.truthy then
      .sub (.apply env body []) fun _ => .sub (.loop env condition body) .done
    else .done .null

/-- What a round of a loop through items does. -/
def eachCourse (env : FrameId) (body : Value) : List Value → Course Value
  | [] => .done .null
  | item :: rest => .sub (.apply env body [item]) fun _ => .sub (.each env body rest) .done

/-- What a task does. -/
def plan (st : Setting) : (t : Task) → Plan t.Result
  | expr env e => .steps (exprCourse st env e)
  | arguments env es => .steps (argumentsCourse env es)
  | callExpr env callee es => .steps (callExprCourse st env callee es)
  | block env last body => .steps (blockCourse env last body)
  | apply env callee vs => .steps (applyCourse st env callee vs)
  | closure f vs => .call (beginCall st f vs) f.body
  | builtin env b vs => builtinPlan st env b vs
  | loop env condition body => .steps (loopCourse env condition body)
  | each env body items => .steps (eachCourse env body items)

/-! ### Evaluation carries out plans -/

/-- A last step is what it does. -/
@[simp] theorem exec_lastly {α : Type} (run : (t : Task) → Run t.Result) (x : Run α) :
    (lastly x).exec run = x := bind_pure x

variable {st : Setting} {fuel : Nat}

/-- An expression takes its course. -/
theorem evalExpr_succ (env : FrameId) (e : Expr) :
    evalExpr st (fuel + 1) env e = (exprCourse st env e).exec fun u => u.run st fuel := by
  cases e with
  | binary left op right span =>
      simp only [evalExpr, exprCourse, Course.exec, run]
      refine bind_congr fun a => ?_
      cases shortCircuit? op a <;> simp [Course.exec]
  | _ => simp [evalExpr, exprCourse, Course.exec, run]

/-- So do arguments. -/
theorem evalArgs_succ (env : FrameId) (es : List Expr) :
    evalArgs st (fuel + 1) env es = (argumentsCourse env es).exec fun u => u.run st fuel := by
  cases es <;> simp [evalArgs, argumentsCourse, Course.exec, run]

/-- So does a call. -/
theorem evalCall_succ (env : FrameId) (callee : Expr) (args : List Expr) :
    evalCall st (fuel + 1) env callee args =
      (callExprCourse st env callee args).exec fun u => u.run st fuel := by
  cases callee <;> simp [evalCall, callExprCourse, Course.exec, run]

/-- So do statements. -/
theorem evalBody_succ (env : FrameId) (last : Value) (body : List Expr) :
    evalBody st (fuel + 1) env last body =
      (blockCourse env last body).exec fun u => u.run st fuel := by
  cases body <;> simp [evalBody, blockCourse, Course.exec, run]

/-- So does an application. -/
theorem callValue_succ (env : FrameId) (callee : Value) (args : List Value) :
    callValue st (fuel + 1) env callee args =
      (applyCourse st env callee args).exec fun u => u.run st fuel := by
  cases callee with
  | builtin b =>
      simp only [callValue, applyCourse]
      split <;> simp [Course.exec, run]
  | _ => simp [callValue, applyCourse, Course.exec, run]

/-- The call of a closure is a plan: it begins, and runs the body in the frame that it has made. -/
theorem callClosure_succ (f : Closure) (args : List Value) :
    callClosure st (fuel + 1) f args =
      (Plan.call (beginCall st f args) f.body).exec fun u => u.run st fuel := by
  simp only [callClosure, Plan.exec, beginCall]
  split
  · rfl
  · rw [bind_assoc]
    refine bind_congr fun depth => ?_
    split <;> rfl

/-- A builtin follows its plan. -/
theorem callBuiltin_succ (env : FrameId) (b : Builtin) (args : List Value) :
    callBuiltin st (fuel + 1) env b args =
      (builtinPlan st env b args).exec fun u => u.run st fuel := by
  unfold builtinPlan
  split
  · simp only [callBuiltin, Plan.exec]
    split <;> simp [Course.exec, run]
  · simp [callBuiltin, Plan.exec, Course.exec, run]
  · simp [callBuiltin, Plan.exec, Course.exec, run]
  · simp [callBuiltin, Plan.exec, Course.exec, run]
  · simp only [callBuiltin, Plan.exec, Course.exec, run, bind_pure]
    refine congrArg _ (funext fun e => ?_)
    cases e <;> rfl
  · simp [callBuiltin, Plan.exec]

/-- A round of `while` takes its course. -/
theorem whileLoop_succ (env : FrameId) (condition body : Value) :
    whileLoop st (fuel + 1) env condition body =
      (loopCourse env condition body).exec fun u => u.run st fuel := by
  simp only [whileLoop, loopCourse, Course.exec, run]
  refine bind_congr fun c => ?_
  split <;> simp [Course.exec]

/-- So does a round of `forEach`. -/
theorem eachLoop_succ (env : FrameId) (body : Value) (items : List Value) :
    eachLoop st (fuel + 1) env body items =
      (eachCourse env body items).exec fun u => u.run st fuel := by
  cases items <;> simp [eachLoop, eachCourse, Course.exec, run]

/-- Evaluation carries out plans: a task with a unit of fuel is its plan, with one unit less for the
tasks that it hands on. -/
theorem run_succ (t : Task) :
    t.run st (fuel + 1) = (t.plan st).exec fun u => u.run st fuel := by
  cases t with
  | expr env e => exact evalExpr_succ env e
  | arguments env es => exact evalArgs_succ env es
  | callExpr env callee es => exact evalCall_succ env callee es
  | block env last body => exact evalBody_succ env last body
  | apply env callee vs => exact callValue_succ env callee vs
  | closure f vs => exact callClosure_succ f vs
  | builtin env b vs => exact callBuiltin_succ env b vs
  | loop env condition body => exact whileLoop_succ env condition body
  | each env body items => exact eachLoop_succ env body items

/-- Without fuel, nothing is carried out. -/
theorem run_zero (t : Task) : t.run st 0 = .stop .exhausted := by
  cases t <;> simp [run, evalExpr, evalArgs, evalCall, evalBody, callValue, callClosure,
    callBuiltin, whileLoop, eachLoop]

end Task

end ScriptConsole
