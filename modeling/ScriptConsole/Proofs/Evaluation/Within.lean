import ScriptConsole.Proofs.Evaluation.Steps
import ScriptConsole.Proofs.Evaluation.History
import ScriptConsole.Proofs.Evaluation.WithinSteps

/-!
# Evaluation Keeps to a Discipline

Whatever is evaluated in a frame that there is, with values that may be at hand and a host that
keeps to the discipline, results in values that may be at hand, and so may every value that anything
is given on the way. The step from plans to evaluation is an induction on the budget; a plan keeps to
a discipline if its steps do and the tasks that it hands on are given nothing else
(`Course.Within`, `Plan.Within`).

## Main results

* `Task.within_plan`: what the plan of a task does.
* `Task.within_run`: evaluation keeps to a discipline.
* `Task.within_history`: and so does everything that happens on the way.
-/

namespace ScriptConsole

variable {σ : Type} {D : Discipline σ} {n n' : σ}

/-! ### Tasks -/

namespace Task

/-- The values that a task is given, with the builtin that it carries out. -/
def values : Task → List Value
  | expr _ _ => []
  | arguments _ _ => []
  | callExpr _ _ _ => []
  | block _ last _ => [last]
  | apply _ callee args => callee :: args
  | closure f args => .function f :: args
  | builtin _ b args => .builtin b :: args
  | loop _ condition body => [.builtin .whileTrue, condition, body]
  | each _ body items => body :: items

/-- The values that a task results in. -/
def valuesOf : (t : Task) → t.Result → List Value
  | expr _ _, v => [v]
  | arguments _ _, vs => vs
  | callExpr _ _ _, v => [v]
  | block _ _ _, v => [v]
  | apply _ _ _, v => [v]
  | closure _ _, v => [v]
  | builtin _ _ _, v => [v]
  | loop _ _ _, v => [v]
  | each _ _ _, v => [v]

/-- Whether a task is carried out in a frame that there is, if in any, and given only values that
may be at hand. -/
structure Within (D : Discipline σ) (n : σ) (t : Task) : Prop where
  env : ∀ env, t.env? = some env → env < D.frames n
  values : D.HasEach n t.values

variable {env : FrameId}

/-- A task that is carried out in a frame that there is. -/
theorem within_of_env {t : Task} (here : t.env? = some env) (made : env < D.frames n)
    (values : D.HasEach n t.values) : t.Within D n :=
  ⟨fun _ same => Option.some.inj (here.symm.trans same) ▸ made, values⟩

/-- An expression is given nothing. -/
theorem within_expr (made : env < D.frames n) (e : Expr) : (expr env e).Within D n :=
  within_of_env rfl made Discipline.hasEach_nil

/-- The expressions of arguments are given nothing. -/
theorem within_arguments (made : env < D.frames n) (es : List Expr) :
    (arguments env es).Within D n :=
  within_of_env rfl made Discipline.hasEach_nil

/-- A call as an expression is given nothing. -/
theorem within_callExpr (made : env < D.frames n) (callee : Expr) (args : List Expr) :
    (callExpr env callee args).Within D n :=
  within_of_env rfl made Discipline.hasEach_nil

/-- The statements of a block are given the value of the one before. -/
theorem within_block (made : env < D.frames n) {last : Value} (has : D.Has n last)
    (body : List Expr) : (block env last body).Within D n :=
  within_of_env rfl made (Discipline.hasEach_singleton.mpr has)

/-- A call is given what is called and its arguments. -/
theorem within_apply (made : env < D.frames n) {callee : Value} (called : D.Has n callee)
    {args : List Value} (has : D.HasEach n args) : (apply env callee args).Within D n :=
  within_of_env rfl made (Discipline.hasEach_cons.mpr ⟨called, has⟩)

/-- A call of a function is given the function and its arguments, and no frame. -/
theorem within_closure {f : Closure} (called : D.Has n (.function f)) {args : List Value}
    (has : D.HasEach n args) : (closure f args).Within D n :=
  ⟨fun _ same => (by cases same), Discipline.hasEach_cons.mpr ⟨called, has⟩⟩

/-- A call of a builtin is given the builtin and its arguments. -/
theorem within_builtin (made : env < D.frames n) {b : Builtin} (called : D.Has n (.builtin b))
    {args : List Value} (has : D.HasEach n args) : (builtin env b args).Within D n :=
  within_of_env rfl made (Discipline.hasEach_cons.mpr ⟨called, has⟩)

/-- A loop is given the builtin `while` itself, with its condition and its body. -/
theorem within_loop (made : env < D.frames n) {condition body : Value}
    (has : D.HasEach n [.builtin .whileTrue, condition, body]) :
    (loop env condition body).Within D n :=
  within_of_env rfl made has

/-- A loop over values is given its body and the values. -/
theorem within_each (made : env < D.frames n) {body : Value} (has : D.Has n body)
    {items : List Value} (given : D.HasEach n items) : (each env body items).Within D n :=
  within_of_env rfl made (Discipline.hasEach_cons.mpr ⟨has, given⟩)

/-- What a task results in may be at hand. -/
abbrev Gives (D : Discipline σ) (t : Task) (n : σ) (r : t.Result) : Prop :=
  D.HasEach n (t.valuesOf r)

end Task

/-! ### Courses and plans -/

/-- Whether a course keeps to a discipline and results in something of some kind, from a stage on.
-/
inductive Course.Within {α : Type} (D : Discipline σ) (R : σ → α → Prop) : σ → Course α → Prop
  | done {n : σ} {a : α} : R n a → Within D R n (.done a)
  | act {n : σ} {β : Type} {S : σ → β → Prop} {x : Run β} {next : β → Course α} :
      x.Within D n S → (∀ n', D.Later n n' → ∀ b, S n' b → Within D R n' (next b)) →
      Within D R n (.act x next)
  | sub {n : σ} {t : Task} {next : t.Result → Course α} :
      t.Within D n → (∀ n', D.Later n n' → ∀ a, t.Gives D n' a → Within D R n' (next a)) →
      Within D R n (.sub t next)

/-- The same for a plan. -/
inductive Plan.Within (D : Discipline σ) : {α : Type} → (σ → α → Prop) → σ → Plan α → Prop
  | steps {α : Type} {R : σ → α → Prop} {n : σ} {c : Course α} :
      c.Within D R n → Within D R n (.steps c)
  | call {n : σ} {enter : Run FrameId} {body : List Expr} :
      enter.Within D n (fun n' frame => frame < D.frames n') →
      Within D (fun n' v => D.HasEach n' [v]) n (.call enter body)
  | attempt {n : σ} {env : FrameId} {thunk : Value} {handler : EvalError → Course Value} :
      (Task.apply env thunk []).Within D n →
      (∀ n', D.Later n n' → ∀ e : EvalError, D.HasEach n' e.values →
        (handler e).Within D (fun n' v => D.HasEach n' [v]) n') →
      Within D (fun n' v => D.HasEach n' [v]) n (.attempt env thunk handler)

/-- A plan of steps keeps to a discipline if its course does. -/
theorem Plan.Within.course {α : Type} {R : σ → α → Prop} {c : Course α}
    (h : (Plan.steps c).Within D R n) : c.Within D R n := by
  cases h with
  | steps course => exact course

section exec

variable {run : (t : Task) → Run t.Result}
  (inside : ∀ (t : Task) (n : σ), t.Within D n → (run t).Within D n (t.Gives D))

include inside

/-- A course that keeps to a discipline is a run that does, by induction on the course. -/
theorem Course.Within.exec {α : Type} {R : σ → α → Prop} {c : Course α}
    (h : c.Within D R n) : (c.exec run).Within D n R := by
  induction h with
  | done result => exact .pure result
  | act step _ ih => exact step.bind ih
  | sub handed _ ih => exact (inside _ _ handed).bind ih

/-- A plan that keeps to a discipline is a run that does. -/
theorem Plan.Within.exec {α : Type} {R : σ → α → Prop} {p : Plan α} (h : p.Within D R n) :
    (p.exec run).Within D n R := by
  cases h with
  | steps course => exact course.exec inside
  | call enter =>
      exact enter.bind fun n' _ frame made =>
        (inside _ n' (Task.within_block made (D.scalar rfl) _)).deeper.absorbExit
  | attempt handed handled =>
      exact (inside _ n handed).catchFault fun n' later e values =>
        (handled n' later e values).exec inside

variable {ε : Type} {history : Task → Machine → List ε} {P : ε → Prop}
  (each : ∀ (t : Task) (m : Machine) (n : σ), t.Within D n → m.Within D n →
    ∀ e ∈ history t m, P e)

include each

/-- What happens in a course happens in tasks that keep to the discipline. -/
theorem Course.Within.log {α : Type} {R : σ → α → Prop} {c : Course α} (h : c.Within D R n)
    (m : Machine) (within_ : m.Within D n) : ∀ e ∈ c.log run history m, P e := by
  induction h generalizing m with
  | done result => exact fun e mem => absurd mem List.not_mem_nil
  | act step _ ih =>
      have ends := step m within_
      simp only [Course.log]
      split
      · next b m' hm =>
        rw [hm] at ends
        cases ends with
        | ok later machine result => exact ih _ later b result m' machine
      · exact fun e mem => absurd mem List.not_mem_nil
  | @sub n t next handed _ ih =>
      have ends := inside t n handed m within_
      simp only [Course.log]
      refine List.forall_mem_append.mpr ⟨each t m n handed within_, ?_⟩
      split
      · next a m' hm =>
        rw [hm] at ends
        cases ends with
        | ok later machine result => exact ih _ later a result m' machine
      · exact fun e mem => absurd mem List.not_mem_nil

/-- What happens in a plan happens in tasks that keep to the discipline. -/
theorem Plan.Within.log {α : Type} {R : σ → α → Prop} {p : Plan α} (h : p.Within D R n)
    {m : Machine} (within_ : m.Within D n) : ∀ e ∈ p.log run history m, P e := by
  cases h with
  | steps course => exact course.log inside each m within_
  | @call _ enter body entered =>
      have ends := entered m within_
      simp only [Plan.log]
      split
      · next frame m' hm =>
        rw [hm] at ends
        cases ends with
        | @ok n' _ _ later machine made =>
            exact each _ m'.deeper n' (Task.within_block made (D.scalar rfl) body)
              ⟨machine.frames, machine.world⟩
      · exact fun e mem => absurd mem List.not_mem_nil
  | @attempt _ env thunk handler handed handled =>
      have ends := inside _ _ handed m within_
      simp only [Plan.log]
      refine List.forall_mem_append.mpr ⟨each _ m n handed within_, ?_⟩
      split
      · next e m' hm =>
        rw [hm] at ends
        cases ends with
        | stop later machine values =>
            exact (handled _ later e values).log inside each m' machine
      · exact fun e mem => absurd mem List.not_mem_nil

end exec

/-! ### The plans of tasks -/

namespace Task

/-- The last step of a task. -/
theorem within_lastly {x : Run Value} (h : x.Within D n D.Has) :
    (lastly x).Within D (fun n v => D.HasEach n [v]) n :=
  .act h fun _ _ _ has => .done (Discipline.hasEach_singleton.mpr has)

/-- A task whose result is that of another. -/
theorem within_through {t : Task} (h : t.Within D n) :
    (Course.sub t .done).Within D (t.Gives D) n :=
  .sub h fun _ _ _ given => .done given

variable {st : Setting} {env : FrameId}

section host

variable (keeps : st.registry.Keeps D)

include keeps

/-- What an expression does, form by form. -/
theorem within_exprCourse (made : env < D.frames n) (e : Expr) :
    (exprCourse st env e).Within D (fun n v => D.HasEach n [v]) n := by
  cases e with
  | literal l span =>
      refine .done (Discipline.hasEach_singleton.mpr (D.scalar ?_))
      cases l <;> rfl
  | var name => exact within_lastly (within_lookupName env name.text)
  | assign name value span =>
      exact .sub (within_expr made value) fun n' later v has =>
        within_lastly (within_defineName env _ (Discipline.hasEach_singleton.mp has))
  | func params body span =>
      exact within_lastly (.onWorld fun w kept => kept.newFunction _ body made)
  | call callee args span =>
      exact within_through (within_callExpr made callee args)
  | hostPath segments span => exact within_lastly (HostAccess.within_readPath keeps _)
  | member target name span =>
      exact .sub (within_expr made target) fun n' later v has =>
        within_lastly (HostAccess.within_member keeps v _)
  | unary op operand span =>
      exact .sub (within_expr made operand) fun n' later v has =>
        within_lastly (.ofOutcome (Value.scalar_unary op v).hasOutcome)
  | binary left op right span =>
      refine .sub (within_expr made left) fun n' later a has => ?_
      split
      · next v decided =>
        refine .done (Discipline.hasEach_singleton.mpr (D.scalar ?_))
        unfold shortCircuit? at decided
        split at decided
        · split at decided <;> cases decided
          rfl
        · split at decided <;> cases decided
          rfl
        · cases decided
      · exact .sub (within_expr (D.lt_frames made later) right) fun n'' later' b has' =>
          within_lastly (within_applyBinary _ op a b)
  | paren inner span => exact within_through (within_expr made inner)

omit keeps in
/-- Arguments are evaluated one after the other, the first of them at the earliest stage. -/
theorem within_argumentsCourse (made : env < D.frames n) (es : List Expr) :
    (argumentsCourse env es).Within D D.HasEach n := by
  cases es with
  | nil => exact .done Discipline.hasEach_nil
  | cons e rest =>
      refine .sub (within_expr made e) fun n' later v has => ?_
      refine .sub (within_arguments (D.lt_frames made later) rest) fun n'' later' vs others => ?_
      have first := D.mono later' (Discipline.hasEach_singleton.mp has)
      exact .done (Discipline.hasEach_cons.mpr ⟨first, others⟩)

/-- What a call does: a method, a path of the host, or any other callee. -/
theorem within_callExprCourse (made : env < D.frames n) (callee : Expr) (args : List Expr) :
    (callExprCourse st env callee args).Within D (fun n v => D.HasEach n [v]) n := by
  unfold callExprCourse
  split
  · next target name span =>
    refine .sub (within_expr made target) fun n' later v has => ?_
    refine .sub (within_arguments (D.lt_frames made later) args) fun n'' later' vs given => ?_
    exact within_lastly (HostAccess.within_invoke keeps v _ given)
  · next segments span =>
    have resolved : (Run.ofExcept (st.registry.resolvePath (segments.map Ident.text))).Within D n
        fun _ _ => True :=
      .ofExcept (fun _ _ => trivial) fun e failed =>
        (Registry.rejection_of_resolvePath failed).values_eq_nil
    refine .act resolved fun n' later found _ => ?_
    refine .sub (within_arguments (D.lt_frames made later) args) fun n'' later' vs given => ?_
    exact within_lastly (HostAccess.within_callPath keeps _ _ given)
  · refine .sub (within_expr made callee) fun n' later f called => ?_
    have made' := D.lt_frames made later
    refine .sub (within_arguments made' args) fun n'' later' vs given => ?_
    have has := D.mono later' (Discipline.hasEach_singleton.mp called)
    exact within_through (within_apply (D.lt_frames made' later') has given)

omit keeps in
/-- What a block does, statement by statement. -/
theorem within_blockCourse (made : env < D.frames n) {last : Value} (has : D.Has n last)
    (body : List Expr) :
    (blockCourse env last body).Within D (fun n v => D.HasEach n [v]) n := by
  cases body with
  | nil => exact .done (Discipline.hasEach_singleton.mpr has)
  | cons e rest =>
      refine .sub (within_expr made e) fun n' later v given => ?_
      have made' := D.lt_frames made later
      exact within_through (within_block made' (Discipline.hasEach_singleton.mp given) rest)

/-- What the call of a value does, by the kind of the value. -/
theorem within_applyCourse (made : env < D.frames n) {callee : Value} (called : D.Has n callee)
    {args : List Value} (has : D.HasEach n args) :
    (applyCourse st env callee args).Within D (fun n v => D.HasEach n [v]) n := by
  unfold applyCourse
  split
  · exact within_through (within_closure called has)
  · split
    · exact within_through (within_builtin made called has)
    · exact within_lastly (.fault rfl)
  · exact within_lastly (HostAccess.within_construct keeps _ has)
  · exact within_lastly (.fault rfl)

omit keeps in
/-- What a handler is given: the thrown value, or an object that wraps the error. -/
theorem within_caughtValue (st : Setting) {e : EvalError} (has : D.HasEach n e.values) :
    (caughtValue st e).Within D n D.Has := by
  unfold caughtValue
  split
  · exact .pure (Discipline.hasEach_singleton.mp has)
  · exact .onWorld fun w kept => st.registry.errorObject_done _ kept

/-- What a builtin does: those that call something back, and all others. -/
theorem within_builtinPlan (made : env < D.frames n) {b : Builtin} (allowed : D.Has n (.builtin b))
    {args : List Value} (has : D.HasEach n args) :
    (builtinPlan st env b args).Within D (fun n v => D.HasEach n [v]) n := by
  unfold builtinPlan
  split
  · next condition body =>
    simp only [Discipline.hasEach_cons] at has
    refine .steps ?_
    split
    · exact within_through (within_apply made has.2.1 Discipline.hasEach_nil)
    · exact .done (Discipline.hasEach_singleton.mpr (D.scalar rfl))
  · next condition body otherwise =>
    simp only [Discipline.hasEach_cons] at has
    refine .steps (within_through (within_apply made ?_ Discipline.hasEach_nil))
    split
    · exact has.2.1
    · exact has.2.2.1
  · next condition body =>
    have given : D.HasEach n [.builtin .whileTrue, condition, body] :=
      Discipline.hasEach_cons.mpr ⟨allowed, has⟩
    exact .steps (within_through (within_loop made given))
  · next sequence body =>
    simp only [Discipline.hasEach_cons] at has
    refine .steps (.act (Plain.within_elements keeps has.1) fun n' later items given => ?_)
    exact within_through (within_each (D.lt_frames made later) (D.mono later has.2.1) given)
  · next body handler =>
    simp only [Discipline.hasEach_cons] at has
    refine .attempt (within_apply made has.1 Discipline.hasEach_nil) fun n' later e values => ?_
    refine .act (within_caughtValue st values) fun n'' later' caught given => ?_
    have made' := D.lt_frames (D.lt_frames made later) later'
    have handles := D.mono later' (D.mono later has.2.1)
    exact within_through (within_apply made' handles (Discipline.hasEach_singleton.mpr given))
  · exact .steps (within_lastly (Plain.within_apply env b has))

omit keeps in
/-- Parameters are bound to arguments. -/
theorem within_bindAll {fs : Frames} (h : fs.Within D n) (frame : FrameId) (params : List String)
    {args : List Value} (has : D.HasEach n args) : (bindAll fs frame params args).Within D n := by
  induction params generalizing fs args with
  | nil => exact h
  | cons name names ih =>
      cases args with
      | nil => exact h
      | cons v rest =>
          obtain ⟨first, others⟩ := Discipline.hasEach_cons.mp has
          exact ih (h.define frame name first) others

omit keeps in
/-- A call of a function gets a frame that there is then. -/
theorem within_beginCall (st : Setting) (f : Closure) {args : List Value}
    (has : D.HasEach n args) :
    (beginCall st f args).Within D n fun n' frame => frame < D.frames n' := by
  have entered : (enter f args).Within D n fun n' frame => frame < D.frames n' := by
    refine .onFrames fun fs within_ => ?_
    obtain ⟨n', later, more, next⟩ := D.newFrame n
    have fresh : (fs.newChild f.frame).1 < D.frames n' := by
      rw [more, ← within_.count]
      exact Nat.lt_succ_self _
    exact ⟨n', later, next,
      within_bindAll (within_.newChild f.frame later more) _ f.params (has.mono later), fresh⟩
  unfold beginCall
  split
  · exact .fault rfl
  · refine (Run.Within.look (R := fun n' _ => n' = n) fun m _ => rfl).bind
      fun n' _ depth same => ?_
    subst same
    split
    · exact .fault rfl
    · exact entered

omit keeps in
/-- What one round of `while` does. -/
theorem within_loopCourse (made : env < D.frames n) {condition body : Value}
    (has : D.HasEach n [.builtin .whileTrue, condition, body]) :
    (loopCourse env condition body).Within D (fun n v => D.HasEach n [v]) n := by
  obtain ⟨-, given⟩ := Discipline.hasEach_cons.mp has
  obtain ⟨conditional, bodily⟩ := Discipline.hasEach_cons.mp given
  have bodily := Discipline.hasEach_singleton.mp bodily
  refine .sub (within_apply made conditional Discipline.hasEach_nil) fun n' later c _ => ?_
  have made' := D.lt_frames made later
  split
  · have again := within_apply made' (D.mono later bodily) Discipline.hasEach_nil
    refine .sub again fun n'' later' _ _ => ?_
    exact within_through (within_loop (D.lt_frames made' later') ((has.mono later).mono later'))
  · exact .done (Discipline.hasEach_singleton.mpr (D.scalar rfl))

omit keeps in
/-- What one round of `forEach` does. -/
theorem within_eachCourse (made : env < D.frames n) {body : Value} {items : List Value}
    (has : D.HasEach n (body :: items)) :
    (eachCourse env body items).Within D (fun n v => D.HasEach n [v]) n := by
  obtain ⟨bodily, given⟩ := Discipline.hasEach_cons.mp has
  cases items with
  | nil => exact .done (Discipline.hasEach_singleton.mpr (D.scalar rfl))
  | cons item rest =>
      obtain ⟨first, others⟩ := Discipline.hasEach_cons.mp given
      have one := Discipline.hasEach_singleton.mpr first
      refine .sub (within_apply made bodily one) fun n' later _ _ => ?_
      have made' := D.lt_frames made later
      exact within_through (within_each made' (D.mono later bodily) (others.mono later))

/-- The plan of a task that keeps to a discipline keeps to it. -/
theorem within_plan {t : Task} (h : t.Within D n) : (t.plan st).Within D (t.Gives D) n := by
  obtain ⟨made, has⟩ := h
  cases t with
  | expr env e => exact .steps (within_exprCourse keeps (made env rfl) e)
  | arguments env es => exact .steps (within_argumentsCourse (made env rfl) es)
  | callExpr env callee es => exact .steps (within_callExprCourse keeps (made env rfl) callee es)
  | block env last body =>
      exact .steps (within_blockCourse (made env rfl) (Discipline.hasEach_singleton.mp has) body)
  | apply env callee vs =>
      obtain ⟨called, given⟩ := Discipline.hasEach_cons.mp has
      exact .steps (within_applyCourse keeps (made env rfl) called given)
  | closure f vs => exact .call (within_beginCall st f (Discipline.hasEach_cons.mp has).2)
  | builtin env b vs =>
      obtain ⟨allowed, given⟩ := Discipline.hasEach_cons.mp has
      exact within_builtinPlan keeps (made env rfl) allowed given
  | loop env condition body => exact .steps (within_loopCourse (made env rfl) has)
  | each env body items => exact .steps (within_eachCourse (made env rfl) has)

/-! ### Evaluation -/

/-- **Evaluation keeps to a discipline**, by induction on the budget. -/
theorem within_run (fuel : Nat) {t : Task} (h : t.Within D n) :
    (t.run st fuel).Within D n (t.Gives D) := by
  induction fuel generalizing t n with
  | zero =>
      rw [run_zero]
      exact .stop Discipline.hasEach_nil
  | succ fuel ih =>
      rw [run_succ]
      exact (within_plan keeps h).exec fun t n => ih

end host

end Task

/-! ### Histories -/

namespace Event

/-- The values that an event shows: what a task is given when it starts, and what it results in or
stops with when it stops. -/
def values : Event → List Value
  | start _ t _ => t.values
  | stop _ t (.ok r) _ => t.valuesOf r
  | stop _ _ (.error e) _ => e.values

/-- Whether all that there is at an event may be at hand at some stage. -/
def Within (D : Discipline σ) (e : Event) : Prop :=
  ∃ n, e.machine.Within D n ∧ D.HasEach n e.values

/-- Whether a value is at hand at an event: the machine holds it then, or the event shows it. -/
def Holds (e : Event) (u : Value) : Prop := e.machine.Holds u ∨ ∃ v ∈ e.values, v.Holds u

/-- All that is at hand may be so, at one stage. -/
theorem Within.has {e : Event} (h : e.Within D) :
    ∃ n, e.machine.Within D n ∧ ∀ u, e.Holds u → D.Has n u := by
  obtain ⟨n, machine, values⟩ := h
  refine ⟨n, machine, fun u holds => ?_⟩
  obtain held | ⟨v, mem, held⟩ := holds
  · exact machine.has held
  · exact D.has_of_holds (values v mem) held

end Event

namespace Task

variable {st : Setting} (keeps : st.registry.Keeps D)

include keeps

/-- What a task stops with may be at hand. -/
theorem within_stopped (fuel : Nat) (ctx : List Task) {t : Task} {m : Machine}
    (h : t.Within D n) (within_ : m.Within D n) : (t.stopped st fuel ctx m).Within D := by
  have ends := within_run keeps fuel h m within_
  unfold stopped
  generalize t.run st fuel m = o at ends
  cases ends with
  | ok later machine result => exact ⟨_, machine, result⟩
  | stop later machine values => exact ⟨_, machine, values⟩

/-- Everything that happens during an evaluation keeps to the discipline. -/
theorem within_history (fuel : Nat) (ctx : List Task) {t : Task} {m : Machine}
    (h : t.Within D n) (within_ : m.Within D n) :
    ∀ e ∈ history st fuel ctx t m, e.Within D := by
  have started : (Event.start ctx t m).Within D := ⟨n, within_, h.values⟩
  induction fuel generalizing ctx t m n with
  | zero =>
      refine List.forall_mem_cons.mpr ⟨started, List.forall_mem_singleton.mpr ?_⟩
      exact within_stopped keeps 0 ctx h within_
  | succ fuel ih =>
      refine List.forall_mem_cons.mpr ⟨started, List.forall_mem_append.mpr ⟨?_, ?_⟩⟩
      · exact (within_plan keeps h).log (fun t n => within_run keeps fuel)
          (fun t m n h within_ => ih _ h within_ ⟨n, within_, h.values⟩) within_
      · exact List.forall_mem_singleton.mpr (within_stopped keeps (fuel + 1) ctx h within_)

end Task

end ScriptConsole
