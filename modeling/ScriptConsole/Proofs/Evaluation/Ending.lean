import ScriptConsole.Proofs.Evaluation.Budget
import ScriptConsole.Proofs.Evaluation.Depth
import ScriptConsole.Proofs.Evaluation.Within

/-!
# Evaluation Comes to an End

Without `while`, evaluation comes to an end: some budget suffices (`Run.Settles`).

Evaluation goes on by handing on tasks. The body of a function runs one level deeper, and there is
a limit to that. At one level, every task that is handed on is lighter than the one that hands it on
(`Task.Lighter`):

* the parts of an expression are lighter than the expression, and calls are lighter than all
  expressions;
* a builtin that calls functions calls them with one argument or none, and it takes two or more
  itself; so what it calls is no such builtin, and no call with so few arguments hands on any task
  but the call of a function;
* a loop through items has one item less to go.

A loop under a condition is the exception, since it hands on itself. It takes the builtin `while`
to start one, so there is none where no value holds that builtin.

## Main results

* `Task.plan_lighter`: what tasks hand on at their level.
* `Task.settles`: evaluation without `while` comes to an end.
-/

namespace ScriptConsole

/-! ### Runs within greater and greater budgets -/

namespace Run

variable {α β : Type} {m m' : Machine}

/-- Whether some budget suffices for a run. -/
def Settles (x : Nat → Run α) (m : Machine) : Prop := ∃ fuel, (x fuel m).1 ≠ .error .exhausted

/-- Whether a budget that suffices can be exceeded. -/
def Rising (x : Nat → Run α) : Prop := ∀ {fuel fuel' : Nat}, fuel ≤ fuel' → (x fuel).Below (x fuel')

/-- A run that has enough fuel is the same with more. -/
theorem Rising.eq_of_le {x : Nat → Run α} (rising : Rising x) {fuel fuel' : Nat}
    (le : fuel ≤ fuel') (enough : (x fuel m).1 ≠ .error .exhausted) : x fuel' m = x fuel m :=
  (rising le m).elim (fun short => absurd short enough) Eq.symm

/-- A run that does not use up a budget of its own accord. -/
def Prompt (x : Run α) : Prop := ∀ m, (x m).1 ≠ .error .exhausted

/-- What takes no fuel is the same with more. -/
theorem rising_const (x : Run α) : Rising fun _ => x := fun _ => .refl x

/-- What takes no fuel ends. -/
theorem Prompt.settles {x : Run α} (h : x.Prompt) (m : Machine) : Settles (fun _ => x) m :=
  ⟨0, h m⟩

/-- Runs one after the other end if the first does, and the second does behind it. -/
theorem settles_bind {x : Nat → Run α} {f : Nat → α → Run β} (rising : Rising x)
    (rising' : ∀ a, Rising fun fuel => f fuel a) (first : Settles x m)
    (second : ∀ fuel a m', x fuel m = (.ok a, m') → Settles (fun fuel => f fuel a) m') :
    Settles (fun fuel => x fuel >>= f fuel) m := by
  obtain ⟨fuel, enough⟩ := first
  rcases hx : x fuel m with ⟨e | a, m'⟩
  · refine ⟨fuel, fun short => enough ?_⟩
    dsimp only at short
    rw [bind_stop hx] at short
    rw [hx]
    exact congrArg Except.error (Except.error.inj short)
  · obtain ⟨fuel', enough'⟩ := second fuel a m' hx
    have same := (rising.eq_of_le (Nat.le_max_left fuel fuel') enough).trans hx
    have followed := Rising.eq_of_le (rising' a) (Nat.le_max_right fuel fuel') enough'
    refine ⟨max fuel fuel', ?_⟩
    dsimp only at followed ⊢
    rw [bind_ok same, followed]
    exact enough'

/-- So do a failed run and its handler. -/
theorem settles_catchFault {x : Nat → Run α} {f : Nat → EvalError → Run α} (rising : Rising x)
    (rising' : ∀ e, Rising fun fuel => f fuel e) (first : Settles x m)
    (second : ∀ fuel e m', x fuel m = (.error (.fault e), m') →
      Settles (fun fuel => f fuel e) m') :
    Settles (fun fuel => (x fuel).catchFault (f fuel)) m := by
  obtain ⟨fuel, enough⟩ := first
  rcases hx : x fuel m with ⟨(⟨d, v⟩ | e | _ | _) | a, m'⟩
  · exact ⟨fuel, by simp [Run.catchFault, hx]⟩
  · obtain ⟨fuel', enough'⟩ := second fuel e m' hx
    have same := (rising.eq_of_le (Nat.le_max_left fuel fuel') enough).trans hx
    have handled := Rising.eq_of_le (rising' e) (Nat.le_max_right fuel fuel') enough'
    refine ⟨max fuel fuel', ?_⟩
    simp only [Run.catchFault, same]
    exact fun short => enough' ((congrArg Prod.fst handled).symm.trans short)
  · exact absurd (congrArg Prod.fst hx) enough
  · exact ⟨fuel, by simp [Run.catchFault, hx]⟩
  · exact ⟨fuel, by simp [Run.catchFault, hx]⟩

/-- A call comes to an end if its body does, one level deeper. -/
theorem settles_call {x : Nat → Run Value} (body : Settles x m.deeper) :
    Settles (fun fuel => (x fuel).deeper.absorbExit) m := by
  obtain ⟨fuel, enough⟩ := body
  refine ⟨fuel, fun short => enough ?_⟩
  simp only [Run.absorbExit] at short
  split at short
  · split at short <;> cases short
  · exact short

end Run

/-! ### The steps of tasks -/

/-- A quiet run takes no fuel. -/
theorem Run.Quiet.prompt {α : Type} {x : Run α} (h : x.Quiet) : x.Prompt := fun m short => by
  obtain ⟨e, he⟩ := (h m).stop _ short
  cases he

/-- No step of a task uses up a budget. -/
theorem Task.Step.prompt {st : Setting} {t : Task} {β : Type} {x : Run β} (h : Step st t x) :
    x.Prompt := by
  cases h with
  | simple simple => exact simple.quiet.prompt
  | host _ quiet => exact quiet.prompt
  | define => exact fun m short => by cases short
  | begin =>
      intro m short
      rw [beginCall_apply] at short
      split at short
      · cases short
      · split at short <;> cases short
  | @builtin env b args =>
      intro m short
      rcases Plain.apply_cases st.registry env b args with simple | ⟨a, v, rfl, rfl⟩ |
        ⟨v, _, exit⟩ | ⟨d, v, rfl, rfl⟩ | ⟨stuck, -⟩
      · exact simple.quiet.prompt m short
      · have named := (Plain.simple_nameArgument .setGlobal a).quiet.prompt m
        simp only [Plain.apply, Run.bind_apply] at short
        rcases hn : Plain.nameArgument .setGlobal a m with ⟨e | name, m'⟩ <;> rw [hn] at named short
        · exact named (congrArg Except.error (Except.error.inj short))
        · cases short
      · rw [exit] at short
        cases short
      · have counted := (Plain.simple_exitDepth d).quiet.prompt m
        simp only [Plain.apply, Run.bind_apply] at short
        rcases hd : Plain.exitDepth d m with ⟨e | depth, m'⟩ <;> rw [hd] at counted short
        · exact counted (congrArg Except.error (Except.error.inj short))
        · cases short
      · rw [stuck] at short
        cases short

/-! ### Lighter tasks -/

namespace Task

/-- Which kind of task hands on which at its level, without regard to how large they are. -/
def rank : Task → Nat
  | closure _ _ => 0
  | builtin _ _ args => if args.length ≤ 1 then 1 else 4
  | apply _ _ args => if args.length ≤ 1 then 2 else 5
  | each _ _ _ => 3
  | expr _ _ => 6
  | arguments _ _ => 6
  | callExpr _ _ _ => 6
  | block _ _ _ => 6
  | loop _ _ _ => 7

/-- How large a task is among those of its rank. -/
noncomputable def size : Task → Nat
  | expr _ e => sizeOf e
  | arguments _ es => sizeOf es
  | callExpr _ callee args => sizeOf callee + sizeOf args
  | block _ _ body => sizeOf body
  | each _ _ items => items.length
  | _ => 0

/-- Whether a task is lighter than another. -/
def Lighter (u t : Task) : Prop := u.rank < t.rank ∨ u.rank = t.rank ∧ u.size < t.size

/-- There is no end to how heavy tasks get, but there is to how light. -/
theorem lighter_wf : WellFounded Lighter := by
  refine Subrelation.wf (fun {u t} h => ?_)
    (InvImage.wf (fun t : Task => (t.rank, t.size)) (Prod.lex Nat.lt_wfRel Nat.lt_wfRel).wf)
  exact Prod.lex_def.mpr h

variable {st : Setting}

/-- An expression hands on lighter tasks. -/
theorem exprCourse_lighter (env : FrameId) (e : Expr) :
    (exprCourse st env e).All (fun _ => True) (·.Lighter (.expr env e)) := by
  have part : ∀ {u : Task}, u.rank = 6 → u.size < sizeOf e → u.Lighter (.expr env e) :=
    fun rank smaller => .inr ⟨rank, smaller⟩
  cases e with
  | literal l span => trivial
  | var name => exact lastly_all trivial
  | assign name value span =>
      exact ⟨part rfl (by simp only [size, Expr.assign.sizeOf_spec]; omega), fun v =>
        lastly_all trivial⟩
  | func params body span => exact lastly_all trivial
  | call callee args span =>
      exact ⟨part rfl (by simp only [size, Expr.call.sizeOf_spec]; omega), fun _ => trivial⟩
  | hostPath segments span => exact lastly_all trivial
  | member target name span =>
      exact ⟨part rfl (by simp only [size, Expr.member.sizeOf_spec]; omega), fun v =>
        lastly_all trivial⟩
  | unary op operand span =>
      exact ⟨part rfl (by simp only [size, Expr.unary.sizeOf_spec]; omega), fun v =>
        lastly_all trivial⟩
  | binary left op right span =>
      refine ⟨part rfl (by simp only [size, Expr.binary.sizeOf_spec]; omega), fun a => ?_⟩
      dsimp only
      split
      · trivial
      · exact ⟨part rfl (by simp only [size, Expr.binary.sizeOf_spec]; omega), fun b =>
          lastly_all trivial⟩
  | paren inner span =>
      exact ⟨part rfl (by simp only [size, Expr.paren.sizeOf_spec]; omega), fun _ => trivial⟩

/-- An expression weighs something. -/
theorem sizeOf_expr_pos (e : Expr) : 0 < sizeOf e := by
  cases e <;> simp +arith

/-- So do several, even none. -/
theorem sizeOf_list_pos (es : List Expr) : 0 < sizeOf es := by
  cases es <;> simp +arith

/-- A call hands on lighter tasks. -/
theorem callExprCourse_lighter (env : FrameId) (callee : Expr) (args : List Expr) :
    (callExprCourse st env callee args).All (fun _ => True)
      (·.Lighter (.callExpr env callee args)) := by
  have part : ∀ {u : Task}, u.rank = 6 → u.size < sizeOf callee + sizeOf args →
      u.Lighter (.callExpr env callee args) := fun rank smaller => .inr ⟨rank, smaller⟩
  have given : (arguments env args).Lighter (.callExpr env callee args) :=
    part rfl (Nat.lt_add_of_pos_left (sizeOf_expr_pos callee))
  unfold callExprCourse
  split
  · next target name span =>
    exact ⟨part rfl (by simp only [size, Expr.member.sizeOf_spec]; omega), fun _ =>
      ⟨given, fun _ => lastly_all trivial⟩⟩
  · exact ⟨trivial, fun _ => ⟨given, fun _ => lastly_all trivial⟩⟩
  · refine ⟨part rfl (Nat.lt_add_of_pos_right (sizeOf_list_pos args)), fun f =>
      ⟨given, fun vs => ⟨.inl ?_, fun _ => trivial⟩⟩⟩
    simp only [rank]
    split <;> decide

/-- So does an application. -/
theorem applyCourse_lighter (env : FrameId) (callee : Value) (args : List Value) :
    (applyCourse st env callee args).All (fun _ => True)
      (·.Lighter (.apply env callee args)) := by
  unfold applyCourse
  split
  · refine ⟨.inl ?_, fun _ => trivial⟩
    simp only [rank]
    split <;> decide
  · split
    · refine ⟨.inl ?_, fun _ => trivial⟩
      simp only [rank]
      split <;> decide
    · exact lastly_all trivial
  · exact lastly_all trivial
  · exact lastly_all trivial

/-- What builtins call, they call with one argument or none. -/
theorem builtinPlan_lighter (env : FrameId) {b : Builtin} (other : b ≠ .whileTrue)
    (args : List Value) :
    (builtinPlan st env b args).All (fun _ => True) (·.Lighter (.builtin env b args)) := by
  unfold builtinPlan
  split
  · dsimp only [Plan.All]
    split
    · exact ⟨.inl (by simp [rank]), fun _ => trivial⟩
    · trivial
  · exact ⟨.inl (by simp [rank]), fun _ => trivial⟩
  · exact absurd rfl other
  · exact ⟨trivial, fun items => ⟨.inl (by simp [rank]), fun _ => trivial⟩⟩
  · exact ⟨.inl (by simp [rank]), fun e => ⟨trivial, fun caught =>
      ⟨.inl (by simp [rank]), fun _ => trivial⟩⟩⟩
  · exact ⟨trivial, fun _ => trivial⟩

/-- Whatever a task hands on at its level is lighter, unless it has to do with `while`. -/
theorem plan_lighter (st : Setting) {t : Task} (other : Value.builtin .whileTrue ∉ t.values) :
    (t.plan st).All (fun _ => True) (·.Lighter t) := by
  cases t with
  | expr env e => exact exprCourse_lighter env e
  | arguments env es =>
      cases es with
      | nil => trivial
      | cons e rest =>
          refine ⟨.inr ⟨rfl, ?_⟩, fun v => ⟨.inr ⟨rfl, ?_⟩, fun vs => trivial⟩⟩ <;>
            · simp only [size, List.cons.sizeOf_spec]
              omega
  | callExpr env callee es => exact callExprCourse_lighter env callee es
  | block env last body =>
      cases body with
      | nil => trivial
      | cons e rest =>
          refine ⟨.inr ⟨rfl, ?_⟩, fun v => ⟨.inr ⟨rfl, ?_⟩, fun _ => trivial⟩⟩ <;>
            · simp only [size, List.cons.sizeOf_spec]
              omega
  | apply env callee vs => exact applyCourse_lighter env callee vs
  | closure f vs => trivial
  | builtin env b vs =>
      refine builtinPlan_lighter env (fun same => other ?_) vs
      rw [same]
      exact List.mem_cons_self
  | loop env condition body => exact absurd List.mem_cons_self other
  | each env body items =>
      cases items with
      | nil => trivial
      | cons item rest =>
          refine ⟨.inl (by simp [rank]), fun _ => ⟨.inr ⟨rfl, ?_⟩, fun _ => trivial⟩⟩
          simp [size]

/-! ### Evaluation comes to an end -/

/-- Whether some budget suffices for a task. -/
def Settles (st : Setting) (t : Task) (m : Machine) : Prop :=
  Run.Settles (fun fuel => t.run st fuel) m

/-- A task that has enough fuel is the same with more. -/
theorem rising_run (st : Setting) (t : Task) : Run.Rising fun fuel => t.run st fuel :=
  fun le => run_of_le le t

/-- A task comes to an end if its plan does. -/
theorem settles_of_plan {st : Setting} {t : Task} {m : Machine}
    (h : Run.Settles (fun fuel => (t.plan st).exec fun u => u.run st fuel) m) :
    t.Settles st m := by
  obtain ⟨fuel, enough⟩ := h
  refine ⟨fuel + 1, ?_⟩
  dsimp only
  rwa [run_succ]

end Task

section

variable {σ : Type} {D : Discipline σ} {n : σ} {st : Setting}

/-- A course that has enough fuel is the same with more. -/
theorem Course.rising_exec (st : Setting) {α : Type} (c : Course α) :
    Run.Rising fun fuel => c.exec fun u => u.run st fuel :=
  fun le => c.exec_below fun u => Task.run_of_le le u

variable (keeps : st.registry.Keeps D)

include keeps

/-- A course comes to an end if all that it may hand on does. -/
theorem Course.Within.settles {α : Type} {R : σ → α → Prop} {depth : Nat} {t : Task}
    {handsOn : Task → Prop} {c : Course α} (h : c.Within D R n)
    (steps : c.All (Task.Step st t) fun _ => True) (handed : c.All (fun _ => True) handsOn)
    (inside : ∀ u m n, handsOn u → u.Within D n → m.Within D n → m.depth = depth → u.Settles st m)
    {m : Machine} (within_ : m.Within D n) (level : m.depth = depth) :
    Run.Settles (fun fuel => c.exec fun u => u.run st fuel) m := by
  induction h generalizing m with
  | done result => exact ⟨0, fun short => by cases short⟩
  | @act n β S x next step _ ih =>
      refine Run.settles_bind (Run.rising_const x) (fun b => (next b).rising_exec st)
        (steps.1.prompt.settles m) fun fuel b m' hx => ?_
      have ends := step m within_
      have same := steps.1.level m
      rw [hx] at ends same
      cases ends with
      | ok later machine result =>
          exact ih _ later b result (steps.2 b) (handed.2 b) machine (same.trans level)
  | @sub n u next given _ ih =>
      refine Run.settles_bind (Task.rising_run st u) (fun a => (next a).rising_exec st)
        (inside u m n handed.1 given within_ level) fun fuel a m' hu => ?_
      dsimp only at hu
      have ends := Task.within_run keeps fuel given m within_
      have same := Task.level_run st fuel u m
      rw [hu] at ends same
      cases ends with
      | ok later machine result =>
          exact ih _ later a result (steps.2 a) (handed.2 a) machine (same.trans level)

omit keeps in
/-- A call of a function comes to an end if everything does one level deeper, where there is room
for it. -/
theorem Task.settles_closure {f : Closure} {vs : List Value} {m : Machine}
    (has : D.HasEach n vs) (within_ : m.Within D n)
    (deeper : ∀ (u : Task) (m' : Machine) (n' : σ), m.depth < st.maxDepth → u.Within D n' →
      m'.Within D n' → m'.depth = m.depth + 1 → u.Settles st m') :
    (closure f vs).Settles st m := by
  have begins : Step st (.closure f vs) (beginCall st f vs) := .begin
  have ends := within_beginCall st f has m within_
  refine settles_of_plan (Run.settles_bind (Run.rising_const (beginCall st f vs))
    (fun frame _ _ le => (run_of_le le _).deeper.absorbExit) (begins.prompt.settles m)
    fun fuel frame m' entered => Run.settles_call ?_)
  have level := begins.level m
  rw [entered] at ends level
  have room : m.depth < st.maxDepth := by
    rw [beginCall_apply] at entered
    split at entered
    · cases entered
    · split at entered
      · cases entered
      · next room => exact Nat.lt_of_not_le room
  cases ends with
  | ok later machine made =>
      -- the body runs a level deeper, in the frame that the call has made
      exact deeper _ m'.deeper _ room (within_block made (D.scalar rfl) f.body)
        ⟨machine.frames, machine.world⟩ (congrArg (· + 1) level)

/-- A call under a handler comes to an end if everything lighter does, the call of the handler
included. -/
theorem Task.settles_tryCatch {env : FrameId} {thunk handler : Value} {m : Machine}
    (h : (builtin env .tryCatch [thunk, handler]).Within D n) (within_ : m.Within D n)
    (lighter : ∀ (u : Task) (m' : Machine) (n' : σ),
      u.Lighter (builtin env .tryCatch [thunk, handler]) → u.Within D n' → m'.Within D n' →
      m'.depth = m.depth → u.Settles st m') :
    (builtin env .tryCatch [thunk, handler]).Settles st m := by
  have plan := within_plan keeps h
  have steps := plan_all st (builtin env .tryCatch [thunk, handler])
  have handed : (builtinPlan st env .tryCatch [thunk, handler]).All (fun _ => True)
      (·.Lighter (builtin env .tryCatch [thunk, handler])) :=
    builtinPlan_lighter env (by decide) [thunk, handler]
  cases plan with
  | attempt given handled =>
      refine settles_of_plan (Run.settles_catchFault (rising_run st _)
        (fun e => Course.rising_exec st _) (lighter _ m n handed.1 given within_ rfl)
        fun fuel e m' failed => ?_)
      have ends := within_run keeps fuel given m within_
      have level := level_run st fuel (.apply env thunk []) m
      dsimp only at failed
      rw [failed] at ends level
      cases ends with
      | stop later machine values =>
          exact (handled _ later e values).settles keeps ((steps.2 e).imp id fun _ => trivial)
            (handed.2 e) (fun u m' n' => lighter u m' n') machine level

/-- A task comes to an end if everything lighter does at its level, and everything does deeper down.
-/
theorem Task.settles_of_inside (never : ∀ n, ¬ D.Has n (.builtin .whileTrue)) {t : Task}
    {m : Machine} (h : t.Within D n) (within_ : m.Within D n)
    (lighter : ∀ (u : Task) (m' : Machine) (n' : σ), u.Lighter t → u.Within D n' →
      m'.Within D n' → m'.depth = m.depth → u.Settles st m')
    (deeper : ∀ (u : Task) (m' : Machine) (n' : σ), m.depth < st.maxDepth → u.Within D n' →
      m'.Within D n' → m'.depth = m.depth + 1 → u.Settles st m') : t.Settles st m := by
  rcases exists_steps st t with ⟨f, vs, rfl⟩ | ⟨env, thunk, handler, rfl⟩ | ⟨⟨c, hc⟩, -⟩
  · exact settles_closure (Discipline.hasEach_cons.mp h.values).2 within_ deeper
  · exact settles_tryCatch keeps h within_ lighter
  · have other : Value.builtin .whileTrue ∉ t.values := fun mem => never n (h.values _ mem)
    have plan := within_plan keeps h
    have steps := plan_all st t
    have handed := plan_lighter st other
    refine settles_of_plan ?_
    rw [hc] at plan steps handed ⊢
    -- all other tasks stay at their level, and hand on lighter ones only
    exact plan.course.settles keeps (steps.imp id fun _ => trivial) handed lighter within_ rfl

/-- **Evaluation comes to an end** without `while`, by induction on the room for calls and, where
there is as much of it, on the weight of tasks. -/
theorem Task.settles (never : ∀ n, ¬ D.Has n (.builtin .whileTrue)) {t : Task} {m : Machine}
    (h : t.Within D n) (within_ : m.Within D n) : t.Settles st m := by
  induction room : st.maxDepth - m.depth using Nat.strongRecOn generalizing t m n with
  | _ room ihDeeper =>
      induction t using lighter_wf.induction generalizing m n with
      | _ t ihLighter =>
          refine settles_of_inside keeps never h within_ ?_ ?_
          · intro u m' n' lighter given kept level
            exact ihLighter u lighter given kept (by rw [level, room])
          · intro u m' n' below given kept level
            exact ihDeeper _ (by omega) given kept rfl

end

end ScriptConsole
