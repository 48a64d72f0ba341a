import ScriptConsole.Proofs.Evaluation.Depth

/-!
# Builtins Get the Arguments They Take

The body of a builtin gets at its arguments by their positions (`Builtin.accesses`), and a position
behind the last argument would be out of bounds. There is one way to the body of a builtin, and the
number of arguments is checked on it. So whatever is evaluated, each builtin that starts has got a
number of arguments that its arity accepts (`Task.Accepted`); every position is then within bounds,
and nothing gets stuck.

## Main results

* `Builtin.exists_values`: an accepted number of arguments has all the positions.
* `Task.plan_of_values?_eq_none`: where a position is out of bounds, evaluation is stuck.
* `Task.smooth_run`: no evaluation gets stuck.
* `accepted_of_mem`: whatever starts in a history has been accepted.
-/

namespace ScriptConsole

/-! ### Positions -/

/-- How a builtin gets at an argument: it looks at the one at a position, or it takes it out, so
that those behind move up. -/
inductive Access where
  | look (i : Nat)
  | take (i : Nat)

/-- The values that a builtin gets at; none if a position is out of bounds. -/
def Access.values? : List Access → List Value → Option (List Value)
  | [], _ => some []
  | look i :: rest, args =>
    match args[i]? with
    | some v => (values? rest args).map (v :: ·)
    | none => none
  | take i :: rest, args =>
    match args[i]? with
    | some v => (values? rest (args.eraseIdx i)).map (v :: ·)
    | none => none

namespace Builtin

/-- The positions at which a builtin gets at its arguments, in the order in which it does. Those
that go through all of their arguments need no positions. -/
def accesses : Builtin → List Access
  | print | list | exit | locals | globals => []
  | throw => [.take 0]
  | negation | isNull | isClass | isBound | getGlobal | getParentVar | display | typeOf | length =>
    [.look 0]
  | ifElse => [.look 0, .look 1, .look 2]
  | exitMany => [.look 0, .take 1]
  | setGlobal => [.take 1, .look 0]
  | get => [.look 1, .look 0]
  | ifTrue | whileTrue | forEach | range | tryCatch | both | either | eql => [.look 0, .look 1]

/-- Arguments that the arity of a builtin accepts are as many as the builtin gets at. -/
theorem exists_values {b : Builtin} {args : List Value}
    (h : b.arity.accepts args.length = true) : ∃ vs, Access.values? b.accesses args = some vs := by
  match args with
  | [] | [_] | [_, _] => cases b <;> first | exact ⟨_, rfl⟩ | cases h
  | _ :: _ :: _ :: _ => cases b <;> exact ⟨_, rfl⟩

end Builtin

/-- Where a position is out of bounds, evaluation is stuck. -/
theorem Task.plan_of_values?_eq_none (st : Setting) (env : FrameId) {b : Builtin}
    {args : List Value} (h : Access.values? b.accesses args = none) :
    (Task.builtin env b args).plan st = .steps (Task.lastly (.stop .stuck)) := by
  match args with
  | [] | [_] | [_, _] => cases b <;> first | rfl | cases h
  | _ :: _ :: _ :: _ => cases b <;> cases h

/-! ### Runs that do not get stuck -/

/-- A run that does not get stuck. -/
def Run.Smooth {α : Type} (x : Run α) : Prop := ∀ m, (x m).1 ≠ .error .stuck

namespace Run

variable {α β : Type}

/-- A result does not get stuck. -/
theorem smooth_pure (a : α) : (pure a : Run α).Smooth := fun _ => nofun

/-- Neither do smooth runs one after the other. -/
theorem Smooth.bind {x : Run α} {f : α → Run β} (hx : x.Smooth) (hf : ∀ a, (f a).Smooth) :
    (x >>= f).Smooth := by
  intro m h
  rw [bind_apply] at h
  rcases hm : x m with ⟨s | a, m'⟩ <;> rw [hm] at h
  · exact hx m (by rw [hm]; exact congrArg Except.error (Except.error.inj h))
  · exact hf a m' h

/-- A quiet run is smooth. -/
theorem Quiet.smooth {x : Run α} (h : x.Quiet) : x.Smooth := fun m stuck => by
  obtain ⟨e, he⟩ := (h m).stop _ stuck
  cases he

/-- So is what is done with the frames. -/
theorem smooth_onFrames (f : Frames → α × Frames) : (onFrames f).Smooth := fun _ => nofun

/-- So are a failed run and its handler. -/
theorem Smooth.catchFault {x : Run α} {handler : EvalError → Run α} (hx : x.Smooth)
    (hh : ∀ e, (handler e).Smooth) : (x.catchFault handler).Smooth := by
  intro m h
  unfold Run.catchFault at h
  split at h
  · exact hh _ _ h
  · exact hx m h

/-- So is a call of what is smooth. -/
theorem Smooth.call {x : Run Value} (hx : x.Smooth) : x.deeper.absorbExit.Smooth := by
  intro m h
  unfold Run.absorbExit at h
  split at h
  · split at h <;> cases h
  · exact hx m.deeper h

end Run

namespace Plain

/-- A builtin that calls nothing back and gets the arguments it takes does not get stuck. -/
theorem smooth_apply (registry : Registry) (env : FrameId) {b : Builtin} {args : List Value}
    (accepted : b.arity.accepts args.length = true) (plain : b.callsBack = false) :
    (apply registry env b args).Smooth := by
  rcases apply_cases registry env b args with simple | ⟨a, v, rfl, rfl⟩ | ⟨v, _, exit⟩ |
    ⟨d, v, rfl, rfl⟩ | ⟨-, stuck⟩
  · exact simple.quiet.smooth
  · exact (simple_nameArgument _ a).quiet.smooth.bind fun name => Run.smooth_onFrames _
  · rw [exit]
    exact fun _ => nofun
  · exact (simple_exitDepth d).quiet.smooth.bind fun depth _ => nofun
  · exact absurd (plain.symm.trans (stuck accepted)) Bool.false_ne_true

end Plain

/-! ### What is accepted stays smooth -/

namespace Task

/-- Whether a task, if it is a builtin, has got a number of arguments that the builtin takes. -/
def Accepted : Task → Prop
  | builtin _ b args => b.arity.accepts args.length = true
  | _ => True

variable {st : Setting}

/-- A builtin that calls nothing back is one step. -/
theorem builtinPlan_of_plain (env : FrameId) {b : Builtin} (plain : b.callsBack = false)
    (args : List Value) :
    builtinPlan st env b args = .steps (lastly (Plain.apply st.registry env b args)) := by
  cases b <;> first | rfl | cases plain

/-- A builtin with as many arguments as it accepts goes on smoothly. -/
theorem builtinPlan_accepted (env : FrameId) {b : Builtin} {args : List Value}
    (accepted : b.arity.accepts args.length = true) :
    (builtinPlan st env b args).All (fun x => x.Smooth) Accepted := by
  cases plain : b.callsBack with
  | false =>
      rw [builtinPlan_of_plain env plain]
      exact lastly_all (Plain.smooth_apply _ _ accepted plain)
  | true =>
      rcases args with _ | ⟨first, _ | ⟨second, _ | ⟨third, _ | ⟨fourth, rest⟩⟩⟩⟩
      · cases b <;> cases plain <;> cases accepted
      · cases b <;> cases plain <;> cases accepted
      · cases b with
        | ifTrue =>
            simp only [builtinPlan, Plan.All]
            split
            · exact ⟨trivial, fun _ => trivial⟩
            · trivial
        | whileTrue => exact ⟨trivial, fun _ => trivial⟩
        | forEach =>
            exact ⟨(Plain.simple_elements _ _).quiet.smooth, fun items =>
              ⟨trivial, fun _ => trivial⟩⟩
        | tryCatch =>
            exact ⟨trivial, fun e => ⟨(simple_caughtValue e).quiet.smooth, fun caught =>
              ⟨trivial, fun _ => trivial⟩⟩⟩
        | _ => cases plain <;> cases accepted
      · cases b with
        | ifElse => exact ⟨trivial, fun _ => trivial⟩
        | _ => cases plain <;> cases accepted
      · cases b <;> cases plain <;> cases accepted

/-- An expression goes on to accepted tasks only. -/
theorem exprCourse_accepted (env : FrameId) (e : Expr) :
    (exprCourse st env e).All (fun x => x.Smooth) Accepted := by
  cases e with
  | literal l span => trivial
  | var name => exact lastly_all (simple_lookupName env name.text).quiet.smooth
  | assign name value span => exact ⟨trivial, fun v => lastly_all (Run.smooth_onFrames _)⟩
  | func params body span => exact lastly_all (Run.Simple.onWorld _).quiet.smooth
  | call callee args span => exact ⟨trivial, fun _ => trivial⟩
  | hostPath segments span => exact lastly_all (HostAccess.simple_readPath _ _).quiet.smooth
  | member target name span =>
      exact ⟨trivial, fun v => lastly_all (HostAccess.simple_member _ v _).quiet.smooth⟩
  | unary op operand span =>
      exact ⟨trivial, fun v => lastly_all (Run.simple_ofExcept _).quiet.smooth⟩
  | binary left op right span =>
      refine ⟨trivial, fun a => ?_⟩
      dsimp only
      split
      · trivial
      · exact ⟨trivial, fun b => lastly_all (simple_applyBinary _ op a b).quiet.smooth⟩
  | paren inner span => exact ⟨trivial, fun _ => trivial⟩

/-- A call goes on to accepted tasks only. -/
theorem callExprCourse_accepted (env : FrameId) (callee : Expr) (args : List Expr) :
    (callExprCourse st env callee args).All (fun x => x.Smooth) Accepted := by
  unfold callExprCourse
  split
  · exact ⟨trivial, fun target => ⟨trivial, fun args =>
      lastly_all (HostAccess.quiet_invoke _ target _ args).smooth⟩⟩
  · exact ⟨(Run.simple_ofExcept _).quiet.smooth, fun _ => ⟨trivial, fun args =>
      lastly_all (HostAccess.quiet_callPath _ _ _ args).smooth⟩⟩
  · exact ⟨trivial, fun f => ⟨trivial, fun args => ⟨trivial, fun _ => trivial⟩⟩⟩

/-- The one way to a builtin: the number of arguments is checked. -/
theorem applyCourse_accepted (env : FrameId) (callee : Value) (args : List Value) :
    (applyCourse st env callee args).All (fun x => x.Smooth) Accepted := by
  unfold applyCourse
  split
  · exact ⟨trivial, fun _ => trivial⟩
  · split
    · next accepted => exact ⟨accepted, fun _ => trivial⟩
    · exact lastly_all (Run.quiet_fault _).smooth
  · exact lastly_all (HostAccess.quiet_construct _ _ args).smooth
  · exact lastly_all (Run.quiet_fault _).smooth

/-- The beginning of a call is smooth. -/
theorem smooth_beginCall (f : Closure) (args : List Value) : (beginCall st f args).Smooth := by
  intro m
  rw [beginCall_apply]
  split
  · exact nofun
  · split <;> exact nofun

/-- A task that is accepted takes steps that do not get stuck and hands on what is accepted. -/
theorem plan_accepted {t : Task} (accepted : t.Accepted) :
    (t.plan st).All (fun x => x.Smooth) Accepted := by
  cases t with
  | expr env e => exact exprCourse_accepted env e
  | arguments env es =>
      cases es with
      | nil => trivial
      | cons e rest => exact ⟨trivial, fun v => ⟨trivial, fun vs => trivial⟩⟩
  | callExpr env callee es => exact callExprCourse_accepted env callee es
  | block env last body =>
      cases body with
      | nil => trivial
      | cons e rest => exact ⟨trivial, fun v => ⟨trivial, fun _ => trivial⟩⟩
  | apply env callee vs => exact applyCourse_accepted env callee vs
  | closure f vs => exact smooth_beginCall f vs
  | builtin env b vs => exact builtinPlan_accepted env accepted
  | loop env condition body =>
      refine ⟨trivial, fun c => ?_⟩
      dsimp only
      split
      · exact ⟨trivial, fun _ => ⟨trivial, fun _ => trivial⟩⟩
      · trivial
  | each env body items =>
      cases items with
      | nil => trivial
      | cons item rest => exact ⟨trivial, fun _ => ⟨trivial, fun _ => trivial⟩⟩

end Task

/-- A plan is smooth if what it hands on is. -/
theorem Plan.smooth_exec {α : Type} {run : (t : Task) → Run t.Result} {p : Plan α}
    (inside : ∀ u, u.Accepted → (run u).Smooth)
    (every : p.All (fun x => x.Smooth) Task.Accepted) : (p.exec run).Smooth := by
  have course : ∀ {β : Type} {c : Course β}, c.All (fun x => x.Smooth) Task.Accepted →
      (c.exec run).Smooth := fun every =>
    Course.exec_of_all Run.smooth_pure Run.Smooth.bind (every.imp id fun {u} => inside u)
  cases p with
  | steps c => exact course every
  | call enter body =>
      exact Run.Smooth.bind every fun frame => (inside (.block frame .null body) trivial).call
  | attempt env thunk handler =>
      exact (inside _ every.1).catchFault fun e => course (every.2 e)

/-- No evaluation of what is accepted gets stuck, by induction on the budget. -/
theorem Task.smooth_run (st : Setting) (fuel : Nat) {t : Task} (accepted : t.Accepted) :
    (t.run st fuel).Smooth := by
  induction fuel generalizing t with
  | zero =>
      rw [run_zero]
      exact fun _ => nofun
  | succ fuel ih =>
      rw [run_succ]
      exact Plan.smooth_exec (fun u => ih) (plan_accepted accepted)

/-! ### Everything in a history is accepted -/

section

variable {st : Setting} {fuel : Nat} {ctx : List Task} {t : Task} {m : Machine} {e : Event}

/-- An event of a course is one of a task that it hands on. -/
theorem Course.exists_of_mem_log {α : Type} {run : (t : Task) → Run t.Result}
    {history : Task → Machine → List Event} {step : {β : Type} → Run β → Prop}
    {handsOn : Task → Prop} {c : Course α} (every : c.All step handsOn)
    (h : e ∈ c.log run history m) : ∃ u m', handsOn u ∧ e ∈ history u m' := by
  induction c generalizing m with
  | done a => cases h
  | act x next ih =>
      simp only [log] at h
      split at h
      · exact ih _ (every.2 _) h
      · cases h
  | sub t next ih =>
      simp only [log, List.mem_append] at h
      rcases h with h | h
      · exact ⟨t, m, every.1, h⟩
      · split at h
        · exact ih _ (every.2 _) h
        · cases h

/-- The same of a plan, whose body may be a task of its own. -/
theorem Plan.exists_of_mem_log {α : Type} {run : (t : Task) → Run t.Result}
    {history : Task → Machine → List Event} {step : {β : Type} → Run β → Prop}
    {handsOn : Task → Prop} {p : Plan α} (every : p.All step handsOn)
    (body : ∀ frame last es, handsOn (.block frame last es)) (h : e ∈ p.log run history m) :
    ∃ u m', handsOn u ∧ e ∈ history u m' := by
  cases p with
  | steps c => exact Course.exists_of_mem_log every h
  | call enter es =>
      simp only [log] at h
      split at h
      · exact ⟨_, _, body _ _ _, h⟩
      · cases h
  | attempt env thunk handler =>
      simp only [log, List.mem_append] at h
      rcases h with h | h
      · exact ⟨_, m, every.1, h⟩
      · split at h
        · exact Course.exists_of_mem_log (every.2 _) h
        · cases h

/-- Whatever starts or stops in the history of what is accepted is accepted as well. -/
theorem accepted_of_mem (accepted : t.Accepted) (h : e ∈ history st fuel ctx t m) :
    e.task.Accepted := by
  induction fuel generalizing ctx t m with
  | zero =>
      simp only [history, List.mem_cons, List.not_mem_nil, or_false] at h
      rcases h with rfl | rfl <;> exact accepted
  | succ fuel ih =>
      simp only [history, List.mem_cons, List.mem_append, List.not_mem_nil, or_false] at h
      rcases h with rfl | h | rfl
      · exact accepted
      · obtain ⟨u, m', handed, mem⟩ :=
          Plan.exists_of_mem_log (Task.plan_accepted accepted) (fun _ _ _ => trivial) h
        exact ih handed mem
      · exact accepted

/-- Nothing gets stuck in the history of what is accepted. -/
theorem outcome_ne_stuck (accepted : t.Accepted) {ctx' : List Task} {u : Task}
    {outcome : Except Stop u.Result} {m' : Machine}
    (h : .stop ctx' u outcome m' ∈ history st fuel ctx t m) : outcome ≠ .error .stuck := by
  rintro rfl
  obtain ⟨fuel', m'', run⟩ := run_of_stop_mem h
  have smooth := Task.smooth_run st fuel' (accepted_of_mem accepted h) m''
  exact smooth (congrArg Prod.fst run)

end

end ScriptConsole
