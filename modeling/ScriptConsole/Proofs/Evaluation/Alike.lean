import ScriptConsole.Proofs.Evaluation.AlikeSteps
import ScriptConsole.Proofs.Evaluation.Plan

/-!
# Evaluation Does Not Look at Places

Where a piece of code stands in a source text matters to the errors of the parser only. Two tasks
that are the same up to the places of code take their own steps in step and hand on tasks that are
the same again; so evaluation of the one keeps in step with evaluation of the other, within the same
budget, by induction on the budget. The host must not look at places either (`Registry.Blind`).

## Main results

* `Expr.twins_of_shape_eq`: expressions of one shape, constructor by constructor.
* `Task.alike_run`: tasks that are the same up to places keep in step.
-/

namespace ScriptConsole

open Value (AlikeEach)
open Run (Alike)

/-! ### Expressions of one shape -/

/-- Whether two expressions are of one kind and have parts of one shape. -/
inductive Expr.Twins : Expr → Expr → Prop
  | literal (l : Literal) (s s' : Span) : Twins (.literal l s) (.literal l s')
  | var {name name' : Ident} : name.text = name'.text → Twins (.var name) (.var name')
  | assign {name name' : Ident} {value value' : Expr} {s s' : Span} :
      name.text = name'.text → value.shape = value'.shape →
      Twins (.assign name value s) (.assign name' value' s')
  | func {params params' : List Ident} {body body' : List Expr} {s s' : Span} :
      params.map Ident.text = params'.map Ident.text →
      body.map Expr.shape = body'.map Expr.shape →
      Twins (.func params body s) (.func params' body' s')
  | call {callee callee' : Expr} {args args' : List Expr} {s s' : Span} :
      callee.shape = callee'.shape → args.map Expr.shape = args'.map Expr.shape →
      Twins (.call callee args s) (.call callee' args' s')
  | hostPath {segments segments' : List Ident} {s s' : Span} :
      segments.map Ident.text = segments'.map Ident.text →
      Twins (.hostPath segments s) (.hostPath segments' s')
  | member {target target' : Expr} {name name' : Ident} {s s' : Span} :
      target.shape = target'.shape → name.text = name'.text →
      Twins (.member target name s) (.member target' name' s')
  | unary (op : UnaryOp) {operand operand' : Expr} {s s' : Span} :
      operand.shape = operand'.shape → Twins (.unary op operand s) (.unary op operand' s')
  | binary (op : BinaryOp) {left left' right right' : Expr} {s s' : Span} :
      left.shape = left'.shape → right.shape = right'.shape →
      Twins (.binary left op right s) (.binary left' op right' s')
  | paren {inner inner' : Expr} {s s' : Span} :
      inner.shape = inner'.shape → Twins (.paren inner s) (.paren inner' s')

/-- Names of one shape have one text. -/
theorem Ident.text_eq_of_shape_eq {a b : Ident} (h : a.shape = b.shape) : a.text = b.text :=
  (Ident.mk.inj h).1

/-- The same of several names. -/
theorem Ident.map_text_eq_of_shape_eq {as bs : List Ident}
    (h : as.map Ident.shape = bs.map Ident.shape) : as.map Ident.text = bs.map Ident.text := by
  have texts := congrArg (List.map Ident.text) h
  rwa [List.map_map, List.map_map] at texts

/-- Expressions of one shape are of one kind and have parts of one shape. -/
theorem Expr.twins_of_shape_eq {e e' : Expr} (h : e.shape = e'.shape) : e.Twins e' := by
  cases e with
  | literal l s =>
      cases e' with
      | literal l' s' =>
          obtain ⟨rfl, -⟩ := Expr.literal.inj h
          exact .literal l s s'
      | _ => cases h
  | var name =>
      cases e' with
      | var name' => exact .var (Ident.text_eq_of_shape_eq (Expr.var.inj h))
      | _ => cases h
  | assign name value s =>
      cases e' with
      | assign name' value' s' =>
          obtain ⟨names, values, -⟩ := Expr.assign.inj h
          exact .assign (Ident.text_eq_of_shape_eq names) values
      | _ => cases h
  | func params body s =>
      cases e' with
      | func params' body' s' =>
          obtain ⟨names, bodies, -⟩ := Expr.func.inj h
          rw [shapeEach_eq_map, shapeEach_eq_map] at bodies
          exact .func (Ident.map_text_eq_of_shape_eq names) bodies
      | _ => cases h
  | call callee args s =>
      cases e' with
      | call callee' args' s' =>
          obtain ⟨callees, argses, -⟩ := Expr.call.inj h
          rw [shapeEach_eq_map, shapeEach_eq_map] at argses
          exact .call callees argses
      | _ => cases h
  | hostPath segments s =>
      cases e' with
      | hostPath segments' s' =>
          exact .hostPath (Ident.map_text_eq_of_shape_eq (Expr.hostPath.inj h).1)
      | _ => cases h
  | member target name s =>
      cases e' with
      | member target' name' s' =>
          obtain ⟨targets, names, -⟩ := Expr.member.inj h
          exact .member targets (Ident.text_eq_of_shape_eq names)
      | _ => cases h
  | unary op operand s =>
      cases e' with
      | unary op' operand' s' =>
          obtain ⟨rfl, operands, -⟩ := Expr.unary.inj h
          exact .unary op operands
      | _ => cases h
  | binary left op right s =>
      cases e' with
      | binary left' op' right' s' =>
          obtain ⟨lefts, rfl, rights, -⟩ := Expr.binary.inj h
          exact .binary op lefts rights
      | _ => cases h
  | paren inner s =>
      cases e' with
      | paren inner' s' => exact .paren (Expr.paren.inj h).1
      | _ => cases h

/-! ### Tasks and plans in step -/

/-- Whether two tasks are the same up to the places of code; and how their results are then related.
-/
inductive Task.Alike : (t t' : Task) → (t.Result → t'.Result → Prop) → Prop
  | expr (env : FrameId) {e e' : Expr} :
      e.shape = e'.shape → Alike (.expr env e) (.expr env e') Value.Alike
  | arguments (env : FrameId) {es es' : List Expr} :
      es.map Expr.shape = es'.map Expr.shape →
      Alike (.arguments env es) (.arguments env es') AlikeEach
  | callExpr (env : FrameId) {callee callee' : Expr} {es es' : List Expr} :
      callee.shape = callee'.shape → es.map Expr.shape = es'.map Expr.shape →
      Alike (.callExpr env callee es) (.callExpr env callee' es') Value.Alike
  | block (env : FrameId) {last last' : Value} {body body' : List Expr} :
      last.Alike last' → body.map Expr.shape = body'.map Expr.shape →
      Alike (.block env last body) (.block env last' body') Value.Alike
  | apply (env : FrameId) {callee callee' : Value} {args args' : List Value} :
      callee.Alike callee' → AlikeEach args args' →
      Alike (.apply env callee args) (.apply env callee' args') Value.Alike
  | closure {f f' : Closure} {args args' : List Value} :
      f.shape = f'.shape → AlikeEach args args' →
      Alike (.closure f args) (.closure f' args') Value.Alike
  | builtin (env : FrameId) (b : Builtin) {args args' : List Value} :
      AlikeEach args args' → Alike (.builtin env b args) (.builtin env b args') Value.Alike
  | loop (env : FrameId) {condition condition' body body' : Value} :
      condition.Alike condition' → body.Alike body' →
      Alike (.loop env condition body) (.loop env condition' body') Value.Alike
  | each (env : FrameId) {body body' : Value} {items items' : List Value} :
      body.Alike body' → AlikeEach items items' →
      Alike (.each env body items) (.each env body' items') Value.Alike

/-- Whether two courses take steps in step and hand on tasks that are the same up to places. -/
inductive Course.Alike {α β : Type} (R : α → β → Prop) : Course α → Course β → Prop
  | done {a : α} {b : β} : R a b → Alike R (.done a) (.done b)
  | act {γ δ : Type} {S : γ → δ → Prop} {x : Run γ} {y : Run δ} {next : γ → Course α}
      {next' : δ → Course β} :
      Run.Alike S x y → (∀ {c d}, S c d → Alike R (next c) (next' d)) →
      Alike R (.act x next) (.act y next')
  | sub {t t' : Task} {S : t.Result → t'.Result → Prop} {next : t.Result → Course α}
      {next' : t'.Result → Course β} :
      t.Alike t' S → (∀ {a b}, S a b → Alike R (next a) (next' b)) →
      Alike R (.sub t next) (.sub t' next')

/-- Whether two plans do. -/
inductive Plan.Alike : {α β : Type} → (α → β → Prop) → Plan α → Plan β → Prop
  | steps {α β : Type} {R : α → β → Prop} {c : Course α} {d : Course β} :
      c.Alike R d → Alike R (.steps c) (.steps d)
  | call {x y : Run FrameId} {body body' : List Expr} :
      Run.Alike Eq x y → body.map Expr.shape = body'.map Expr.shape →
      Alike Value.Alike (.call x body) (.call y body')
  | attempt (env : FrameId) {thunk thunk' : Value} {handler handler' : EvalError → Course Value} :
      thunk.Alike thunk' →
      (∀ {e e' : EvalError}, e.Alike e' → (handler e).Alike Value.Alike (handler' e')) →
      Alike Value.Alike (.attempt env thunk handler) (.attempt env thunk' handler')

section exec

variable {run run' : (t : Task) → Run t.Result}
  (inside : ∀ {t t' : Task} {S : t.Result → t'.Result → Prop}, t.Alike t' S →
    Run.Alike S (run t) (run' t'))

include inside

/-- Alike courses come to the same if what they hand on does. -/
theorem Course.Alike.exec {α β : Type} {R : α → β → Prop} {c : Course α} {d : Course β}
    (h : c.Alike R d) : Run.Alike R (c.exec run) (d.exec run') := by
  induction h with
  | done h => exact .pure h
  | act first _ ih => exact first.bind ih
  | sub first _ ih => exact (inside first).bind ih

/-- So do alike plans. -/
theorem Plan.Alike.exec {α β : Type} {R : α → β → Prop} {p : Plan α} {q : Plan β}
    (h : p.Alike R q) : Run.Alike R (p.exec run) (q.exec run') := by
  cases h with
  | steps h => exact h.exec inside
  | call enter body =>
      refine enter.bind fun {frame frame'} same => ?_
      subst same
      exact (inside (.block frame rfl body)).deeper.absorbExit
  | attempt env thunk handler =>
      exact (inside (.apply env thunk rfl)).catchFault fun same => (handler same).exec inside

end exec

/-! ### The plans of tasks that are the same up to places -/

namespace Task

/-- Last steps are alike if their runs are. -/
theorem alike_lastly {α β : Type} {R : α → β → Prop} {x : Run α} {y : Run β}
    (h : Run.Alike R x y) : (lastly x).Alike R (lastly y) :=
  .act h .done

/-- A task whose result is that of another. -/
theorem alike_through {t t' : Task} {S : t.Result → t'.Result → Prop} (h : t.Alike t' S) :
    (Course.sub t .done).Alike S (.sub t' .done) :=
  .sub h .done

variable {st : Setting}

section host

variable (blind : st.registry.Blind)

include blind

/-- Expressions of one shape have alike courses. -/
theorem alike_exprCourse (env : FrameId) {e e' : Expr} (h : e.shape = e'.shape) :
    (exprCourse st env e).Alike Value.Alike (exprCourse st env e') := by
  cases Expr.twins_of_shape_eq h with
  | literal l => exact .done rfl
  | var same =>
      simp only [exprCourse, same]
      exact alike_lastly (alike_lookupName env _)
  | assign same value =>
      simp only [exprCourse, same]
      exact .sub (.expr env value) fun same => alike_lastly (alike_defineName env _ same)
  | func params body =>
      simp only [exprCourse, params]
      refine alike_lastly (.onWorld fun alike => ?_)
      exact ⟨(alike.newFunction _ body env).value, (alike.newFunction _ body env).world⟩
  | call callee args => exact alike_through (.callExpr env callee args)
  | hostPath same =>
      simp only [exprCourse, same]
      exact alike_lastly (HostAccess.alike_readPath blind _)
  | member target same =>
      simp only [exprCourse, same]
      exact .sub (.expr env target) fun same => alike_lastly (HostAccess.alike_member blind same _)
  | unary op operand =>
      refine .sub (.expr env operand) fun same => alike_lastly (Run.alike_ofExcept ?_)
      rw [same.unary_eq]
  | binary op left right =>
      refine .sub (.expr env left) fun {a a'} first => ?_
      have decided : shortCircuit? op a = shortCircuit? op a' := by
        unfold shortCircuit?
        rw [first.truthy_eq]
      rw [decided]
      split
      · exact .done rfl
      · exact .sub (.expr env right) fun second =>
          alike_lastly (alike_applyBinary blind op first second)
  | paren inner => exact alike_through (.expr env inner)

omit blind in
/-- So do arguments. -/
theorem alike_argumentsCourse (env : FrameId) {es es' : List Expr}
    (h : es.map Expr.shape = es'.map Expr.shape) :
    (argumentsCourse env es).Alike AlikeEach (argumentsCourse env es') := by
  cases es with
  | nil =>
      cases es' with
      | nil => exact .done rfl
      | cons => cases h
  | cons e rest =>
      cases es' with
      | nil => cases h
      | cons e' rest' =>
          obtain ⟨first, others⟩ := List.cons.inj h
          exact .sub (.expr env first) fun v => .sub (.arguments env others) fun vs =>
            .done (v.cons vs)

/-- So do calls. -/
theorem alike_callExprCourse (env : FrameId) {callee callee' : Expr} {args args' : List Expr}
    (h : callee.shape = callee'.shape) (same : args.map Expr.shape = args'.map Expr.shape) :
    (callExprCourse st env callee args).Alike Value.Alike
      (callExprCourse st env callee' args') := by
  have valued : (Course.sub (.expr env callee) fun f => .sub (.arguments env args) fun args =>
      .sub (.apply env f args) .done).Alike Value.Alike
      (.sub (.expr env callee') fun f => .sub (.arguments env args') fun args =>
        .sub (.apply env f args) .done) :=
    .sub (.expr env h) fun f => .sub (.arguments env same) fun vs => alike_through (.apply env f vs)
  cases Expr.twins_of_shape_eq h with
  | member target names =>
      simp only [callExprCourse, names]
      exact .sub (.expr env target) fun v => .sub (.arguments env same) fun vs =>
        alike_lastly (HostAccess.alike_invoke blind v _ vs)
  | hostPath names =>
      simp only [callExprCourse, names]
      refine .act (Run.alike_ofExcept_eq _) fun {found _} eq => ?_
      subst eq
      exact .sub (.arguments env same) fun vs =>
        alike_lastly (HostAccess.alike_callPath blind _ _ vs)
  | _ => exact valued

omit blind in
/-- So do statements. -/
theorem alike_blockCourse (env : FrameId) {last last' : Value} {body body' : List Expr}
    (h : last.Alike last') (same : body.map Expr.shape = body'.map Expr.shape) :
    (blockCourse env last body).Alike Value.Alike (blockCourse env last' body') := by
  cases body with
  | nil =>
      cases body' with
      | nil => exact .done h
      | cons => cases same
  | cons e rest =>
      cases body' with
      | nil => cases same
      | cons e' rest' =>
          obtain ⟨first, others⟩ := List.cons.inj same
          exact .sub (.expr env first) fun v => alike_through (.block env v others)

/-- So do applications to alike values. -/
theorem alike_applyCourse (env : FrameId) {callee callee' : Value} {args args' : List Value}
    (h : callee.Alike callee') (same : AlikeEach args args') :
    (applyCourse st env callee args).Alike Value.Alike (applyCourse st env callee' args') := by
  unfold applyCourse
  rcases h.cases with ⟨_, _, _, rfl, rfl, -⟩ | ⟨f, f', rfl, rfl, shapes⟩ | rfl
  · exact alike_lastly (.fault _)
  · exact alike_through (.closure shapes same)
  · cases callee with
    | function f => exact alike_through (.closure rfl same)
    | builtin b =>
        simp only [same.length_eq]
        split
        · exact alike_through (.builtin env b same)
        · exact alike_lastly (.fault _)
    | hostClass ref => exact alike_lastly (HostAccess.alike_construct blind ref same)
    | _ => exact alike_lastly (.fault _)

/-- Alike errors become alike values. -/
theorem alike_caughtValue {e e' : EvalError} (h : e.Alike e') :
    Run.Alike Value.Alike (caughtValue st e) (caughtValue st e') := by
  cases h with
  | thrown same => exact .pure same
  | same e =>
      have wrapped : Run.Alike Value.Alike (.onWorld (st.registry.errorObject e))
          (.onWorld (st.registry.errorObject e)) := by
        refine .onWorld fun {w w'} alike => ?_
        unfold Registry.errorObject
        rw [blind.legend_eq alike]
        exact ⟨(alike.newObject _ rfl).value, (alike.newObject _ rfl).world⟩
      cases e with
      | thrown v => exact .pure rfl
      | _ => exact wrapped

/-- Builtins with alike arguments have alike plans. -/
theorem alike_builtinPlan (env : FrameId) (b : Builtin) {args args' : List Value}
    (h : AlikeEach args args') :
    (builtinPlan st env b args).Alike Value.Alike (builtinPlan st env b args') := by
  have plain : (Plan.steps (lastly (Plain.apply st.registry env b args))).Alike Value.Alike
      (.steps (lastly (Plain.apply st.registry env b args'))) :=
    .steps (alike_lastly (Plain.alike_apply blind env b h))
  -- Which builtins call back depends on the number of arguments too.
  rcases h.forall₂ with _ | ⟨first, _ | ⟨second, _ | ⟨third, _ | ⟨_, _⟩⟩⟩⟩
  · cases b with
    | _ => exact plain
  · cases b with
    | _ => exact plain
  · cases b with
    | ifTrue =>
        simp only [builtinPlan, first.truthy_eq]
        refine .steps ?_
        split
        · exact alike_through (.apply env second rfl)
        · exact .done rfl
    | whileTrue => exact .steps (alike_through (.loop env first second))
    | forEach =>
        exact .steps (.act (Plain.alike_elements blind first) fun items =>
          alike_through (.each env second items))
    | tryCatch =>
        exact .attempt env first fun same => .act (alike_caughtValue blind same) fun caught =>
          alike_through (.apply env second (caught.cons rfl))
    | _ => exact plain
  · cases b with
    | ifElse =>
        refine .steps (alike_through (.apply env ?_ rfl))
        rw [first.truthy_eq]
        split
        · exact second
        · exact third
    | _ => exact plain
  · cases b with
    | _ => exact plain

end host

/-- Parameters are bound alike. -/
theorem alike_bindAll {fs fs' : Frames} (h : fs.Alike fs') (frame : FrameId) (params : List String)
    {args args' : List Value} (same : AlikeEach args args') :
    (bindAll fs frame params args).Alike (bindAll fs' frame params args') := by
  induction params generalizing fs fs' args args' with
  | nil => exact h
  | cons name names ih =>
      rcases same.forall₂ with _ | ⟨first, rest⟩
      · exact h
      · exact ih (h.define frame name first) (List.cons.inj same).2

/-- Closures of one shape are entered alike. -/
theorem alike_enter {f f' : Closure} (h : f.shape = f'.shape) {args args' : List Value}
    (same : AlikeEach args args') : Run.Alike Eq (enter f args) (enter f' args') := by
  obtain ⟨-, params, -, frame⟩ := Closure.mk.inj h
  refine .onFrames fun {fs fs'} alike => ?_
  rw [params, frame]
  have child := alike.newChild f'.frame
  exact ⟨child.1, by
    dsimp only
    rw [child.1]
    exact alike_bindAll child.2 _ _ same⟩

/-- Their calls begin alike. -/
theorem alike_beginCall {f f' : Closure} (h : f.shape = f'.shape) {args args' : List Value}
    (same : AlikeEach args args') :
    Run.Alike Eq (beginCall st f args) (beginCall st f' args') := by
  obtain ⟨-, params, -, -⟩ := Closure.mk.inj h
  have described : f.describe = f'.describe := by rw [Closure.describe, params, Closure.describe]
  unfold beginCall
  rw [same.length_eq, described, params]
  split
  · exact .fault _
  · refine (Run.Alike.look (R := Eq) fun alike => alike.depth).bind fun {depth _} eq => ?_
    subst eq
    split
    · exact .fault _
    · exact alike_enter h same

/-- Rounds of `while` are alike. -/
theorem alike_loopCourse (env : FrameId) {condition condition' body body' : Value}
    (h : condition.Alike condition') (same : body.Alike body') :
    (loopCourse env condition body).Alike Value.Alike (loopCourse env condition' body') := by
  refine .sub (.apply env h rfl) fun {c c'} decided => ?_
  rw [decided.truthy_eq]
  split
  · exact .sub (.apply env same rfl) fun _ => alike_through (.loop env h same)
  · exact .done rfl

/-- So are rounds of `forEach`. -/
theorem alike_eachCourse (env : FrameId) {body body' : Value} {items items' : List Value}
    (h : body.Alike body') (same : AlikeEach items items') :
    (eachCourse env body items).Alike Value.Alike (eachCourse env body' items') := by
  rcases same.forall₂ with _ | ⟨first, rest⟩
  · exact .done rfl
  · exact .sub (.apply env h (first.cons rfl)) fun _ =>
      alike_through (.each env h (List.cons.inj same).2)

variable (blind : st.registry.Blind)

include blind

/-- Tasks that are the same up to places have plans in step. -/
theorem alike_plan {t t' : Task} {S : t.Result → t'.Result → Prop} (h : t.Alike t' S) :
    (t.plan st).Alike S (t'.plan st) := by
  cases h with
  | expr env h => exact .steps (alike_exprCourse blind env h)
  | arguments env h => exact .steps (alike_argumentsCourse env h)
  | callExpr env h same => exact .steps (alike_callExprCourse blind env h same)
  | block env h same => exact .steps (alike_blockCourse env h same)
  | apply env h same => exact .steps (alike_applyCourse blind env h same)
  | closure h same => exact .call (alike_beginCall h same) (Closure.mk.inj h).2.2.1
  | builtin env b h => exact alike_builtinPlan blind env b h
  | loop env h same => exact .steps (alike_loopCourse env h same)
  | each env h same => exact .steps (alike_eachCourse env h same)

/-- Tasks that are the same up to places keep in step, within the same budget. -/
theorem alike_run (fuel : Nat) {t t' : Task} {S : t.Result → t'.Result → Prop} (h : t.Alike t' S) :
    Run.Alike S (t.run st fuel) (t'.run st fuel) := by
  induction fuel generalizing t t' with
  | zero =>
      rw [run_zero, run_zero]
      exact .stop .exhausted
  | succ fuel ih =>
      rw [run_succ, run_succ]
      exact (alike_plan blind h).exec ih

end Task

end ScriptConsole
