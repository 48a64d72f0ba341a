import ScriptConsole.Host.Demo
import ScriptConsole.Proofs.Evaluation.Budget
import ScriptConsole.Proofs.Host.Callables
import ScriptConsole.Proofs.Host.Paths
import ScriptConsole.Session

/-!
# Calls of Paths

A method of a host class can be called in two spellings: `.a.B.f.m(x)` calls a path, and
`(.a.B.f).m(x)` a member of what a path stands for. Both find the same class, and take the same way
through the static fields behind it. But they do not take it at the same time: the path is followed
to its end before the arguments are evaluated in the second spelling, and after that in the first.

The two come to the same wherever the way leads to a value in every world. If it leads to an error,
the arguments are evaluated in the first spelling and not in the second.

## Main results

* `HostAccess.members_of_leads`: the way through members as a step of evaluation.
* `evalExpr_wholeCallee`, `evalExpr_splitCallee`: what the two spellings do, in their order.
* `called_path_spellings`: **calls of paths**: how far the spellings agree.
-/

namespace ScriptConsole

/-- A computation aside that succeeds is its result. -/
@[simp] theorem Run.ofExcept_ok {α : Type} (a : α) : ofExcept (.ok a) = pure a := rfl

namespace HostAccess

variable {r : Registry} {v : Value} {result : Except EvalError Value}

/-- A member whose reading looks at nothing is what it holds. -/
theorem member_of_reads {name : String} (h : r.Reads v name result) :
    member r v name = .ofExcept result := by
  funext m
  rw [member, Run.bind_apply, Run.onWorld, h m.world]

/-- So is a member of members, by induction on the path. -/
theorem members_of_leads {names : List String} (h : r.Leads v names result) :
    members r v names = .ofExcept result := by
  induction h with
  | arrived v => rfl
  | through reads _ ih => rw [members, member_of_reads reads, Run.ofExcept_ok, pure_bind, ih]
  | failed reads =>
      rw [members, member_of_reads reads]
      rfl

end HostAccess

/-! ### What an expression comes to -/

/-- What evaluation of an expression comes to within every budget that is great enough. -/
def Expr.ComesTo (st : Setting) (env : FrameId) (e : Expr) (m : Machine)
    (out : Except Stop Value × Machine) : Prop :=
  out.1 ≠ .error .exhausted ∧ ∃ fuel, evalExpr st fuel env e m = out

section

variable {st : Setting} {env : FrameId} {e e' : Expr} {m : Machine}
  {out : Except Stop Value × Machine}

/-- An expression comes to what another one does that takes other fuel. -/
theorem Expr.ComesTo.of_add {k : Nat}
    (same : ∀ fuel, evalExpr st (fuel + k) env e m = evalExpr st (fuel + k) env e' m)
    (h : e.ComesTo st env m out) : e'.ComesTo st env m out := by
  obtain ⟨enough, fuel, rfl⟩ := h
  have grown : (evalExpr st fuel env e).Below (evalExpr st (fuel + k) env e) :=
    Task.run_of_le (Nat.le_add_right fuel k) (.expr env e)
  refine ⟨enough, fuel + k, ?_⟩
  rcases grown m with short | more
  · exact absurd short enough
  · exact (same fuel).symm.trans more.symm

/-- Expressions that come to the same within all budgets from one on come to the same. -/
theorem Expr.comesTo_iff_of_add {k : Nat}
    (same : ∀ fuel, evalExpr st (fuel + k) env e m = evalExpr st (fuel + k) env e' m) :
    e.ComesTo st env m out ↔ e'.ComesTo st env m out :=
  ⟨.of_add same, .of_add fun fuel => (same fuel).symm⟩

end

/-! ### The two spellings -/

/-- The callee `.a.B.f.m`, as one path. -/
inductive Expr.IsWhole (names : List String) (last : String) : Expr → Prop
  | path {segments : List Ident} {span : Span} :
      segments.map Ident.text = names ++ [last] → IsWhole names last (.hostPath segments span)

/-- The callee `(.a.B.f).m`, as a member of a path. -/
inductive Expr.IsSplit (names : List String) (last : String) : Expr → Prop
  | member {segments : List Ident} {name : Ident} {span outer whole : Span} :
      segments.map Ident.text = names → name.text = last →
      IsSplit names last (.member (.paren (.hostPath segments span) outer) name whole)

/-- A call that evaluates its arguments before it follows its path. -/
def HostAccess.argumentsFirst (r : Registry) (path : Run Value) (arguments : Run (List Value))
    (last : String) : Run Value := do
  let vs ← arguments
  let target ← path
  invoke r target last vs

/-- A call that follows its path before it evaluates its arguments. -/
def HostAccess.pathFirst (r : Registry) (path : Run Value) (arguments : Run (List Value))
    (last : String) : Run Value := do
  let target ← path
  let vs ← arguments
  invoke r target last vs

namespace HostAccess

variable (r : Registry) (arguments : Run (List Value)) (last : String)

/-- The order does not matter if the path stands for a value, -/
theorem argumentsFirst_ok (target : Value) :
    argumentsFirst r (.ofExcept (.ok target)) arguments last =
      pathFirst r (.ofExcept (.ok target)) arguments last := rfl

/-- and if there are no arguments. -/
theorem argumentsFirst_nil (path : Run Value) :
    argumentsFirst r path (pure []) last = pathFirst r path (pure []) last := rfl

/-- If the path comes to an error, the arguments are evaluated only if they come first. -/
theorem argumentsFirst_error (e : EvalError) :
    argumentsFirst r (.ofExcept (.error e)) arguments last =
      (arguments >>= fun _ => .fault e) := rfl

/-- A path that leads nowhere is an error before any argument. -/
theorem pathFirst_error (e : EvalError) :
    pathFirst r (.ofExcept (.error e)) arguments last = .fault e := rfl

end HostAccess

section

variable {st : Setting} {names : List String} {last : String} {callee : Expr} {ref : ClassRef}
  {used : Nat}

open HostAccess

/-- The first spelling evaluates the arguments first. -/
theorem evalExpr_wholeCallee (whole : callee.IsWhole names last)
    (resolved : st.registry.resolvePath (names ++ [last]) = .ok (ref, used))
    (shorter : used ≤ names.length) (fuel : Nat) (env : FrameId) (args : List Expr) (span : Span) :
    evalExpr st (fuel + 4) env (.call callee args span) =
      argumentsFirst st.registry (members st.registry (.hostClass ref) (names.drop used))
        (evalArgs st (fuel + 2) env args) last := by
  obtain ⟨spelled⟩ := whole
  have rest : (names ++ [last]).drop used = names.drop used ++ [last] :=
    List.drop_append_of_le_length shorter
  simp only [evalExpr, evalCall, spelled, resolved, Run.ofExcept_ok, pure_bind, callPath, rest,
    List.getLast?_concat, List.dropLast_concat]
  rfl

/-- The second spelling follows the path first. -/
theorem evalExpr_splitCallee (split : callee.IsSplit names last)
    (resolved : st.registry.resolvePath names = .ok (ref, used)) (fuel : Nat) (env : FrameId)
    (args : List Expr) (span : Span) :
    evalExpr st (fuel + 4) env (.call callee args span) =
      pathFirst st.registry (members st.registry (.hostClass ref) (names.drop used))
        (evalArgs st (fuel + 2) env args) last := by
  obtain ⟨spelled, rfl⟩ := split
  simp only [evalExpr, evalCall, readPath, spelled, resolved]
  rfl

end

/-! ### How far they agree -/

/-- What the two spellings of a call come to, when the class of their path has been found and the
rest of the path is the way to go from there. -/
structure CallSpellings (st : Setting) (env : FrameId) (whole split : Expr) (last : String)
    (args : List Expr) (ref : ClassRef) (rest : List String) : Prop where
  /-- One spelling follows the path behind the arguments, -/
  argumentsFirst : ∀ fuel span, evalExpr st (fuel + 4) env (.call whole args span) =
    HostAccess.argumentsFirst st.registry (HostAccess.members st.registry (.hostClass ref) rest)
      (evalArgs st (fuel + 2) env args) last
  /-- and the other one before them. -/
  pathFirst : ∀ fuel span, evalExpr st (fuel + 4) env (.call split args span) =
    HostAccess.pathFirst st.registry (HostAccess.members st.registry (.hostClass ref) rest)
      (evalArgs st (fuel + 2) env args) last
  /-- The path leads to the same end in every world, unless it comes to a field of an object. -/
  way : (∃ result, st.registry.Leads (.hostClass ref) rest result) ∨
    st.registry.MeetsField (.hostClass ref) rest
  /-- If that is a value, the spellings come to the same. -/
  agree : ∀ target, st.registry.Leads (.hostClass ref) rest (.ok target) →
    ∀ span span' m out, (Expr.call whole args span).ComesTo st env m out ↔
      (Expr.call split args span').ComesTo st env m out
  /-- They do without arguments as well. -/
  noArguments : args = [] → ∀ span span' m out, (Expr.call whole args span).ComesTo st env m out ↔
    (Expr.call split args span').ComesTo st env m out
  /-- If it is an error, one spelling fails behind the arguments, and the other one at once. -/
  late : ∀ e, st.registry.Leads (.hostClass ref) rest (.error e) → ∀ fuel span,
    evalExpr st (fuel + 4) env (.call whole args span) =
        (evalArgs st (fuel + 2) env args >>= fun _ => .fault e) ∧
      evalExpr st (fuel + 4) env (.call split args span) = .fault e

/-- **Calls of paths.** A call has two spellings, `.a.B.f.m(x)` and `(.a.B.f).m(x)`. If `.a.B.f`
starts with a class and `.a.B.f.m` is none, both find the same class. The first evaluates the
arguments and then reads the fields on the way, the second does so the other way round, and up to
that they do the same. They come to the same if all of the way is static and leads to a value; if it
leads to an error, the first has evaluated the arguments by then. -/
theorem called_path_spellings {st : Setting} {names : List String} {last : String}
    {whole split : Expr} (pure : st.registry.PureStatics)
    (noClass : st.registry.find? (String.intercalate "." (names ++ [last])) = none)
    (starts : st.registry.StartsWithClass names) (asWhole : whole.IsWhole names last)
    (asSplit : split.IsSplit names last) (env : FrameId) (args : List Expr) :
    ∃ ref used, st.registry.resolvePath names = .ok (ref, used) ∧
      st.registry.resolvePath (names ++ [last]) = .ok (ref, used) ∧
      CallSpellings st env whole split last args ref (names.drop used) := by
  obtain ⟨ref, used, resolved, longer⟩ := Registry.resolvePath_concat noClass starts
  have shorter := Registry.le_of_resolvePath resolved
  have argumentsFirst fuel := evalExpr_wholeCallee asWhole longer shorter fuel env args
  have pathFirst fuel := evalExpr_splitCallee asSplit resolved fuel env args
  refine ⟨ref, used, resolved, longer, argumentsFirst, pathFirst,
    Registry.leads_or_meetsField pure _ _, ?_, ?_, ?_⟩
  · intro target leads span span' m out
    refine Expr.comesTo_iff_of_add (k := 4) fun fuel => ?_
    rw [argumentsFirst, pathFirst, HostAccess.members_of_leads leads, HostAccess.argumentsFirst_ok]
  · rintro rfl span span' m out
    refine Expr.comesTo_iff_of_add (k := 4) fun fuel => ?_
    rw [argumentsFirst, pathFirst, evalArgs, HostAccess.argumentsFirst_nil]
  · intro e leads fuel span
    rw [argumentsFirst, pathFirst, HostAccess.members_of_leads leads]
    exact ⟨HostAccess.argumentsFirst_error .., HostAccess.pathFirst_error ..⟩

/-! ### The demo world -/

/-- A class without static fields has pure ones only. -/
theorem HostClass.pureStatics_of_empty {c : HostClass} (h : c.staticFields = ∅) :
    c.PureStatics := fun _ _ found => by
  rw [h, Std.TreeMap.getElem?_emptyc] at found
  cases found

/-- A static field that is a constant is pure. -/
theorem HostClass.PureStatics.staticField {c : HostClass} (h : c.PureStatics) (name : String)
    (v : Value) : (c.staticField name fun w => (v, w)).PureStatics := by
  intro name' read found
  rcases read_eq_or_found found with rfl | before
  · exact ⟨v, fun _ => rfl⟩
  · exact h _ _ before

/-- Another class with pure static fields may be registered. -/
theorem Registry.pureStatics_register {r : Registry} (h : r.PureStatics) {c : HostClass}
    (hc : c.PureStatics) : (r.register c).PureStatics := by
  intro ref
  rw [hostClass_register]
  split
  · exact hc
  · exact h ref

/-- The only static field of the demo world is a constant. -/
theorem Demo.pureStatics_registry : Demo.registry.PureStatics := by
  have none : Registry.empty.PureStatics := fun ref => HostClass.pureStatics_of_empty rfl
  have basic : Registry.basic.PureStatics :=
    Registry.pureStatics_register none (HostClass.pureStatics_of_empty rfl)
  have vec2 : vec2Class.PureStatics := HostClass.pureStatics_of_empty rfl
  have player (ref : ClassRef) : (playerClass ref).PureStatics :=
    HostClass.pureStatics_of_empty rfl
  have named : (HostClass.named mathName).PureStatics := HostClass.pureStatics_of_empty rfl
  -- the other members of the class do not touch its static fields
  have math : mathClass.PureStatics := named.staticField "PI" (.float pi)
  exact Registry.pureStatics_register (Registry.pureStatics_register
    (Registry.pureStatics_register basic vec2) (player _)) math

/-- The ratio of a circle, as the target of a call in either spelling: its path leads to a number,
so that the spellings come to the same. -/
theorem called_path_spellings_pi :
    let st : Setting := ⟨Demo.registry, 100⟩
    let names := ["std", "Math", "PI"]
    let segment (name : String) : Ident := ⟨name, default⟩
    let whole : Expr := .hostPath ((names ++ ["abs"]).map segment) default
    let split : Expr :=
      .member (.paren (.hostPath (names.map segment) default) default) (segment "abs") default
    let args : List Expr := [.literal (.int 3) default]
    st.registry.PureStatics ∧
      st.registry.find? (String.intercalate "." (names ++ ["abs"])) = none ∧
      st.registry.StartsWithClass names ∧ whole.IsWhole names "abs" ∧ split.IsSplit names "abs" ∧
      ∃ ref used, st.registry.resolvePath names = .ok (ref, used) ∧
        st.registry.resolvePath (names ++ ["abs"]) = .ok (ref, used) ∧
        CallSpellings st 0 whole split "abs" args ref (names.drop used) ∧
        st.registry.Leads (.hostClass ref) (names.drop used) (.ok (.float Demo.pi)) := by
  intro st names segment whole split args
  have noClass : st.registry.find? (String.intercalate "." (names ++ ["abs"])) = none := by
    decide +kernel
  have starts : st.registry.StartsWithClass names := by
    refine ⟨2, by decide, by decide, Option.isSome_iff_exists.mp ?_⟩
    decide +kernel
  have asWhole : whole.IsWhole names "abs" := .path rfl
  have asSplit : split.IsSplit names "abs" := .member rfl rfl
  obtain ⟨ref, used, resolved, longer, law⟩ :=
    called_path_spellings Demo.pureStatics_registry noClass starts asWhole asSplit 0 args
  have math : Demo.registry.resolvePath ["std", "Math", "PI"] = .ok (⟨3, "std.Math"⟩, 2) := rfl
  obtain ⟨rfl, rfl⟩ := Prod.mk.inj (Except.ok.inj (resolved.symm.trans math))
  have reads : Demo.registry.Reads (.hostClass ⟨3, "std.Math"⟩) "PI" (.ok (.float Demo.pi)) :=
    fun w => rfl
  exact ⟨Demo.pureStatics_registry, noClass, starts, asWhole, asSplit, _, _, resolved, longer, law,
    .through reads (.arrived _)⟩

/-- The two spellings of a call of a field that is not there: the first prints before it fails, and
the second does not. -/
theorem spellings_differ_on_missing_field :
    let s := Session.start Demo.registry Config.default World.empty (Console.ofInput []) .disabled
    let whole := s.eval 20 ".std.Math.TAU.m(print(\"x\"));"
    let split := s.eval 20 "(.std.Math.TAU).m(print(\"x\"));"
    Demo.registry.PureStatics ∧
      Demo.registry.find? (String.intercalate "." ["std", "Math", "TAU", "m"]) = none ∧
      Demo.registry.StartsWithClass ["std", "Math", "TAU"] ∧
      whole.2.machine.console.output = #["x"] ∧ split.2.machine.console.output = #[] := by
  intro s whole split
  refine ⟨Demo.pureStatics_registry, by decide +kernel,
    ⟨2, by decide, by decide, Option.isSome_iff_exists.mp ?_⟩, by decide +kernel,
    by decide +kernel⟩
  decide +kernel

end ScriptConsole
