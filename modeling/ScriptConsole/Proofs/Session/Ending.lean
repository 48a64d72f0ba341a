import ScriptConsole.Proofs.Evaluation.Ending
import ScriptConsole.Proofs.Evaluation.Endless
import ScriptConsole.Proofs.Host.HonestClasses
import ScriptConsole.Proofs.Session.Safety
import ScriptConsole.Proofs.Session.Sequence
import ScriptConsole.Proofs.Session.Within

/-!
# Sessions Without `while`

In a session that starts without the builtin `while` and never gets hold of it, everything comes to
an end, whatever the limit of depth: some budget suffices for each program, and with that budget or
any greater one there is the same value or error, and the same session behind it. This goes for
functions that call themselves, for those that builtins call, for handlers, and for functions that
are bound to global names and called later.

It takes `while` to go on for ever, and `while` is enough: where its condition always holds, no
budget suffices.

## Main results

* `Session.ends_without_while`: **everything comes to an end**.
* `Session.while_endless`: nothing comes out of a loop whose condition always holds.
-/

namespace ScriptConsole

/-- All functions, and all builtins but one. -/
def Stock.without (b : Builtin) : Stock where
  function _ _ := True
  builtin b' := b' ≠ b
  mono _ _ h := h
  made _ := trivial

namespace Session

variable {s : Session}

/-- Whether all that is evaluated in a session comes to an end: from some budget on there is one
outcome. -/
structure Ends (s : Session) : Prop where
  /-- A program has a value, or it fails with an error. -/
  program : ∀ p : Program, ∃ fuel result s',
    (∀ fuel' ≥ fuel, s.evalProgram fuel' p = (result, s')) ∧
      ((∃ v, result = .ok v) ∨ ∃ e, result = .error (.eval e))
  /-- A source text has a value, or it fails with an error, or it is no program. -/
  text : ∀ source : String, ∃ fuel result s',
    (∀ fuel' ≥ fuel, s.eval fuel' source = (result, s')) ∧
      result ≠ .error .exhausted ∧ result ≠ .error .stuck

/-- Whatever is evaluated within a discipline that rules `while` out comes to an end. -/
theorem Within.settles {σ : Type} {D : Discipline σ} (h : s.Within D)
    (never : ∀ n, ¬ D.Has n (.builtin .whileTrue)) (p : Program) :
    ∃ fuel, (s.evalProgram fuel p).1 ≠ .error .exhausted := by
  have host : s.setting.registry.Keeps D := h.host
  obtain ⟨n, machine⟩ := h.machine
  obtain ⟨fuel, enough⟩ := Task.settles host never (within_task machine p) (within_reset machine)
  refine ⟨fuel, fun short => enough ?_⟩
  rw [evalProgram_eq] at short
  exact (resultOf_endProgram_eq_iff (.inl rfl)).mp short

/-- A program evaluates to a value or an error, where the budget suffices. -/
theorem evalProgram_cases {fuel : Nat} {p : Program}
    (enough : (s.evalProgram fuel p).1 ≠ .error .exhausted) :
    (∃ v, (s.evalProgram fuel p).1 = .ok v) ∨ ∃ e, (s.evalProgram fuel p).1 = .error (.eval e) := by
  have going := evalProgram_ne_stuck fuel p s
  rw [evalProgram_eq] at enough going ⊢
  dsimp only at enough going ⊢
  generalize (endProgram ((task p).run s.setting fuel) s.machine.reset).1 = o at enough going ⊢
  rcases o with (⟨d, v⟩ | e | _ | _) | v
  · exact .inl ⟨v, rfl⟩
  · exact .inr ⟨e, rfl⟩
  · exact absurd rfl enough
  · exact absurd rfl going
  · exact .inl ⟨v, rfl⟩

/-- Sessions that keep to a discipline which rules `while` out bring everything to an end. -/
theorem Within.ends {σ : Type} {D : Discipline σ} (h : s.Within D)
    (never : ∀ n, ¬ D.Has n (.builtin .whileTrue)) : s.Ends where
  program p := by
    obtain ⟨fuel, enough⟩ := h.settles never p
    exact ⟨fuel, _, _, fun fuel' le => evalProgram_of_le le enough, evalProgram_cases enough⟩
  text source := by
    have enough : ∃ fuel, (s.eval fuel source).1 ≠ .error .exhausted := by
      unfold eval
      split
      · exact ⟨0, fun short => by cases short⟩
      split
      · exact ⟨0, fun short => by cases short⟩
      · exact h.settles never _
    obtain ⟨fuel, enough⟩ := enough
    exact ⟨fuel, _, _, fun fuel' le => eval_of_le le enough, enough, eval_ne_stuck fuel source s⟩

/-- **Everything comes to an end** in a session that starts without `while`, with whatever limit of
depth, after whatever has been done that did not bring it in: nothing in the session holds `while`,
and all that is evaluated has a value or an error. -/
theorem ends_without_while {builtins : List Builtin} (lacking : .whileTrue ∉ builtins)
    {registry : Registry} (honest : registry.Honest (.without .whileTrue)) (config : Config)
    {world : World} (kept : world.Within (.without .whileTrue) 1) (console : Console)
    (tracer : Tracer) {ops : List Operation}
    (supplied : (startWith builtins registry config world console tracer).Supplied
      (.without .whileTrue) ops) :
    let s := (startWith builtins registry config world console tracer).after ops
    ¬ s.machine.Holds (.builtin .whileTrue) ∧ s.Ends := by
  intro s
  let D := (Stock.without .whileTrue).discipline
  have allowed : ∀ b ∈ builtins, D.Has 1 (.builtin b) :=
    fun b mem => Stock.has_builtin.mpr fun same => lacking (same ▸ mem)
  have never : ∀ n, ¬ D.Has n (.builtin .whileTrue) := fun _ has => Stock.has_builtin.mp has rfl
  have start : (startWith builtins registry config world console tracer).Within D :=
    within_startWith allowed rfl (Registry.keeps_discipline_iff.mpr honest) config
      (World.keeps_discipline_iff.mpr kept) console tracer
  have inside : s.Within D := start.after supplied.obeys
  obtain ⟨n, machine⟩ := inside.machine
  exact ⟨fun holds => never n (machine.has holds), inside.ends never⟩

/-- A session with every builtin but `while`, and a function in it that calls itself for each of ten
numbers, by way of another global name for `forEach`. -/
theorem ends_without_while_recursion :
    let builtins := Builtin.all.filter (· ≠ .whileTrue)
    let ops : List Operation :=
      [.setGlobal "each" (.builtin .forEach), .eval 20 "f = (i) { each(Range(0, 9), f); };"]
    let s := startWith builtins Demo.registry Config.default World.empty (Console.ofInput [])
      Tracer.disabled
    .whileTrue ∉ builtins ∧ Demo.registry.Honest (.without .whileTrue) ∧
      World.empty.Within (.without .whileTrue) 1 ∧ s.Supplied (.without .whileTrue) ops ∧
      ¬ (s.after ops).machine.Holds (.builtin .whileTrue) ∧ (s.after ops).Ends := by
  intro builtins ops s
  have lacking : .whileTrue ∉ builtins := by decide
  have other : Builtin.forEach ≠ .whileTrue := by decide
  have supplied : s.Supplied (.without .whileTrue) ops :=
    ⟨Stock.has_builtin.mpr other, trivial, trivial⟩
  exact ⟨lacking, Demo.honest_registry, World.within_empty, supplied,
    ends_without_while lacking Demo.honest_registry Config.default World.within_empty
      (Console.ofInput []) Tracer.disabled supplied⟩

/-! ### With `while` -/

/-- An expression that makes a constant function. -/
def constantFunction (l : Literal) : Expr := .func [] [.literal l (.empty 0)] (.empty 0)

/-- A program that repeats a literal as long as another one holds. -/
def repeating (condition body : Literal) : Program :=
  ⟨[.call (.var ⟨"while", .empty 0⟩) [constantFunction condition, constantFunction body]
    (.empty 0)], .empty 0⟩

/-- The expression of a constant function makes one, at the level where it stands. -/
theorem yields_constantFunction {st : Setting} (env : FrameId) (l : Literal) (fuel : Nat)
    (m : Machine) : ((Task.expr env (constantFunction l)).run st fuel).Yields m
      fun v m' => (∃ f, v = .function f ∧ f.IsConstant l) ∧ m'.depth = m.depth := by
  refine Task.yields_level (Task.yields_of_plan (fun _ => ?_) fuel)
  exact Run.yields_of_ok rfl ⟨_, rfl, rfl, _, rfl⟩

/-- Two constant functions as arguments. -/
theorem yields_constantFunctions {st : Setting} (env : FrameId) (l k : Literal) (fuel : Nat)
    (m : Machine) :
    ((Task.arguments env [constantFunction l, constantFunction k]).run st fuel).Yields m
      fun vs m' => (∃ f g, vs = [.function f, .function g] ∧ f.IsConstant l ∧ g.IsConstant k) ∧
        m'.depth = m.depth := by
  have none : ∀ fuel m, ((Task.arguments env []).run st fuel).Yields m fun vs _ => vs = [] :=
    fun fuel _ => Task.yields_of_plan (fun _ => Run.yields_of_ok rfl rfl) fuel
  have last : ∀ fuel m, ((Task.arguments env [constantFunction k]).run st fuel).Yields m
      fun vs _ => ∃ g, vs = [.function g] ∧ g.IsConstant k := by
    intro fuel m
    refine Task.yields_of_plan (fun fuel => ?_) fuel
    refine (yields_constantFunction env k fuel m).bind fun _ m' second => ?_
    obtain ⟨⟨g, rfl, constant⟩, -⟩ := second
    refine (none fuel m').bind fun _ _ nil => ?_
    exact Run.yields_of_ok rfl ⟨g, by rw [nil], constant⟩
  refine Task.yields_level (Task.yields_of_plan (fun fuel => ?_) fuel)
  refine (yields_constantFunction env l fuel m).bind fun _ m' first => ?_
  obtain ⟨⟨f, rfl, constant⟩, -⟩ := first
  refine (last fuel m').bind fun _ _ rest => ?_
  obtain ⟨g, rfl, constant'⟩ := rest
  exact Run.yields_of_ok rfl ⟨f, g, rfl, constant, constant'⟩

/-- Where `while` is bound and there is room for one call, no budget suffices for a loop whose
condition is a literal that holds. -/
theorem while_endless (room : 0 < s.config.maxCallDepth)
    (bound : s.machine.frames.lookup? rootFrame "while" = some (.builtin .whileTrue))
    {condition : Literal} (holds : condition.value.truthy = true) (body : Literal) (fuel : Nat) :
    (s.evalProgram fuel (repeating condition body)).1 = .error .exhausted := by
  have named : lookupName rootFrame "while" s.machine.reset =
      (.ok (.builtin .whileTrue), s.machine.reset) := by
    have same : s.machine.reset.frames.lookup? rootFrame "while" = some (.builtin .whileTrue) :=
      bound
    simp only [lookupName, Run.bind_apply, Run.look, same, Plain.bound]
    rfl
  have callee : ∀ fuel, ((Task.expr rootFrame (.var ⟨"while", .empty 0⟩)).run s.setting fuel).Yields
      s.machine.reset fun v m => v = .builtin .whileTrue ∧ m.depth = 0 := by
    refine Task.yields_of_plan fun fuel => ?_
    exact Run.yields_of_ok ((congrFun (Task.exec_lastly _ _) _).trans named) ⟨rfl, rfl⟩
  have applied : ∀ fuel m (f g : Closure), f.IsConstant condition → g.IsConstant body →
      m.depth = 0 → ((Task.apply rootFrame (.builtin .whileTrue) [.function f, .function g]).run
        s.setting fuel).Yields m fun _ _ => False := by
    intro fuel m f g constant constant' level
    refine Task.yields_of_plan (fun fuel => Run.Yields.never ?_) fuel
    refine Task.yields_of_plan (fun fuel => Run.Yields.never ?_) fuel
    exact Task.loop_endless_constant constant constant' holds (level ▸ room) fuel
  have whole : ((task (repeating condition body)).run s.setting fuel).Yields s.machine.reset
      fun _ _ => False := by
    refine Task.yields_of_plan (fun fuel => Run.Yields.never ?_) fuel
    refine Task.yields_of_plan (fun fuel => Run.Yields.never ?_) fuel
    refine Task.yields_of_plan (fun fuel => ?_) fuel
    -- the callee, then the two functions, then the call
    refine (callee fuel).bind fun _ m called => ?_
    obtain ⟨rfl, level⟩ := called
    refine (yields_constantFunctions rootFrame condition body fuel m).bind fun _ m' made => ?_
    obtain ⟨⟨f, g, rfl, constant, constant'⟩, level'⟩ := made
    exact (applied fuel m' f g constant constant' (level'.trans level)).never
  obtain short | ⟨v, m, ends, impossible⟩ := whole
  · rw [evalProgram_eq]
    exact (resultOf_endProgram_eq_iff (.inl rfl)).mpr short
  · exact impossible.elim

/-- In a new session `while` is bound. -/
example (registry : Registry) (config : Config) (world : World) (console : Console)
    (tracer : Tracer) :
    (start registry config world console tracer).machine.frames.lookup? rootFrame "while" =
      some (.builtin .whileTrue) := by
  cbv

end Session

end ScriptConsole
