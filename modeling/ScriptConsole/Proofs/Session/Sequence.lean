import ScriptConsole.Proofs.Evaluation.Alike
import ScriptConsole.Proofs.Evaluation.Budget
import ScriptConsole.Proofs.Evaluation.Depth
import ScriptConsole.Proofs.Frames.Isolation
import ScriptConsole.Proofs.Host.BlindClasses
import ScriptConsole.Proofs.Session.Lines

/-!
# One Source Text Behind Another

Two programs with a newline between them are a program: the statements of the one and then those of
the other. If the first ends with a value, the whole comes to what the statements of the second come
to behind it; all that the first hands on is the machine. If the first stops, by an error or by an
exit out of the program, the whole stops there as well, and no statement of the second starts.

In the whole, the code of the second text stands further back. A host can see that, since it is
handed functions with their code, so what the second text comes to as a text of its own is what the
whole comes to only for a host that does not look at places (`Registry.Blind`), and only up to
places. Further back means by the length of the first text and the newline, as long as 32 bits hold
all places. Both conditions are needed (`Session.out_of_sequence`).

## Main results

* `evalBody_append`: statements behind statements, budget included.
* `Session.eval_sequence`: **texts in sequence**.
-/

namespace ScriptConsole

open Placed (move)

/-! ### Statements behind statements -/

section

variable {st : Setting}

/-- Statements behind statements: the second ones go on with the value of the first and what is left
of the budget. -/
theorem evalBody_append (fuel : Nat) (env : FrameId) (last : Value) (first second : List Expr) :
    evalBody st (fuel + first.length) env last (first ++ second) =
      evalBody st (fuel + first.length) env last first >>= fun v =>
        evalBody st fuel env v second := by
  induction first generalizing last with
  | nil =>
      cases fuel with
      | zero =>
          simp only [List.nil_append, List.length_nil, Nat.add_zero, evalBody]
          rfl
      | succ fuel =>
          simp only [List.nil_append, List.length_nil, Nat.add_zero, evalBody]
          rw [pure_bind]
  | cons e rest ih =>
      show evalBody st (fuel + rest.length + 1) env last (e :: (rest ++ second)) =
        evalBody st (fuel + rest.length + 1) env last (e :: rest) >>= _
      simp only [evalBody]
      rw [bind_assoc]
      exact bind_congr fun v => ih v

/-- Statements behind statements that stop do not matter. -/
theorem evalBody_append_of_stop {fuel : Nat} {env : FrameId} {last : Value}
    {first : List Expr} {m m' : Machine} {stop : Stop}
    (h : evalBody st fuel env last first m = (.error stop, m')) (ended : stop ≠ .exhausted)
    (second : List Expr) : evalBody st fuel env last (first ++ second) m = (.error stop, m') := by
  induction first generalizing fuel last m with
  | nil =>
      cases fuel <;> simp only [evalBody] at h
      · exact absurd (Except.error.inj (Prod.mk.inj h).1).symm ended
      · cases h
  | cons e rest ih =>
      cases fuel with
      | zero =>
          simp only [evalBody] at h
          exact absurd (Except.error.inj (Prod.mk.inj h).1).symm ended
      | succ fuel =>
          simp only [evalBody, List.cons_append, Run.bind_apply] at h ⊢
          split at h
          · exact ih h
          · exact h

/-- The value in front of the first statement does not matter. -/
theorem evalBody_last (fuel : Nat) (env : FrameId) (last last' : Value) {body : List Expr}
    (some : body ≠ []) : evalBody st fuel env last body = evalBody st fuel env last' body := by
  cases fuel with
  | zero => simp only [evalBody]
  | succ fuel =>
      cases body with
      | nil => exact absurd rfl some
      | cons e rest => simp only [evalBody]

/-- Whether an event takes place between the statements of a program, in no call. -/
def Event.TopLevel (e : Event) : Prop :=
  ∀ t ∈ e.context, ∃ env last body, t = .block env last body

/-- An event of a task is the start or the stop of the task or takes place inside it. -/
theorem task_eq_or_mem_context {fuel : Nat} {ctx : List Task} {t : Task} {m : Machine} {e : Event}
    (h : e ∈ history st fuel ctx t m) : e.task = t ∨ t ∈ e.context := by
  cases fuel with
  | zero =>
      simp only [history, List.mem_cons, List.not_mem_nil, or_false] at h
      rcases h with rfl | rfl <;> exact .inl rfl
  | succ fuel =>
      simp only [history, List.mem_cons, List.mem_append, List.not_mem_nil, or_false] at h
      rcases h with rfl | h | rfl
      · exact .inl rfl
      · obtain ⟨u, m', h⟩ := Plan.mem_log h
        exact .inr ((context_of_mem h).subset List.mem_cons_self)
      · exact .inl rfl

/-- Behind statements that stop, no others start: as long as there are statements to come, some of
the first ones are among them. -/
theorem lt_length_of_stop {fuel : Nat} {env : FrameId} {last : Value} {first second : List Expr}
    {m : Machine} {stop : Stop} (h : (evalBody st fuel env last first m).1 = .error stop)
    (ended : stop ≠ .exhausted) {ctx : List Task} {e : Event}
    (mem : e ∈ history st fuel ctx (.block env last (first ++ second)) m) (top : e.TopLevel)
    {env' : FrameId} {last' : Value} {body : List Expr} (task : e.task = .block env' last' body) :
    second.length < body.length := by
  induction first generalizing fuel last m ctx with
  | nil =>
      cases fuel <;> simp only [evalBody] at h
      · exact absurd (Except.error.inj h).symm ended
      · cases h
  | cons e' rest ih =>
      cases fuel with
      | zero =>
          simp only [evalBody] at h
          exact absurd (Except.error.inj h).symm ended
      | succ fuel =>
          have own : e.task = .block env last (e' :: rest ++ second) →
              second.length < body.length := by
            intro same
            obtain ⟨-, -, rfl⟩ := Task.block.inj (task.symm.trans same)
            simp only [List.cons_append, List.length_cons, List.length_append]
            omega
          simp only [history, Task.plan, List.cons_append, Task.blockCourse, Plan.log, Course.log,
            List.mem_cons, List.mem_append, List.not_mem_nil, or_false] at mem
          rcases mem with rfl | (inside | behind) | rfl
          · exact own rfl
          · -- inside the first statement, nothing is at the top
            rcases task_eq_or_mem_context inside with same | around
            · cases task.symm.trans same
            · obtain ⟨_, _, _, block⟩ := top _ around
              cases block
          · simp only [evalBody, Run.bind_apply] at h
            simp only [Task.run] at behind
            split at behind
            · next v m' run =>
              rw [run] at h
              rw [List.mem_append] at behind
              rcases behind with behind | nothing
              · exact ih h behind
              · split at nothing <;> cases nothing
            · cases behind
          · exact own rfl

end

/-! ### Ends of programs -/

/-- The end of a program is that of whatever run has come to it. -/
theorem endProgram_congr {x y : Run Value} {m m' : Machine} (h : x m = y m') :
    endProgram x m = endProgram y m' := by
  unfold endProgram
  rw [h]

/-- A program that has a value ends with it. -/
theorem endProgram_of_ok {x : Run Value} {m m' : Machine} {v : Value} (h : x m = (.ok v, m')) :
    endProgram x m = (.ok v, m') := by
  unfold endProgram
  rw [h]

/-- Alike runs end alike. -/
theorem Run.Alike.endProgram {x y : Run Value} (inside : Run.Alike Value.Alike x y) :
    Run.Alike Value.Alike (endProgram x) (ScriptConsole.endProgram y) := by
  intro m m' alike
  have ends := inside alike
  unfold ScriptConsole.endProgram
  generalize x m = p, y m' = q at ends
  cases ends with
  | ok h alike => exact .ok h alike
  | stop h alike =>
      cases h with
      | exit depth same => exact .ok same alike
      | fault same => exact .stop (.fault same) alike
      | exhausted => exact .stop .exhausted alike
      | stuck => exact .stop .stuck alike

/-- Whether two failures are the same up to the places of the code in a thrown value. -/
inductive Failure.Alike : Failure → Failure → Prop
  | same (f : Failure) : Alike f f
  | eval {e e' : EvalError} : e.Alike e' → Alike (.eval e) (.eval e')

namespace Session

/-- Whether two results of source texts are the same up to the places of code. -/
inductive AlikeResults : Except Failure Value → Except Failure Value → Prop
  | ok {v v' : Value} : v.Alike v' → AlikeResults (.ok v) (.ok v')
  | error {f f' : Failure} : f.Alike f' → AlikeResults (.error f) (.error f')

/-- A result that is no error is the value in it. -/
theorem eq_ok_get {α β : Type} {r : Except α β} (h : r.toOption.isSome = true) :
    r = .ok (r.toOption.get h) := by
  cases r with
  | ok b => rfl
  | error a => cases h

/-- Whether two outcomes of source texts are the same up to the places of code: the results, and the
sessions, with their bindings, host states, printed lines and traces. -/
structure AlikeOutcomes (o o' : Except Failure Value × Session) : Prop where
  result : AlikeResults o.1 o'.1
  registry : o.2.registry = o'.2.registry
  config : o.2.config = o'.2.config
  machine : o.2.machine.Alike o'.2.machine

/-- Alike results are both for want of fuel, or neither is. -/
theorem AlikeResults.exhausted_iff {r r' : Except Failure Value} (h : AlikeResults r r') :
    r = .error .exhausted ↔ r' = .error .exhausted := by
  cases h with
  | ok => simp
  | error same =>
      cases same with
      | same => exact Iff.rfl
      | eval => simp

/-- The integer that a result is, if it is one. -/
def integer? (r : Except Failure Value) : Option Int64 := r.toOption.bind Value.toInt64?

/-- Integers have no places. -/
theorem AlikeResults.integer?_eq {r r' : Except Failure Value} (h : AlikeResults r r') :
    integer? r = integer? r' := by
  cases h with
  | ok same => exact same.toInt64?_eq
  | error _ => rfl

/-- An integer is no want of fuel. -/
theorem ne_exhausted_of_integer? {r : Except Failure Value} {n : Int64}
    (h : integer? r = some n) : r ≠ .error .exhausted := by
  rintro rfl
  cases h

/-- Alike ends of runs are alike results. -/
theorem alike_resultOf {r r' : Except Stop Value × Machine} (h : AlikeEnds Value.Alike r r') :
    AlikeResults (resultOf r.1) (resultOf r'.1) ∧ r.2.Alike r'.2 := by
  cases h with
  | ok same alike => exact ⟨.ok same, alike⟩
  | stop same alike =>
      cases same with
      | exit depth same => exact ⟨.ok same, alike⟩
      | fault same => exact ⟨.error (.eval same), alike⟩
      | exhausted => exact ⟨.error (.same _), alike⟩
      | stuck => exact ⟨.error (.same _), alike⟩

/-! ### Budgets -/

/-- A program that has enough fuel is the same with more. -/
theorem evalProgram_of_le {fuel fuel' : Nat} (le : fuel ≤ fuel') {p : Program} {s : Session}
    (ended : (s.evalProgram fuel p).1 ≠ .error .exhausted) :
    s.evalProgram fuel' p = s.evalProgram fuel p := by
  rw [evalProgram_eq] at ended
  rw [evalProgram_eq, evalProgram_eq]
  rcases Task.run_of_le le (task p) s.machine.reset with exhausted | same
  · exact absurd ((resultOf_endProgram_eq_iff (.inl rfl)).mpr exhausted) ended
  · rw [endProgram_congr same]

/-- A text that does not use the budget up comes to the same within a greater one. -/
theorem eval_of_le {fuel fuel' : Nat} (le : fuel ≤ fuel') {source : String} {s : Session}
    (ended : (s.eval fuel source).1 ≠ .error .exhausted) :
    s.eval fuel' source = s.eval fuel source := by
  unfold eval at ended ⊢
  split at ended
  · next large => rw [if_pos large, if_pos large]
  · next fits =>
    rw [if_neg fits, if_neg fits]
    cases parsed : Program.ofSource source with
    | error e => rfl
    | ok p =>
        rw [parsed] at ended
        exact evalProgram_of_le le ended

/-- Whether a source text comes to an outcome, within whatever budget that takes. -/
def ComesTo (s : Session) (source : String) (o : Except Failure Value × Session) : Prop :=
  o.1 ≠ .error .exhausted ∧ ∃ fuel, s.eval fuel source = o

/-- A source text comes to one outcome at most. -/
theorem ComesTo.unique {s : Session} {source : String} {o o' : Except Failure Value × Session}
    (h : s.ComesTo source o) (h' : s.ComesTo source o') : o = o' := by
  obtain ⟨ended, fuel, rfl⟩ := h
  obtain ⟨ended', fuel', rfl⟩ := h'
  rw [← eval_of_le (Nat.le_max_left fuel fuel') ended,
    eval_of_le (Nat.le_max_right fuel fuel') ended']

/-- Whether a program comes to an outcome, within whatever budget that takes. -/
def RunsTo (s : Session) (p : Program) (o : Except Failure Value × Session) : Prop :=
  o.1 ≠ .error .exhausted ∧ ∃ fuel, s.evalProgram fuel p = o

/-- A program that has a value with some fuel runs to it. -/
theorem RunsTo.of_ok {s s' : Session} {p : Program} {fuel : Nat} {v : Value}
    (run : s.evalProgram fuel p = (.ok v, s')) : s.RunsTo p (.ok v, s') :=
  ⟨nofun, fuel, run⟩

/-! ### Programs in sequence -/

/-- How the statements of a program end in a session, within a budget: with the value of the last of
them, or by a stop. An exit out of the program is a stop as well. -/
def ending (s : Session) (fuel : Nat) (p : Program) : Except Stop Value :=
  (evalBody s.setting fuel rootFrame .null p.statements s.machine.reset).1

section

variable {s : Session} {p q r : Program} {fuel : Nat}

/-- A program whose statements have a value has that value. -/
theorem evalProgram_of_run {v : Value} {m : Machine}
    (h : evalBody s.setting fuel rootFrame .null p.statements s.machine.reset = (.ok v, m)) :
    s.evalProgram fuel p = (.ok v, { s with machine := m }) := by
  have ends : endProgram ((task p).run s.setting fuel) s.machine.reset = (.ok v, m) :=
    endProgram_of_ok h
  rw [evalProgram_eq, ends]
  rfl

/-- The value with which a program ends is that of its task, and nothing is left running. -/
theorem evalProgram_of_ending {v : Value} (h : s.ending fuel p = .ok v) :
    ∃ m, (task p).run s.setting fuel s.machine.reset = (.ok v, m) ∧ m.reset = m ∧
      s.evalProgram fuel p = (.ok v, { s with machine := m }) := by
  rcases hm : (task p).run s.setting fuel s.machine.reset with ⟨result, m⟩
  obtain rfl : result = .ok v := (congrArg Prod.fst hm).symm.trans h
  refine ⟨m, rfl, ?_, evalProgram_of_run hm⟩
  have level := (task p).level_run s.setting fuel s.machine.reset
  rw [hm] at level
  exact congrArg (fun n => { m with depth := n }) level.symm

/-- Behind a program that ends with a value, statements come to the same whether they are part of
the program or a program of their own. -/
theorem evalProgram_of_append {v : Value} (h : s.ending fuel p = .ok v) {more : List Expr}
    (parts : r.statements = p.statements ++ more) (some : more ≠ []) (span : Span) {rest : Nat}
    (le : fuel ≤ rest + p.statements.length) :
    s.evalProgram (rest + p.statements.length) r =
      (s.evalProgram fuel p).2.evalProgram rest ⟨more, span⟩ := by
  obtain ⟨m, run, level, eval⟩ := evalProgram_of_ending h
  have longer : evalBody s.setting (rest + p.statements.length) rootFrame .null p.statements
      s.machine.reset = (.ok v, m) := by
    rcases Task.run_of_le le (task p) s.machine.reset with exhausted | same
    · rw [run] at exhausted
      cases exhausted
    · exact same.symm.trans run
  have whole : (task r).run s.setting (rest + p.statements.length) s.machine.reset =
      (task ⟨more, span⟩).run s.setting rest m := by
    show evalBody s.setting (rest + p.statements.length) rootFrame .null r.statements
      s.machine.reset = evalBody s.setting rest rootFrame .null more m
    rw [parts, evalBody_append, Run.bind_ok longer, evalBody_last rest rootFrame v .null some]
  rw [eval, evalProgram_eq, evalProgram_eq, level, endProgram_congr whole]
  rfl

/-- Programs that differ in places only come to the same up to places, if the host does not look at
them. -/
theorem alike_evalProgram (blind : s.registry.Blind)
    (same : p.statements.map Expr.shape = q.statements.map Expr.shape) :
    AlikeOutcomes (s.evalProgram fuel p) (s.evalProgram fuel q) := by
  have tasks : (task p).Alike (task q) Value.Alike := .block rootFrame rfl same
  have runs : Run.Alike Value.Alike ((task p).run s.setting fuel) ((task q).run s.setting fuel) :=
    Task.alike_run blind fuel tasks
  obtain ⟨results, machines⟩ := alike_resultOf (runs.endProgram (.refl s.machine.reset))
  rw [evalProgram_eq, evalProgram_eq]
  exact ⟨results, rfl, rfl, machines⟩

/-- A program that goes on behind statements that stop comes to what they come to. -/
theorem evalProgram_of_stop {stop : Stop} (h : s.ending fuel p = .error stop)
    (ended : stop ≠ .exhausted) {more : List Expr} (parts : r.statements = p.statements ++ more)
    {fuel' : Nat} (le : fuel ≤ fuel') : s.evalProgram fuel' r = s.evalProgram fuel p := by
  rcases hm : (task p).run s.setting fuel s.machine.reset with ⟨result, m⟩
  obtain rfl : result = .error stop := (congrArg Prod.fst hm).symm.trans h
  have longer : evalBody s.setting fuel' rootFrame .null p.statements s.machine.reset =
      (.error stop, m) := by
    rcases Task.run_of_le le (task p) s.machine.reset with exhausted | same
    · rw [hm] at exhausted
      exact absurd (Except.error.inj exhausted) ended
    · exact same.symm.trans hm
  have whole : (task r).run s.setting fuel' s.machine.reset =
      (task p).run s.setting fuel s.machine.reset := by
    rw [hm]
    show evalBody s.setting fuel' rootFrame .null r.statements s.machine.reset = (.error stop, m)
    rw [parts]
    exact evalBody_append_of_stop longer ended more
  rw [evalProgram_eq, evalProgram_eq, endProgram_congr whole]

end

/-- A text that fits comes to what its program comes to. -/
theorem comesTo_iff_runsTo {source : String} {s : Session} {p : Program}
    (parsed : Program.ofSource source = .ok p)
    (fits : source.utf8ByteSize ≤ s.config.maxSourceSize) (o : Except Failure Value × Session) :
    s.ComesTo source o ↔ s.RunsTo p o := by
  have same : ∀ fuel, s.eval fuel source = s.evalProgram fuel p := by
    intro fuel
    rw [eval_of_fits fits, parsed]
    rfl
  simp only [ComesTo, RunsTo, same]

/-- What two texts come to, the second of them behind the first, and what they come to as one text
with a newline between them. -/
structure SequenceLaw (first second : String) (p q : Program) : Prop where
  /-- The whole is a program: the statements of the first, and those of the second up to places. As
  long as 32 bits hold all of its places, they are those of the second, moved back. -/
  parsed : ∃ r more, Program.ofSource (first ++ "\n" ++ second) = .ok r ∧
    r.statements = p.statements ++ more ∧
    more.map Expr.shape = q.statements.map Expr.shape ∧
    ((first ++ "\n" ++ second).utf8ByteSize < Number.limit32 →
      more = move (· + (first.utf8ByteSize + 1)) q.statements)
  /-- If the statements of the first end with a value, so does the first, and the whole comes to
  what the statements of the second come to behind it in their new places, for every host. -/
  placed : ∀ {s : Session}, q.statements ≠ [] →
    (first ++ "\n" ++ second).utf8ByteSize ≤ s.config.maxSourceSize →
    ∀ {r : Program} {more : List Expr}, Program.ofSource (first ++ "\n" ++ second) = .ok r →
    r.statements = p.statements ++ more →
    ∀ {fuel : Nat} {v : Value}, s.ending fuel p = .ok v → ∃ s₁, s.ComesTo first (.ok v, s₁) ∧
      ∀ o, s.ComesTo (first ++ "\n" ++ second) o ↔ s₁.RunsTo ⟨more, r.span⟩ o
  /-- If the host does not look at places, the whole comes to what the second text comes to behind
  the first, up to places. -/
  normal : ∀ {s : Session}, s.registry.Blind → q.statements ≠ [] →
    (first ++ "\n" ++ second).utf8ByteSize ≤ s.config.maxSourceSize →
    ∀ {fuel : Nat} {v : Value}, s.ending fuel p = .ok v → ∃ s₁, s.ComesTo first (.ok v, s₁) ∧
      (∀ o, s₁.ComesTo second o →
        ∃ o', s.ComesTo (first ++ "\n" ++ second) o' ∧ AlikeOutcomes o' o) ∧
      ∀ o', s.ComesTo (first ++ "\n" ++ second) o' →
        ∃ o, s₁.ComesTo second o ∧ AlikeOutcomes o' o
  /-- If they stop, by an error or by an exit, the whole comes to what the first comes to. -/
  stopped : ∀ {s : Session},
    (first ++ "\n" ++ second).utf8ByteSize ≤ s.config.maxSourceSize →
    ∀ {fuel : Nat} {stop : Stop}, s.ending fuel p = .error stop → stop ≠ .exhausted →
    ∃ o, s.ComesTo first o ∧ s.ComesTo (first ++ "\n" ++ second) o
  /-- No statement of the second starts then. -/
  untouched : ∀ {s : Session} {r : Program},
    Program.ofSource (first ++ "\n" ++ second) = .ok r →
    ∀ {fuel : Nat} {stop : Stop}, s.ending fuel p = .error stop → stop ≠ .exhausted →
    ∀ e ∈ history s.setting fuel [] (task r) s.machine.reset, e.TopLevel →
    ∀ {env : FrameId} {last : Value} {body : List Expr}, e.task = .block env last body →
      q.statements.length < body.length

/-- Behind statements that end with a value, a program comes to what its other statements come to
as a program of their own. -/
theorem runsTo_iff_of_ending {s s₁ : Session} {p r : Program} {fuel : Nat} {v : Value}
    (h : s.ending fuel p = .ok v) (first : s.evalProgram fuel p = (.ok v, s₁)) {more : List Expr}
    (parts : r.statements = p.statements ++ more) (some : more ≠ [])
    (o : Except Failure Value × Session) : s.RunsTo r o ↔ s₁.RunsTo ⟨more, r.span⟩ o := by
  have exact : ∀ {rest}, fuel ≤ rest + p.statements.length →
      s.evalProgram (rest + p.statements.length) r = s₁.evalProgram rest ⟨more, r.span⟩ := by
    intro rest le
    rw [evalProgram_of_append h parts some r.span le, first]
  -- a budget that is enough for the first statements and for the outcome
  constructor
  · rintro ⟨ended, fuel', rfl⟩
    have le := Nat.le_add_right (max fuel fuel') p.statements.length
    have enough := evalProgram_of_le (Nat.le_trans (Nat.le_max_right fuel fuel') le) ended
    refine ⟨ended, max fuel fuel', ?_⟩
    rw [← exact (Nat.le_trans (Nat.le_max_left fuel fuel') le), enough]
  · rintro ⟨ended, fuel', rfl⟩
    have le := Nat.le_add_right (max fuel fuel') p.statements.length
    have enough := evalProgram_of_le (Nat.le_max_right fuel fuel') ended
    refine ⟨ended, max fuel fuel' + p.statements.length, ?_⟩
    rw [exact (Nat.le_trans (Nat.le_max_left fuel fuel') le), enough]

/-- Programs that differ in places only come to the same up to places, if the host does not look at
them. -/
theorem runsTo_alike {s : Session} {p q : Program} (blind : s.registry.Blind)
    (same : p.statements.map Expr.shape = q.statements.map Expr.shape) :
    (∀ o, s.RunsTo q o → ∃ o', s.RunsTo p o' ∧ AlikeOutcomes o' o) ∧
      ∀ o', s.RunsTo p o' → ∃ o, s.RunsTo q o ∧ AlikeOutcomes o' o := by
  have alike : ∀ fuel, AlikeOutcomes (s.evalProgram fuel p) (s.evalProgram fuel q) := fun _ =>
    alike_evalProgram blind same
  constructor
  · rintro o ⟨ended, fuel, rfl⟩
    exact ⟨_, ⟨mt (alike fuel).result.exhausted_iff.mp ended, fuel, rfl⟩, alike fuel⟩
  · rintro o' ⟨ended, fuel, rfl⟩
    exact ⟨_, ⟨mt (alike fuel).result.exhausted_iff.mpr ended, fuel, rfl⟩, alike fuel⟩

/-- **Texts in sequence.** Two programs with a newline between them are one program, which comes to
what the two come to one after the other. -/
theorem eval_sequence (first second : String) {p q : Program}
    (hp : Program.ofSource first = .ok p) (hq : Program.ofSource second = .ok q) :
    SequenceLaw first second p q := by
  obtain ⟨r, hr, parts⟩ := Program.ofSource_newline hp hq
  have shapes := Expr.eachShape_move (· + (first.utf8ByteSize + 1)) q.statements
  generalize hmore : move (· + (first.utf8ByteSize + 1)) q.statements = more at parts shapes
  have moved : q.statements ≠ [] → more ≠ [] := by
    rintro some rfl
    exact some (List.map_eq_nil_iff.mp shapes.symm)
  have size : (first ++ "\n" ++ second).utf8ByteSize =
      first.utf8ByteSize + 1 + second.utf8ByteSize := by
    rw [String.utf8ByteSize_append, String.utf8ByteSize_append]
    rfl
  refine ⟨⟨r, more, hr, parts, shapes, fun _ => hmore.symm⟩, ?_, ?_, ?_, ?_⟩
  · intro s some fits r' more' hr' parts' fuel v h
    obtain rfl := Except.ok.inj (hr.symm.trans hr')
    obtain rfl := List.append_cancel_left (parts.symm.trans parts')
    obtain ⟨m, -, -, run⟩ := evalProgram_of_ending h
    refine ⟨{ s with machine := m }, (comesTo_iff_runsTo hp (by omega) _).mpr (.of_ok run),
      fun o => ?_⟩
    rw [comesTo_iff_runsTo hr fits, runsTo_iff_of_ending h run parts (moved some)]
  · intro s blind some fits fuel v h
    obtain ⟨m, -, -, run⟩ := evalProgram_of_ending h
    have whole := comesTo_iff_runsTo hr fits
    have behind := runsTo_iff_of_ending h run parts (moved some)
    have apart := comesTo_iff_runsTo (s := { s with machine := m }) hq (by dsimp only; omega)
    have alike := runsTo_alike (s := { s with machine := m }) (p := ⟨more, r.span⟩) blind shapes
    refine ⟨{ s with machine := m }, (comesTo_iff_runsTo hp (by omega) _).mpr (.of_ok run),
      fun o comes => ?_, fun o' comes => ?_⟩
    · obtain ⟨o', runs, same⟩ := alike.1 o ((apart o).mp comes)
      exact ⟨o', (whole o').mpr ((behind o').mpr runs), same⟩
    · obtain ⟨o, runs, same⟩ := alike.2 o' ((behind o').mp ((whole o').mp comes))
      exact ⟨o, (apart o).mpr runs, same⟩
  · intro s fits fuel stop h ended
    have whole := evalProgram_of_stop h ended parts (Nat.le_refl fuel)
    have ends : (s.evalProgram fuel p).1 ≠ .error .exhausted := fun exhausted =>
      ended (Except.error.inj
        (h.symm.trans ((resultOf_endProgram_eq_iff (.inl rfl)).mp exhausted)))
    exact ⟨_, (comesTo_iff_runsTo hp (by omega) _).mpr ⟨ends, fuel, rfl⟩,
      (comesTo_iff_runsTo hr fits _).mpr ⟨ends, fuel, whole⟩⟩
  · intro s r' hr' fuel stop h ended e mem top env last body same
    obtain rfl := Except.ok.inj (hr.symm.trans hr')
    rw [task, parts] at mem
    have fewer := lt_length_of_stop h ended mem top same
    have count : more.length = q.statements.length := by
      simpa using congrArg List.length shapes
    rwa [count] at fewer

/-- The law on an assignment with a comment behind it, and behind that a call of a scripted class on
what it binds. -/
theorem eval_sequence_binding :
    let box : Scripted.ClassSpec :=
      ⟨"Box", [], [], [⟨"first", [.int], .argInt 0⟩], [], [], none, false⟩
    let s := Session.start (Demo.registry.register box.toHostClass) Config.default World.empty
      (Console.ofInput []) Tracer.disabled
    ∃ o, s.ComesTo ("x = 1; // one" ++ "\n" ++ ".Box.first(x);") o ∧ integer? o.1 = some 1 := by
  intro box s
  let p := (Program.ofSource "x = 1; // one").toOption.get (by decide +kernel)
  let q := (Program.ofSource ".Box.first(x);").toOption.get (by decide +kernel)
  have hp : Program.ofSource "x = 1; // one" = .ok p := eq_ok_get _
  have hq : Program.ofSource ".Box.first(x);" = .ok q := eq_ok_get _
  have blind : s.registry.Blind :=
    Registry.blind_register Demo.blind_registry (Scripted.blind_toHostClass box)
  have ends := eq_ok_get (r := s.ending 10 p) (by decide +kernel)
  have called : integer? (evalProgram 10 q (s.evalProgram 10 p).2).1 = some 1 := by decide +kernel
  have one : q.statements.length = 1 := by decide +kernel
  obtain ⟨m, -, -, run⟩ := evalProgram_of_ending ends
  obtain ⟨s₁, first, there, -⟩ := (eval_sequence "x = 1; // one" ".Box.first(x);" hp hq).normal
    blind (List.ne_nil_of_length_eq_add_one one) (by decide) ends
  obtain rfl : s₁ = (s.evalProgram 10 p).2 :=
    congrArg Prod.snd ((first.unique
      ((comesTo_iff_runsTo hp (by decide) _).mpr (.of_ok run))).trans run.symm)
  obtain ⟨o, whole, alike⟩ := there _ ((comesTo_iff_runsTo hq (by decide) _).mpr
    ⟨ne_exhausted_of_integer? called, 10, rfl⟩)
  exact ⟨o, whole, alike.result.integer?_eq.trans called⟩

/-! ### Where places matter -/

/-- The place where the body of a function starts. -/
def placeOf (f : Closure) : Nat := (f.body.head?.map fun e => e.span.start).getD 0

/-- A class that looks at places: `Place.of` gives the place where the body of a function starts. -/
def placeClass : HostClass :=
  (HostClass.named "Place").static "of" [.function] fun
    | [.function f] => .answer (.ok (.int (.ofNat (placeOf f))))
    | _ => .answer (.ok .null)

/-- Texts are not in sequence where places matter. A host that looks at places finds the function of
`.Place.of(() { null; })` further back behind `null;` and a newline than at the start of a text. And
behind enough blanks, 32 bits do not hold the place of that call any more. -/
theorem out_of_sequence :
    let s := Session.start (Registry.empty.register placeClass) Config.default World.empty
      (Console.ofInput []) Tracer.disabled
    let second := ".Place.of(() { null; });"
    let blanks := String.ofList (List.replicate (Number.limit32 - 1) ' ')
    (∃ p q, Program.ofSource "null;" = .ok p ∧ Program.ofSource second = .ok q ∧
      q.statements ≠ [] ∧ ("null;" ++ "\n" ++ second).utf8ByteSize ≤ s.config.maxSourceSize ∧
      ∃ v s₁ o o', s.ending 10 p = .ok v ∧ s.ComesTo "null;" (.ok v, s₁) ∧
        s₁.ComesTo second o ∧ s.ComesTo ("null;" ++ "\n" ++ second) o' ∧ ¬AlikeOutcomes o' o) ∧
      ∃ p r, Program.ofSource blanks = .ok p ∧
        Program.ofSource (blanks ++ "\n" ++ second) = .ok r ∧
        ∃ e ∈ r.statements, Number.limit32 ≤ e.span.start := by
  intro s second blanks
  let p := (Program.ofSource "null;").toOption.get (by decide +kernel)
  let q := (Program.ofSource second).toOption.get (by decide +kernel)
  let both := (Program.ofSource ("null;" ++ "\n" ++ second)).toOption.get (by decide +kernel)
  have hp : Program.ofSource "null;" = .ok p := eq_ok_get _
  have hq : Program.ofSource second = .ok q := eq_ok_get _
  have hboth : Program.ofSource ("null;" ++ "\n" ++ second) = .ok both := eq_ok_get _
  have one : q.statements.length = 1 := by decide +kernel
  have filled : q.statements ≠ [] := List.ne_nil_of_length_eq_add_one one
  refine ⟨⟨p, q, hp, hq, filled, by decide, ?_⟩, ?_⟩
  · have ends := eq_ok_get (r := s.ending 10 p) (by decide +kernel)
    obtain ⟨m, -, -, run⟩ := evalProgram_of_ending ends
    have apart : integer? (evalProgram 10 q (s.evalProgram 10 p).2).1 = some 15 := by
      decide +kernel
    have together : integer? (s.evalProgram 10 both).1 = some 21 := by decide +kernel
    have fits : second.utf8ByteSize ≤ Config.default.maxSourceSize := by decide
    rw [run] at apart
    refine ⟨_, _, _, _, ends, (comesTo_iff_runsTo hp (by decide) _).mpr (.of_ok run),
      (comesTo_iff_runsTo hq fits _).mpr ⟨ne_exhausted_of_integer? apart, 10, rfl⟩,
      (comesTo_iff_runsTo hboth (by decide) _).mpr ⟨ne_exhausted_of_integer? together, 10, rfl⟩,
      fun alike => ?_⟩
    have same := alike.result.integer?_eq
    rw [apart, together] at same
    exact absurd same (by decide)
  · obtain ⟨p', r, hp', hr, parts⟩ := Program.ofSource_behind_blanks (Number.limit32 - 1) hq
    obtain ⟨e, mem⟩ := List.exists_mem_of_ne_nil _ filled
    refine ⟨p', r, hp', hr, move (· + (Number.limit32 - 1 + 1)) e, ?_, ?_⟩
    · rw [parts]
      exact List.mem_map_of_mem mem
    · rw [Expr.span_move]
      exact Nat.le_add_left _ _

end Session

end ScriptConsole
