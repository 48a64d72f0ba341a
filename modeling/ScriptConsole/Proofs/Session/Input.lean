import ScriptConsole.Proofs.Evaluation.Printing
import ScriptConsole.Proofs.Session.Sequence

/-!
# The Lines That Wait at the Console

Evaluation appends to what has been printed and leaves the rest of the console alone
(`Console.Appended`). So the lines that wait at the console wait until `Session.run` takes them. It
answers them in their order, each of them once, and passes over the blank ones. A line that fails is
counted, and the next one is answered like any other.

That is to say that a run comes to what the lines come to when they are typed one after the other
(`Session.evalLines`): evaluation takes no notice of the lines that still wait, so it does not
matter that these get fewer.

Lines are answered within a budget. Where each of them comes to an outcome within some budget
(`Session.Answered`), one budget suffices for all of them.

## Main results

* `Session.prints_eval`, `Session.prints_evalLine`: what evaluation does with the console.
* `Session.run_eq`: a run is its lines typed one after the other.
* `console_law`: **what happens to the console**, in evaluation and in a run.
-/

namespace ScriptConsole

/-- What a console has become when lines were printed on it and nothing else was done. -/
structure Console.Appended (before after : Console) : Prop where
  /-- The same lines wait, -/
  input : after.input = before.input
  /-- it has been closed or not as before, -/
  closed : after.closed = before.closed
  /-- and all that had been printed comes first. -/
  output : before.output.toList <+: after.output.toList

/-- Lines are appended to the output. -/
theorem Console.appended_printAll (c : Console) (lines : List String) :
    c.Appended (c.printAll lines) :=
  ⟨input_printAll c lines, closed_printAll c lines,
    ⟨lines, (output_printAll c lines).symm⟩⟩

/-- A run that prints and does nothing else with the console appends to it. -/
theorem Run.Prints.appended {α : Type} {x : Run α} (h : x.Prints) (m : Machine) :
    m.console.Appended (x m).2.console := by
  obtain ⟨out, lines, same⟩ := h m
  have own := same m.console
  rw [Machine.withConsole_self] at own
  rw [own]
  exact m.console.appended_printAll lines

namespace Session

variable {s s' : Session} {fuel : Nat}

/-- A session has the console that it has. -/
@[simp] theorem withConsole_self (s : Session) : s.withConsole s.machine.console = s := rfl

/-! ### What a source text prints -/

/-- Something that is done in a session, and to its console nothing but printing. The same lines are
printed on every console, and everything else is the same on every console. -/
def Prints {α : Type} (f : Session → α × Session) : Prop :=
  ∀ s : Session, ∃ (out : α × Session) (lines : List String), ∀ c : Console,
    f (s.withConsole c) = (out.1, out.2.withConsole (c.printAll lines))

/-- What prints lines at most appends to the output. -/
theorem Prints.appended {α : Type} {f : Session → α × Session} (h : Prints f) (s : Session) :
    s.machine.console.Appended (f s).2.machine.console := by
  obtain ⟨out, lines, same⟩ := h s
  have own := same s.machine.console
  rw [withConsole_self] at own
  rw [own]
  exact s.machine.console.appended_printAll lines

/-- A program prints lines at most. -/
theorem prints_evalProgram (fuel : Nat) (p : Program) : Prints (evalProgram fuel p) := by
  intro s
  obtain ⟨out, lines, same⟩ :=
    ((task p).prints_run s.setting fuel).endProgram s.machine.reset
  refine ⟨(resultOf out.1, { s with machine := out.2 }), lines, fun c => ?_⟩
  have reset : (s.withConsole c).machine.reset = s.machine.reset.withConsole c := rfl
  rw [evalProgram_eq, reset, show (s.withConsole c).setting = s.setting from rfl, same]
  rfl

/-- So does a source. -/
theorem prints_eval (fuel : Nat) (source : String) : Prints (eval fuel source) := by
  intro s
  unfold eval
  by_cases large : s.config.maxSourceSize < source.utf8ByteSize
  · exact ⟨(.error (.tooLarge source.utf8ByteSize s.config.maxSourceSize), s), [],
      fun c => if_pos large⟩
  · cases parsed : Program.ofSource source with
    | error e => exact ⟨(.error (.source e), s), [], fun c => if_neg large⟩
    | ok p =>
        obtain ⟨out, lines, same⟩ := prints_evalProgram fuel p s
        exact ⟨out, lines, fun c => (if_neg large).trans (same c)⟩

/-- The report of a result is at most one line, which does not depend on the console. -/
theorem exists_report (result : Except Failure Value) (s : Session) : ∃ lines : List String,
    ∀ c : Console, (s.withConsole c).report result = s.withConsole (c.printAll lines) := by
  rcases result with e | v
  · exact ⟨[s!"error: {e.message s.legend}"], fun c => rfl⟩
  cases v with
  | null => exact ⟨[], fun c => rfl⟩
  | _ =>
      by_cases echo : s.config.echoResults = true
      · exact ⟨[Value.repr s.legend _], fun c => if_pos echo⟩
      · exact ⟨[], fun c => if_neg echo⟩

/-- A line of input prints lines at most. -/
theorem prints_evalLine (fuel : Nat) (line : String) : Prints (evalLine fuel line) := by
  intro s
  obtain ⟨⟨result, s'⟩, lines, evaluated⟩ := prints_eval fuel (terminated (trimmed line)) s
  obtain ⟨more, reported⟩ := exists_report result s'
  refine ⟨(result, s'), lines ++ more, fun c => ?_⟩
  unfold evalLine
  rw [evaluated, Console.printAll_append]
  exact congrArg (Prod.mk result) (reported (c.printAll lines))

/-! ### Lines typed one after the other -/

/-- The session with other lines waiting at its console. -/
def withInput (s : Session) (input : List String) : Session :=
  s.withConsole { s.machine.console with input }

/-- The last input is the one that counts. -/
@[simp] theorem withInput_withInput (s : Session) (input input' : List String) :
    (s.withInput input).withInput input' = s.withInput input' := rfl

/-- Which lines wait does not matter to what is evaluated. -/
theorem evalLine_withInput (fuel : Nat) (line : String) (s : Session) (input : List String) :
    (s.withInput input).evalLine fuel line =
      ((s.evalLine fuel line).1, (s.evalLine fuel line).2.withInput input) := by
  obtain ⟨out, lines, same⟩ := prints_evalLine fuel line s
  have own := same s.machine.console
  rw [withConsole_self] at own
  rw [withInput, same, own, Console.printAll_waiting]
  rfl

/-- Evaluates some lines as they are typed, one after the other, whether or not those before have
failed. -/
def evalLines (fuel : Nat) : List String → Session → List (Except Failure Value) × Session
  | [], s => ([], s)
  | line :: lines, s =>
    let (result, s) := s.evalLine fuel line
    let (results, s) := evalLines fuel lines s
    (result :: results, s)

/-- Lines that are evaluated do not look at the input that waits. -/
theorem evalLines_withInput (fuel : Nat) (lines : List String) (s : Session)
    (input : List String) :
    (s.withInput input).evalLines fuel lines =
      ((s.evalLines fuel lines).1, (s.evalLines fuel lines).2.withInput input) := by
  induction lines generalizing s with
  | nil => rfl
  | cons line lines ih =>
      unfold evalLines
      rw [evalLine_withInput]
      dsimp only
      rw [ih]

/-- The lines that are not blank. -/
def typed (lines : List String) : List String :=
  lines.filter fun line => !Text.allBlank line.toList

/-- The number of results that are failures. -/
def failureCount (results : List (Except Failure Value)) : Nat :=
  results.countP fun r => !r.isOk

/-- A value is no failure. -/
@[simp] theorem failureCount_ok (v : Value) (results : List (Except Failure Value)) :
    failureCount (.ok v :: results) = failureCount results :=
  List.countP_cons_of_neg (by simp [Except.isOk, Except.toBool])

/-- An error is one. -/
@[simp] theorem failureCount_error (e : Failure) (results : List (Except Failure Value)) :
    failureCount (.error e :: results) = failureCount results + 1 :=
  List.countP_cons_of_pos rfl

/-! ### Runs -/

/-- The session when no line waits any more and the console is closed. -/
def drained (s : Session) : Session := s.withConsole ⟨s.machine.console.output, [], true⟩

/-- The lines that wait are taken one by one. What is left of them is no concern of the lines
before, by induction on the lines. -/
theorem runLines_eq (fuel : Nat) {lines : List String} (waiting : s.machine.console.input = lines)
    (failures : Nat) :
    s.runLines fuel lines.length failures =
      (failures + failureCount (s.evalLines fuel (typed lines)).1,
        (s.evalLines fuel (typed lines)).2.withInput []) := by
  induction lines generalizing s failures with
  | nil =>
      have empty : s.withInput [] = s := by
        rw [← waiting]
        rfl
      exact Prod.ext rfl empty.symm
  | cons line rest ih =>
      have next : s.machine.console.nextLine =
          (some line, { s.machine.console with input := rest }) := by
        rw [Console.nextLine, waiting]
      have left (t : Session) := ih (s := t.withInput rest) rfl
      simp only [evalLines_withInput, withInput_withInput] at left
      rw [List.length_cons, runLines, next]
      dsimp only
      rw [show { s with machine := { s.machine with
        console := { s.machine.console with input := rest } } } = s.withInput rest from rfl]
      unfold answer
      -- a blank line is passed over, and leaves the session as it is
      by_cases blank : Text.allBlank line.toList = true
      · have skipped : typed (line :: rest) = typed rest :=
          List.filter_cons_of_neg (by simp [blank])
        rw [if_pos blank, skipped]
        exact left s failures
      · have answered : typed (line :: rest) = line :: typed rest :=
          List.filter_cons_of_pos (by simp [blank])
        rw [if_neg blank, answered, evalLine_withInput, evalLines]
        rcases s.evalLine fuel line with ⟨e | v, s'⟩
        · refine (left s' (failures + 1)).trans ?_
          rw [failureCount_error, Nat.add_right_comm]
          rfl
        · refine (left s' failures).trans ?_
          rw [failureCount_ok]

/-- A run comes to what the lines that wait come to when they are typed one after the other, without
the blank ones. -/
theorem run_eq (fuel : Nat) (s : Session) :
    s.run fuel =
      (failureCount (s.evalLines fuel (typed s.machine.console.input)).1,
        (s.evalLines fuel (typed s.machine.console.input)).2.drained) := by
  unfold run
  rw [runLines_eq fuel rfl, Nat.zero_add]
  rfl

/-! ### Lines that come to an outcome -/

/-- A line comes to the same within a greater budget, if it does not use the budget up. -/
theorem evalLine_of_le {fuel fuel' : Nat} (le : fuel ≤ fuel') {line : String}
    (ended : (s.evalLine fuel line).1 ≠ .error .exhausted) :
    s.evalLine fuel' line = s.evalLine fuel line := by
  unfold evalLine at ended ⊢
  rw [eval_of_le le ended]

/-- Whether a budget was used up can be told from the result. -/
instance decidableExhausted : (r : Except Failure Value) → Decidable (r = .error .exhausted)
  | .error .exhausted => isTrue rfl
  | .ok _ | .error (.source _) | .error (.eval _) | .error (.tooLarge _ _) | .error .stuck =>
    isFalse nofun

/-- What lines come to that are typed one after the other, each within whatever budget that takes.
-/
inductive Answered : Session → List String → List (Except Failure Value) → Session → Prop
  | nil (s : Session) : Answered s [] [] s
  | cons {s s' s'' : Session} {line : String} {lines : List String}
      {result : Except Failure Value} {results : List (Except Failure Value)} {fuel : Nat} :
      result ≠ .error .exhausted → s.evalLine fuel line = (result, s') →
      Answered s' lines results s'' → Answered s (line :: lines) (result :: results) s''

/-- One budget suffices for all lines, and so does every greater one. -/
theorem Answered.evalLines_eq {lines : List String} {results : List (Except Failure Value)}
    (h : Answered s lines results s') :
    ∃ fuel, ∀ fuel' ≥ fuel, s.evalLines fuel' lines = (results, s') := by
  induction h with
  | nil s => exact ⟨0, fun _ _ => rfl⟩
  | @cons s s₁ s₂ line lines result results fuel ended first _ ih =>
      obtain ⟨fuel', rest⟩ := ih
      refine ⟨max fuel fuel', fun more le => ?_⟩
      have enough : (s.evalLine fuel line).1 ≠ .error .exhausted := by
        rw [first]
        exact ended
      have same := evalLine_of_le (Nat.le_trans (Nat.le_max_left _ _) le) enough
      rw [evalLines, same, first]
      dsimp only
      rw [rest more (Nat.le_trans (Nat.le_max_right _ _) le)]

/-- Lines that do not use a budget up are answered. -/
theorem answered_evalLines (fuel : Nat) (lines : List String) (s : Session)
    (ended : ∀ r ∈ (s.evalLines fuel lines).1, r ≠ .error .exhausted) :
    Answered s lines (s.evalLines fuel lines).1 (s.evalLines fuel lines).2 := by
  induction lines generalizing s with
  | nil => exact .nil s
  | cons line lines ih =>
      obtain ⟨first, rest⟩ := List.forall_mem_cons.mp ended
      exact .cons first rfl (ih _ rest)

end Session

open Session in
/-- **The console.** Whatever is evaluated, a source text or a line as it is typed leaves the lines
that wait as they are, and the console open or closed as it is, and appends to what has been
printed. And a run answers all lines that wait: if each of those that are not blank comes to an
outcome when they are typed one after the other, whether or not the ones before have failed, then
the run comes to the session behind them, with no line waiting and the console closed, and to the
number of those that have failed. -/
theorem console_law :
    (∀ (st : Setting) (fuel : Nat) (t : Task) (m : Machine),
      m.console.Appended (t.run st fuel m).2.console) ∧
    (∀ (fuel : Nat) (source : String) (s : Session),
      s.machine.console.Appended (s.eval fuel source).2.machine.console) ∧
    (∀ (fuel : Nat) (line : String) (s : Session),
      s.machine.console.Appended (s.evalLine fuel line).2.machine.console) ∧
    ∀ (s s' : Session) (results : List (Except Failure Value)),
      Answered s (typed s.machine.console.input) results s' →
        ∃ fuel, ∀ fuel' ≥ fuel, s.run fuel' =
          (failureCount results, s'.withConsole ⟨s'.machine.console.output, [], true⟩) := by
  refine ⟨fun st fuel t m => (t.prints_run st fuel).appended m,
    fun fuel source s => (prints_eval fuel source).appended s,
    fun fuel line s => (prints_evalLine fuel line).appended s, ?_⟩
  intro s s' results answered
  obtain ⟨fuel, enough⟩ := answered.evalLines_eq
  refine ⟨fuel, fun fuel' le => ?_⟩
  rw [run_eq, enough fuel' le]
  rfl

open Session in
/-- Of four lines, one is blank and one is no program. -/
theorem console_law_failing_line :
    let input := ["x = 2;", " ", "oops(", "x * 3;"]
    let s := Session.start Demo.registry Config.default World.empty (Console.ofInput input)
      Tracer.disabled
    let results := (s.evalLines 20 ["x = 2;", "oops(", "x * 3;"]).1
    let s' := (s.evalLines 20 ["x = 2;", "oops(", "x * 3;"]).2
    Answered s (typed s.machine.console.input) results s' ∧ failureCount results = 1 ∧
      ∃ fuel, ∀ fuel' ≥ fuel, s.run fuel' =
        (failureCount results, s'.withConsole ⟨s'.machine.console.output, [], true⟩) := by
  intro input s results s'
  have some : typed s.machine.console.input = ["x = 2;", "oops(", "x * 3;"] := by decide +kernel
  have answered : Answered s (typed s.machine.console.input) results s' := by
    rw [some]
    exact answered_evalLines 20 _ s (by decide +kernel)
  exact ⟨answered, by decide +kernel, console_law.2.2.2 s s' results answered⟩

end ScriptConsole
