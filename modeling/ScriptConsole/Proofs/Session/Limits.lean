import ScriptConsole.Host.Demo
import ScriptConsole.Proofs.Evaluation.Limits
import ScriptConsole.Proofs.Session.Operations

/-!
# Sessions With a Greater Limit

A session may be given a greater limit for the depth of calls without any program noticing that did
not meet the smaller one: a program in whose evaluation no call is refused has the same result with
both limits, and leaves the same frames, the same world, console and trace behind. A refusal that a
handler takes counts as one, and so does one whose error is thrown again in another form.

## Main results

* `Session.raised_limit`: **programs with two limits**.
-/

namespace ScriptConsole.Session

/-- The session with another limit for the depth of calls. -/
def withLimit (limit : Nat) (s : Session) : Session :=
  { s with config := { s.config with maxCallDepth := limit } }

/-- What happens while a program is evaluated. -/
def events (fuel : Nat) (p : Program) (s : Session) : List Event :=
  history s.setting fuel [] (task p) s.machine.reset

variable {s : Session} {limit fuel : Nat} {p : Program}

/-- A program whose evaluation is in step with that within another limit has the same effects. -/
theorem evalProgram_withLimit
    (same : InStep s.setting limit fuel [] (task p) s.machine.reset) :
    (s.withLimit limit).evalProgram fuel p =
      ((s.evalProgram fuel p).1, (s.evalProgram fuel p).2.withLimit limit) := by
  have result : (task p).run (s.withLimit limit).setting fuel s.machine.reset =
      (task p).run s.setting fuel s.machine.reset := same.1
  have ends : endProgram ((task p).run (s.withLimit limit).setting fuel) s.machine.reset =
      endProgram ((task p).run s.setting fuel) s.machine.reset := by
    simp only [endProgram, result]
  exact congrArg (fun o => (resultOf o.1, { s.withLimit limit with machine := o.2 })) ends

/-- **Programs with two limits.** A program none of whose calls is refused for its depth comes to
the same result with every greater limit, on the same frames, world, console and trace, and the same
happens on the way; and so does a source text that holds the program. -/
theorem raised_limit (le : s.config.maxCallDepth ≤ limit)
    (unrefused : Unrefused (s.events fuel p)) :
    (s.withLimit limit).evalProgram fuel p =
        ((s.evalProgram fuel p).1, (s.evalProgram fuel p).2.withLimit limit) ∧
      (s.withLimit limit).events fuel p = s.events fuel p ∧
      ∀ source, Program.ofSource source = .ok p →
        (s.withLimit limit).eval fuel source =
          ((s.eval fuel source).1, (s.eval fuel source).2.withLimit limit) := by
  have same : InStep s.setting limit fuel [] (task p) s.machine.reset :=
    Task.inStep le fuel [] (task p) s.machine.reset unrefused
  refine ⟨evalProgram_withLimit same, same.2, fun source h => ?_⟩
  rcases Nat.lt_or_ge s.config.maxSourceSize source.utf8ByteSize with large | fits
  · have refused : (s.withLimit limit).config.maxSourceSize < source.utf8ByteSize := large
    rw [eval, eval, if_pos large, if_pos refused]
    rfl
  · have read : source.utf8ByteSize ≤ (s.withLimit limit).config.maxSourceSize := fits
    rw [eval, eval, if_neg (Nat.not_lt.mpr fits), if_neg (Nat.not_lt.mpr read), h]
    exact evalProgram_withLimit same

/-- A handler that takes an error, with room for one body at a time. -/
theorem raised_limit_handler :
    let name (text : String) : Ident := ⟨text, .empty 0⟩
    let call (callee : String) (args : List Expr) : Expr :=
      .call (.var (name callee)) args (.empty 0)
    let func (params : List Ident) (body : Expr) : Expr := .func params [body] (.empty 0)
    let p : Program := ⟨[call "tryCatch"
      [func [] (call "throw" [.literal (.int 1) (.empty 0)]), func [name "e"] (.var (name "e"))]],
      .empty 0⟩
    let s := start Demo.registry ⟨1, 100, false⟩ World.empty (Console.ofInput []) Tracer.disabled
    s.config.maxCallDepth ≤ 200 ∧ Unrefused (s.events 20 p) ∧
      (s.withLimit 200).evalProgram 20 p =
        ((s.evalProgram 20 p).1, (s.evalProgram 20 p).2.withLimit 200) := by
  intro name call func p s
  have le : s.config.maxCallDepth ≤ 200 := by decide
  have unrefused : Unrefused (s.events 20 p) := by
    unfold Unrefused
    decide +kernel
  exact ⟨le, unrefused, (raised_limit le unrefused).1⟩

end ScriptConsole.Session
