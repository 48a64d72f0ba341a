import ScriptConsole.Proofs.Tracing.Ledger

/-!
# What Evaluation Does with the Console

Evaluation prints, and that is all it does with the console: the lines that wait to be read stay as
they are, a console that is open stays open, and what has been printed before stays in front of what
is printed now. Nor does anything depend on the console. The same lines are printed on every
console, and everything else that happens is the same as well (`Run.Prints`).

Among the steps of evaluation only `print` prints, and a callable of the host is not given the
console.

## Main results

* `Task.prints_run`: whole evaluations.
-/

namespace ScriptConsole

/-! ### Lines on a console -/

namespace Console

/-- Prints some lines. -/
def printAll (c : Console) (lines : List String) : Console := lines.foldl print c

/-- Lines printed one after the other. -/
theorem printAll_append (c : Console) (lines lines' : List String) :
    c.printAll (lines ++ lines') = (c.printAll lines).printAll lines' :=
  List.foldl_append

/-- They stand behind the output there is. -/
@[simp] theorem output_printAll (c : Console) (lines : List String) :
    (c.printAll lines).output.toList = c.output.toList ++ lines := by
  induction lines generalizing c with
  | nil => exact (List.append_nil _).symm
  | cons line lines ih =>
      rw [printAll, List.foldl_cons, ← printAll, ih, output_print, List.append_assoc]
      rfl

/-- They leave the input as it is. -/
@[simp] theorem input_printAll (c : Console) (lines : List String) :
    (c.printAll lines).input = c.input := by
  induction lines generalizing c with
  | nil => rfl
  | cons line lines ih => exact (ih _).trans (input_print c line)

/-- They do not close the console. -/
@[simp] theorem closed_printAll (c : Console) (lines : List String) :
    (c.printAll lines).closed = c.closed := by
  induction lines generalizing c with
  | nil => rfl
  | cons line lines ih => exact (ih _).trans (closed_print c line)

end Console

/-- Which lines wait does not matter to printing. -/
theorem Console.printAll_waiting (c : Console) (lines input : List String) :
    ({ c with input } : Console).printAll lines = { c.printAll lines with input } := by
  induction lines generalizing c with
  | nil => rfl
  | cons line lines ih => exact ih (c.print line)

/-- The machine with another console. -/
def Machine.withConsole (m : Machine) (console : Console) : Machine := { m with console }

/-- A machine has the console that it has. -/
@[simp] theorem Machine.withConsole_self (m : Machine) : m.withConsole m.console = m := rfl

/-! ### Runs that print -/

namespace Run

variable {α β : Type}

/-- A run that does nothing with the console but print. It prints the same lines on every console,
and what else it does is the same on every console. -/
def Prints (x : Run α) : Prop :=
  ∀ m : Machine, ∃ (out : Except Stop α × Machine) (lines : List String), ∀ c : Console,
    x (m.withConsole c) = (out.1, out.2.withConsole (c.printAll lines))

/-- A stop prints nothing. -/
theorem prints_stop (s : Stop) : (stop s : Run α).Prints :=
  fun m => ⟨(.error s, m), [], fun _ => rfl⟩

/-- A result prints nothing. -/
theorem prints_pure (a : α) : (pure a : Run α).Prints := fun m => ⟨(.ok a, m), [], fun _ => rfl⟩

/-- What is done with the frames prints nothing. -/
theorem prints_onFrames (f : Frames → α × Frames) : (onFrames f).Prints := fun m =>
  ⟨(.ok (f m.frames).1, { m with frames := (f m.frames).2 }), [], fun _ => rfl⟩

/-- What is done with the world prints nothing. -/
theorem prints_onWorld (f : World → α × World) : (onWorld f).Prints := fun m =>
  ⟨(.ok (f m.world).1, { m with world := (f m.world).2 }), [], fun _ => rfl⟩

/-- Lines of one run, then those of the other. -/
theorem Prints.bind {x : Run α} {f : α → Run β} (hx : x.Prints) (hf : ∀ a, (f a).Prints) :
    (x >>= f).Prints := by
  intro m
  obtain ⟨⟨_ | a, m'⟩, lines, first⟩ := hx m
  · exact ⟨(.error _, m'), lines, fun c => bind_stop (first c)⟩
  · obtain ⟨out, more, second⟩ := hf a m'
    refine ⟨out, lines ++ more, fun c => ?_⟩
    rw [bind_ok (first c), Console.printAll_append]
    exact second _

/-- A call more makes no difference to the lines. -/
theorem Prints.deeper {x : Run α} (h : x.Prints) : x.deeper.Prints := by
  intro m
  obtain ⟨out, lines, body⟩ := h m.deeper
  refine ⟨(out.1, out.2.shallower), lines, fun c => ?_⟩
  rw [deeper_apply, show (m.withConsole c).deeper = m.deeper.withConsole c from rfl, body]
  rfl

/-- Neither does an exit that ends. -/
theorem Prints.absorbExit {x : Run Value} (h : x.Prints) : x.absorbExit.Prints := by
  intro m
  obtain ⟨⟨result, m'⟩, lines, body⟩ := h m
  -- what becomes of the result does not depend on the console
  refine ⟨Run.absorbExit (fun m => (result, m)) m', lines, fun c => ?_⟩
  unfold Run.absorbExit
  rw [body]
  rcases result with (⟨d, v⟩ | _ | _ | _) | v
  · dsimp only
    split <;> rfl
  all_goals rfl

/-- Lines of the failed run, then those of its handler. -/
theorem Prints.catchFault {x : Run α} {handler : EvalError → Run α} (hx : x.Prints)
    (hh : ∀ e, (handler e).Prints) : (x.catchFault handler).Prints := by
  intro m
  obtain ⟨⟨result, m'⟩, lines, first⟩ := hx m
  unfold Run.catchFault
  simp only [first]
  rcases result with (⟨d, v⟩ | e | _ | _) | v
  case error.fault =>
      obtain ⟨out, more, second⟩ := hh e m'
      refine ⟨out, lines ++ more, fun c => ?_⟩
      rw [Console.printAll_append]
      exact second _
  all_goals exact ⟨(_, m'), lines, fun c => rfl⟩

/-- Printing is carried along plans. -/
theorem carried_prints : Carried fun x => x.Prints where
  nothing := prints_pure
  sequence := Prints.bind
  body h := h.deeper.absorbExit
  attempt := Prints.catchFault

/-- A simple run prints lines at most. -/
theorem Simple.prints {x : Run α} (h : x.Simple) : x.Prints := by
  induction h with
  | pure a => exact prints_pure a
  | fault e => exact prints_stop _
  | look f => exact fun m => ⟨(.ok (f m.frames m.world), m), [], fun _ => rfl⟩
  | onWorld f => exact prints_onWorld f
  | print line => exact fun m => ⟨(.ok (), m), [line], fun _ => rfl⟩
  | bind _ _ ihx ihf => exact ihx.bind ihf

end Run

/-! ### What evaluation prints -/

/-- Builtins print lines at most. -/
theorem Plain.prints_apply (registry : Registry) (env : FrameId) (b : Builtin)
    (args : List Value) : (apply registry env b args).Prints := by
  rcases apply_cases registry env b args with simple | ⟨a, v, rfl, rfl⟩ | ⟨v, _, exit⟩ |
    ⟨d, v, rfl, rfl⟩ | ⟨stuck, -⟩
  · exact simple.prints
  · exact (simple_nameArgument _ a).prints.bind fun name => Run.prints_onFrames _
  · rw [exit]
    exact Run.prints_stop _
  · exact (simple_exitDepth d).prints.bind fun depth => Run.prints_stop _
  · rw [stuck]
    exact Run.prints_stop _

/-- So does the beginning of a call. -/
theorem Task.prints_beginCall (st : Setting) (f : Closure) (args : List Value) :
    (beginCall st f args).Prints := by
  intro m
  have same (c : Console) : beginCall st f args (m.withConsole c) =
      ((beginCall st f args m).1, (beginCall st f args m).2.withConsole c) := by
    rw [beginCall_apply, beginCall_apply]
    split
    · rfl
    · change (if st.maxDepth ≤ m.depth then _ else _) = _
      split <;> rfl
  exact ⟨beginCall st f args m, [], same⟩

/-- A callable of the host does not see the console. -/
theorem HostAccess.prints_arrive (registry : Registry) (a : Arrival) :
    (arrive registry a).Prints := by
  intro m
  refine ⟨arrive registry a m, [], fun c => ?_⟩
  rw [arrive, call_apply, call_apply]
  rfl

/-- Every step of a task prints lines at most. -/
theorem Task.Step.prints {st : Setting} {t : Task} {β : Type} {x : Run β} (h : Step st t x)
    (simple : t.asksHost = true → x.Simple) : x.Prints := by
  cases h with
  | simple h => exact h.prints
  | host asks _ => exact (simple asks).prints
  | define => exact Run.prints_onFrames _
  | builtin => exact Plain.prints_apply _ _ _ _
  | begin => exact prints_beginCall _ _ _

/-- Whatever is evaluated prints and does nothing else with the console. -/
theorem Task.prints_run (st : Setting) (fuel : Nat) (t : Task) : (t.run st fuel).Prints :=
  Run.carried_prints.run_arriving Task.Step.prints (HostAccess.prints_arrive st.registry)
    (Run.prints_stop _) fuel t

/-- The end of a program prints lines at most. -/
theorem Run.Prints.endProgram {x : Run Value} (h : x.Prints) : (endProgram x).Prints := by
  intro m
  obtain ⟨⟨result, m'⟩, lines, body⟩ := h m
  refine ⟨ScriptConsole.endProgram (fun m => (result, m)) m', lines, fun c => ?_⟩
  unfold ScriptConsole.endProgram
  rw [body]
  rcases result with (_ | _ | _ | _) | _ <;> rfl

end ScriptConsole
