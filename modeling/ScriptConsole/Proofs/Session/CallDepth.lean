import ScriptConsole.Proofs.Evaluation.Depth
import ScriptConsole.Proofs.Session.Operations

/-!
# Call Depth Over Sessions

No function body is running in a session between two operations, whatever the operations before have
come to: each program ends as level as it starts. That the count is set to zero before a program
therefore changes nothing, and every program finds room for as many bodies as the settings allow.

## Main results

* `Session.idle_after`: between operations, nothing is running.
* `call_depth_law`: **the law of depth** for runs and for sessions.
-/

namespace ScriptConsole

namespace Session

/-- Whether no function body is running. -/
def Idle (s : Session) : Prop := s.machine.depth = 0

/-- A program that is evaluated while nothing is running is evaluated on the machine as it is. -/
theorem evalProgram_of_idle {s : Session} (idle : s.Idle) (fuel : Nat) (p : Program) :
    s.evalProgram fuel p =
      let (result, machine) := ScriptConsole.evalProgram s.setting fuel rootFrame p s.machine
      (resultOf result, { s with machine }) := by
  have same : s.machine.reset = s.machine := by rw [Machine.reset, ← idle]
  rw [evalProgram_eq, same]
  rfl

/-- Sessions stay idle between operations. -/
theorem idle_kept : Kept Idle where
  program fuel p {s} idle := by
    rw [evalProgram_of_idle idle]
    exact (level_endProgram ((task p).level_run s.setting fuel) s.machine).trans idle
  console _ {_} idle := idle
  setGlobal _ _ {_} idle := idle
  finish _ {_} idle := idle

/-- Between operations, nothing is running. -/
theorem idle_after (registry : Registry) (config : Config) (world : World) (console : Console)
    (tracer : Tracer) (ops : List Operation) :
    ((start registry config world console tracer).after ops).Idle :=
  idle_kept.after ops rfl

/-- What comes right behind the start of a call of a function with as many arguments as it takes
in a session, unless the budget is used up: the call is refused if the calls around it are as many
as the settings allow, and otherwise they are fewer and its body starts. -/
def Admits (s : Session) (ctx : List Task) (f : Closure) (args : List Value) (m : Machine)
    (next : Option Event) : Prop :=
  next = some (.stop ctx (.closure f args) (.error .exhausted) m) ∨
    if callCount ctx = s.config.maxCallDepth then
      next = some
        (.stop ctx (.closure f args) (.error (.fault (.callDepth s.config.maxCallDepth))) m)
    else
      callCount ctx < s.config.maxCallDepth ∧ ∃ frame m', m'.depth = m.depth + 1 ∧
        next = some (.start (.closure f args :: ctx) (.block frame .null f.body) m')

/-- The full depth is there for the next program of a session. -/
structure FullDepth (s : Session) : Prop where
  /-- Nothing is running, -/
  idle : s.machine.depth = 0
  /-- so that to set the count to zero changes nothing. -/
  reset : ∀ (fuel : Nat) (p : Program), s.evalProgram fuel p =
    let (result, machine) := ScriptConsole.evalProgram s.setting fuel rootFrame p s.machine
    (resultOf result, { s with machine })
  /-- At every event of the next program, the bodies that are running are those of the calls around
  the event, and no more than the settings allow. -/
  running : ∀ (fuel : Nat) (p : Program), ∀ e ∈ history s.setting fuel [] (task p) s.machine,
    e.machine.depth = callCount e.context ∧ callCount e.context ≤ s.config.maxCallDepth
  /-- Its calls are refused exactly if that many are running. -/
  admission : ∀ (fuel : Nat) (p : Program) {pre post : List Event} {ctx : List Task} {f : Closure}
    {args : List Value} {m : Machine},
    history s.setting fuel [] (task p) s.machine = pre ++ .start ctx (.closure f args) m :: post →
    args.length = f.params.length → s.Admits ctx f args m post.head?

/-- In an idle session the count is that of the calls that are running. -/
theorem running_of_idle {s : Session} (idle : s.Idle) {fuel : Nat} {p : Program} {e : Event}
    (h : e ∈ history s.setting fuel [] (task p) s.machine) :
    e.machine.depth = callCount e.context ∧ callCount e.context ≤ s.config.maxCallDepth := by
  have law := depth_law s.setting fuel (task p) s.machine
  have running := law.running h
  rw [show s.machine.depth = 0 from idle, Nat.zero_add] at running
  have bounded := law.bounded h (by rw [show s.machine.depth = 0 from idle]; exact Nat.zero_le _)
  exact ⟨running, running ▸ bounded⟩

/-- In an idle session the next program has the full depth. -/
theorem fullDepth_of_idle {s : Session} (idle : s.Idle) : s.FullDepth where
  idle := idle
  reset := evalProgram_of_idle idle
  running _ _ _ h := running_of_idle idle h
  admission fuel p {pre post ctx f args m} h arity := by
    have mem : .start ctx (.closure f args) m ∈ history s.setting fuel [] (task p) s.machine := by
      simp [h]
    obtain ⟨running, bounded⟩ := running_of_idle idle mem
    simp only [Event.machine, Event.context] at running bounded
    rcases admission_of_start h arity with exhausted | admitted
    · exact .inl exhausted
    right
    have room : s.setting.maxDepth ≤ m.depth ↔ callCount ctx = s.config.maxCallDepth := by
      rw [running]
      exact ⟨bounded.antisymm, Eq.ge⟩
    split at admitted
    · next full =>
      rw [if_pos (room.mp full)]
      exact admitted
    · next free =>
      rw [if_neg (mt room.mpr free)]
      refine ⟨?_, admitted⟩
      exact lt_of_le_of_ne bounded (mt room.mpr free)

end Session

/-- **The law of depth.** Every run is level, runs as many bodies as there are calls around, and
refuses exactly the calls that there is no room for; and after any operations on a session, the next
program finds the full depth. -/
theorem call_depth_law :
    (∀ (st : Setting) (fuel : Nat) (t : Task) (m : Machine), DepthLaw st fuel t m) ∧
      ∀ (registry : Registry) (config : Config) (world : World) (console : Console)
        (tracer : Tracer) (ops : List Session.Operation),
        ((Session.start registry config world console tracer).after ops).FullDepth :=
  ⟨depth_law, fun registry config world console tracer ops =>
    Session.fullDepth_of_idle (Session.idle_after registry config world console tracer ops)⟩

end ScriptConsole
