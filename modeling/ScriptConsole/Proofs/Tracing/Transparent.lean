import ScriptConsole.Proofs.Tracing.Sessions

/-!
# Tracing Is Transparent

Two evaluations that differ in nothing but their tracers come to the same result and leave the same
machine, apart from the tracers again. This is so for any two tracers: a disabled one, one whose
sink accepts everything, and one whose sink refuses some lines or all from some line on.

Nothing has to be compared step by step for it. Both evaluations are compared with the same third
one, through the ledger of what was called.

## Main results

* `tracing_transparent`: **transparency** of tracing, for evaluations and for sessions.
-/

namespace ScriptConsole

/-- Two machines that differ in nothing but their tracers. -/
structure SameButTraced (m₁ m₂ : Machine) : Prop where
  /-- All bindings in all frames. -/
  frames : m₁.frames = m₂.frames
  /-- The states of all objects of the host. -/
  world : m₁.world = m₂.world
  /-- What has been printed, and what waits to be read. -/
  console : m₁.console = m₂.console
  /-- How many function bodies are running. -/
  depth : m₁.depth = m₂.depth

theorem sameButTraced_withTracer (m : Machine) (tracer₁ tracer₂ : Tracer) :
    SameButTraced (m.withTracer tracer₁) (m.withTracer tracer₂) := ⟨rfl, rfl, rfl, rfl⟩

/-- The run of a task with one tracer and with another. -/
theorem Task.run_sameButTraced (st : Setting) (fuel : Nat) (t : Task) (m : Machine)
    (tracer₁ tracer₂ : Tracer) :
    (t.run st fuel (m.withTracer tracer₁)).1 = (t.run st fuel (m.withTracer tracer₂)).1 ∧
      SameButTraced (t.run st fuel (m.withTracer tracer₁)).2
        (t.run st fuel (m.withTracer tracer₂)).2 := by
  have traced := t.traced_run st fuel m
  rw [(traced tracer₁).1, (traced tracer₂).1]
  exact ⟨rfl, sameButTraced_withTracer _ _ _⟩

namespace Session

/-- The evaluation of a source text with one tracer and with another. -/
theorem eval_sameButTraced (fuel : Nat) (source : String) (s : Session)
    (tracer₁ tracer₂ : Tracer) :
    let (result₁, s₁) := (s.withTracer tracer₁).eval fuel source
    let (result₂, s₂) := (s.withTracer tracer₂).eval fuel source
    result₁ = result₂ ∧ s₁.registry = s₂.registry ∧ s₁.config = s₂.config ∧
      SameButTraced s₁.machine s₂.machine := by
  rw [(eval_withTracer fuel s tracer₁ source).1, (eval_withTracer fuel s tracer₂ source).1]
  exact ⟨rfl, rfl, rfl, sameButTraced_withTracer _ _ _⟩

/-- All tracers are told of the same calls. -/
theorem tracer_eval_withTracer (fuel : Nat) (source : String) (s : Session) (tracer : Tracer) :
    ((s.withTracer tracer).eval fuel source).2.machine.tracer =
      tracer.recordAll s.registry (s.visits fuel source) := by
  rw [(eval_withTracer fuel s tracer source).1, tracer_withTracer]

end Session

/-- **Transparency.** Whatever is evaluated with one tracer and with another comes to the same
result and the same machine apart from the tracer, and so does a source text in a session; and each
tracer is told of the same calls, whatever its sink makes of them. -/
theorem tracing_transparent :
    (∀ (st : Setting) (fuel : Nat) (t : Task) (m : Machine) (tracer₁ tracer₂ : Tracer),
      (t.run st fuel (m.withTracer tracer₁)).1 = (t.run st fuel (m.withTracer tracer₂)).1 ∧
        SameButTraced (t.run st fuel (m.withTracer tracer₁)).2
          (t.run st fuel (m.withTracer tracer₂)).2) ∧
    (∀ (s : Session) (fuel : Nat) (source : String) (tracer₁ tracer₂ : Tracer),
      let (result₁, s₁) := (s.withTracer tracer₁).eval fuel source
      let (result₂, s₂) := (s.withTracer tracer₂).eval fuel source
      result₁ = result₂ ∧ s₁.registry = s₂.registry ∧ s₁.config = s₂.config ∧
        SameButTraced s₁.machine s₂.machine) ∧
    ∀ (s : Session) (fuel : Nat) (source : String), ∃ calls : List Visit, ∀ tracer : Tracer,
      ((s.withTracer tracer).eval fuel source).2.machine.tracer =
        tracer.recordAll s.registry calls :=
  ⟨Task.run_sameButTraced, fun s fuel source => s.eval_sameButTraced fuel source,
    fun s fuel source => ⟨s.visits fuel source, s.tracer_eval_withTracer fuel source⟩⟩

end ScriptConsole
