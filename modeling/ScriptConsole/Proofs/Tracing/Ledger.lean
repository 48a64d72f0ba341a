import ScriptConsole.Proofs.Evaluation.History
import ScriptConsole.Proofs.Tracing.Arrivals

/-!
# The Ledger of Host Calls

The ledger of an evaluation lists the callables of the host that it runs, in order (`visits`). Each
entry, a `Visit`, holds the callable with the arguments as they were given and the world that the
callable found; from these follow what it gave and the world that it left. The ledger is computed by
the recursion of the evaluation, one entry for every arrival, and knows nothing of the trace.

What a run does to the tracer is told by its ledger alone: one record for every visit. And what it
does otherwise does not depend on the tracer at all (`Run.Traced`).

## Main results

* `HostAccess.call_apply`: a call is one visit.
* `Task.traced_run`: whole evaluations, by induction on the fuel.
-/

namespace ScriptConsole

/-- A callable of the host that was run: the callable, its arguments as they were given, and the
world that it found. -/
structure Visit where
  target : Registry.Target
  args : List Value
  world : World

namespace Visit

/-- What the callable gave. -/
def result (v : Visit) : Except HostError Value := (v.target.call v.world).1

/-- The world that the callable left. -/
def worldAfter (v : Visit) : World := (v.target.call v.world).2

/-- What the visit comes to in the program. -/
def answer (v : Visit) : Except Stop Value :=
  match v.result with
  | .ok a => .ok a
  | .error e => .error (.fault (.host (.raised v.target.className v.target.member e)))

variable (registry : Registry)

/-- The arguments in the record of the visit: as they were given, and with objects as they are after
it. -/
def inputs (v : Visit) : List TraceValue :=
  TraceValue.ofValues (registry.legend v.worldAfter) v.args

/-- The outcome in the record of the visit. -/
def output (v : Visit) : TraceOutput := HostAccess.outcome (registry.legend v.worldAfter) v.result

/-- The tracer after the record of the visit. -/
def recordOn (v : Visit) (t : Tracer) : Tracer :=
  (t.record v.target.className v.target.member (v.inputs registry) (v.output registry)).2

end Visit

/-- The tracer after the records of some visits. -/
def Tracer.recordAll (registry : Registry) (t : Tracer) (visits : List Visit) : Tracer :=
  visits.foldl (fun t v => v.recordOn registry t) t

/-- Visits are recorded one after the other. -/
theorem Tracer.recordAll_append (registry : Registry) (t : Tracer) (visits visits' : List Visit) :
    t.recordAll registry (visits ++ visits') =
      (t.recordAll registry visits).recordAll registry visits' :=
  List.foldl_append

/-- The machine with another tracer. -/
def Machine.withTracer (m : Machine) (tracer : Tracer) : Machine := { m with tracer }

/-- A disabled tracer records nothing. -/
theorem Visit.recordOn_of_disabled (registry : Registry) (v : Visit) {t : Tracer}
    (h : t.sink.isSome = false) : v.recordOn registry t = t := by
  rw [Option.isSome_eq_false_iff, Option.isNone_iff_eq_none] at h
  rw [recordOn, Tracer.record, h]

/-- A call is one visit, and that is recorded. -/
theorem HostAccess.call_apply (registry : Registry) (target : Registry.Target) (args : List Value)
    (m : Machine) :
    call registry target args m =
      ((Visit.mk target args m.world).answer,
        { m with
          world := (Visit.mk target args m.world).worldAfter
          tracer := (Visit.mk target args m.world).recordOn registry m.tracer }) := by
  obtain ⟨frames, world, console, tracer, depth⟩ := m
  obtain ⟨className, member, callable⟩ := target
  generalize hv : Visit.mk ⟨className, member, callable⟩ args world = v
  have record : v.recordOn registry tracer =
      if tracer.sink.isSome then v.recordOn registry tracer else tracer := by
    split
    · rfl
    · next h => exact v.recordOn_of_disabled registry (by simpa using h)
  rw [record]
  subst hv
  simp only [call, Visit.recordOn, Visit.inputs, Visit.output, Visit.answer, Visit.result,
    Visit.worldAfter]
  rcases callable world with ⟨_ | _, world'⟩ <;> rfl

/-! ### Ledgers -/

section

variable {α ε : Type} (run : (t : Task) → Run t.Result)

/-- What happens in a host plan, if tasks are run and have histories as given. -/
def HostPlan.log (history : Task → Machine → List ε) : HostPlan α → Machine → List ε
  | inside p, m => p.log run history m
  | outside c, m => c.log run history m

/-- The visit that a host plan makes itself, if it gets that far. -/
def HostPlan.visit : HostPlan α → Machine → List Visit
  | inside _, _ => []
  | outside c, m =>
    match c.exec run m with
    | (.ok a, m) => [⟨a.target, a.args, m.world⟩]
    | (.error _, _) => []

end

/-- The callables of the host that are run when a task is carried out within a budget. -/
def visits (st : Setting) : (fuel : Nat) → Task → Machine → List Visit
  | 0, _, _ => []
  | fuel + 1, t, m =>
    (t.plan st).log (fun u => u.run st fuel) (visits st fuel) m ++
      (t.hostPlan st).visit (fun u => u.run st fuel) m

/-- A task hands on the same tasks whether or not its call of the host is set apart. -/
theorem Task.log_hostPlan {ε : Type} (st : Setting) (t : Task) (run : (t : Task) → Run t.Result)
    (history : Task → Machine → List ε) (m : Machine) :
    (t.hostPlan st).log run history m = (t.plan st).log run history m := by
  cases h : t.asksHost with
  | false =>
      rw [hostPlan_of_not_asksHost h]
      rfl
  | true =>
      have nothing {α : Type} (x : Run α) (m : Machine) : (lastly x).log run history m = [] := by
        simp only [lastly, Course.log]
        split <;> rfl
      rcases exists_of_asksHost h with ⟨env, target, name, span, args, rfl⟩ |
        ⟨env, segments, span, args, rfl⟩ | ⟨env, ref, args, rfl⟩
      · simp only [hostPlan, HostPlan.log, plan, callExprCourse, Plan.log, Course.log, nothing]
      · simp only [hostPlan, HostPlan.log, plan, callExprCourse, Plan.log, Course.log, nothing]
      · simp only [hostPlan, HostPlan.log, plan, applyCourse, Plan.log, nothing]

namespace Run

variable {α β : Type}

/-! ### Steps that have nothing to do with the tracer -/

/-- A run that does nothing with the tracer. -/
def Untraced (x : Run α) : Prop :=
  ∀ (m : Machine) (tracer : Tracer), x (m.withTracer tracer) = ((x m).1, (x m).2.withTracer tracer)

/-- A stop writes nothing. -/
theorem untraced_stop (s : Stop) : (stop s : Run α).Untraced := fun _ _ => rfl

/-- What is done with the frames writes nothing. -/
theorem untraced_onFrames (f : Frames → α × Frames) : (onFrames f).Untraced := fun _ _ => rfl

/-- Runs that write nothing, one after the other. -/
theorem Untraced.bind {x : Run α} {f : α → Run β} (hx : x.Untraced) (hf : ∀ a, (f a).Untraced) :
    (x >>= f).Untraced := by
  intro m tracer
  rw [bind_apply, bind_apply, hx m tracer]
  rcases x m with ⟨s | a, m'⟩
  · rfl
  · exact hf a m' tracer

/-- A simple run writes nothing. -/
theorem Simple.untraced {x : Run α} (h : x.Simple) : x.Untraced := by
  induction h with
  | pure a => exact fun _ _ => rfl
  | fault e => exact untraced_stop _
  | look f => exact fun _ _ => rfl
  | onWorld f => exact fun _ _ => rfl
  | print line => exact fun _ _ => rfl
  | bind _ _ ihx ihf => exact ihx.bind ihf

end Run

/-- Builtins write nothing. -/
theorem Plain.untraced_apply (registry : Registry) (env : FrameId) (b : Builtin)
    (args : List Value) : (apply registry env b args).Untraced := by
  rcases apply_cases registry env b args with simple | ⟨a, v, rfl, rfl⟩ | ⟨v, _, exit⟩ |
    ⟨d, v, rfl, rfl⟩ | ⟨stuck, -⟩
  · exact simple.untraced
  · exact (simple_nameArgument _ a).untraced.bind fun name => Run.untraced_onFrames _
  · rw [exit]
    exact Run.untraced_stop _
  · exact (simple_exitDepth d).untraced.bind fun depth => Run.untraced_stop _
  · rw [stuck]
    exact Run.untraced_stop _

/-- Neither does the beginning of a call. -/
theorem Task.untraced_beginCall (st : Setting) (f : Closure) (args : List Value) :
    (beginCall st f args).Untraced := by
  intro m tracer
  rw [beginCall_apply, beginCall_apply]
  split
  · rfl
  · change (if st.maxDepth ≤ m.depth then _ else _) = _
    split <;> rfl

/-- Neither does a step of a task that does not ask the host. -/
theorem Task.Step.untraced {st : Setting} {t : Task} {β : Type} {x : Run β} (h : Step st t x)
    (simple : t.asksHost = true → x.Simple) : x.Untraced := by
  cases h with
  | simple h => exact h.untraced
  | host asks _ => exact (simple asks).untraced
  | define => exact Run.untraced_onFrames _
  | builtin => exact Plain.untraced_apply _ _ _ _
  | begin => exact untraced_beginCall _ _ _

namespace Run

variable {α β : Type} {registry : Registry} {visits : Machine → List Visit}

/-! ### Runs with ledgers -/

/-- A run that makes some visits, records them, and otherwise has nothing to do with the tracer. -/
def Traced (registry : Registry) (x : Run α) (visits : Machine → List Visit) : Prop :=
  ∀ (m : Machine) (tracer : Tracer),
    x (m.withTracer tracer) =
        ((x m).1, (x m).2.withTracer (tracer.recordAll registry (visits m))) ∧
      visits (m.withTracer tracer) = visits m

/-- A ledger may be given another form. -/
theorem Traced.congr {x : Run α} {visits' : Machine → List Visit} (h : x.Traced registry visits)
    (same : ∀ m, visits' m = visits m) : x.Traced registry visits' := by
  obtain rfl : visits' = visits := funext same
  exact h

/-- What writes nothing has an empty ledger. -/
theorem Untraced.traced {x : Run α} (h : x.Untraced) : x.Traced registry fun _ => [] :=
  fun m tracer => ⟨h m tracer, rfl⟩

/-- The ledger of one run, then that of the other. -/
theorem Traced.bind {x : Run α} {f : α → Run β} {further : α → Machine → List Visit}
    (hx : x.Traced registry visits) (hf : ∀ a, (f a).Traced registry (further a)) :
    (x >>= f).Traced registry fun m =>
      visits m ++
        match x m with
        | (.ok a, m) => further a m
        | (.error _, _) => [] := by
  intro m tracer
  obtain ⟨first, same⟩ := hx m tracer
  dsimp only
  rw [bind_apply, bind_apply, first, same]
  rcases x m with ⟨s | a, m'⟩
  · exact ⟨by rw [List.append_nil], rfl⟩
  · obtain ⟨second, same'⟩ := hf a m' (tracer.recordAll registry (visits m))
    refine ⟨?_, congrArg _ same'⟩
    rw [Tracer.recordAll_append]
    exact second

/-- The ledger is that of a machine with one more call. -/
theorem Traced.deeper {x : Run α} (h : x.Traced registry visits) :
    x.deeper.Traced registry fun m => visits m.deeper := by
  intro m tracer
  obtain ⟨body, same⟩ := h m.deeper tracer
  refine ⟨?_, same⟩
  rw [deeper_apply, deeper_apply, show (m.withTracer tracer).deeper = m.deeper.withTracer tracer
    from rfl, body]
  rfl

/-- An exit that ends leaves the ledger as it is. -/
theorem Traced.absorbExit {x : Run Value} (h : x.Traced registry visits) :
    x.absorbExit.Traced registry visits := by
  intro m tracer
  obtain ⟨body, same⟩ := h m tracer
  refine ⟨?_, same⟩
  unfold Run.absorbExit
  rw [body]
  rcases x m with ⟨s | v, m'⟩
  · cases s with
    | exit d v =>
        dsimp only
        split <;> rfl
    | _ => rfl
  · rfl

/-- The ledger of the failed run, then that of its handler. -/
theorem Traced.catchFault {x : Run α} {handler : EvalError → Run α}
    {further : EvalError → Machine → List Visit} (hx : x.Traced registry visits)
    (hh : ∀ e, (handler e).Traced registry (further e)) :
    (x.catchFault handler).Traced registry fun m =>
      visits m ++
        match x m with
        | (.error (.fault e), m) => further e m
        | _ => [] := by
  intro m tracer
  obtain ⟨first, same⟩ := hx m tracer
  dsimp only
  unfold Run.catchFault
  rw [first, same]
  rcases x m with ⟨s | a, m'⟩
  · cases s with
    | fault e =>
        obtain ⟨second, same'⟩ := hh e m' (tracer.recordAll registry (visits m))
        refine ⟨?_, congrArg _ same'⟩
        rw [Tracer.recordAll_append]
        exact second
    | _ => exact ⟨by simp, rfl⟩
  · exact ⟨by simp, rfl⟩

end Run

/-- The call that has arrived is a visit. -/
theorem HostAccess.traced_arrive (registry : Registry) (a : Arrival) :
    (arrive registry a).Traced registry fun m => [⟨a.target, a.args, m.world⟩] := by
  intro m tracer
  refine ⟨?_, rfl⟩
  rw [arrive, call_apply, call_apply]
  rfl

/-! ### Whole evaluations -/

section

variable {α : Type} {registry : Registry} {run : (t : Task) → Run t.Result}
  {visits : Task → Machine → List Visit}

/-- The ledger of a course is made of those of the tasks that it hands on. -/
theorem Course.traced_exec (inside : ∀ u, (run u).Traced registry (visits u)) {c : Course α}
    (steps : c.All (fun x => x.Untraced) fun _ => True) :
    (c.exec run).Traced registry (c.log run visits) := by
  induction c with
  | done a =>
      have nothing : (pure a : Run α).Untraced := fun _ _ => rfl
      exact nothing.traced.congr fun _ => by rw [log]
  | act x next ih =>
      refine (steps.1.traced.bind fun b => ih b (steps.2 b)).congr fun m => ?_
      rw [log]
      rfl
  | sub t next ih =>
      refine ((inside t).bind fun a => ih a (steps.2 a)).congr fun m => ?_
      rw [log]
      rcases run t m with ⟨_ | _, _⟩ <;> rfl

/-- So is that of a plan. -/
theorem Plan.traced_exec (inside : ∀ u, (run u).Traced registry (visits u)) {p : Plan α}
    (steps : p.All (fun x => x.Untraced) fun _ => True) :
    (p.exec run).Traced registry (p.log run visits) := by
  cases p with
  | steps c => exact Course.traced_exec inside steps
  | call start body =>
      have enter : start.Untraced := steps
      refine (enter.traced.bind fun frame =>
        (inside (.block frame .null body)).deeper.absorbExit).congr fun m => ?_
      rw [log]
      rcases start m with ⟨_ | _, _⟩ <;> rfl
  | attempt env thunk handler =>
      have handled (e : EvalError) : (handler e).All (fun x => x.Untraced) fun _ => True :=
        steps.2 e
      refine ((inside (.apply env thunk [])).catchFault fun e =>
        Course.traced_exec inside (handled e)).congr fun m => ?_
      rw [log]
      rcases run (.apply env thunk []) m with ⟨s | _, _⟩
      · cases s <;> rfl
      · rfl

/-- That of a plan of the host has the visit at its end. -/
theorem HostPlan.traced_exec (inside : ∀ u, (run u).Traced registry (visits u)) {p : HostPlan α}
    (steps : p.All (fun x => x.Untraced) fun _ => True) :
    (p.exec registry run).Traced registry fun m => p.log run visits m ++ p.visit run m := by
  cases p with
  | inside p => exact (Plan.traced_exec inside steps).congr fun m => List.append_nil _
  | outside c =>
      refine ((Course.traced_exec inside steps).bind
        (HostAccess.traced_arrive registry)).congr fun m => ?_
      rw [HostPlan.log, visit]
      rcases c.exec run m with ⟨_ | _, _⟩ <;> rfl

end

/-- Whatever is evaluated records its visits and does nothing else with the tracer. -/
theorem Task.traced_run (st : Setting) (fuel : Nat) (t : Task) :
    (t.run st fuel).Traced st.registry (visits st fuel t) := by
  induction fuel generalizing t with
  | zero =>
      rw [run_zero]
      exact (Run.untraced_stop _).traced
  | succ fuel ih =>
      rw [run_hostPlan]
      refine (HostPlan.traced_exec ih ((hostPlan_all _ t).imp
        (fun step => step.1.untraced step.2) fun _ => trivial)).congr fun m => ?_
      rw [visits, log_hostPlan]

/-- The end of a program has nothing to do with the tracer. -/
theorem traced_endProgram {registry : Registry} {x : Run Value} {visits : Machine → List Visit}
    (h : x.Traced registry visits) : (endProgram x).Traced registry visits := by
  intro m tracer
  obtain ⟨body, same⟩ := h m tracer
  refine ⟨?_, same⟩
  unfold endProgram
  rw [body]
  rcases x m with ⟨s | v, m'⟩
  · cases s <;> rfl
  · rfl

end ScriptConsole
