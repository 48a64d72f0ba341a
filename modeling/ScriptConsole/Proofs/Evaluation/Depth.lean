import ScriptConsole.Proofs.Evaluation.Unwinding

/-!
# The Depth of Calls

A machine counts the function bodies that are running on it. Every step of evaluation leaves the
count as it is, and a call of a function raises it for its body alone, however the body ends:
evaluation is **level** (`Run.Level`). At each event of a history, the count is therefore what it
was at the start and the calls of functions around the event on top of that.

A call with the right number of arguments is refused exactly if as many bodies are running already
as are allowed, and so no more are ever running.

## Main results

* `Task.level_run`: whole evaluations are level.
* `Happens.depth`: at every event, the count is that of the calls around it.
* `admission_of_start`: which calls are refused.
* `depth_law`: **the law of depth** for runs.
-/

namespace ScriptConsole

/-! ### Level runs -/

namespace Run

variable {α β : Type}

/-- A run that ends with as many function bodies running as at its start. -/
def Level (x : Run α) : Prop := ∀ m, (x m).2.depth = m.depth

/-- A quiet run leaves the depth as it is. -/
theorem Quiet.level {x : Run α} (h : x.Quiet) : x.Level := fun m => (h m).depth

/-- So does a stop. -/
theorem level_stop (s : Stop) : (stop s : Run α).Level := fun _ => rfl

/-- So does what is done with the frames. -/
theorem level_onFrames (f : Frames → α × Frames) : (onFrames f).Level := fun _ => rfl

/-- So do runs one after the other. -/
theorem Level.bind {x : Run α} {f : α → Run β} (hx : x.Level) (hf : ∀ a, (f a).Level) :
    (x >>= f).Level := by
  intro m
  have first := hx m
  rw [bind_apply]
  rcases hm : x m with ⟨s | a, m'⟩ <;> rw [hm] at first
  · exact first
  · exact (hf a m').trans first

/-- A body that is level leaves the count where it found it, and its call takes back the one. -/
theorem Level.deeper {x : Run α} (h : x.Level) : x.deeper.Level := by
  intro m
  have body : (x m.deeper).2.depth = m.depth + 1 := h m.deeper
  rw [deeper_apply, Machine.shallower, body, Nat.add_sub_cancel]

/-- An exit that ends leaves the depth as it is. -/
theorem Level.absorbExit {x : Run Value} (h : x.Level) : x.absorbExit.Level := by
  intro m
  have body := h m
  unfold Run.absorbExit
  split
  · next hm =>
    rw [hm] at body
    split <;> exact body
  · exact body

/-- So do a failed run and its handler. -/
theorem Level.catchFault {x : Run α} {handler : EvalError → Run α} (h : x.Level)
    (hh : ∀ e, (handler e).Level) : (x.catchFault handler).Level := by
  intro m
  have first := h m
  unfold Run.catchFault
  split
  · next e m' hm =>
    rw [hm] at first
    exact (hh e m').trans first
  · exact first

end Run

/-- The end of a program leaves the count as it is. -/
theorem level_endProgram {x : Run Value} (h : x.Level) : (endProgram x).Level := by
  intro m
  have body := h m
  unfold endProgram
  split
  · next hm =>
    rw [hm] at body
    exact body
  · exact body

/-- Builtins leave the depth as it is. -/
theorem Plain.level_apply (registry : Registry) (env : FrameId) (b : Builtin) (args : List Value) :
    (apply registry env b args).Level := by
  rcases apply_cases registry env b args with simple | ⟨a, v, rfl, rfl⟩ | ⟨v, _, exit⟩ |
    ⟨d, v, rfl, rfl⟩ | ⟨stuck, -⟩
  · exact simple.quiet.level
  · exact (simple_nameArgument _ a).quiet.level.bind fun name => Run.level_onFrames _
  · rw [exit]
    exact Run.level_stop _
  · exact (simple_exitDepth d).quiet.level.bind fun depth => Run.level_stop _
  · rw [stuck]
    exact Run.level_stop _

namespace Task

variable {st : Setting}

/-- So does the beginning of a call. -/
theorem level_beginCall (f : Closure) (args : List Value) : (beginCall st f args).Level := by
  intro m
  rw [beginCall_apply]
  split
  · rfl
  · split <;> rfl

/-- A step of a task leaves the depth as it is. -/
theorem Step.level {t : Task} {β : Type} {x : Run β} (h : Step st t x) : x.Level := by
  cases h with
  | simple h => exact h.quiet.level
  | host _ h => exact h.level
  | define => exact Run.level_onFrames _
  | builtin => exact Plain.level_apply _ _ _ _
  | begin => exact level_beginCall _ _

end Task

/-- The depth is carried along by whatever a run is made of. -/
theorem Run.level_carried : Run.Carried fun x => x.Level where
  nothing a := (Run.quiet_pure a).level
  sequence := Run.Level.bind
  body h := h.deeper.absorbExit
  attempt := Run.Level.catchFault

/-- Whatever is evaluated, and however it ends, as many function bodies are running as before. -/
theorem Task.level_run (st : Setting) (fuel : Nat) (t : Task) : (t.run st fuel).Level :=
  Run.level_carried.run Step.level (Run.level_stop _) fuel t

/-! ### The depth at events -/

variable {st : Setting} {fuel : Nat} {ctx : List Task} {t : Task} {m : Machine} {e : Event}

/-- Whatever happens in a course happens in a task that starts with as many function bodies running
as the course. -/
theorem Course.exists_level {α : Type} {run : (t : Task) → Run t.Result}
    {history : Task → Machine → List Event} (inside : ∀ u, (run u).Level) {c : Course α}
    (steps : c.All (fun x => x.Level) fun _ => True) (h : e ∈ c.log run history m) :
    ∃ u m', e ∈ history u m' ∧ m'.depth = m.depth := by
  induction c generalizing m with
  | done a => simp [log] at h
  | act x next ih =>
      have level := steps.1 m
      simp only [log] at h
      split at h
      · next b m' hm =>
        rw [hm] at level
        obtain ⟨u, m'', mem, depth⟩ := ih b (steps.2 b) h
        exact ⟨u, m'', mem, depth.trans level⟩
      · simp at h
  | sub t next ih =>
      have level := inside t m
      simp only [log, List.mem_append] at h
      rcases h with h | h
      · exact ⟨t, m, h, rfl⟩
      split at h
      · next a m' hm =>
        rw [hm] at level
        obtain ⟨u, m'', mem, depth⟩ := ih a (steps.2 a) h
        exact ⟨u, m'', mem, depth.trans level⟩
      · simp at h

/-- How a task that is handed on starts: the body of a call on a level of its own, if there is room
for one, and all others on that of their task. -/
def Task.HandedOn (st : Setting) (t : Task) (m : Machine) (u : Task) (m' : Machine) : Prop :=
  if t.isCall then
    ∃ f args frame, t = .closure f args ∧ u = .block frame .null f.body ∧
      m.depth < st.maxDepth ∧ m'.depth = m.depth + 1
  else m'.depth = m.depth

/-- An event of a task is one of a task that it hands on. -/
theorem Task.exists_handedOn {history : Task → Machine → List Event}
    (h : e ∈ (t.plan st).log (fun u => u.run st fuel) history m) :
    ∃ u m', e ∈ history u m' ∧ HandedOn st t m u m' := by
  have level : ∀ u : Task, (u.run st fuel).Level := level_run st fuel
  have every := (plan_all st t).imp (Step.level (t := t)) fun {u} _ => trivial
  rcases exists_steps st t with ⟨f, args, rfl⟩ | ⟨env, thunk, handler, rfl⟩ |
    ⟨⟨c, hc⟩, isCall, -⟩
  · simp only [plan, Plan.log, beginCall_apply] at h
    split at h
    · next frame m' hm =>
      split at hm
      · cases hm
      · split at hm
        · cases hm
        · next room =>
          obtain ⟨-, rfl⟩ := Prod.mk.inj hm
          exact ⟨_, _, h, f, args, frame, rfl, rfl, by omega, rfl⟩
    · simp at h
  · simp only [plan, builtinPlan, Plan.log, List.mem_append] at h
    rcases h with h | h
    · exact ⟨_, m, h, rfl⟩
    · have first := level (.apply env thunk []) m
      split at h
      · next error m' hm =>
        rw [hm] at first
        obtain ⟨u, m'', mem, depth⟩ := Course.exists_level level (every.2 error) h
        exact ⟨u, m'', mem, depth.trans first⟩
      · simp at h
  · rw [hc] at h every
    obtain ⟨u, m', mem, depth⟩ := Course.exists_level level every h
    refine ⟨u, m', mem, ?_⟩
    rw [HandedOn, isCall]
    exact depth

/-- A task that is handed on runs as deep, or one deeper if it is of a call. -/
theorem Task.HandedOn.depth {u : Task} {m' : Machine} (h : HandedOn st t m u m') :
    m'.depth = m.depth + if t.isCall then 1 else 0 := by
  unfold HandedOn at h
  split at h
  · next call =>
    obtain ⟨f, args, frame, -, -, -, depth⟩ := h
    rw [depth, if_pos call]
  · next call => rw [h, if_neg call, Nat.add_zero]

/-- A task that is handed on does not run too deep. -/
theorem Task.HandedOn.depth_le {u : Task} {m' : Machine} (h : HandedOn st t m u m')
    (le : m.depth ≤ st.maxDepth) : m'.depth ≤ st.maxDepth := by
  unfold HandedOn at h
  split at h
  · obtain ⟨f, args, frame, -, -, room, depth⟩ := h
    exact depth ▸ room
  · exact h ▸ le

/-- Where an event happens in the history of a task: at the start, at the stop, or in the history of
something that the task hands on. -/
inductive Happens (st : Setting) : Event → Nat → List Task → Task → Machine → Prop
  | start {fuel : Nat} {ctx : List Task} {t : Task} {m : Machine} :
      Happens st (.start ctx t m) fuel ctx t m
  | stop {fuel : Nat} {ctx : List Task} {t : Task} {m : Machine} :
      Happens st (t.stopped st fuel ctx m) fuel ctx t m
  | inside {e : Event} {fuel : Nat} {ctx : List Task} {t u : Task} {m m' : Machine} :
      t.HandedOn st m u m' → Happens st e fuel (t :: ctx) u m' → Happens st e (fuel + 1) ctx t m

/-- Every event of a history happens somewhere in it, by induction on the fuel. -/
theorem happens_of_mem (h : e ∈ history st fuel ctx t m) : Happens st e fuel ctx t m := by
  induction fuel generalizing ctx t m with
  | zero =>
      simp only [history, List.mem_cons, List.not_mem_nil, or_false] at h
      rcases h with rfl | rfl
      · exact .start
      · exact .stop
  | succ fuel ih =>
      simp only [history, List.mem_cons, List.mem_append, List.not_mem_nil, or_false] at h
      rcases h with rfl | h | rfl
      · exact .start
      · obtain ⟨u, m', mem, handed⟩ := Task.exists_handedOn h
        exact .inside handed (ih mem)
      · exact .stop

/-- The context of an event ends in that of the task. -/
theorem Happens.context (h : Happens st e fuel ctx t m) : ctx <:+ e.context := by
  induction h with
  | start => exact List.suffix_refl _
  | stop => exact List.suffix_refl _
  | inside _ _ ih => exact (List.suffix_cons _ _).trans ih

/-- A context has one call more with a call in front. -/
theorem callCount_cons (t : Task) (ctx : List Task) :
    callCount (t :: ctx) = callCount ctx + if t.isCall then 1 else 0 :=
  List.countP_cons

/-- At every event in a history, the bodies that are running are those of the start and those of the
calls around the event. -/
theorem Happens.depth (h : Happens st e fuel ctx t m) :
    e.machine.depth + callCount ctx = m.depth + callCount e.context := by
  induction h with
  | start => rfl
  | @stop fuel ctx t m => exact congrArg (· + callCount ctx) (t.level_run st fuel m)
  | inside handed _ ih =>
      rw [callCount_cons, handed.depth] at ih
      omega

/-- There are never more bodies running than are allowed. -/
theorem Happens.depth_le (h : Happens st e fuel ctx t m) (le : m.depth ≤ st.maxDepth) :
    e.machine.depth ≤ st.maxDepth := by
  induction h with
  | start => exact le
  | @stop fuel ctx t m => exact (t.level_run st fuel m).trans_le le
  | inside handed _ ih => exact ih (handed.depth_le le)

/-- Right inside the tasks around a history, nothing but its own task starts and stops. -/
theorem Happens.task (h : Happens st e fuel ctx t m) (same : e.context = ctx) : e.task = t := by
  cases h with
  | start => rfl
  | stop => rfl
  | inside _ within =>
      have longer := within.context.length_le
      rw [same, List.length_cons] at longer
      omega

/-- Right inside a call of a function, nothing but its body starts and stops. -/
theorem Happens.body {f : Closure} {args : List Value} {ctx' : List Task}
    (h : Happens st e fuel ctx t m) (inside : e.context = .closure f args :: ctx')
    (further : ctx.length ≤ ctx'.length) : ∃ frame, e.task = .block frame .null f.body := by
  -- around the start and the stop of the history, there is not yet any call on top of `ctx`
  have outside {ctx : List Task} (around : ctx = .closure f args :: ctx') :
      ctx'.length < ctx.length := by simp [around]
  induction h with
  | start => exact absurd further (outside inside).not_ge
  | stop => exact absurd further (outside inside).not_ge
  | @inside e fuel ctx t u m m' handed within ih =>
      rcases Nat.lt_or_ge ctx.length ctx'.length with lt | ge
      · exact ih inside lt
      -- the call is the task itself
      have same : t :: ctx = .closure f args :: ctx' := by
        have around := within.context
        rw [inside] at around
        exact around.eq_of_length_le (by simpa using ge)
      obtain ⟨rfl, rfl⟩ := List.cons.inj same
      obtain ⟨g, vs, frame, call, rfl, -⟩ := handed
      obtain ⟨rfl, rfl⟩ := Task.closure.inj call
      exact ⟨frame, within.task inside⟩

/-! ### Which calls are refused -/

/-- What comes right behind the start of a call of a function with as many arguments as it takes,
unless the budget is used up: the call is refused if as many bodies are running as are allowed, and
otherwise its body starts as one more. -/
def Admission (st : Setting) (ctx : List Task) (f : Closure) (args : List Value) (m : Machine)
    (next : Option Event) : Prop :=
  next = some (.stop ctx (.closure f args) (.error .exhausted) m) ∨
    if st.maxDepth ≤ m.depth then
      next = some (.stop ctx (.closure f args) (.error (.fault (.callDepth st.maxDepth))) m)
    else
      ∃ frame m', m'.depth = m.depth + 1 ∧
        next = some (.start (.closure f args :: ctx) (.block frame .null f.body) m')

/-- The calls that are refused are those for which there is no room. -/
theorem admission_of_start {pre post : List Event} {ctx' : List Task} {f : Closure}
    {args : List Value} {m' : Machine}
    (h : history st fuel ctx t m = pre ++ .start ctx' (.closure f args) m' :: post)
    (arity : args.length = f.params.length) : Admission st ctx' f args m' post.head? := by
  obtain ⟨fuel', rest, call⟩ := exists_history_of_start st fuel ctx t m h
  cases fuel' with
  | zero =>
      obtain ⟨-, rfl⟩ := List.cons.inj call
      left
      simp [Task.stopped, Task.run_zero, Run.stop]
  | succ fuel' =>
      obtain ⟨-, rfl⟩ := List.cons.inj call
      right
      have begin' := Task.beginCall_apply st f args m'
      rw [if_neg (not_not.mpr arity)] at begin'
      split
      · next full =>
        rw [if_pos full] at begin'
        simp [Task.stopped, Task.run_succ, Task.plan, Plan.log, Plan.exec, begin', Run.bind_apply]
      · next room =>
        rw [if_neg room] at begin'
        obtain ⟨events, hevents⟩ := history_eq st fuel' (.closure f args :: ctx')
          (.block m'.frames.nextId .null f.body) (enter f args m').2.deeper
        refine ⟨m'.frames.nextId, (enter f args m').2.deeper, rfl, ?_⟩
        have entered : enter f args m' = (.ok m'.frames.nextId, (enter f args m').2) := rfl
        rw [entered] at begin'
        simp only [Task.plan, Plan.log, begin', hevents, List.cons_append]
        rfl

/-- If the budget is used up anywhere, it is used up for the whole run. -/
theorem exhausted_of_mem {u : Task} {m' : Machine}
    (h : .stop ctx u (.error .exhausted) m' ∈ history st fuel [] t m) :
    (t.run st fuel m).1 = .error .exhausted := by
  induction ctx generalizing u m' with
  | nil =>
      obtain ⟨-, rfl, houtcome, -⟩ := Event.stop.inj (eq_stopped_of_mem h)
      exact (eq_of_heq houtcome).symm
  | cons p ctx ih =>
      obtain ⟨pre, post, split⟩ := List.append_of_mem h
      obtain ⟨next, post', rfl, follows⟩ := exists_next split
      obtain rfl : next = .stop ctx p (p.passed .exhausted) (p.left m') := follows
      have passed : p.passed .exhausted = .error .exhausted := by cases p <;> rfl
      rw [passed] at split
      have outer : .stop ctx p (.error .exhausted) (p.left m') ∈ history st fuel [] t m := by
        simp [split]
      exact ih outer

/-! ### The law of depth -/

/-- The law of depth for the run of a task. -/
structure DepthLaw (st : Setting) (fuel : Nat) (t : Task) (m : Machine) : Prop where
  /-- However the run ends, as many function bodies are running as before. -/
  restored : (t.run st fuel m).2.depth = m.depth
  /-- At every event, the bodies that are running are those of the start and one for each call
  around the event; -/
  running : ∀ {e : Event}, e ∈ history st fuel [] t m →
    e.machine.depth = m.depth + callCount e.context
  /-- right inside a call, there is its body and nothing else. -/
  body : ∀ {e : Event} {f : Closure} {args : List Value} {ctx : List Task},
    e ∈ history st fuel [] t m → e.context = .closure f args :: ctx →
    ∃ frame, e.task = .block frame .null f.body
  /-- There are never more of them than are allowed. -/
  bounded : ∀ {e : Event}, e ∈ history st fuel [] t m → m.depth ≤ st.maxDepth →
    e.machine.depth ≤ st.maxDepth
  /-- A call with as many arguments as its function takes is refused exactly if there is no room for
  its body, -/
  admission : ∀ {pre post : List Event} {ctx : List Task} {f : Closure} {args : List Value}
    {m' : Machine},
    history st fuel [] t m = pre ++ .start ctx (.closure f args) m' :: post →
    args.length = f.params.length → Admission st ctx f args m' post.head?
  /-- unless the budget is used up, and then it is so for the whole run. -/
  budget : ∀ {ctx : List Task} {u : Task} {m' : Machine},
    .stop ctx u (.error .exhausted) m' ∈ history st fuel [] t m →
    (t.run st fuel m).1 = .error .exhausted

/-- **The law of depth** holds of every run. -/
theorem depth_law (st : Setting) (fuel : Nat) (t : Task) (m : Machine) : DepthLaw st fuel t m where
  restored := t.level_run st fuel m
  running h := by simpa [callCount] using (happens_of_mem h).depth
  body h inside := (happens_of_mem h).body inside (Nat.zero_le _)
  bounded h := (happens_of_mem h).depth_le
  admission := admission_of_start
  budget := exhausted_of_mem

end ScriptConsole
