import ScriptConsole.Proofs.Frames.Evaluation

/-!
# Frames Along Histories

A call of a function makes a frame just before its body starts, and has no more use for it when
its body stops. Along a history, frames are made one after the other, each with a greater number
than all before it, and a frame that a call has left is never touched again. Nothing that is bound
at one moment is unbound at a later one.

All of this holds of pieces of histories, and of pieces put together (`Orderly.append`): what is
made in one piece is older than what is made in the next, and newer than the frame in which both
take place.

## Main results

* `Course.orderly_log`: the pieces of a course, put together.
* `orderlyInside`: what happens inside a task, by induction on the fuel.
* `orderly_history`: whole histories.
-/

namespace ScriptConsole

namespace Event

/-- The frame that a call of a function has made for its body, when the body starts. -/
def newFrame? : Event → Option FrameId
  | start (.closure _ _ :: _) (.block h _ _) _ => some h
  | _ => none

/-- The frame that a call of a function has made for its body, when the body stops. -/
def leftFrame? : Event → Option FrameId
  | stop (.closure _ _ :: _) (.block h _ _) _ _ => some h
  | _ => none

end Event

/-- What happens while frames grow from `fs` to `fs'`, in the frame `env`. -/
structure Orderly (env : Option FrameId) (fs fs' : Frames) (l : List Event) : Prop where
  grows : ∀ e ∈ l, fs.Grows env e.machine.frames
  keeps : ∀ e ∈ l, e.machine.frames.Keeps fs'
  /-- The frames of calls are new. -/
  made : ∀ e ∈ l, ∀ h, e.newFrame? = some h → fs.nextId ≤ h ∧ h < fs'.nextId
  /-- The frame of a call that has ended stays as it is. -/
  left : ∀ e ∈ l, ∀ h, e.leftFrame? = some h →
    fs.nextId ≤ h ∧ h < fs'.nextId ∧ fs'.frame h = e.machine.frames.frame h
  /-- Nothing that happens undoes what was done before. -/
  kept : l.Pairwise fun a b => a.machine.frames.Keeps b.machine.frames
  /-- Frames of later calls have greater numbers. -/
  makes : l.Pairwise fun a b => ∀ h h', a.newFrame? = some h → b.newFrame? = some h' → h < h'
  /-- Nothing that happens after a call has ended changes its frame. -/
  leaves : l.Pairwise fun a b => ∀ h, a.leftFrame? = some h →
    b.machine.frames.frame h = a.machine.frames.frame h

namespace Orderly

variable {env : Option FrameId} {fs fs' fs'' : Frames} {l l' : List Event}

theorem nil : Orderly env fs fs' [] where
  grows := by simp
  keeps := by simp
  made := by simp
  left := by simp
  kept := .nil
  makes := .nil
  leaves := .nil

theorem weaken (h : Orderly none fs fs' l) (env : Option FrameId) : Orderly env fs fs' l :=
  { h with grows := fun e mem => (h.grows e mem).weaken env }

/-- An event that is neither the start nor the stop of the body of a call. -/
theorem single (env : Option FrameId) {e : Event} (new : e.newFrame? = none)
    (left : e.leftFrame? = none) : Orderly env e.machine.frames e.machine.frames [e] where
  grows := by simpa using .refl _ _
  keeps := by simpa using .refl _
  made := by simp [new]
  left := by simp [left]
  kept := List.pairwise_singleton _ _
  makes := List.pairwise_singleton _ _
  leaves := List.pairwise_singleton _ _

/-- One piece of a history after another. -/
theorem append (first : Orderly env fs fs' l) (second : Orderly env fs' fs'' l')
    (grows : fs.Grows env fs') (grows' : fs'.Grows env fs'') (any : 0 < fs.nextId)
    (old : ∀ h, env = some h → h < fs.nextId) : Orderly env fs fs'' (l ++ l') := by
  -- What a call of the first piece has left is no root and not the frame of the evaluation.
  have kept : ∀ e ∈ l, ∀ h, e.leftFrame? = some h → ∀ later : Frames, fs'.Grows env later →
      later.frame h = e.machine.frames.frame h := by
    intro e mem h left later grows''
    obtain ⟨new, lt, same⟩ := first.left e mem h left
    have other : some h ≠ env := fun heq => Nat.not_lt.mpr new (old h heq.symm)
    rw [grows''.same h lt other (grows.inside any h new lt), same]
  constructor
  · intro e mem
    rcases List.mem_append.mp mem with mem | mem
    · exact first.grows e mem
    · exact grows.trans (second.grows e mem)
  · intro e mem
    rcases List.mem_append.mp mem with mem | mem
    · exact (first.keeps e mem).trans grows'.toKeeps
    · exact second.keeps e mem
  · intro e mem h new
    rcases List.mem_append.mp mem with mem | mem
    · obtain ⟨le, lt⟩ := first.made e mem h new
      exact ⟨le, Nat.lt_of_lt_of_le lt grows'.nextId⟩
    · obtain ⟨le, lt⟩ := second.made e mem h new
      exact ⟨Nat.le_trans grows.nextId le, lt⟩
  · intro e mem h left
    rcases List.mem_append.mp mem with mem | mem
    · obtain ⟨le, lt, -⟩ := first.left e mem h left
      exact ⟨le, Nat.lt_of_lt_of_le lt grows'.nextId, kept e mem h left fs'' grows'⟩
    · obtain ⟨le, lt, same⟩ := second.left e mem h left
      exact ⟨Nat.le_trans grows.nextId le, lt, same⟩
  · refine List.pairwise_append.mpr ⟨first.kept, second.kept, fun a ha b hb => ?_⟩
    exact (first.keeps a ha).trans (second.grows b hb).toKeeps
  · refine List.pairwise_append.mpr ⟨first.makes, second.makes, fun a ha b hb h h' new new' => ?_⟩
    exact Nat.lt_of_lt_of_le (first.made a ha h new).2 (second.made b hb h' new').1
  · refine List.pairwise_append.mpr ⟨first.leaves, second.leaves, fun a ha b hb h left => ?_⟩
    exact kept a ha h left _ (second.grows b hb)

/-- In front, the start of the body of a call, in the next frame. -/
theorem enter {e : Event} (new : e.newFrame? = some fs.nextId) (left : e.leftFrame? = none)
    (lt : fs.nextId < e.machine.frames.nextId) (grows : fs.Grows none e.machine.frames)
    (grows' : e.machine.frames.Grows (some fs.nextId) fs')
    (body : Orderly (some fs.nextId) e.machine.frames fs' l) : Orderly none fs fs' (e :: l) := by
  constructor
  · refine List.forall_mem_cons.mpr ⟨grows, fun b mem => ?_⟩
    exact grows.call (body.grows b mem) (Nat.le_refl _)
  · exact List.forall_mem_cons.mpr ⟨grows'.toKeeps, body.keeps⟩
  · refine List.forall_mem_cons.mpr ⟨fun h heq => ?_, fun b mem h new' => ?_⟩
    · obtain rfl := Option.some.inj (new.symm.trans heq)
      exact ⟨Nat.le_refl _, Nat.lt_of_lt_of_le lt grows'.nextId⟩
    · obtain ⟨le, lt'⟩ := body.made b mem h new'
      exact ⟨Nat.le_trans grows.nextId le, lt'⟩
  · refine List.forall_mem_cons.mpr ⟨by simp [left], fun b mem h left' => ?_⟩
    obtain ⟨le, lt', same⟩ := body.left b mem h left'
    exact ⟨Nat.le_trans grows.nextId le, lt', same⟩
  · exact List.pairwise_cons.mpr ⟨fun b mem => (body.grows b mem).toKeeps, body.kept⟩
  · refine List.pairwise_cons.mpr ⟨fun b mem h h' heq new' => ?_, body.makes⟩
    obtain rfl := Option.some.inj (new.symm.trans heq)
    exact Nat.lt_of_lt_of_le lt (body.made b mem h' new').1
  · exact List.pairwise_cons.mpr ⟨by simp [left], body.leaves⟩

/-- Behind, the stop of the body of a call that has been in the first of the frames made. -/
theorem leave {e : Event} (new : e.newFrame? = none) (left : e.leftFrame? = some fs.nextId)
    (lt : fs.nextId < e.machine.frames.nextId) (grows : fs.Grows none e.machine.frames)
    (orderly : Orderly none fs e.machine.frames l) :
    Orderly none fs e.machine.frames (l ++ [e]) := by
  constructor
  · exact List.forall_mem_append.mpr ⟨orderly.grows, by simpa using grows⟩
  · exact List.forall_mem_append.mpr ⟨orderly.keeps, by simpa using .refl _⟩
  · exact List.forall_mem_append.mpr ⟨orderly.made, by simp [new]⟩
  · exact List.forall_mem_append.mpr ⟨orderly.left, by simpa [left] using lt⟩
  · exact List.pairwise_append.mpr
      ⟨orderly.kept, List.pairwise_singleton _ _, by simpa using orderly.keeps⟩
  · exact List.pairwise_append.mpr ⟨orderly.makes, List.pairwise_singleton _ _, by simp [new]⟩
  · refine List.pairwise_append.mpr ⟨orderly.leaves, List.pairwise_singleton _ _, ?_⟩
    intro a mem b last h left'
    obtain rfl := List.mem_singleton.mp last
    exact (orderly.left a mem h left').2.2

end Orderly

/-! ### Histories -/

namespace Event

theorem newFrame?_start_of_not_isCall {p u : Task} {ctx : List Task} {m : Machine}
    (h : p.isCall = false) : newFrame? (.start (p :: ctx) u m) = none := by
  cases p with
  | closure => exact absurd h (by simp [Task.isCall])
  | _ => rfl

theorem leftFrame?_stop_of_not_isCall {p u : Task} {ctx : List Task} {m : Machine}
    {outcome : Except Stop u.Result} (h : p.isCall = false) :
    leftFrame? (.stop (p :: ctx) u outcome m) = none := by
  cases p with
  | closure => exact absurd h (by simp [Task.isCall])
  | _ => rfl

end Event

section

variable {st : Setting} {fuel : Nat} {ctx : List Task} {t : Task} {m : Machine}

/-- What happens between the start and the stop of a task is orderly. -/
def OrderlyInside (st : Setting) (fuel : Nat) : Prop :=
  ∀ ⦃ctx : List Task⦄ ⦃t : Task⦄ ⦃m : Machine⦄, 0 < m.frames.nextId →
    (∀ h, t.env? = some h → h < m.frames.nextId) →
    ∃ inside, history st fuel ctx t m = .start ctx t m :: (inside ++ [t.stopped st fuel ctx m]) ∧
      Orderly t.env? m.frames (t.run st fuel m).2.frames inside

/-- The whole history of a task is orderly, unless it is the body of a call. -/
theorem Orderly.whole (inside : OrderlyInside st fuel)
    (new : (Event.start ctx t m).newFrame? = none)
    (left : (t.stopped st fuel ctx m).leftFrame? = none) (any : 0 < m.frames.nextId)
    (old : ∀ h, t.env? = some h → h < m.frames.nextId) :
    Orderly t.env? m.frames (t.run st fuel m).2.frames (history st fuel ctx t m) := by
  obtain ⟨events, heq, orderly⟩ := @inside ctx t m any old
  have grows := Task.growing_run st fuel t m
  have start := Orderly.single t.env? new rfl
  have stop := Orderly.single (e := t.stopped st fuel ctx m) t.env? rfl left
  rw [heq]
  exact start.append (orderly.append stop grows (.refl _ _) any old) (.refl _ _) grows any old

/-- The whole history of a task that is handed on is orderly, unless it is the body of a call. -/
theorem orderly_handedOn {env : Option FrameId} (inside : OrderlyInside st fuel)
    (notCall : t.isCall = false) {u : Task} (handed : u.env? = env ∨ u.env? = none)
    (any : 0 < m.frames.nextId) (old : ∀ h, env = some h → h < m.frames.nextId) :
    Orderly env m.frames (u.run st fuel m).2.frames (history st fuel (t :: ctx) u m) := by
  have new : (Event.start (t :: ctx) u m).newFrame? = none :=
    Event.newFrame?_start_of_not_isCall notCall
  have left : (u.stopped st fuel (t :: ctx) m).leftFrame? = none :=
    Event.leftFrame?_stop_of_not_isCall notCall
  rcases handed with same | none
  · subst same
    exact .whole inside new left any old
  · have whole := Orderly.whole inside new left any (by simp [none])
    rw [none] at whole
    exact whole.weaken env

/-- A course is orderly if what it hands on is. -/
theorem Course.orderly_log {α : Type} {env : Option FrameId} (inside : OrderlyInside st fuel)
    (notCall : t.isCall = false) {c : Course α}
    (every : c.All (fun x => x.Growing env) fun u => u.env? = env ∨ u.env? = none)
    (any : 0 < m.frames.nextId) (old : ∀ h, env = some h → h < m.frames.nextId) :
    Orderly env m.frames (c.exec (fun u => u.run st fuel) m).2.frames
      (c.log (fun u => u.run st fuel) (history st fuel (t :: ctx)) m) := by
  induction c generalizing m with
  | done a => exact .nil
  | act x next ih =>
      have grows := every.1 m
      simp only [log, exec, Run.bind_apply]
      rcases hx : x m with ⟨s | b, m'⟩
      · exact .nil
      · rw [hx] at grows
        have any' := Nat.lt_of_lt_of_le any grows.nextId
        have old' := fun h heq => Nat.lt_of_lt_of_le (old h heq) grows.nextId
        have rest := growing_exec (Task.growing_run st fuel) (every.2 b) m'
        exact Orderly.nil.append (ih b (every.2 b) any' old') grows rest any old
  | sub u next ih =>
      have grows := (Task.growing_run st fuel u).handedOn every.1 m
      have handed : Orderly env m.frames (u.run st fuel m).2.frames
          (history st fuel (t :: ctx) u m) := orderly_handedOn inside notCall every.1 any old
      simp only [log, exec, Run.bind_apply]
      rcases hu : u.run st fuel m with ⟨s | a, m'⟩ <;> rw [hu] at grows handed
      · rw [List.append_nil]
        exact handed
      · have any' := Nat.lt_of_lt_of_le any grows.nextId
        have old' := fun h heq => Nat.lt_of_lt_of_le (old h heq) grows.nextId
        have rest := growing_exec (Task.growing_run st fuel) (every.2 a) m'
        exact handed.append (ih a (every.2 a) any' old') grows rest any old

/-- The body of a call, which has made the next frame, is orderly seen from before the call. -/
theorem orderly_body (inside : OrderlyInside st fuel) {f : Closure} {args : List Value}
    {last : Value} {body : List Expr} {fs : Frames} (lt : fs.nextId < m.frames.nextId)
    (grows : fs.Grows none m.frames) :
    Orderly none fs ((Task.block fs.nextId last body).run st fuel m).2.frames
      (history st fuel (.closure f args :: ctx) (.block fs.nextId last body) m) := by
  have grows' := (Task.block fs.nextId last body).growing_run st fuel m
  have old : ∀ h, some fs.nextId = some h → h < m.frames.nextId := by
    rintro h heq
    obtain rfl := Option.some.inj heq
    exact lt
  obtain ⟨events, heq, orderly⟩ := @inside (.closure f args :: ctx) (.block fs.nextId last body) m
    (Nat.lt_of_le_of_lt (Nat.zero_le _) lt) old
  rw [heq, ← List.cons_append]
  have entered := Orderly.enter (e := .start (.closure f args :: ctx) (.block _ last body) m)
    rfl rfl lt grows grows' orderly
  exact entered.leave (e := (Task.block fs.nextId last body).stopped st fuel _ m) rfl rfl
    (Nat.lt_of_lt_of_le lt grows'.nextId) (grows.call grows' (Nat.le_refl _))

/-- A call of a function is orderly: it makes a frame, and its body leaves the frame. -/
theorem orderly_call (inside : OrderlyInside st fuel) {f : Closure} {args : List Value} :
    Orderly none m.frames ((Task.closure f args).run st (fuel + 1) m).2.frames
      (((Task.closure f args).plan st).log (fun u => u.run st fuel)
        (history st fuel (.closure f args :: ctx)) m) := by
  rw [Task.run_succ]
  simp only [Task.plan, Plan.log, Plan.exec, Run.bind_apply]
  rcases Task.beginCall_cases f args m with ⟨e, h⟩ | h
  · rw [h]
    exact .nil
  obtain ⟨m', hm, lt, grows⟩ := Task.enter_ok f args m
  rw [h, hm]
  simp only [Run.frames_absorbExit, Run.deeper_apply, Machine.shallower]
  exact orderly_body (m := m'.deeper) inside lt grows

/-- A `tryCatch` is orderly: its handler comes after what it calls first. -/
theorem orderly_attempt (inside : OrderlyInside st fuel) {env : FrameId} {thunk handler : Value}
    (any : 0 < m.frames.nextId) (old : ∀ h, some env = some h → h < m.frames.nextId) :
    Orderly (some env) m.frames
      ((Task.builtin env .tryCatch [thunk, handler]).run st (fuel + 1) m).2.frames
      (((Task.builtin env .tryCatch [thunk, handler]).plan st).log (fun u => u.run st fuel)
        (history st fuel (.builtin env .tryCatch [thunk, handler] :: ctx)) m) := by
  have every := Task.plan_all st (.builtin env .tryCatch [thunk, handler])
  have grows := Task.growing_run st fuel (.apply env thunk []) m
  have handed : Orderly (some env) m.frames
      ((Task.apply env thunk []).run st fuel m).2.frames
      (history st fuel (.builtin env .tryCatch [thunk, handler] :: ctx) (.apply env thunk []) m) :=
    orderly_handedOn inside rfl (.inl rfl) any old
  rw [Task.run_succ]
  simp only [Task.plan, Task.builtinPlan, Plan.log, Plan.exec, Run.catchFault]
  rcases hu : (Task.apply env thunk []).run st fuel m with ⟨s | a, m'⟩ <;> rw [hu] at grows handed
  · cases s with
    | fault e =>
        have any' := Nat.lt_of_lt_of_le any grows.nextId
        have old' := fun h heq => Nat.lt_of_lt_of_le (old h heq) grows.nextId
        have handles := (every.2 e).imp Task.Step.growing id
        have rest := Course.growing_exec (Task.growing_run st fuel) handles m'
        exact handed.append (Course.orderly_log inside rfl handles any' old') grows rest any old
    | _ =>
        rw [List.append_nil]
        exact handed
  · rw [List.append_nil]
    exact handed

/-- What happens inside a task is orderly. -/
theorem orderlyInside (st : Setting) (fuel : Nat) : OrderlyInside st fuel := by
  induction fuel with
  | zero => exact fun ctx t m _ _ => ⟨[], rfl, .nil⟩
  | succ fuel ih =>
      intro ctx t m any old
      refine ⟨_, rfl, ?_⟩
      have every := Task.plan_all st t
      rcases t.exists_steps st with ⟨f, args, rfl⟩ | ⟨env, thunk, handler, rfl⟩ |
        ⟨⟨c, hc⟩, notCall, -⟩
      · exact orderly_call ih
      · exact orderly_attempt ih any old
      · rw [Task.run_succ]
        rw [hc] at every ⊢
        exact Course.orderly_log ih notCall (every.imp Task.Step.growing id) any old

/-- **Order.** The whole history of an evaluation is orderly. -/
theorem orderly_history (st : Setting) (fuel : Nat) (any : 0 < m.frames.nextId)
    (old : ∀ h, t.env? = some h → h < m.frames.nextId) :
    Orderly t.env? m.frames (t.run st fuel m).2.frames (history st fuel [] t m) :=
  .whole (orderlyInside st fuel) rfl rfl any old

end

end ScriptConsole
