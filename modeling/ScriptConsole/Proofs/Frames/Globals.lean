import ScriptConsole.Proofs.Frames.Orderly

/-!
# Roots Under Evaluation

A root belongs to whatever is evaluated in it. Evaluation in any other frame gets at it by one way
only, which is the builtin `setGlobal`, called in a frame whose chain ends in that root: the root
afterwards is the root before, with the names bound that the history shows to be set in it, one
after the other (`accounts_history`).

This is said of every frame that is not the frame of the evaluation, and of any number of roots. Of
a frame that is no root it says that nothing changes, since no chain ends in it.

Which chains those are is known as well: `setGlobal` is called in the frame of the evaluation or in
that of a function called meanwhile (`frame_of_mem`).

## Main results

* `Task.Step.spares`: no step of another task than `setGlobal` changes another frame.
* `Course.accounts_log`: courses change other frames by what they hand on.
* `accounts_history`: whole histories, by induction on the fuel.
* `frame_of_mem`: in which frames anything happens.
-/

namespace ScriptConsole

/-! ### Bindings in a root -/

/-- The name that an event has bound in a root, and its value: a call of `setGlobal` that comes to
its end has bound the name that its first argument is, in the root of the frame it was called in. -/
def Event.global? (r : FrameId) : Event → Option (String × Value)
  | .stop _ (.builtin env .setGlobal [a, v]) (.ok _) m =>
    if m.frames.root env = r then a.toText?.map (·, v) else none
  | _ => none

/-- The names that are bound in a root along a history, and their values. -/
def globals (r : FrameId) (l : List Event) : List (String × Value) :=
  l.filterMap (Event.global? r)

/-- A frame with further bindings, made one after the other. -/
def Frame.withAll (f : Frame) (l : List (String × Value)) : Frame :=
  { f with vars := l.foldl (fun vars (name, v) => vars.insert name v) f.vars }

theorem Frame.withAll_append (f : Frame) (l l' : List (String × Value)) :
    f.withAll (l ++ l') = (f.withAll l).withAll l' := by
  simp only [withAll, List.foldl_append]

theorem Frames.frame_define_self {fs : Frames} {h : FrameId} (lt : h < fs.nextId) (name : String)
    (v : Value) : (fs.define h name v).frame h = (fs.frame h).withAll [(name, v)] := by
  have made : h < fs.all.size := lt
  simp only [define, frame, Frame.getD_modify, made, and_self, if_true]
  rfl

/-- Binding a name in the root of a frame binds it there, and in no other frame. -/
theorem Frames.frame_setGlobal {fs : Frames} {r : FrameId} (lt : r < fs.nextId) (h : FrameId)
    (name : String) (v : Value) :
    (fs.setGlobal h name v).frame r =
      (fs.frame r).withAll (if fs.root h = r then [(name, v)] else []) := by
  rw [setGlobal]
  by_cases here : fs.root h = r
  · rw [if_pos here, here]
    exact frame_define_self lt name v
  · rw [if_neg here]
    exact frame_define_of_ne (Ne.symm here) name v

/-- The events of a history account for what has become of a frame. -/
def Accounts (r : FrameId) (l : List Event) (fs fs' : Frames) : Prop :=
  fs'.frame r = (fs.frame r).withAll (globals r l)

variable {r : FrameId}

/-- One account after another is an account of both histories. -/
theorem Accounts.append {l l' : List Event} {fs fs' fs'' : Frames} (first : Accounts r l fs fs')
    (second : Accounts r l' fs' fs'') : Accounts r (l ++ l') fs fs'' := by
  have all : globals r (l ++ l') = globals r l ++ globals r l' := List.filterMap_append
  rw [Accounts, second, first, all, Frame.withAll_append]

/-- Events that bind no name in a frame account for frames of which that one is as before. -/
theorem Accounts.of_same {l : List Event} {fs fs' : Frames} (none : ∀ e ∈ l, e.global? r = none)
    (same : fs'.frame r = fs.frame r) : Accounts r l fs fs' := by
  have nothing : globals r l = [] := List.filterMap_eq_nil_iff.mpr none
  rw [Accounts, same, nothing]
  rfl

/-- The start and the stop of a task that binds no global name at its end add nothing. -/
theorem Accounts.between {l : List Event} {fs fs' : Frames} {ctx : List Task} {t : Task}
    {m : Machine} {stop : Event} (inside : Accounts r l fs fs') (none : stop.global? r = none) :
    Accounts r (.start ctx t m :: (l ++ [stop])) fs fs' := by
  have start : Accounts r [.start ctx t m] fs fs := .of_same (by simp [Event.global?]) rfl
  have last : Accounts r [stop] fs' fs' := .of_same (by simpa using none) rfl
  exact start.append (inside.append last)

/-! ### Steps -/

namespace Run

variable {α β : Type}

/-- A run that leaves a frame as it is, if it is there. -/
def Spares (r : FrameId) (x : Run α) : Prop :=
  ∀ m : Machine, r < m.frames.nextId → (x m).2.frames.frame r = m.frames.frame r

/-- Quiet runs leave all frames as they are. -/
theorem Quiet.spares {x : Run α} (h : x.Quiet) (r : FrameId) : x.Spares r := by
  intro m _
  rw [(h m).frames]

end Run

namespace Task

variable {st : Setting}

/-- A task that is none of `setGlobal`. -/
def NotSetGlobal (t : Task) : Prop := ∀ env args, t ≠ .builtin env .setGlobal args

/-- The builtins that call nothing back leave all frames as they are, apart from `setGlobal`. -/
theorem spares_apply (registry : Registry) (env : FrameId) {b : Builtin} (args : List Value)
    (setGlobal : b ≠ .setGlobal) : (Plain.apply registry env b args).Spares r := by
  intro m _
  rw [Plain.frames_apply registry env args setGlobal]

/-- Parameters are bound in one frame. -/
theorem frame_bindAll_of_ne {fs : Frames} {h h' : FrameId} (ne : h' ≠ h) (names : List String)
    (vs : List Value) : (bindAll fs h names vs).frame h' = fs.frame h' := by
  fun_induction bindAll fs h names vs with
  | case1 fs name names v vs ih => rw [ih, Frames.frame_define_of_ne ne]
  | case2 => rfl

/-- A call of a function leaves all frames as they are that were there before. -/
theorem spares_beginCall (st : Setting) (f : Closure) (args : List Value) :
    (beginCall st f args).Spares r := by
  intro m made
  rcases beginCall_cases f args m with ⟨e, h⟩ | h
  · rw [h]
  · have ne : r ≠ m.frames.nextId := Nat.ne_of_lt made
    rw [h]
    have child := Frames.frame_newChild m.frames f.frame r
    rw [if_neg ne] at child
    exact (frame_bindAll_of_ne ne f.params args).trans child

/-- No step of another task than `setGlobal` changes another frame than that of the task. -/
theorem Step.spares {t : Task} {β : Type} {x : Run β} (step : Step st t x)
    (ne : t.env? ≠ some r) (setGlobal : t.NotSetGlobal) : x.Spares r := by
  cases step with
  | simple h => exact h.quiet.spares r
  | host _ h => exact h.spares r
  | @define env _ _ _ v =>
      refine fun m _ => Frames.frame_define_of_ne (fun heq => ne ?_) _ v
      rw [heq]
      rfl
  | @builtin env b args =>
      refine spares_apply _ _ _ fun heq => setGlobal env args ?_
      rw [heq]
  | begin => exact spares_beginCall _ _ _

end Task

/-! ### Whole evaluations -/

section

variable {st : Setting} {fuel : Nat} {ctx : List Task} {t : Task} {m : Machine}

/-- Whatever is evaluated accounts for what becomes of the frames that it is not evaluated in. -/
def RootLaw (st : Setting) (fuel : Nat) : Prop :=
  ∀ ⦃r : FrameId⦄ ⦃ctx : List Task⦄ ⦃t : Task⦄ ⦃m : Machine⦄, r < m.frames.nextId →
    t.env? ≠ some r → Accounts r (history st fuel ctx t m) m.frames (t.run st fuel m).2.frames

/-- What is handed on by a task outside of a frame is outside of it as well. -/
theorem Task.HandsOn.env_ne {u : Task} (handed : t.HandsOn u) (ne : t.env? ≠ some r) :
    u.env? ≠ some r := by
  rcases handed with same | none
  · exact same ▸ ne
  · rw [none]
    nofun

/-- What is known of the steps of another task than `setGlobal` outside of a frame. -/
theorem Task.Step.accounted {β : Type} {x : Run β} (step : Task.Step st t x)
    (ne : t.env? ≠ some r) (setGlobal : t.NotSetGlobal) : x.Growing t.env? ∧ x.Spares r :=
  ⟨step.growing, step.spares ne setGlobal⟩

/-- A course accounts for what becomes of another frame by what it hands on. -/
theorem Course.accounts_log {α : Type} (inside : RootLaw st fuel) {c : Course α}
    (every : c.All (fun x => x.Growing t.env? ∧ x.Spares r) t.HandsOn)
    (made : r < m.frames.nextId) (ne : t.env? ≠ some r) :
    Accounts r (c.log (fun u => u.run st fuel) (history st fuel (t :: ctx)) m) m.frames
      (c.exec (fun u => u.run st fuel) m).2.frames := by
  induction c generalizing m with
  | done a => exact .of_same (by simp [log]) rfl
  | act x next ih =>
      have grows := every.1.1 m
      have spares := every.1.2 m made
      simp only [log, exec, Run.bind_apply]
      rcases hx : x m with ⟨s | b, m'⟩ <;> rw [hx] at grows spares
      · exact .of_same (by simp) spares
      · have rest := ih b (every.2 b) (Nat.lt_of_lt_of_le made grows.nextId)
        exact (Accounts.of_same (l := []) (by simp) spares).append rest
  | sub u next ih =>
      have grows := (Task.growing_run st fuel u).handedOn every.1 m
      have first := @inside r (t :: ctx) u m made (every.1.env_ne ne)
      simp only [log, exec, Run.bind_apply]
      rcases hu : u.run st fuel m with ⟨s | a, m'⟩ <;> rw [hu] at grows first
      · rw [List.append_nil]
        exact first
      · exact first.append (ih a (every.2 a) (Nat.lt_of_lt_of_le made grows.nextId))

/-- A call of a function accounts for what becomes of earlier frames by its body. -/
theorem accounts_call (inside : RootLaw st fuel) {f : Closure} {args : List Value}
    (made : r < m.frames.nextId) :
    Accounts r (((Task.closure f args).plan st).log (fun u => u.run st fuel)
        (history st fuel (.closure f args :: ctx)) m) m.frames
      ((Task.closure f args).run st (fuel + 1) m).2.frames := by
  rw [Task.run_succ]
  simp only [Task.plan, Plan.log, Plan.exec, Run.bind_apply]
  have begun := Task.spares_beginCall (r := r) st f args m made
  rcases Task.beginCall_cases f args m with ⟨e, h⟩ | h
  · rw [h]
    exact .of_same (by simp) rfl
  obtain ⟨m', hm, lt, grows⟩ := Task.enter_ok f args m
  rw [h, hm] at begun ⊢
  simp only [Run.frames_absorbExit, Run.deeper_apply, Machine.shallower]
  -- the body is in a frame of its own, which is later than `r`
  have outside : (Task.block m.frames.nextId .null f.body).env? ≠ some r := fun same =>
    Nat.ne_of_lt made (Option.some.inj same).symm
  have body := @inside r (.closure f args :: ctx) (.block m.frames.nextId .null f.body) m'.deeper
    (Nat.lt_of_lt_of_le made grows.nextId) outside
  exact (Accounts.of_same (l := []) (by simp) begun).append body

/-- A `tryCatch` accounts for what becomes of another frame by the two calls that it may make. -/
theorem accounts_attempt (inside : RootLaw st fuel) {env : FrameId} {thunk handler : Value}
    (made : r < m.frames.nextId) (ne : some env ≠ some r) :
    Accounts r (((Task.builtin env .tryCatch [thunk, handler]).plan st).log
        (fun u => u.run st fuel)
        (history st fuel (.builtin env .tryCatch [thunk, handler] :: ctx)) m) m.frames
      ((Task.builtin env .tryCatch [thunk, handler]).run st (fuel + 1) m).2.frames := by
  have every := Task.plan_all st (.builtin env .tryCatch [thunk, handler])
  have grows := Task.growing_run st fuel (.apply env thunk []) m
  have first := @inside r (.builtin env .tryCatch [thunk, handler] :: ctx) (.apply env thunk []) m
    made ne
  have other : (Task.builtin env .tryCatch [thunk, handler]).NotSetGlobal := nofun
  rw [Task.run_succ]
  simp only [Task.plan, Task.builtinPlan, Plan.log, Plan.exec, Run.catchFault]
  rcases hu : (Task.apply env thunk []).run st fuel m with ⟨s | a, m'⟩ <;> rw [hu] at grows first
  · cases s with
    | fault e =>
        have handles := (every.2 e).imp (Task.Step.accounted · ne other) id
        exact first.append (Course.accounts_log inside handles
          (Nat.lt_of_lt_of_le made grows.nextId) ne)
    | _ =>
        rw [List.append_nil]
        exact first
  · rw [List.append_nil]
    exact first

/-- A task that stops early binds no global name at its end. -/
theorem Event.global?_error (ctx : List Task) (t : Task) (s : Stop) (m : Machine) :
    (Event.stop ctx t (.error s) m).global? r = none := by
  unfold global?
  split
  · next heq =>
    obtain ⟨-, rfl, heq, -⟩ := Event.stop.inj heq
    cases heq
  · rfl

/-- A task that is no call of `setGlobal` binds no global name at its end. -/
theorem Event.global?_stopped {t : Task} (other : t.NotSetGlobal) :
    (t.stopped st fuel ctx m).global? r = none := by
  cases t with
  | builtin env b args =>
      cases b with
      | setGlobal => exact absurd rfl (other env args)
      | _ => rfl
  | _ => rfl

/-- A call of `setGlobal` fails and does nothing, or it binds a name in the root. -/
theorem Task.run_setGlobal (st : Setting) (fuel : Nat) (env : FrameId) (args : List Value)
    (m : Machine) :
    (∃ s, (builtin env .setGlobal args).run st (fuel + 1) m = (.error s, m)) ∨
      ∃ a v name, args = [a, v] ∧ a.toText? = some name ∧
        (builtin env .setGlobal args).run st (fuel + 1) m =
          (.ok v, { m with frames := m.frames.setGlobal env name v }) := by
  rw [run_succ]
  match args with
  | [a, v] =>
      cases name : a.toText? with
      | none =>
          have refused : Plain.nameArgument .setGlobal a m =
              (.error (.fault (.type (.nameWanted .setGlobal a.kind))), m) := by
            rw [Plain.nameArgument, name]
            rfl
          exact .inl ⟨_, (congrFun (exec_lastly _ _) m).trans (Run.bind_stop refused)⟩
      | some text =>
          have named : Plain.nameArgument .setGlobal a m = (.ok text, m) := by
            rw [Plain.nameArgument, name]
            rfl
          refine .inr ⟨a, v, text, rfl, name, ?_⟩
          exact (congrFun (exec_lastly _ _) m).trans (Run.bind_ok named)
  | [] | [_] | _ :: _ :: _ :: _ => exact .inl ⟨.stuck, rfl⟩

/-- Nothing happens inside a call of `setGlobal`. -/
theorem history_setGlobal {env : FrameId} {args : List Value} :
    history st (fuel + 1) ctx (.builtin env .setGlobal args) m =
      [.start ctx (.builtin env .setGlobal args) m,
        (Task.builtin env .setGlobal args).stopped st (fuel + 1) ctx m] := by
  have nothing : ((Task.builtin env .setGlobal args).plan st).log (fun u => u.run st fuel)
      (history st fuel (.builtin env .setGlobal args :: ctx)) m = [] := by
    match args with
    | [] | [_] | [_, _] | _ :: _ :: _ :: _ =>
        simp only [Task.plan, Task.builtinPlan, Task.lastly, Plan.log, Course.log]
        split <;> rfl
  rw [history, nothing]
  rfl

/-- A call of `setGlobal` accounts for what becomes of every frame. -/
theorem accounts_setGlobal {env : FrameId} {args : List Value} (made : r < m.frames.nextId) :
    Accounts r (history st (fuel + 1) ctx (.builtin env .setGlobal args) m) m.frames
      ((Task.builtin env .setGlobal args).run st (fuel + 1) m).2.frames := by
  rw [history_setGlobal, Task.stopped]
  rcases Task.run_setGlobal st fuel env args m with ⟨s, hrun⟩ | ⟨a, v, name, rfl, text, hrun⟩
  · rw [hrun]
    exact .between (l := []) (.of_same (by simp) rfl) (Event.global?_error _ _ _ _)
  · have root : (m.frames.setGlobal env name v).root env = m.frames.root env := by
      rw [Frames.root, Frames.setGlobal, Frames.outer_define, Frames.root]
    have bound : globals r [.start ctx (.builtin env .setGlobal [a, v]) m,
        .stop ctx (.builtin env .setGlobal [a, v]) (.ok v)
          { m with frames := m.frames.setGlobal env name v }] =
        if m.frames.root env = r then [(name, v)] else [] := by
      have start : Event.global? r (.start ctx (.builtin env .setGlobal [a, v]) m) = none := rfl
      have stop : Event.global? r (.stop ctx (.builtin env .setGlobal [a, v]) (.ok v)
          { m with frames := m.frames.setGlobal env name v }) =
            if m.frames.root env = r then some (name, v) else none := by
        simp only [Event.global?, root, text, Option.map_some]
      rw [globals, List.filterMap_cons_none start]
      by_cases here : m.frames.root env = r
      · rw [if_pos here] at stop ⊢
        exact List.filterMap_cons_some stop
      · rw [if_neg here] at stop ⊢
        exact List.filterMap_cons_none stop
    rw [hrun, Accounts, bound]
    exact Frames.frame_setGlobal made env name v

/-- **Global names.** Whatever is evaluated makes of every other frame what the calls of `setGlobal`
in its history have made of it. -/
theorem accounts_history (st : Setting) (fuel : Nat) : RootLaw st fuel := by
  induction fuel with
  | zero =>
      intro r ctx t m _ _
      rw [history, Task.stopped, Task.run_zero]
      exact .between (l := []) (.of_same (by simp) rfl) (Event.global?_error _ _ _ _)
  | succ fuel ih =>
      intro r ctx t m made ne
      by_cases setGlobal : t.NotSetGlobal
      · have every := Task.plan_all st t
        refine .between ?_ (Event.global?_stopped setGlobal)
        rcases t.exists_steps st with ⟨f, args, rfl⟩ | ⟨env, thunk, handler, rfl⟩ | ⟨⟨c, hc⟩, -⟩
        · exact accounts_call ih made
        · exact accounts_attempt ih made ne
        · rw [Task.run_succ]
          rw [hc] at every ⊢
          exact Course.accounts_log ih (every.imp (Task.Step.accounted · ne setGlobal) id) made ne
      · simp only [Task.NotSetGlobal, ne_eq, Classical.not_forall, Classical.not_not] at setGlobal
        obtain ⟨env, args, rfl⟩ := setGlobal
        exact accounts_setGlobal made

/-! ### Where global names are bound -/

/-- What a course hands on is of the kind that all of it is of. -/
theorem Course.handsOn_of_mem {α : Type} {run : (t : Task) → Run t.Result}
    {handsOn : Task → Prop} {step : {β : Type} → Run β → Prop} {c : Course α}
    (every : c.All step handsOn) {u : Task} {m' : Machine}
    (mem : (u, m') ∈ c.log run (fun u m => [(u, m)]) m) : handsOn u := by
  induction c generalizing m with
  | done a => simp [log] at mem
  | act x next ih =>
      simp only [log] at mem
      split at mem
      · exact ih _ (every.2 _) mem
      · simp at mem
  | sub t next ih =>
      simp only [log, List.mem_append, List.mem_singleton] at mem
      rcases mem with here | behind
      · obtain ⟨rfl, -⟩ := Prod.mk.inj here
        exact every.1
      · split at behind
        · exact ih _ (every.2 _) behind
        · simp at behind

/-- What a task hands on is evaluated in its frame or in none, or it is the body of a call. -/
theorem Task.handsOn_of_mem {run : (t : Task) → Run t.Result} {u : Task} {m' : Machine}
    (mem : (u, m') ∈ (t.plan st).log run (fun u m => [(u, m)]) m) :
    t.HandsOn u ∨ ∃ f args frame, t = .closure f args ∧ u = .block frame .null f.body := by
  have every := plan_all st t
  rcases t.exists_steps st with ⟨f, args, rfl⟩ | ⟨env, thunk, handler, rfl⟩ | ⟨⟨c, hc⟩, -⟩
  · simp only [plan, Plan.log] at mem
    split at mem
    · obtain ⟨rfl, -⟩ := Prod.mk.inj (List.mem_singleton.mp mem)
      exact .inr ⟨f, args, _, rfl, rfl⟩
    · simp at mem
  · simp only [plan, builtinPlan, Plan.log, List.mem_append, List.mem_singleton] at mem
    refine .inl ?_
    rcases mem with here | behind
    · obtain ⟨rfl, -⟩ := Prod.mk.inj here
      exact .inl rfl
    · split at behind
      · exact Course.handsOn_of_mem (every.2 _) behind
      · simp at behind
  · rw [hc] at every mem
    exact .inl (Course.handsOn_of_mem every mem)

/-- **Where things happen.** Whatever happens happens in the frame of the evaluation, or in that of
a function which has been called meanwhile. -/
theorem frame_of_mem {e : Event} (mem : e ∈ history st fuel ctx t m) {env : FrameId}
    (inside : e.task.env? = some env) :
    t.env? = some env ∨ ∃ e' ∈ history st fuel ctx t m, e'.newFrame? = some env := by
  induction fuel generalizing ctx t m with
  | zero =>
      simp only [history, List.mem_cons, List.not_mem_nil, or_false] at mem
      rcases mem with rfl | rfl <;> exact .inl inside
  | succ fuel ih =>
      rw [history, Plan.log_eq_flatMap] at mem ⊢
      simp only [List.mem_cons, List.mem_append, List.not_mem_nil, or_false] at mem ⊢
      rcases mem with rfl | behind | rfl
      · exact .inl inside
      · obtain ⟨⟨u, m'⟩, handed, mem⟩ := List.mem_flatMap.mp behind
        have onward : ∀ e' ∈ history st fuel (t :: ctx) u m', e' ∈ List.flatMap
            (fun x => history st fuel (t :: ctx) x.1 x.2)
            ((t.plan st).log (fun u => u.run st fuel) (fun u m => [(u, m)]) m) := fun e' mem' =>
          List.mem_flatMap.mpr ⟨(u, m'), handed, mem'⟩
        rcases ih mem with own | ⟨e', mem', new⟩
        · rcases Task.handsOn_of_mem handed with (same | none) | ⟨f, args, frame, rfl, rfl⟩
          · exact .inl (same ▸ own)
          · rw [none] at own
            cases own
          · -- the start of the body is where its frame is new
            obtain ⟨events, heq⟩ := history_eq st fuel (.closure f args :: ctx)
              (.block frame .null f.body) m'
            refine .inr ⟨_, .inr (.inl (onward _ (heq ▸ List.mem_cons_self))), ?_⟩
            exact own
        · exact .inr ⟨e', .inr (.inl (onward e' mem')), new⟩
      · exact .inl inside

end

end ScriptConsole
