import ScriptConsole.Eval.Evaluator

/-!
# Simple Steps

Most of what evaluation does is put together from a few simple steps, one after the other
(`Run.Simple`): it gives a value or an error, it looks at the frames and the world, it changes the
world, it prints. A simple step has nothing to do with the trace, with the number of function bodies
that are running, or with exits, and it binds nothing.

Whatever holds of the few, and of one step after another, holds of reading members of the host and
of every builtin that calls nothing back, apart from the three that do one thing more at their end
(`Plain.apply_cases`): `setGlobal` binds a name, and `return` and `returnN` exit. A builtin with
arguments that its arity rules out is stuck.

## Main results

* `Plain.apply_cases`: the builtins.
-/

namespace ScriptConsole

namespace Run

/-- A step put together from simple ones. -/
inductive Simple : {α : Type} → Run α → Prop
  | pure {α : Type} (a : α) : Simple (pure a)
  | fault {α : Type} (e : EvalError) : Simple (.fault e : Run α)
  | look {α : Type} (f : Frames → World → α) : Simple (.look fun m => f m.frames m.world)
  | onWorld {α : Type} (f : World → α × World) : Simple (.onWorld f)
  | print (line : String) : Simple (.print line)
  | bind {α β : Type} {x : Run α} {f : α → Run β} :
      Simple x → (∀ a, Simple (f a)) → Simple (x >>= f)

/-- The result of a computation aside is given. -/
theorem simple_ofExcept {α : Type} (r : Except EvalError α) : (ofExcept r).Simple := by
  cases r with
  | ok a => exact .pure a
  | error e => exact .fault e

/-- A step that goes on from what it sees. -/
theorem Simple.of_look {α β : Type} {x : Run β} (f : Frames → World → α) (g : α → Run β)
    (hx : ∀ m, x m = g (f m.frames m.world) m) (hg : ∀ a, (g a).Simple) : x.Simple := by
  have split : x = (Run.look fun m => f m.frames m.world) >>= g := funext hx
  rw [split]
  exact (Simple.look f).bind hg

/-- A value or an error. -/
theorem simple_found {α β : Type} (found : α → β) (e : EvalError) (a : Option α) :
    (match a with
      | some a => Pure.pure (found a)
      | none => fault e : Run β).Simple := by
  cases a with
  | some a => exact .pure _
  | none => exact .fault e

end Run

open Run

/-! ### Host access -/

namespace HostAccess

variable (registry : Registry)

/-- A value is shown. -/
theorem simple_display (v : Value) : (display registry v).Simple :=
  .look fun _ w => v.display (registry.legend w)

/-- A member is read. -/
theorem simple_member (target : Value) (name : String) : (member registry target name).Simple :=
  (Simple.onWorld _).bind fun _ => simple_ofExcept _

/-- Members of members are read, by induction on the path. -/
theorem simple_members (target : Value) (names : List String) :
    (members registry target names).Simple := by
  induction names generalizing target with
  | nil => exact .pure target
  | cons name rest ih => exact (simple_member registry target name).bind fun inner => ih inner

/-- A path of the host is read. -/
theorem simple_readPath (segments : List String) : (readPath registry segments).Simple :=
  (simple_ofExcept _).bind fun _ => simple_members registry _ _

end HostAccess

/-! ### Builtins -/

/-- Whether a builtin calls its arguments. -/
def Builtin.callsBack : Builtin → Bool
  | ifTrue | ifElse | whileTrue | forEach | tryCatch => true
  | _ => false

namespace Plain

/-- An argument that has to be a name is looked at. -/
theorem simple_nameArgument (b : Builtin) (v : Value) : (nameArgument b v).Simple := by
  unfold nameArgument
  split
  · exact .pure _
  · exact .fault _

/-- An argument that has to be an integer is looked at. -/
theorem simple_integerArgument (b : Builtin) (v : Value) : (integerArgument b v).Simple := by
  unfold integerArgument
  split
  · exact .pure _
  · exact .fault _

/-- What has been found under a name is given, or the error that there is nothing. -/
theorem simple_bound (name : String) (found : Option Value) : (bound name found).Simple := by
  unfold bound
  split
  · exact .pure _
  · exact .fault _

/-- A range is made. -/
theorem simple_range (a b : Value) : (range a b).Simple := by
  refine (simple_integerArgument _ a).bind fun low =>
    (simple_integerArgument _ b).bind fun high => ?_
  split
  · exact .onWorld _
  · dsimp only
    split
    · exact .fault _
    · exact .onWorld _

/-- An element is taken. -/
theorem simple_element (items : List Value) (index : Int64) : (element items index).Simple := by
  unfold element
  split
  · exact .pure _
  · exact .fault _

/-- What stands at an index is taken. -/
theorem simple_get (sequence index : Value) : (get sequence index).Simple := by
  refine (simple_integerArgument _ index).bind fun i => ?_
  split
  · exact simple_element _ i
  · exact simple_element _ i
  · exact .fault _

/-- Elements are counted. -/
theorem simple_length (registry : Registry) (v : Value) : (length registry v).Simple := by
  unfold length
  cases v with
  | text | list => exact .pure _
  | object o c =>
      refine .of_look (fun _ w => registry.elements? w o c) _ (fun m => ?_)
        (simple_found (fun items => size items.length) (.type (.noLength c.name)))
      dsimp only
      cases registry.elements? m.world o c <;> rfl
  | _ => exact .fault _

/-- Elements are listed. -/
theorem simple_elements (registry : Registry) (v : Value) : (elements registry v).Simple := by
  unfold elements
  cases v with
  | text | list => exact .pure _
  | object o c =>
      refine .of_look (fun _ w => registry.elements? w o c) _ (fun m => ?_)
        (simple_found id (.type (.notIterable c.name)))
      dsimp only
      cases registry.elements? m.world o c <;> rfl
  | _ => exact .fault _

/-- An argument that has to be a number of calls is looked at. -/
theorem simple_exitDepth (v : Value) : (exitDepth v).Simple := by
  refine (simple_integerArgument _ v).bind fun depth => ?_
  split
  · exact .pure _
  · exact .fault _

/-- Values are shown on one line. -/
theorem simple_joined (registry : Registry) (args : List Value) : (joined registry args).Simple :=
  .look fun _ w => String.join (args.map fun v : Value => v.display (registry.legend w))

/-- A list is made. -/
theorem simple_newList (items : List Value) : (newList items).Simple := .onWorld _

/-- A line is printed. -/
theorem simple_print (registry : Registry) (env : FrameId) (args : List Value) :
    (apply registry env .print args).Simple :=
  (simple_joined _ _).bind fun line => (Simple.print line).bind fun _ => .pure _

/-- A builtin that calls nothing back takes simple steps; at the end of them, one binds a global
name, and two make an exit. With arguments that its arity rules out, a builtin is stuck. -/
theorem apply_cases (registry : Registry) (env : FrameId) (b : Builtin) (args : List Value) :
    (apply registry env b args).Simple ∨
      (∃ a v, b = .setGlobal ∧ args = [a, v]) ∨
      (∃ v, b = .exit ∧ apply registry env b args = .stop (.exit 1 v)) ∨
      (∃ d v, b = .exitMany ∧ args = [d, v]) ∨
      (apply registry env b args = .stop .stuck ∧
        (b.arity.accepts args.length = true → b.callsBack = true)) := by
  -- how many arguments there are decides which builtins take them
  rcases args with _ | ⟨a, _ | ⟨v, _ | ⟨w, rest⟩⟩⟩
  · cases b with
    | print => exact .inl (simple_print _ _ _)
    | list => exact .inl (simple_newList _)
    | exit => exact .inr (.inr (.inl ⟨_, rfl, rfl⟩))
    | locals => exact .inl ((Simple.look fun fs _ => fs.names env).bind fun _ => .onWorld _)
    | globals =>
        exact .inl ((Simple.look fun fs _ => fs.names (fs.root env)).bind fun _ => .onWorld _)
    | _ => exact .inr (.inr (.inr (.inr ⟨rfl, nofun⟩)))
  · cases b with
    | print => exact .inl (simple_print _ _ _)
    | list => exact .inl (simple_newList _)
    | throw => exact .inl (.fault _)
    | negation | isNull | isClass | typeOf => exact .inl (.pure _)
    | isBound =>
        exact .inl ((simple_nameArgument _ _).bind fun name =>
          .look fun fs _ => Value.bool (fs.isBound env name))
    | getGlobal =>
        exact .inl ((simple_nameArgument _ _).bind fun name =>
          (Simple.look fun fs _ => fs.getGlobal? env name).bind fun _ => simple_bound _ _)
    | getParentVar =>
        exact .inl ((simple_nameArgument _ _).bind fun name =>
          (Simple.look fun fs _ => fs.getOuter? env name).bind fun _ => simple_bound _ _)
    | exit => exact .inr (.inr (.inl ⟨_, rfl, rfl⟩))
    | display => exact .inl ((HostAccess.simple_display _ _).bind fun _ => .pure _)
    | length => exact .inl (simple_length _ _)
    | _ => exact .inr (.inr (.inr (.inr ⟨rfl, nofun⟩)))
  · cases b with
    | print => exact .inl (simple_print _ _ _)
    | list => exact .inl (simple_newList _)
    | range => exact .inl (simple_range _ _)
    | both | either | eql => exact .inl (.pure _)
    | setGlobal => exact .inr (.inl ⟨_, _, rfl, rfl⟩)
    | exitMany => exact .inr (.inr (.inr (.inl ⟨_, _, rfl, rfl⟩)))
    | get => exact .inl (simple_get _ _)
    | ifTrue | whileTrue | forEach | tryCatch =>
        exact .inr (.inr (.inr (.inr ⟨rfl, fun _ => rfl⟩)))
    | _ => exact .inr (.inr (.inr (.inr ⟨rfl, nofun⟩)))
  · cases b with
    | print => exact .inl (simple_print _ _ _)
    | list => exact .inl (simple_newList _)
    | ifElse => exact .inr (.inr (.inr (.inr ⟨rfl, fun _ => rfl⟩)))
    | _ => exact .inr (.inr (.inr (.inr ⟨rfl, nofun⟩)))

end Plain

end ScriptConsole
