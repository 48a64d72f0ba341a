import ScriptConsole.Proofs.Evaluation.Accepted
import ScriptConsole.Proofs.Evaluation.Exact
import ScriptConsole.Proofs.Host.Paths
import ScriptConsole.Proofs.Session.CallDepth
import ScriptConsole.Host.Demo

/-!
# Nothing Goes Wrong

A program of machine numbers and positions can go wrong where a number has no room in its width, or
a position is out of bounds. No evaluation in any session comes to such a step: builtins find the
arguments that they look for, indices and ranges are computed without an overflow, arithmetic is
exact or an error, the count of function bodies has room in 32 bits, and whatever is taken off that
count or off an exit has been there.

The callables of the host are taken not to go wrong themselves, and texts and lists to be no longer
than a machine can hold.

## Main results

* `Session.nothing_goes_wrong`: **safety**.
-/

namespace ScriptConsole

/-- Steps on values that do not go wrong, whatever the values are. -/
structure SafeSteps : Prop where
  /-- Arithmetic is exact, or an error: nothing overflows, and nothing is divided by zero. -/
  narrow : ∀ (op : Arithmetic) (m n : Int32), ∃ r, op.Sound Int32.toInt m.toInt n.toInt r ∧
    Value.arithmetic op (.int m) (.int n) = (r.map .int).mapError .arithmetic
  wide : ∀ (op : Arithmetic) {a b : Value} {m n : Int64}, a.toInt64? = some m →
    b.toInt64? = some n → ¬(a.kind = .int ∧ b.kind = .int) →
    ∃ r, op.Sound Int64.toInt m.toInt n.toInt r ∧
      Value.arithmetic op a b = (r.map .long).mapError .arithmetic
  /-- Negation is exact, or an error. -/
  negation : ∀ n : Int32,
    (∃ r : Int32, r.toInt = -n.toInt ∧ Value.unary .negate (.int n) = .ok (.int r)) ∨
      (∀ r : Int32, r.toInt ≠ -n.toInt) ∧
        Value.unary .negate (.int n) = .error (.arithmetic (.overflow "-"))
  wideNegation : ∀ n : Int64,
    (∃ r : Int64, r.toInt = -n.toInt ∧ Value.unary .negate (.long n) = .ok (.long r)) ∨
      (∀ r : Int64, r.toInt ≠ -n.toInt) ∧
        Value.unary .negate (.long n) = .error (.arithmetic (.overflow "-"))
  /-- The place that an index denotes is computed without an overflow, -/
  index : ∀ {length : Nat}, length < 9223372036854775808 → ∀ index : Int64,
    Plain.pick? length index = some (Plain.place? length index)
  /-- and within bounds. -/
  element : ∀ (items : List Value) (index : Int64),
    (∃ i, ∃ bound : i < items.length, Plain.place? items.length index = some i ∧
      Plain.element items index = pure items[i]) ∨
    (Plain.place? items.length index = none ∧
      Plain.element items index = .fault (.type (.indexRange index items.length)))
  /-- A range is counted and gone through without an overflow. -/
  range : ∀ {a b : Value} {low high : Int64}, a.toInt64? = some low → b.toInt64? = some high →
    Plain.RangeLaw a b low high
  /-- What names the class of a path is no longer than the path. -/
  path : ∀ {r : Registry} {segments : List String} {c : ClassRef} {used : Nat},
    r.resolvePath segments = .ok (c, used) → used ≤ segments.length

theorem safeSteps : SafeSteps where
  narrow := Value.arithmetic_int
  wide := Value.arithmetic_long
  negation := Value.negate_int
  wideNegation := Value.negate_long
  index := Plain.pick?_eq
  element := Plain.element_cases
  range := Plain.range_law
  path := Registry.le_of_resolvePath

namespace Session

/-- Evaluation in a session that does not go wrong. -/
structure Safe (s : Session) : Prop where
  /-- No text gets stuck, -/
  text : ∀ (fuel : Nat) (source : String), (s.eval fuel source).1 ≠ .error .stuck
  /-- and no line. -/
  line : ∀ (fuel : Nat) (line : String), (s.evalLine fuel line).1 ≠ .error .stuck
  /-- Every builtin that starts or stops during a program has all the arguments it gets at. -/
  arguments : ∀ (fuel : Nat) (p : Program),
    ∀ e ∈ history s.setting fuel [] (task p) s.machine.reset,
    ∀ {env : FrameId} {b : Builtin} {args : List Value}, e.task = .builtin env b args →
      ∃ vs, Access.values? b.accesses args = some vs
  /-- Whatever stops early during a program is not stuck, and an exit leads out of at least one call
  and of as many as have room in 32 bits. -/
  stops : ∀ (fuel : Nat) (p : Program) {ctx : List Task} {t : Task} {stop : Stop} {m : Machine},
    .stop ctx t (.error stop) m ∈ history s.setting fuel [] (task p) s.machine.reset →
      stop ≠ .stuck ∧ ∀ d v, stop = .exit d v → 1 ≤ d ∧ d < Number.limit32
  /-- The count of running bodies has room in 32 bits, -/
  counted : ∀ (fuel : Nat) (p : Program), ∀ e ∈ history s.setting fuel [] (task p) s.machine.reset,
    e.machine.depth < Number.limit32
  /-- and inside a call, where it has been raised by one and will be lowered by one, it is at least
  one. -/
  entered : ∀ (fuel : Nat) (p : Program), ∀ e ∈ history s.setting fuel [] (task p) s.machine.reset,
    ∀ {f : Closure} {args : List Value} {ctx : List Task}, e.context = .closure f args :: ctx →
      e.machine.depth = callCount ctx + 1

/-- No program gets stuck. -/
theorem evalProgram_ne_stuck (fuel : Nat) (p : Program) (s : Session) :
    (s.evalProgram fuel p).1 ≠ .error .stuck := by
  rw [evalProgram_eq]
  exact mt (resultOf_endProgram_eq_iff (.inr rfl)).mp
    (Task.smooth_run s.setting fuel (t := task p) trivial s.machine.reset)

/-- No source gets stuck. -/
theorem eval_ne_stuck (fuel : Nat) (source : String) (s : Session) :
    (s.eval fuel source).1 ≠ .error .stuck := by
  unfold eval
  split
  · exact nofun
  split
  · exact nofun
  · exact evalProgram_ne_stuck fuel _ s

/-- A session is safe if the limit of its calls fits in 32 bits. -/
theorem safe {s : Session} (fits : s.config.maxCallDepth < Number.limit32) : s.Safe where
  text fuel source := eval_ne_stuck fuel source s
  line fuel line := eval_ne_stuck fuel _ s
  arguments fuel p e mem env b args same := by
    have accepted := accepted_of_mem (t := task p) trivial mem
    rw [same] at accepted
    exact Builtin.exists_values accepted
  stops fuel p {ctx t stop m} mem := by
    refine ⟨fun stuck => outcome_ne_stuck (t := task p) trivial mem (congrArg _ stuck), ?_⟩
    rintro d v rfl
    obtain ⟨fuel', m', run⟩ := run_of_stop_mem mem
    exact Task.bounded_run s.setting fuel' t m' d v (congrArg Prod.fst run)
  counted fuel p e mem :=
    ((depth_law s.setting fuel (task p) s.machine.reset).bounded mem (Nat.zero_le _)).trans_lt fits
  entered fuel p e mem f args ctx same := by
    have running := (depth_law s.setting fuel (task p) s.machine.reset).running mem
    rw [same, callCount_cons] at running
    exact running.trans (Nat.zero_add _)

/-- Operations leave the settings of a session as they are. -/
theorem config_after (s : Session) (ops : List Operation) : (s.after ops).config = s.config :=
  Kept.after (P := fun s' => s'.config = s.config)
    ⟨fun _ _ {_} h => h, fun _ {_} h => h, fun _ _ {_} h => h, fun _ {_} h => h⟩ ops rfl

/-- **Safety.** Whatever is done with a session, and whatever text it evaluates then, no step goes
wrong. -/
theorem nothing_goes_wrong (s : Session) (fits : s.config.maxCallDepth < Number.limit32)
    (ops : List Operation) : SafeSteps ∧ (s.after ops).Safe :=
  ⟨safeSteps, safe (by rwa [config_after])⟩

/-- Safety at the greatest limit of depth, behind an exit out of as many calls as there can be. -/
theorem nothing_goes_wrong_deepest :
    let config : Config := { Config.default with maxCallDepth := 4294967295 }
    let s := Session.start Demo.registry config World.empty (Console.ofInput []) Tracer.disabled
    config.maxCallDepth < Number.limit32 ∧ SafeSteps ∧
      (s.after [.eval 9 "f = () { returnN(4294967295, 1); };", .eval 9 "f();"]).Safe := by
  intro config s
  have fits : config.maxCallDepth < Number.limit32 := by decide
  exact ⟨fits, nothing_goes_wrong s fits _⟩

end Session

end ScriptConsole
