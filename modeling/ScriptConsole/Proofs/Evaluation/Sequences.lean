import ScriptConsole.Proofs.Evaluation.History
import ScriptConsole.Proofs.Evaluation.Outcomes
import ScriptConsole.Proofs.Values.Integers

/-!
# Sequences

Lists and texts are sequences, and four builtins look at them: `len` counts the items, `get` finds
one by its index from either end, `forEach` goes through them, and `Range` makes a list to begin
with. They all see the same items; those of a text are its characters.

A loop through items is a chain of calls, each of which starts on the machine that the one before it
left behind (`Calls`). The induction is on the items, and a call that stops ends the chain. That
there are no calls beside these is a statement about the history of the loop: among all that happens
while it runs, the calls of its rounds are those with one item each, in their order.

## Main results

* `Task.each_ok_iff`, `Task.each_error_iff`: what a loop through items comes to.
* `Task.roundCalls_each`: the calls in its rounds.
* `Value.sequenceView`, `Value.rangeView`: the builtins on sequences, and the lists of ranges.
* `sequences_have_one_view`: **sequences have one view**.
-/

namespace ScriptConsole

/-! ### Loops through items -/

/-- Calls of a function with one item after the other, from one machine to another. -/
inductive Calls (st : Setting) (env : FrameId) (f : Value) : List Value → Machine → Machine → Prop
  | nil (m : Machine) : Calls st env f [] m m
  | cons {item result : Value} {rest : List Value} {m m' m'' : Machine} :
      (Task.apply env f [item]).ComesTo st m (.ok result, m') → Calls st env f rest m' m'' →
      Calls st env f (item :: rest) m m''

section

variable {st : Setting} {env : FrameId} {f : Value} {items : List Value} {m m' : Machine}
  {out : Except Stop Value × Machine}

namespace Task

/-- `forEach` over nothing does nothing. -/
theorem each_nil_iff : (each env f []).ComesTo st m out ↔ out = (.ok .null, m) := by
  rw [comesTo_iff_of_steps (t := each env f []) rfl]
  exact Course.comesTo_done_iff

/-- A round calls the function with the first item. -/
theorem each_cons_iff {item : Value} {rest : List Value} :
    (each env f (item :: rest)).ComesTo st m out ↔
      (∃ result m', (apply env f [item]).ComesTo st m (.ok result, m') ∧
        (each env f rest).ComesTo st m' out) ∨
      ∃ s m', (apply env f [item]).ComesTo st m (.error s, m') ∧ out = (.error s, m') := by
  rw [comesTo_iff_of_steps (t := each env f (item :: rest)) rfl]
  refine Course.comesTo_sub_iff.trans (or_congr_left (exists_congr fun result => ?_))
  exact exists_congr fun m' => and_congr_right fun _ => Course.comesTo_sub_done_iff

/-- A loop through items returns if every call of its body does, with nothing. -/
theorem each_ok_iff {r : Value} :
    (each env f items).ComesTo st m (.ok r, m') ↔ r = .null ∧ Calls st env f items m m' := by
  induction items generalizing m with
  | nil =>
      rw [each_nil_iff]
      constructor
      · intro h
        obtain ⟨result, rfl⟩ := Prod.mk.inj h
        exact ⟨Except.ok.inj result, .nil _⟩
      · rintro ⟨rfl, ⟨⟩⟩
        rfl
  | cons item rest ih =>
      rw [each_cons_iff]
      constructor
      · rintro (⟨result, m₁, call, loop⟩ | ⟨s, m₁, -, stopped⟩)
        · obtain ⟨null, calls⟩ := ih.mp loop
          exact ⟨null, .cons call calls⟩
        · cases stopped
      · rintro ⟨null, calls⟩
        obtain _ | ⟨call, calls⟩ := calls
        exact .inl ⟨_, _, call, ih.mpr ⟨null, calls⟩⟩

/-- A loop through items stops where a call of its body stops, behind calls that return. -/
theorem each_error_iff {s : Stop} :
    (each env f items).ComesTo st m (.error s, m') ↔
      ∃ i, ∃ h : i < items.length, ∃ m₁, Calls st env f (items.take i) m m₁ ∧
        (apply env f [items[i]]).ComesTo st m₁ (.error s, m') := by
  induction items generalizing m with
  | nil =>
      rw [each_nil_iff]
      refine ⟨nofun, ?_⟩
      rintro ⟨i, h, -⟩
      exact absurd h (Nat.not_lt_zero i)
  | cons item rest ih =>
      rw [each_cons_iff]
      constructor
      · rintro (⟨result, m₁, call, loop⟩ | ⟨s', m₁, call, stopped⟩)
        · obtain ⟨i, h, m₂, calls, last⟩ := ih.mp loop
          exact ⟨i + 1, Nat.succ_lt_succ h, m₂, .cons call calls, last⟩
        · cases stopped
          exact ⟨0, Nat.succ_pos _, m, .nil m, call⟩
      · rintro ⟨i, h, m₂, calls, last⟩
        cases i with
        | zero =>
            cases calls
            exact .inr ⟨s, m', last, rfl⟩
        | succ i =>
            obtain _ | ⟨call, calls⟩ := calls
            exact .inl ⟨_, _, call, ih.mpr ⟨i, Nat.lt_of_succ_lt_succ h, m₂, calls, last⟩⟩

/-! ### The calls in a loop's history -/

/-- Whether a task is a round of a loop through items. -/
def isRound : Task → Bool
  | each _ _ _ => true
  | _ => false

end Task

/-- The callee and the arguments, if an event is the start of a call right inside a round of a loop
through items that has so many tasks around it. -/
def Event.roundCall? (outside : Nat) : Event → Option (Value × List Value)
  | .start (round :: ctx) (.apply _ callee args) _ =>
    if round.isRound && (ctx.dropWhile Task.isRound).length == outside then some (callee, args)
    else none
  | _ => none

/-- The calls in the rounds of a loop through items among some events. -/
def roundCalls (outside : Nat) (events : List Event) : List (Value × List Value) :=
  events.filterMap (Event.roundCall? outside)

/-- The calls of some events, then those of others. -/
theorem roundCalls_append (outside : Nat) (first second : List Event) :
    roundCalls outside (first ++ second) = roundCalls outside first ++ roundCalls outside second :=
  List.filterMap_append

/-- The start of a round is no call. -/
@[simp] theorem Event.roundCall?_start_each (outside : Nat) (ctx : List Task) (env : FrameId)
    (f : Value) (items : List Value) (m : Machine) :
    roundCall? outside (.start ctx (.each env f items) m) = none := by
  cases ctx <;> rfl

/-- A task outside of the loop is no call in a round of it. -/
theorem Event.roundCall?_of_outer {outside : Nat} {ctx : List Task} {t : Task}
    (h : ctx.length < outside) : roundCall? outside (.start ctx t m) = none := by
  cases ctx with
  | nil => rfl
  | cons round ctx =>
      cases t with
      | apply _ callee args =>
          refine if_neg fun inside => ?_
          have depth := beq_iff_eq.mp (Bool.and_eq_true_iff.mp inside).2
          have shorter : (ctx.dropWhile Task.isRound).length ≤ ctx.length :=
            (List.dropWhile_suffix Task.isRound).length_le
          rw [List.length_cons] at h
          omega
      | _ => rfl

/-- A task that is no round stays, with what is around it. -/
theorem suffix_dropWhile_isRound {t : Task} (other : t.isRound = false) (front ctx : List Task) :
    t :: ctx <:+ (front ++ t :: ctx).dropWhile Task.isRound := by
  have stop : (t :: ctx).dropWhile Task.isRound = t :: ctx :=
    List.dropWhile_cons_of_neg (Bool.eq_false_iff.mp other)
  rw [List.dropWhile_append, stop]
  split
  · exact List.suffix_refl _
  · exact List.suffix_append _ _

/-- Inside another task, there is no call in a round of the loop. -/
theorem Event.roundCall?_of_deeper {outside : Nat} {t : Task} {ctx : List Task} {e : Event}
    (inside : t :: ctx <:+ e.context) (other : t.isRound = false) (deep : outside ≤ ctx.length) :
    e.roundCall? outside = none := by
  obtain ⟨front, around⟩ := inside
  unfold roundCall?
  split
  · rename_i round ctx' _ callee args m
    refine if_neg fun h => ?_
    obtain ⟨isRound, depth⟩ := Bool.and_eq_true_iff.mp h
    change front ++ t :: ctx = round :: ctx' at around
    cases front with
    | nil =>
        obtain ⟨rfl, rfl⟩ := List.cons.inj around
        rw [other] at isRound
        cases isRound
    | cons u front =>
        obtain ⟨-, rest⟩ := List.cons.inj around
        have longer := (suffix_dropWhile_isRound other front ctx).length_le
        rw [show front ++ t :: ctx = ctx' from rest, beq_iff_eq.mp depth,
          List.length_cons] at longer
        omega
  · rfl

/-- What happens while a task runs is its start and what happens in its plan. -/
theorem roundCalls_history (outside fuel : Nat) (t : Task) (ctx : List Task) (m : Machine) :
    roundCalls outside (history st (fuel + 1) ctx t m) =
      (Event.roundCall? outside (.start ctx t m)).toList ++ roundCalls outside
        ((t.plan st).log (fun u => u.run st fuel) (history st fuel (t :: ctx)) m) := by
  have stop : roundCalls outside [t.stopped st (fuel + 1) ctx m] = [] := rfl
  rw [history, roundCalls, List.filterMap_cons]
  change _ = _ ++ roundCalls outside _
  rw [← List.append_nil (roundCalls outside _), ← stop, ← roundCalls_append]
  cases Event.roundCall? outside (.start ctx t m) <;> rfl

/-- While a task runs that is no round, no call in a round of the loop starts but itself. -/
theorem roundCalls_of_other {outside fuel : Nat} {t : Task} {ctx : List Task}
    (other : t.isRound = false) (deep : outside ≤ ctx.length) :
    roundCalls outside (history st fuel ctx t m) =
      (Event.roundCall? outside (.start ctx t m)).toList := by
  cases fuel with
  | zero =>
      show List.filterMap _ [_, _] = _
      rw [List.filterMap_cons]
      cases Event.roundCall? outside (.start ctx t m) <;> rfl
  | succ fuel =>
      rw [roundCalls_history]
      refine List.append_right_eq_self.mpr ?_
      refine List.filterMap_eq_nil_iff.mpr fun e mem => ?_
      obtain ⟨u, m', mem⟩ := Plan.mem_log mem
      exact Event.roundCall?_of_deeper (context_of_mem mem) other deep

/-- A loop that returns goes through a call that returns and the rest of its rounds. -/
theorem Task.run_each_cons {fuel : Nat} {item r : Value} {rest : List Value}
    (run : (each env f (item :: rest)).run st (fuel + 1) m = (.ok r, m')) :
    ∃ v m₁, (apply env f [item]).run st fuel m = (.ok v, m₁) ∧
      (each env f rest).run st fuel m₁ = (.ok r, m') := by
  rw [run_succ] at run
  change ((apply env f [item]).run st fuel >>= fun _ => _) m = _ at run
  rcases call : (apply env f [item]).run st fuel m with ⟨s | v, m₁⟩
  · rw [Run.bind_stop call] at run
    cases run
  · rw [Run.bind_ok call] at run
    change ((each env f rest).run st fuel >>= pure) m₁ = _ at run
    rw [bind_pure] at run
    exact ⟨v, m₁, rfl, run⟩

/-- A loop that returns has called its body once with each item, in their order. -/
theorem Task.roundCalls_each {fuel outside : Nat} {ctx : List Task} {r : Value}
    (around : (ctx.dropWhile isRound).length = outside)
    (run : (each env f items).run st fuel m = (.ok r, m')) :
    roundCalls outside (history st fuel ctx (each env f items) m) =
      items.map fun item => (f, [item]) := by
  induction items generalizing fuel ctx m with
  | nil =>
      cases fuel with
      | zero => simp [run_zero, Run.stop] at run
      | succ fuel =>
          rw [roundCalls_history, Event.roundCall?_start_each]
          rfl
  | cons item rest ih =>
      cases fuel with
      | zero => simp [run_zero, Run.stop] at run
      | succ fuel =>
          obtain ⟨v, m₁, call, loop⟩ := run_each_cons run
          have log : ((each env f (item :: rest)).plan st).log (fun u => u.run st fuel)
              (history st fuel (each env f (item :: rest) :: ctx)) m =
                history st fuel (each env f (item :: rest) :: ctx) (apply env f [item]) m ++
                  history st fuel (each env f (item :: rest) :: ctx) (each env f rest) m₁ := by
            simp only [plan, eachCourse, Plan.log, Course.log, call, loop, List.append_nil]
          have first : Event.roundCall? outside
              (.start (each env f (item :: rest) :: ctx) (apply env f [item]) m) =
                some (f, [item]) :=
            if_pos (Bool.and_eq_true_iff.mpr ⟨rfl, beq_iff_eq.mpr around⟩)
          have deep : outside ≤ ctx.length := around ▸ (List.dropWhile_suffix isRound).length_le
          -- the rounds that follow have one more round around them, which does not count
          have later : ((each env f (item :: rest) :: ctx).dropWhile isRound).length = outside :=
            around
          rw [roundCalls_history, Event.roundCall?_start_each, log, roundCalls_append,
            roundCalls_of_other rfl (Nat.le_succ_of_le deep), first, ih later loop]
          rfl

end

/-! ### Sequences and their items -/

/-- The items of a list or text; those of a text are its characters. -/
def Value.sequence? : Value → Option (List Value)
  | .list _ items => some items
  | .text s => some (Plain.characters s)
  | _ => none

/-- The length of a text in characters is the number of its items. -/
theorem Plain.length_characters (s : String) : (Plain.characters s).length = s.length := by
  rw [characters, List.length_map, String.length_toList]

/-- What the builtins make of a sequence with some items. -/
structure SequenceView (st : Setting) (v : Value) (items : List Value) : Prop where
  /-- Its length is the number of its items, if a number of 64 bits can count them. -/
  length : ∀ (env : FrameId) (m : Machine), items.length < 9223372036854775808 →
    ∃ (w : Width) (k : Value), k.IsInteger w items.length ∧
      (Task.apply env (.builtin .length) [v]).ComesTo st m (.ok k, m)
  /-- An item is found by its place, from the front and from the back, -/
  get : ∀ (env : FrameId) (m : Machine) (index : Value) (w : Width) (k : Int) (i : Nat)
    (h : i < items.length), index.IsInteger w k → k = i ∨ k = i - items.length →
    (Task.apply env (.builtin .get) [v, index]).ComesTo st m (.ok items[i], m)
  /-- and every other index is an error. -/
  outside : ∀ (env : FrameId) (m : Machine) (index : Value) (w : Width) (k : Int),
    index.IsInteger w k → k < -(items.length : Int) ∨ items.length ≤ k →
    ∃ e, (Task.apply env (.builtin .get) [v, index]).ComesTo st m (.error (.fault (.type e)), m)
  /-- A loop through the sequence returns if the calls with its items do, one after the other, -/
  returns : ∀ (env : FrameId) (f r : Value) (m m' : Machine),
    (Task.apply env (.builtin .forEach) [v, f]).ComesTo st m (.ok r, m') ↔
      r = .null ∧ Calls st env f items m m'
  /-- and stops where one of them stops. -/
  stops : ∀ (env : FrameId) (f : Value) (s : Stop) (m m' : Machine),
    (Task.apply env (.builtin .forEach) [v, f]).ComesTo st m (.error s, m') ↔
      ∃ i, ∃ h : i < items.length, ∃ m₁, Calls st env f (items.take i) m m₁ ∧
        (Task.apply env f [items[i]]).ComesTo st m₁ (.error s, m')
  /-- The calls in the rounds of a loop that returns are one with each item, in their order. The
  rounds are two tasks deep: those of the call and of the builtin. -/
  calls : ∀ (env : FrameId) (f r : Value) (fuel : Nat) (ctx : List Task) (m m' : Machine),
    (Task.apply env (.builtin .forEach) [v, f]).run st fuel m = (.ok r, m') →
    roundCalls (ctx.length + 2) (history st fuel ctx (.apply env (.builtin .forEach) [v, f]) m) =
      items.map fun item => (f, [item])

/-- What `Range` makes of two integers, whose wider width is given. -/
structure RangeView (st : Setting) (a b : Value) (w : Width) (low high : Int) : Prop where
  /-- It refuses just the ranges that are too long. -/
  refuses : ∀ (env : FrameId) (m : Machine),
    (∃ e m', (Task.apply env (.builtin .range) [a, b]).ComesTo st m
      (.error (.fault (.type e)), m')) ↔ rangeLimit < high - low + 1
  /-- Of all others, it makes the list of the numbers from the lower bound on. -/
  makes : ∀ (env : FrameId) (m : Machine), high - low + 1 ≤ rangeLimit → ∃ place items m',
    (Task.apply env (.builtin .range) [a, b]).ComesTo st m (.ok (.list place items), m') ∧
      (items.length : Int) = max 0 (high - low + 1) ∧
      ∀ (i : Nat) (h : i < items.length), items[i].IsInteger w (low + i)

namespace Plain

variable {v index : Value} {items : List Value} {w w' : Width} {k : Int}

/-- A number of elements is an integer. -/
theorem isInteger_size {n : Nat} (small : n < 9223372036854775808) :
    ∃ w, (size n).IsInteger w n := by
  unfold size
  cases narrow : Number.int32? n with
  | some r =>
      have value : Width.narrow.value? n = some (.int r) := by rw [Width.value?, narrow]; rfl
      exact ⟨.narrow, Width.value?_eq_some_iff.mp value⟩
  | none =>
      obtain ⟨r, fits, -⟩ := Number.exists_int64 (n := n) (by omega) (by omega)
      obtain rfl : Int64.ofInt n = r :=
        Option.some.inj ((if_pos ⟨by omega, by omega⟩).symm.trans fits)
      have value : Width.wide.value? n = some (.long (Int64.ofInt n)) := by
        rw [Width.value?, fits]
        rfl
      exact ⟨.wide, Width.value?_eq_some_iff.mp value⟩

/-- An integer fits in 64 bits. -/
theorem toInt64?_of_isInteger (h : v.IsInteger w k) :
    ∃ n : Int64, v.toInt64? = some n ∧ n.toInt = k := by
  cases h with
  | int n => exact ⟨n.toInt64, rfl, Int32.toInt_toInt64 n⟩
  | long n => exact ⟨n, rfl, rfl⟩

/-- An integer passes as an argument that has to be one. -/
theorem integerArgument_of_isInteger {b : Builtin} {n : Int64} (h : v.toInt64? = some n) :
    integerArgument b v = pure n := by
  rw [integerArgument, h]

/-! ### The builtins on sequences -/

/-- A sequence is as long as its elements are many. -/
theorem length_of_sequence {registry : Registry} (h : v.sequence? = some items) :
    length registry v = pure (size items.length) := by
  cases v with
  | list _ _ => cases h; rfl
  | text s =>
      cases h
      rw [length_characters]
      rfl
  | _ => cases h

/-- The elements of a sequence are those that it has. -/
theorem elements_of_sequence {registry : Registry} (h : v.sequence? = some items) :
    elements registry v = pure items := by
  cases v with
  | list _ _ | text _ => cases h; rfl
  | _ => cases h

/-- What stands at an index of it is one of them. -/
theorem get_of_sequence {n : Int64} (h : v.sequence? = some items) (hn : index.toInt64? = some n) :
    get v index = element items n := by
  rw [get, integerArgument_of_isInteger hn, pure_bind]
  cases v with
  | list _ _ | text _ => cases h; rfl
  | _ => cases h

/-- The place of an item from the front is that of its index, and from the back it is as far from
the end. -/
theorem place?_eq_some_iff {length i : Nat} {n : Int64} :
    place? length n = some i ↔ i < length ∧ (n.toInt = i ∨ n.toInt = i - length) := by
  have negative : n < 0 ↔ n.toInt < 0 := Int64.lt_iff_toInt_lt
  unfold place?
  rw [Option.ite_none_right_eq_some, Option.some.injEq]
  by_cases h : n.toInt < 0
  · rw [if_pos (negative.mpr h)]
    omega
  · rw [if_neg (mt negative.mp h)]
    omega

/-- An index counts from the front or, below zero, from the back. -/
theorem element_of_place {i : Nat} {n : Int64} (h : i < items.length)
    (place : n.toInt = i ∨ n.toInt = i - items.length) : element items n = pure items[i] := by
  rw [element, place?_eq_some_iff.mpr ⟨h, place⟩, Option.bind_some, List.getElem?_eq_getElem h]

/-- Any other index is refused. -/
theorem element_outside {n : Int64} (h : n.toInt < -(items.length : Int) ∨ items.length ≤ n.toInt) :
    element items n = .fault (.type (.indexRange n items.length)) := by
  rcases element_cases items n with ⟨i, bound, place, -⟩ | ⟨-, fault⟩
  · obtain ⟨-, same⟩ := place?_eq_some_iff.mp place
    omega
  · exact fault

/-! ### Ranges -/

/-- Whether an integer is a narrow one is its width. -/
theorem isInt_of_isInteger (h : v.IsInteger w k) : isInt v = decide (w = .narrow) := by
  cases h <;> rfl

/-- The items of a range are the numbers from its lower bound on, at the wider width of its
bounds. -/
theorem isInteger_rangeItems {low high : Int} (first : w.Holds low) (last : w.Holds high) {i : Nat}
    (h : i < (rangeItems (decide (w = .narrow)) low high).length) :
    ((rangeItems (decide (w = .narrow)) low high)[i]).IsInteger w (low + i) := by
  have bound : (i : Int) < high - low + 1 := by
    rw [rangeItems, List.length_map, List.length_range] at h
    omega
  have holds : w.Holds (low + i) := by
    unfold Width.Holds at *
    omega
  simp only [rangeItems, List.getElem_map, List.getElem_range]
  cases w with
  | narrow => exact Width.value?_eq_some_iff.mp (congrArg (Option.map _) (if_pos holds))
  | wide => exact Width.value?_eq_some_iff.mp (congrArg (Option.map _) (if_pos holds))

end Plain

/-- A loop through a sequence is one through its items. -/
theorem Task.comesTo_forEach_iff {st : Setting} {env : FrameId} {v f : Value} {items : List Value}
    {m : Machine} {out : Except Stop Value × Machine} (h : v.sequence? = some items) :
    (apply env (.builtin .forEach) [v, f]).ComesTo st m out ↔
      (each env f items).ComesTo st m out := by
  rw [comesTo_apply_iff rfl, comesTo_iff_of_steps (t := builtin env .forEach [v, f]) rfl]
  have start : Plain.elements st.registry v m = (.ok items, m) :=
    congrFun (Plain.elements_of_sequence h) m
  exact (Course.comesTo_act_ok start).trans Course.comesTo_sub_done_iff

/-- The history of a course that hands one task on is that of the task. -/
@[simp] theorem Course.log_sub_done {ε : Type} (run : (t : Task) → Run t.Result)
    (history : Task → Machine → List ε) (u : Task) (m : Machine) :
    (Course.sub u .done).log run history m = history u m := by
  rw [log]
  split <;> exact List.append_nil _

section

variable {st : Setting} {env : FrameId} {v f r : Value} {items : List Value} {fuel : Nat}
  {ctx : List Task} {m m' : Machine}

/-- `forEach` calls its function once for each element, in order. -/
theorem Task.roundCalls_builtin (ctx : List Task) (h : v.sequence? = some items)
    (run : (builtin env .forEach [v, f]).run st fuel m = (.ok r, m')) :
    roundCalls (ctx.length + 1) (history st fuel ctx (builtin env .forEach [v, f]) m) =
      items.map fun item => (f, [item]) := by
  have start : Plain.elements st.registry v m = (.ok items, m) :=
    congrFun (Plain.elements_of_sequence h) m
  cases fuel with
  | zero => simp [run_zero, Run.stop] at run
  | succ fuel =>
      have loop : (each env f items).run st fuel m = (.ok r, m') := by
        rw [run_succ] at run
        rw [← bind_pure ((each env f items).run st fuel)]
        exact (Run.bind_ok start).symm.trans run
      have inside : ((builtin env .forEach [v, f]).plan st).log (fun u => u.run st fuel)
          (history st fuel (builtin env .forEach [v, f] :: ctx)) m =
            history st fuel (builtin env .forEach [v, f] :: ctx) (each env f items) m := by
        refine Eq.trans ?_ (Course.log_sub_done (fun u => u.run st fuel) _ (each env f items) m)
        simp only [plan, builtinPlan, Plan.log, Course.log, start]
      have depth : ((builtin env .forEach [v, f] :: ctx).dropWhile isRound).length =
          ctx.length + 1 := rfl
      rw [roundCalls_history, Event.roundCall?_of_outer (Nat.lt_add_one _), inside,
        roundCalls_each depth loop]
      rfl

/-- The calls in the rounds of a loop through a sequence, if it returns. -/
theorem Task.roundCalls_forEach (h : v.sequence? = some items)
    (run : (apply env (.builtin .forEach) [v, f]).run st fuel m = (.ok r, m')) :
    roundCalls (ctx.length + 2) (history st fuel ctx (apply env (.builtin .forEach) [v, f]) m) =
      items.map fun item => (f, [item]) := by
  cases fuel with
  | zero => simp [run_zero, Run.stop] at run
  | succ fuel =>
      have loop : (builtin env .forEach [v, f]).run st fuel m = (.ok r, m') := by
        rw [run_succ] at run
        rw [← bind_pure ((builtin env .forEach [v, f]).run st fuel)]
        exact run
      have inside : ((apply env (.builtin .forEach) [v, f]).plan st).log (fun u => u.run st fuel)
          (history st fuel (apply env (.builtin .forEach) [v, f] :: ctx)) m =
            history st fuel (apply env (.builtin .forEach) [v, f] :: ctx)
              (builtin env .forEach [v, f]) m :=
        Course.log_sub_done (fun u => u.run st fuel) _ (builtin env .forEach [v, f]) m
      rw [roundCalls_history, Event.roundCall?_of_outer (Nat.lt_add_of_pos_right Nat.two_pos),
        inside]
      exact roundCalls_builtin (apply env (.builtin .forEach) [v, f] :: ctx) h loop

end

namespace Value

variable {st : Setting} {v a b : Value} {items : List Value} {w w' : Width} {low high : Int}

/-- All builtins see the same elements of a sequence. -/
theorem sequenceView (st : Setting) (h : v.sequence? = some items) : SequenceView st v items where
  length env m small := by
    obtain ⟨w, value⟩ := Plain.isInteger_size small
    refine ⟨w, _, value, (Task.comesTo_plain_iff rfl rfl).mpr ⟨nofun, ?_⟩⟩
    exact congrFun (Plain.length_of_sequence h) m
  get env m index w k i lt integer place := by
    obtain ⟨n, hn, rfl⟩ := Plain.toInt64?_of_isInteger integer
    refine (Task.comesTo_plain_iff rfl rfl).mpr ⟨nofun, ?_⟩
    exact congrFun ((Plain.get_of_sequence h hn).trans (Plain.element_of_place lt place)) m
  outside env m index w k integer out := by
    obtain ⟨n, hn, rfl⟩ := Plain.toInt64?_of_isInteger integer
    refine ⟨.indexRange n items.length, (Task.comesTo_plain_iff rfl rfl).mpr ⟨nofun, ?_⟩⟩
    exact congrFun ((Plain.get_of_sequence h hn).trans (Plain.element_outside out)) m
  returns env f r m m' := by
    exact (Task.comesTo_forEach_iff h).trans Task.each_ok_iff
  stops env f s m m' := by
    exact (Task.comesTo_forEach_iff h).trans Task.each_error_iff
  calls _ _ _ _ _ _ _ := Task.roundCalls_forEach h

/-- All builtins see the same numbers of a range. -/
theorem rangeView (st : Setting) (ha : a.IsInteger w low) (hb : b.IsInteger w' high) :
    RangeView st a b (w.join w') low high := by
  have narrow : (Plain.isInt a && Plain.isInt b) = decide (w.join w' = .narrow) := by
    rw [Plain.isInt_of_isInteger ha, Plain.isInt_of_isInteger hb]
    cases w <;> cases w' <;> rfl
  have least : (w.join w').Holds low := ha.holds.join_left w'
  have greatest : (w.join w').Holds high := by
    rw [Width.join_comm]
    exact hb.holds.join_left w
  obtain ⟨first, hfirst, rfl⟩ := Plain.toInt64?_of_isInteger ha
  obtain ⟨last, hlast, rfl⟩ := Plain.toInt64?_of_isInteger hb
  have result := (Plain.range_law hfirst hlast).result
  rw [narrow] at result
  have comesTo : ∀ {env m out}, (Task.apply env (.builtin .range) [a, b]).ComesTo st m out ↔
      out.1 ≠ .error .exhausted ∧ Plain.range a b m = out := Task.comesTo_plain_iff rfl rfl
  have less : last < first ↔ last.toInt < first.toInt := Int64.lt_iff_toInt_lt
  have new : ∀ items m, ∃ m', Plain.newList items m =
      (.ok (.list m.world.nextIdentity items), m') := fun _ _ => ⟨_, rfl⟩
  refine ⟨fun env m => ⟨?_, fun long => ?_⟩, fun env m short => ?_⟩
  · rintro ⟨e, m', refused⟩
    have outcome := (result m).symm.trans (comesTo.mp refused).2
    refine Decidable.byContradiction fun short => ?_
    split at outcome <;> cases outcome
  · -- a range that is too long is not empty
    have some : ¬last < first := fun empty => by
      have := less.mp empty
      unfold rangeLimit at long
      omega
    exact ⟨_, m, comesTo.mpr ⟨nofun, (result m).trans ((if_neg some).trans (if_pos long))⟩⟩
  · by_cases empty : last < first
    · obtain ⟨m', made⟩ := new [] m
      refine ⟨_, [], m', comesTo.mpr ⟨nofun, (result m).trans ((if_pos empty).trans made)⟩, ?_,
        nofun⟩
      rw [List.length_nil]
      have := less.mp empty
      omega
    · obtain ⟨m', made⟩ := new
        (Plain.rangeItems (decide (w.join w' = .narrow)) first.toInt last.toInt) m
      have all := (result m).trans
        ((if_neg empty).trans ((if_neg (Int.not_lt.mpr short)).trans made))
      refine ⟨_, _, m', comesTo.mpr ⟨nofun, all⟩, ?_,
        fun i h => Plain.isInteger_rangeItems least greatest h⟩
      rw [Plain.rangeItems, List.length_map, List.length_range]
      have := mt less.mpr empty
      omega

end Value

/-- **Sequences have one view.** Length, access by index and loops agree on what is in a list or
text: `len` counts the items, `get` finds each of them by its place from either end and refuses all
other places, and `forEach` calls its function once with each of them, in their order. A range of
integers is refused just if it is too long, and is the list of all numbers from one bound to the
other otherwise, at the wider width of the bounds. -/
theorem sequences_have_one_view (st : Setting) {v a b : Value} {items : List Value} {w w' : Width}
    {low high : Int} (sequence : v.sequence? = some items) (lower : a.IsInteger w low)
    (upper : b.IsInteger w' high) :
    SequenceView st v items ∧ RangeView st a b (w.join w') low high :=
  ⟨Value.sequenceView st sequence, Value.rangeView st lower upper⟩

/-- The characters of a text, not all of which take one byte, and the range from the least integer
to the greatest, which has more numbers than an integer can count. -/
theorem sequences_have_one_view_widest :
    let st : Setting := ⟨Registry.empty, 8⟩
    let v : Value := .text "aé"
    let items : List Value := [.char 'a', .char 'é']
    let least : Value := .long (-9223372036854775808)
    let greatest : Value := .long 9223372036854775807
    (v.sequence? = some items ∧ least.IsInteger .wide (-9223372036854775808) ∧
        greatest.IsInteger .wide 9223372036854775807) ∧
      SequenceView st v items ∧
      RangeView st least greatest .wide (-9223372036854775808) 9223372036854775807 := by
  intro st v items least greatest
  have sequence : v.sequence? = some items := rfl
  have lower : least.IsInteger .wide (-9223372036854775808) := .long _
  have upper : greatest.IsInteger .wide 9223372036854775807 := .long _
  exact ⟨⟨sequence, lower, upper⟩, sequences_have_one_view st sequence lower upper⟩

end ScriptConsole
