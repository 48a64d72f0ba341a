import Mathlib.Algebra.GroupWithZero.Nat
import Mathlib.Data.List.Induction
import Mathlib.Data.List.Perm.Basic
import ScriptConsole.Host.Overload

/-!
# The Cheapest Overload

A call takes the cheapest of the candidates that accept its arguments. Which one that is does not
depend on the order in which the candidates are looked at, although the selection goes through them
one by one and remembers only the cheapest so far and whether another one has come up that costs
the same.

What a parameter accepts is said once more here, apart from the selection: a value of exactly the
declared kind (`ParamType.Exact`), a value that is widened to it (`ParamType.Widens`), or anything
if no kind is declared. An overload accepts arguments of its own number, each by its own parameter,
and its cost is the sum over them (`Overload.Accepts`).

The candidates of least cost (`cheapest`) carry the proof. They are nobody, one or several; what is
remembered after some candidates is what can be said about them in this way (`Cheapest.ofList`), and
one more candidate changes both alike.

## Main results

* `ParamType.accept_eq_some_iff`, `Overload.accepts_iff`: what is accepted, at which cost, and what
  the callable gets.
* `foldl_update`: what is remembered after all candidates.
* `selectOverload_law`: **selection**: when there is no overload, when the call is ambiguous, which
  overload is taken otherwise, and that the order plays no part.
-/

namespace ScriptConsole

/-! ### What parameters accept -/

namespace ParamType

/-- Whether a value is of exactly the declared kind. -/
inductive Exact : ParamType → Value → Prop
  | bool (b : Bool) : Exact .bool (.bool b)
  | int (n : Int32) : Exact .int (.int n)
  | long (n : Int64) : Exact .long (.long n)
  | float (x : Float) : Exact .float (.float x)
  | char (c : Char) : Exact .char (.char c)
  | text (s : String) : Exact .text (.text s)
  | list (i : Identity) (items : List Value) : Exact .list (.list i items)
  | function (f : Closure) : Exact .function (.function f)
  | builtin (b : Builtin) : Exact .function (.builtin b)
  | hostClass (c : ClassRef) : Exact .hostClass (.hostClass c)
  | object (o : ObjectId) (c : ClassRef) : Exact (.object c.name) (.object o c)

/-- Whether a value is widened to the declared kind, and to which value. -/
inductive Widens : ParamType → Value → Value → Prop
  | intToLong (n : Int32) : Widens .long (.int n) (.long n.toInt64)
  | intToFloat (n : Int32) : Widens .float (.int n) (.float (Number.Binary64.ofInt n.toInt))
  | longToFloat (n : Int64) : Widens .float (.long n) (.float (Number.Binary64.ofInt n.toInt))
  | charToText (c : Char) : Widens .text (.char c) (.text (String.singleton c))
  | nullToText : Widens .text .null .null
  | nullToObject (name : String) : Widens (.object name) .null .null
  | nullToFunction : Widens .function .null .null
  | nullToList : Widens .list .null .null
  | nullToClass : Widens .hostClass .null .null

/-- The cost at which a parameter takes an argument, and the value that the callable gets for it. -/
inductive Takes : ParamType → Value → Nat → Value → Prop
  | exact {p : ParamType} {v : Value} : p.Exact v → Takes p v 0 v
  | widened {p : ParamType} {v w : Value} : p.Widens v w → Takes p v 1 w
  | any (v : Value) : Takes .any v 2 v

/-- What a parameter takes exactly costs nothing. -/
theorem accept_of_exact {p : ParamType} {v : Value} (h : p.Exact v) : p.accept v = some (0, v) := by
  cases h with
  | object o c => exact if_pos rfl
  | _ => rfl

/-- What it widens costs one. -/
theorem accept_of_widens {p : ParamType} {v w : Value} (h : p.Widens v w) :
    p.accept v = some (1, w) := by
  cases h <;> rfl

/-- What it accepts it takes exactly or widens. -/
theorem takes_of_accept {p : ParamType} {v w : Value} {cost : Nat}
    (h : p.accept v = some (cost, w)) : p.Takes v cost w := by
  unfold accept at h
  split at h
  case h_12 name o c =>
    split at h
    · next same =>
      obtain ⟨rfl, rfl⟩ := Prod.mk.inj (Option.some.inj h)
      exact same ▸ .exact (.object o c)
    · cases h
  all_goals cases h
  -- each of the other branches is one of the three ways
  all_goals
    first
      | exact .any _
      | exact .exact (by constructor)
      | exact .widened (by constructor)

/-- What a parameter accepts. -/
theorem accept_eq_some_iff {p : ParamType} {v w : Value} {cost : Nat} :
    p.accept v = some (cost, w) ↔ p.Takes v cost w := by
  refine ⟨takes_of_accept, fun h => ?_⟩
  cases h with
  | exact exact => exact accept_of_exact exact
  | widened widens => exact accept_of_widens widens
  | any v => rfl

end ParamType

/-! ### What overloads accept -/

variable {φ : Type}

/-- Whether an overload accepts some arguments, at a cost, and what it gets for them: there are as
many parameters as arguments, each takes the argument in its place, and the cost is what all of them
cost together. -/
def Overload.Accepts (o : Overload φ) (args : List Value) (cost : Nat) (converted : List Value) :
    Prop :=
  ∃ costs : List Nat, costs.sum = cost ∧ o.params.length = args.length ∧
    costs.length = args.length ∧ converted.length = args.length ∧
    ∀ (i : Nat) (p : ParamType) (v : Value) (c : Nat) (w : Value), o.params[i]? = some p →
      args[i]? = some v → costs[i]? = some c → converted[i]? = some w → p.Takes v c w

/-- Arguments are accepted one by one. -/
theorem acceptAll_eq_some_iff {params : List ParamType} {args converted : List Value} {cost : Nat} :
    acceptAll params args = some (cost, converted) ↔
      (⟨params, ()⟩ : Overload Unit).Accepts args cost converted := by
  induction params generalizing args cost converted with
  | nil =>
      cases args with
      | nil =>
          constructor
          · intro h
            obtain ⟨rfl, rfl⟩ := Prod.mk.inj (Option.some.inj h)
            exact ⟨[], rfl, rfl, rfl, rfl, fun i p v c w hp => by simp at hp⟩
          · rintro ⟨costs, rfl, -, noCosts, none, -⟩
            rw [List.eq_nil_of_length_eq_zero noCosts, List.eq_nil_of_length_eq_zero none]
            rfl
      | cons v args =>
          constructor
          · intro h
            cases h
          · rintro ⟨costs, -, few, -⟩
            simp at few
  | cons p params ih =>
      cases args with
      | nil =>
          constructor
          · intro h
            cases h
          · rintro ⟨costs, -, many, -⟩
            simp at many
      | cons v args =>
          constructor
          · intro h
            rw [acceptAll] at h
            split at h
            · next c w total more accepted others =>
              obtain ⟨rfl, rfl⟩ := Prod.mk.inj (Option.some.inj h)
              obtain ⟨costs, rfl, params, length, values, takes⟩ := ih.mp others
              refine ⟨c :: costs, by simp, by simpa using params, by simpa using length,
                by simpa using values, ?_⟩
              intro i q u d x hq hu hd hx
              -- the place is that of the first parameter, or a place among the others
              cases i with
              | zero =>
                  cases hq
                  cases hu
                  cases hd
                  cases hx
                  exact ParamType.accept_eq_some_iff.mp accepted
              | succ i => exact takes i q u d x hq hu hd hx
            · cases h
          · rintro ⟨costs, rfl, params, length, values, takes⟩
            obtain ⟨c, costs, rfl⟩ := List.exists_cons_of_length_eq_add_one length
            obtain ⟨w, converted, rfl⟩ := List.exists_cons_of_length_eq_add_one values
            have first := ParamType.accept_eq_some_iff.mpr (takes 0 p v c w rfl rfl rfl rfl)
            have others := ih.mpr ⟨costs, rfl, by simpa using params, by simpa using length,
              by simpa using values, fun i q u d x hq hu hd hx => takes (i + 1) q u d x hq hu hd hx⟩
            rw [acceptAll, first, others]
            simp

/-- What an overload accepts. -/
theorem Overload.accepts_iff {o : Overload φ} {args converted : List Value} {cost : Nat} :
    acceptAll o.params args = some (cost, converted) ↔ o.Accepts args cost converted :=
  acceptAll_eq_some_iff

/-- What a candidate costs, and what its callable gets. -/
def Overload.applied? (args : List Value) (o : Overload φ) : Option (Applicable φ) :=
  (acceptAll o.params args).map fun (cost, converted) => ⟨cost, o.callable, converted⟩

/-- A candidate applies if its parameters accept the arguments. -/
theorem Overload.applied?_eq_some_iff {o : Overload φ} {args : List Value} {a : Applicable φ} :
    o.applied? args = some a ↔ o.callable = a.callable ∧ o.Accepts args a.cost a.args := by
  rw [← accepts_iff]
  unfold applied?
  cases acceptAll o.params args with
  | none => simp
  | some accepted =>
      obtain ⟨cost, converted⟩ := accepted
      obtain ⟨cost', callable, converted'⟩ := a
      simp only [Option.map_some, Option.some.injEq, Applicable.mk.injEq, Prod.mk.injEq]
      exact ⟨fun ⟨h, h', h''⟩ => ⟨h', h, h''⟩, fun ⟨h', h, h''⟩ => ⟨h, h', h''⟩⟩

/-- The candidates that apply are found one by one. -/
theorem applicable_eq (candidates : List (Overload φ)) (args : List Value) :
    applicable candidates args = candidates.filterMap (Overload.applied? args) := rfl

/-! ### The candidates of least cost -/

/-- The candidates that cost no more than any other. -/
def cheapest (list : List (Applicable φ)) : List (Applicable φ) :=
  list.filter fun a => list.all fun b => a.cost ≤ b.cost

/-- What is remembered of some candidates of least cost: the first, and whether there are others. -/
def Cheapest.ofList : List (Applicable φ) → Option (Cheapest φ)
  | [] => none
  | best :: others => some ⟨best, !others.isEmpty⟩

/-- The cheapest are those that cost no more than any other. -/
theorem mem_cheapest {list : List (Applicable φ)} {a : Applicable φ} :
    a ∈ cheapest list ↔ a ∈ list ∧ ∀ b ∈ list, a.cost ≤ b.cost := by
  simp [cheapest]

/-- The candidates of least cost after one more, which is dearer than those before, as cheap as
they are, or cheaper. -/
theorem cheapest_concat {list others : List (Applicable φ)} {best : Applicable φ}
    (h : cheapest list = best :: others) (next : Applicable φ) :
    cheapest (list ++ [next]) =
      if best.cost < next.cost then best :: others
      else if best.cost = next.cost then best :: others ++ [next]
      else [next] := by
  obtain ⟨mem, least⟩ := mem_cheapest.mp (h ▸ List.mem_cons_self : best ∈ cheapest list)
  have before : best.cost ≤ next.cost →
      list.filter (fun a => (list ++ [next]).all fun b => a.cost ≤ b.cost) = cheapest list := by
    intro le
    -- who costs no more than those before costs no more than the best, and so than the next
    refine List.filter_congr fun a ha => ?_
    rw [List.all_append, Bool.and_eq_left_iff_imp]
    intro all
    have := List.all_eq_true.mp all best mem
    simp only [decide_eq_true_eq] at this
    simpa using Nat.le_trans this le
  rw [cheapest, List.filter_append]
  split
  · next lt =>
    have dear : ¬next.cost ≤ best.cost := Nat.not_le.mpr lt
    rw [before (Nat.le_of_lt lt), h, List.filter_eq_nil_iff.mpr, List.append_nil]
    intro a ha
    rw [List.mem_singleton.mp ha, List.all_eq_true]
    exact fun all => dear (by simpa using all best (List.mem_append_left _ mem))
  split
  · next same =>
    rw [before (Nat.le_of_eq same), h, List.filter_eq_self.mpr]
    intro a ha
    rw [List.mem_singleton.mp ha]
    simpa [← same] using least
  · next notDearer notSame =>
    have lt : next.cost < best.cost := by omega
    have none : list.filter (fun a => (list ++ [next]).all fun b => a.cost ≤ b.cost) = [] := by
      refine List.filter_eq_nil_iff.mpr fun a ha => ?_
      have := least a ha
      simp only [List.all_append, List.all_cons, List.all_nil, Bool.and_true, Bool.and_eq_true,
        decide_eq_true_eq]
      omega
    rw [none, List.filter_eq_self.mpr, List.nil_append]
    intro a ha
    rw [List.mem_singleton.mp ha]
    simpa using fun b hb => Nat.le_trans (Nat.le_of_lt lt) (least b hb)

/-- One more candidate changes what is remembered as it changes the candidates of least cost. -/
theorem Cheapest.update_ofList (list : List (Applicable φ)) (next : Applicable φ)
    (some : list ≠ [] → cheapest list ≠ []) :
    update (ofList (cheapest list)) next = ofList (cheapest (list ++ [next])) ∧
      cheapest (list ++ [next]) ≠ [] := by
  cases h : cheapest list with
  | nil =>
      obtain rfl : list = [] := Decidable.not_not.mp fun ne => some ne h
      have one : cheapest ([] ++ [next]) = [next] := by simp [cheapest]
      rw [one]
      exact ⟨rfl, List.cons_ne_nil _ _⟩
  | cons best others =>
      rw [cheapest_concat h]
      simp only [ofList, update]
      split
      · exact ⟨rfl, List.cons_ne_nil _ _⟩
      split
      · exact ⟨by simp, List.cons_ne_nil _ _⟩
      · exact ⟨rfl, List.cons_ne_nil _ _⟩

/-- What is remembered after all candidates. -/
theorem foldl_update (list : List (Applicable φ)) :
    list.foldl Cheapest.update none = Cheapest.ofList (cheapest list) ∧
      (list ≠ [] → cheapest list ≠ []) := by
  induction list using List.reverseRec with
  | nil => exact ⟨rfl, fun h => absurd rfl h⟩
  | append_singleton list next ih =>
      obtain ⟨remembered, some⟩ := ih
      obtain ⟨updated, others⟩ := Cheapest.update_ofList list next some
      exact ⟨by rw [List.foldl_concat, remembered, updated], fun _ => others⟩

/-- There is a cheapest unless there is none. -/
theorem cheapest_eq_nil_iff {list : List (Applicable φ)} : cheapest list = [] ↔ list = [] := by
  constructor
  · intro h
    by_contra ne
    exact (foldl_update list).2 ne h
  · rintro rfl
    rfl

/-- There is a single candidate of least cost if all others cost more. -/
theorem cheapest_eq_singleton_iff {list : List (Applicable φ)} {a : Applicable φ} :
    cheapest list = [a] ↔ ∃ before behind, list = before ++ a :: behind ∧
      ∀ b ∈ before ++ behind, a.cost < b.cost := by
  constructor
  · intro h
    obtain ⟨before, behind, hlist, none, -, last⟩ := List.filter_eq_cons_iff.mp h
    obtain ⟨-, least⟩ := mem_cheapest.mp (h ▸ List.mem_singleton_self a : a ∈ cheapest list)
    refine ⟨before, behind, hlist, fun b hb => ?_⟩
    -- a candidate that costs as much as `a` would be one of least cost as well
    have dear : ¬∀ c ∈ list, b.cost ≤ c.cost := by
      rcases List.mem_append.mp hb with hb | hb
      · simpa using none b hb
      · simpa using List.filter_eq_nil_iff.mp last b hb
    by_contra notDearer
    exact dear fun c hc => Nat.le_trans (Nat.not_lt.mp notDearer) (least c hc)
  · rintro ⟨before, behind, rfl, dear⟩
    have none : ∀ b ∈ before ++ behind, ¬b.cost ≤ a.cost := fun b hb => Nat.not_le.mpr (dear b hb)
    refine List.filter_eq_cons_iff.mpr ⟨before, behind, rfl, fun b hb all => ?_, ?_, ?_⟩
    · have := List.all_eq_true.mp all a (by simp)
      exact none b (List.mem_append_left _ hb) (by simpa using this)
    · simp only [List.all_eq_true, decide_eq_true_eq, List.mem_append, List.mem_cons]
      rintro b (hb | rfl | hb)
      · exact Nat.le_of_lt (dear b (List.mem_append_left _ hb))
      · exact Nat.le_refl _
      · exact Nat.le_of_lt (dear b (List.mem_append_right _ hb))
    · refine List.filter_eq_nil_iff.mpr fun b hb all => ?_
      have := List.all_eq_true.mp all a (by simp)
      exact none b (List.mem_append_right _ hb) (by simpa using this)

/-- There are several candidates of least cost if two of them share it. -/
theorem cheapest_eq_cons_cons_iff {list : List (Applicable φ)} :
    (∃ a b others, cheapest list = a :: b :: others) ↔
      ∃ before a between b behind, list = before ++ a :: (between ++ b :: behind) ∧
        b.cost = a.cost ∧ ∀ c ∈ list, a.cost ≤ c.cost := by
  constructor
  · rintro ⟨a, b, others, h⟩
    obtain ⟨before, rest, hlist, -, -, last⟩ := List.filter_eq_cons_iff.mp h
    obtain ⟨between, behind, rfl, -⟩ := List.filter_eq_cons_iff.mp last
    obtain ⟨ha, least⟩ := mem_cheapest.mp (h ▸ by simp : a ∈ cheapest list)
    obtain ⟨hb, least'⟩ := mem_cheapest.mp (h ▸ by simp : b ∈ cheapest list)
    exact ⟨before, a, between, b, behind, hlist, Nat.le_antisymm (least' a ha) (least b hb), least⟩
  · rintro ⟨before, a, between, b, behind, hlist, same, least⟩
    have ha : a ∈ cheapest list := mem_cheapest.mpr ⟨by simp [hlist], least⟩
    cases h : cheapest list with
    | nil => rw [h] at ha; cases ha
    | cons c others =>
        cases others with
        | cons d others => exact ⟨c, d, others, rfl⟩
        | nil =>
            -- one of the two would cost more than the other
            have two : ∀ p : Applicable φ → Bool, p a → p b → 2 ≤ (list.filter p).length := by
              intro p hpa hpb
              rw [hlist]
              simp only [List.filter_append, List.filter_cons, hpa, hpb, if_true,
                List.length_append, List.length_cons]
              omega
            have both : 2 ≤ (cheapest list).length :=
              two _ (by simpa using least) (by simpa [same] using least)
            rw [h] at both
            simp at both

/-! ### Selection -/

variable {what : String} {candidates : List (Overload φ)} {args : List Value}

/-- What a call takes is decided by the candidates of least cost. -/
theorem selectOverload_eq (what : String) (candidates : List (Overload φ)) (args : List Value) :
    selectOverload what candidates args =
      match cheapest (applicable candidates args) with
      | [] => .error (.noOverload what (args.map Value.kind))
      | [a] => .ok (a.callable, a.args)
      | _ :: _ :: _ => .error (.ambiguous what (args.map Value.kind)) := by
  rw [selectOverload, (foldl_update _).1]
  match cheapest (applicable candidates args) with
  | [] => rfl
  | [a] => rfl
  | _ :: _ :: _ => rfl

/-- A candidate that accepts the arguments, among the others. -/
theorem applicable_eq_append_cons_iff {before behind : List (Applicable φ)} {a : Applicable φ} :
    applicable candidates args = before ++ a :: behind ↔
      ∃ front o back, candidates = front ++ o :: back ∧ o.applied? args = some a ∧
        applicable front args = before ∧ applicable back args = behind := by
  simp only [applicable_eq]
  constructor
  · intro h
    obtain ⟨front, rest, rfl, rfl, hrest⟩ := List.filterMap_eq_append_iff.mp h
    obtain ⟨refused, o, back, rfl, none, ho, rfl⟩ := List.filterMap_eq_cons_iff.mp hrest
    refine ⟨front ++ refused, o, back, by simp, ho, ?_, rfl⟩
    rw [List.filterMap_append, List.filterMap_eq_nil_iff.mpr none, List.append_nil]
  · rintro ⟨front, o, back, rfl, ho, rfl, rfl⟩
    rw [List.filterMap_append, List.filterMap_cons_some ho]

/-- A candidate that applies is one whose parameters accept. -/
theorem mem_applicable {a : Applicable φ} : a ∈ applicable candidates args ↔
    ∃ o ∈ candidates, o.callable = a.callable ∧ o.Accepts args a.cost a.args := by
  simp only [applicable_eq, List.mem_filterMap, Overload.applied?_eq_some_iff]

/-- What holds of all candidates that accept the arguments holds of their costs. -/
theorem forall_mem_applicable {p : Nat → Prop} : (∀ a ∈ applicable candidates args, p a.cost) ↔
    ∀ o ∈ candidates, ∀ cost converted, o.Accepts args cost converted → p cost := by
  constructor
  · intro h o ho cost converted accepts
    exact h ⟨cost, o.callable, converted⟩ (mem_applicable.mpr ⟨o, ho, rfl, accepts⟩)
  · intro h a ha
    obtain ⟨o, ho, -, accepts⟩ := mem_applicable.mp ha
    exact h o ho _ _ accepts

/-- How the candidates decide what a call takes, in whatever order they stand. -/
structure SelectionLaw (what : String) (candidates : List (Overload φ)) (args : List Value) :
    Prop where
  /-- There is no overload exactly if no candidate accepts the arguments. -/
  noOverload_iff :
    selectOverload what candidates args = .error (.noOverload what (args.map Value.kind)) ↔
      ∀ o ∈ candidates, ∀ cost converted, ¬o.Accepts args cost converted
  /-- The call is ambiguous exactly if two candidates accept the arguments at the same cost, and
  none at a lower one. -/
  ambiguous_iff :
    selectOverload what candidates args = .error (.ambiguous what (args.map Value.kind)) ↔
      ∃ before o between o' behind cost converted converted',
        candidates = before ++ o :: (between ++ o' :: behind) ∧
        o.Accepts args cost converted ∧ o'.Accepts args cost converted' ∧
        ∀ c ∈ candidates, ∀ cost' converted'', c.Accepts args cost' converted'' → cost ≤ cost'
  /-- Otherwise the call takes the candidate that accepts the arguments at a lower cost than all
  others, with its arguments converted. -/
  ok_iff : ∀ callable converted,
    selectOverload what candidates args = .ok (callable, converted) ↔
      ∃ before o behind cost, candidates = before ++ o :: behind ∧ o.callable = callable ∧
        o.Accepts args cost converted ∧
        ∀ c ∈ before ++ behind, ∀ cost' converted', c.Accepts args cost' converted' → cost < cost'
  /-- Nothing else happens. -/
  fault : ∀ e, selectOverload what candidates args = .error e →
    e = .noOverload what (args.map Value.kind) ∨ e = .ambiguous what (args.map Value.kind)
  /-- The order of the candidates plays no part. -/
  order : ∀ others, candidates.Perm others →
    selectOverload what others args = selectOverload what candidates args

/-- No overload is left if none applies. -/
theorem selectOverload_eq_noOverload_iff :
    selectOverload what candidates args = .error (.noOverload what (args.map Value.kind)) ↔
      applicable candidates args = [] := by
  rw [selectOverload_eq, ← cheapest_eq_nil_iff]
  split <;> simp_all

/-- The choice is ambiguous if two are cheapest. -/
theorem selectOverload_eq_ambiguous_iff :
    selectOverload what candidates args = .error (.ambiguous what (args.map Value.kind)) ↔
      ∃ a b others, cheapest (applicable candidates args) = a :: b :: others := by
  rw [selectOverload_eq]
  split <;> simp_all

/-- A choice is made if one candidate is cheapest. -/
theorem selectOverload_eq_ok_iff {callable : φ} {converted : List Value} :
    selectOverload what candidates args = .ok (callable, converted) ↔
      ∃ cost, cheapest (applicable candidates args) = [⟨cost, callable, converted⟩] := by
  rw [selectOverload_eq]
  split
  · simp_all
  · next a one =>
    obtain ⟨cost, f, values⟩ := a
    simp [one]
  · simp_all

/-- Candidates behind candidates. -/
theorem applicable_append (front back : List (Overload φ)) (args : List Value) :
    applicable (front ++ back) args = applicable front args ++ applicable back args :=
  List.filterMap_append

/-- Two are cheapest at two places of the list. -/
theorem ambiguous_iff_exists_two :
    (∃ a b others, cheapest (applicable candidates args) = a :: b :: others) ↔
      ∃ before o between o' behind cost converted converted',
        candidates = before ++ o :: (between ++ o' :: behind) ∧
        o.Accepts args cost converted ∧ o'.Accepts args cost converted' ∧
        ∀ c ∈ candidates, ∀ cost' converted'', c.Accepts args cost' converted'' → cost ≤ cost' := by
  rw [cheapest_eq_cons_cons_iff]
  constructor
  · rintro ⟨before, a, between, b, behind, hlist, same, least⟩
    obtain ⟨front, o, rest, rfl, ho, -, hrest⟩ := applicable_eq_append_cons_iff.mp hlist
    obtain ⟨middle, o', back, rfl, ho', -, -⟩ := applicable_eq_append_cons_iff.mp hrest
    obtain ⟨-, accepts⟩ := Overload.applied?_eq_some_iff.mp ho
    obtain ⟨-, accepts'⟩ := Overload.applied?_eq_some_iff.mp ho'
    exact ⟨front, o, middle, o', back, a.cost, a.args, b.args, rfl, accepts, same ▸ accepts',
      forall_mem_applicable.mp least⟩
  · rintro ⟨before, o, between, o', behind, cost, converted, converted', rfl, accepts, accepts',
      least⟩
    have ho : o.applied? args = some ⟨cost, o.callable, converted⟩ :=
      Overload.applied?_eq_some_iff.mpr ⟨rfl, accepts⟩
    have ho' : o'.applied? args = some ⟨cost, o'.callable, converted'⟩ :=
      Overload.applied?_eq_some_iff.mpr ⟨rfl, accepts'⟩
    have inner := applicable_eq_append_cons_iff.mpr ⟨between, o', behind, rfl, ho', rfl, rfl⟩
    have outer := applicable_eq_append_cons_iff.mpr ⟨before, o, _, rfl, ho, rfl, inner⟩
    exact ⟨_, _, _, _, _, outer, rfl, forall_mem_applicable.mpr least⟩

/-- One is cheapest at a place of the list, and all others cost more. -/
theorem ok_iff_exists_cheapest {callable : φ} {converted : List Value} :
    (∃ cost, cheapest (applicable candidates args) = [⟨cost, callable, converted⟩]) ↔
      ∃ before o behind cost, candidates = before ++ o :: behind ∧ o.callable = callable ∧
        o.Accepts args cost converted ∧
        ∀ c ∈ before ++ behind, ∀ cost' converted', c.Accepts args cost' converted' →
          cost < cost' := by
  constructor
  · rintro ⟨cost, one⟩
    obtain ⟨before, behind, hlist, dear⟩ := cheapest_eq_singleton_iff.mp one
    obtain ⟨front, o, back, rfl, ho, rfl, rfl⟩ := applicable_eq_append_cons_iff.mp hlist
    obtain ⟨same, accepts⟩ := Overload.applied?_eq_some_iff.mp ho
    rw [← applicable_append] at dear
    exact ⟨front, o, back, cost, rfl, same, accepts, forall_mem_applicable.mp dear⟩
  · rintro ⟨before, o, behind, cost, rfl, rfl, accepts, dear⟩
    have ho : o.applied? args = some ⟨cost, o.callable, converted⟩ :=
      Overload.applied?_eq_some_iff.mpr ⟨rfl, accepts⟩
    have hlist := applicable_eq_append_cons_iff.mpr ⟨before, o, behind, rfl, ho, rfl, rfl⟩
    refine ⟨cost, cheapest_eq_singleton_iff.mpr ⟨_, _, hlist, ?_⟩⟩
    rw [← applicable_append]
    exact forall_mem_applicable.mpr dear

/-- The candidates of least cost are the same in whatever order they stand. -/
theorem cheapest_perm {list others : List (Applicable φ)} (perm : list.Perm others) :
    (cheapest list).Perm (cheapest others) := by
  have same : cheapest others = others.filter fun a => list.all fun b => a.cost ≤ b.cost :=
    List.filter_congr fun a _ => by
      rw [Bool.eq_iff_iff, List.all_eq_true, List.all_eq_true]
      exact forall_congr' fun b => by rw [perm.mem_iff]
  rw [same]
  exact perm.filter _

/-- The order of the candidates does not matter. -/
theorem selectOverload_perm {others : List (Overload φ)} (perm : candidates.Perm others) :
    selectOverload what others args = selectOverload what candidates args := by
  have same : (cheapest (applicable candidates args)).Perm (cheapest (applicable others args)) :=
    cheapest_perm (perm.filterMap _)
  rw [selectOverload_eq, selectOverload_eq]
  generalize cheapest (applicable candidates args) = list at same
  match list with
  | [] => rw [List.nil_perm.mp same]
  | [a] => rw [← List.singleton_perm.mp same]
  | a :: b :: rest =>
      have length := same.length_eq
      generalize cheapest (applicable others args) = list' at length
      match list' with
      | [] => simp at length
      | [_] => simp at length
      | _ :: _ :: _ => rfl

/-- **Selection.** A call has no overload if no candidate accepts its arguments, is ambiguous if two
or more of them share the least cost, and takes the one of least cost otherwise, with each argument
converted by its own parameter. The order of the candidates plays no part. -/
theorem selectOverload_law (what : String) (candidates : List (Overload φ)) (args : List Value) :
    SelectionLaw what candidates args where
  noOverload_iff := by
    rw [selectOverload_eq_noOverload_iff, List.eq_nil_iff_forall_not_mem]
    constructor
    · intro none o ho cost converted accepts
      exact none ⟨cost, o.callable, converted⟩ (mem_applicable.mpr ⟨o, ho, rfl, accepts⟩)
    · intro none a ha
      obtain ⟨o, ho, -, accepts⟩ := mem_applicable.mp ha
      exact none o ho _ _ accepts
  ambiguous_iff := selectOverload_eq_ambiguous_iff.trans ambiguous_iff_exists_two
  ok_iff _ _ := selectOverload_eq_ok_iff.trans ok_iff_exists_cheapest
  fault e h := by
    rw [selectOverload_eq] at h
    split at h
    · exact .inl (Except.error.inj h).symm
    · cases h
    · exact .inr (Except.error.inj h).symm
  order _ perm := selectOverload_perm perm

/-- Among three candidates that accept two integers, at the costs 3, 1 and 2, the second is taken in
either order. -/
theorem selectOverload_law_reversed :
    let candidates : List (Overload String) :=
      [⟨[.long, .any], "first"⟩, ⟨[.long, .int], "second"⟩, ⟨[.any, .int], "third"⟩]
    candidates.Perm candidates.reverse ∧
      selectOverload "f" candidates [.int 1, .int 2] = .ok ("second", [.long 1, .int 2]) ∧
      selectOverload "f" candidates.reverse [.int 1, .int 2] =
        .ok ("second", [.long 1, .int 2]) := by
  intro candidates
  have perm : candidates.Perm candidates.reverse := (List.reverse_perm candidates).symm
  have taken : selectOverload "f" candidates [.int 1, .int 2] =
      .ok ("second", [.long 1, .int 2]) := rfl
  have same := (selectOverload_law "f" candidates [.int 1, .int 2]).order _ perm
  exact ⟨perm, taken, same.trans taken⟩

end ScriptConsole
