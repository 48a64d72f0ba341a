import ScriptConsole.Proofs.Values.Sharing

/-!
# Equality as a Relation

Without NaN, the equality of the language is reflexive and symmetric, and it is transitive but for
one thing. An integer is compared with a double as a double, and wide integers are rounded to
doubles: two integers that differ may both be equal to one double. Values that are equal to a third
are equal to each other, unless two such integers stand at some place in them and the double at that
place in the third (`Value.Bridges`).

## Main results

* `Value.eql_comm`: equality from the other side.
* `Value.eql_trans_iff`: two values that are equal to a third, by induction on the first.
* `equality_as_relation`: **equality as a relation**.
* `equality_not_transitive`: two integers that differ, and a double that is equal to both.
-/

namespace ScriptConsole

open Float.Model
open List (Forall₂)

namespace Value

variable {a b c : Value}

/-! ### Doubles -/

/-- Doubles that are equal are the same but for the sign of a zero. -/
theorem same_of_compare {u v : UnpackedFloat} (h : u.compare v = some .eq) :
    u = v ∨ ∃ s t, u = .zero s ∧ v = .zero t := by
  cases u with
  | notANumber => cases v <;> cases h
  | infinity s =>
      cases v with
      | infinity t =>
          cases s <;> cases t
          · exact .inl rfl
          · cases h
          · cases h
          · exact .inl rfl
      | _ => cases s <;> cases h
  | zero s =>
      cases v with
      | zero t => exact .inr ⟨s, t, rfl, rfl⟩
      | notANumber => cases h
      | infinity t | finite t => cases t <;> cases h
  | finite s m e =>
      cases v with
      | finite t n d =>
          have parts (equal : (compare e d).then (compare m n) = .eq) : e = d ∧ m = n := by
            rwa [Ordering.then_eq_eq, Std.LawfulEqCmp.compare_eq_iff_eq,
              Std.LawfulEqCmp.compare_eq_iff_eq] at equal
          cases s <;> cases t
          · obtain ⟨rfl, rfl⟩ := parts (Ordering.swap_eq_eq.mp (Option.some.inj h))
            exact .inl rfl
          · cases h
          · cases h
          · obtain ⟨rfl, rfl⟩ := parts (Option.some.inj h)
            exact .inl rfl
      | notANumber => cases s <;> cases h
      | infinity t => cases s <;> cases t <;> cases h
      | zero t => cases s <;> cases h

/-- Equality of doubles is transitive. -/
theorem beq_trans_float {x y z : Float} (first : (x == y) = true) (second : (y == z) = true) :
    (x == z) = true := by
  rw [Number.Binary64.beq_iff] at first second ⊢
  rcases same_of_compare first with same | ⟨s, t, hs, ht⟩
  · rw [same]
    exact second
  · rcases same_of_compare second with same | ⟨s', t', hs', ht'⟩
    · rw [← same]
      exact first
    · rw [hs, ht']
      rfl

/-! ### Numbers -/

/-- A number is equal to numbers only. -/
theorem eql_number_iff {x : Float} (ha : a.toFloat? = some x) :
    a.eql b = true ↔ ∃ y, b.toFloat? = some y ∧ eqlNumber a b = true := by
  cases hb : b.toFloat? with
  | some y => simp [eql_of_numbers ha hb]
  | none =>
      refine iff_of_false ?_ nofun
      cases a with
      | int _ | long _ | float _ => cases b <;> simp_all [eql, eqlNumber, toInt64?, toFloat?]
      | _ => cases ha

/-- Numbers are equal as integers if both are, and as doubles otherwise. -/
theorem eqlNumber_cases {x y : Float} (ha : a.toFloat? = some x) (hb : b.toFloat? = some y) :
    (∃ m n, a.toInt64? = some m ∧ b.toInt64? = some n ∧ eqlNumber a b = (m == n)) ∨
      (a.toInt64? = none ∨ b.toInt64? = none) ∧ eqlNumber a b = (x == y) := by
  unfold eqlNumber
  cases hm : a.toInt64? with
  | none => exact .inr ⟨.inl rfl, by rw [ha, hb]⟩
  | some m =>
      cases hn : b.toInt64? with
      | none => exact .inr ⟨.inr rfl, by rw [ha, hb]⟩
      | some n => exact .inl ⟨m, n, rfl, rfl, rfl⟩

/-- Numbers that are equal are so as doubles. -/
theorem beq_of_eqlNumber {x y : Float} (ha : a.toFloat? = some x) (hb : b.toFloat? = some y)
    (h : eqlNumber a b = true) : (x == y) = true := by
  rcases eqlNumber_cases ha hb with ⟨m, n, hm, hn, equal⟩ | ⟨-, equal⟩
  · rw [equal, beq_iff_eq] at h
    subst h
    rw [toFloat?_of_toInt64? hm, Option.some.injEq] at ha
    rw [toFloat?_of_toInt64? hn, Option.some.injEq] at hb
    rw [← ha, ← hb, beq_self_iff]
    exact Number.Binary64.isNaN_ofInt _
  · exact equal ▸ h

/-! ### Equality from the other side -/

/-- Equality of numbers does not depend on their order. -/
theorem eqlNumber_comm (a b : Value) : eqlNumber a b = eqlNumber b a := by
  unfold eqlNumber
  cases a.toInt64? <;> cases b.toInt64? <;> cases a.toFloat? <;> cases b.toFloat? <;>
    first | rfl | exact beq_comm_float _ _ | exact BEq.comm

/-- Values of two kinds are equal if they are equal numbers. -/
theorem eql_of_kinds (other : a.kind ≠ b.kind) : a.eql b = eqlNumber a b := by
  cases a <;> cases b <;> first | exact absurd rfl other | simp [eql]

/-- Equality of values does not depend on their order. -/
theorem eql_comm (a b : Value) : a.eql b = b.eql a := by
  induction a using inductionOn generalizing b with
  | atom a atom =>
      by_cases same : a.kind = b.kind
      · cases a with
        | null => cases b <;> rfl
        | bool _ | char _ | text _ | function _ | builtin _ | hostClass _ | object _ _ =>
            cases b <;> first | exact BEq.comm | exact nomatch same
        | int _ | long _ | float _ => cases b <;> simp [eql, eqlNumber_comm]
        | list => exact absurd rfl atom
      · rw [eql_of_kinds same, eql_of_kinds (Ne.symm same), eqlNumber_comm]
  | list i xs ih =>
      by_cases same : (list i xs).kind = b.kind
      · obtain ⟨j, ys, rfl⟩ := exists_of_kind same.symm
        rw [Bool.eq_iff_iff, eql_list_iff, eql_list_iff, forall₂_iff_getElem?,
          forall₂_iff_getElem?]
        refine or_congr eq_comm (and_congr eq_comm ?_)
        constructor
        · exact fun h k b a hb ha => ih a (List.mem_of_getElem? ha) b ▸ h ha hb
        · exact fun h k a b ha hb => (ih a (List.mem_of_getElem? ha) b).symm ▸ h hb ha
      · rw [eql_of_kinds same, eql_of_kinds (Ne.symm same), eqlNumber_comm]

/-! ### Two values that are equal to a third -/

/-- Whether, at some place, two values have integers that differ and a third has a double. -/
inductive Bridges : Value → Value → Value → Prop
  | here {a c : Value} {x : Float} {m n : Int64} :
      a.toInt64? = some m → c.toInt64? = some n → m ≠ n → Bridges a (.float x) c
  | item {i j k : Identity} {xs ys zs : List Value} {n : Nat} {a b c : Value} :
      xs[n]? = some a → ys[n]? = some b → zs[n]? = some c → Bridges a b c →
      Bridges (list i xs) (list j ys) (list k zs)

theorem toFloat?_of_bridges (atom : a.kind ≠ .list) (h : Bridges a b c) :
    ∃ x, a.toFloat? = some x := by
  cases h with
  | here hm _ _ => exact ⟨_, toFloat?_of_toInt64? hm⟩
  | item => exact absurd rfl atom

/-- Numbers that are equal to a third are equal, unless they are integers that differ and the third
is a double. -/
theorem eqlNumber_trans_iff {x y z : Float} (ha : a.toFloat? = some x) (hb : b.toFloat? = some y)
    (hc : c.toFloat? = some z) (hab : eqlNumber a b = true) (hbc : eqlNumber b c = true) :
    eqlNumber a c = true ↔ ¬Bridges a b c := by
  rcases eqlNumber_cases ha hc with ⟨m, n, hm, hn, equal⟩ | ⟨mixed, equal⟩
  · rw [equal, beq_iff_eq]
    constructor
    · rintro rfl (⟨hm', hn', other⟩ | _)
      · exact other (Option.some.inj (hm'.symm.trans (hm.trans (hn.symm.trans hn'))))
      · cases ha
    · intro none
      rcases eqlNumber_cases ha hb with ⟨m', k, hm', hk, first⟩ | ⟨mixed, -⟩
      · -- with an integer in between, all are compared as integers
        rcases eqlNumber_cases hb hc with ⟨k', n', hk', hn', second⟩ | ⟨mixed, -⟩
        · rw [first, beq_iff_eq] at hab
          rw [second, beq_iff_eq] at hbc
          simp_all
        · rcases mixed with no | no <;> simp_all
      · cases b with
        | float y => exact by_contra fun other => none (.here hm hn other)
        | int _ | long _ => rcases mixed with no | no <;> simp_all [toInt64?]
        | _ => cases hb
  · refine iff_of_true ?_ ?_
    · rw [equal]
      exact beq_trans_float (beq_of_eqlNumber ha hb hab) (beq_of_eqlNumber hb hc hbc)
    · rintro (⟨hm, hn, -⟩ | _)
      · rcases mixed with no | no <;> simp_all
      · cases ha

/-- Of what is no number and no list, two that are equal to a third are equal. -/
theorem eql_trans_of_atom (atom : a.kind ≠ .list) (other : a.toFloat? = none)
    (hab : a.eql b = true) (hbc : b.eql c = true) : a.eql c = true := by
  cases a with
  | list => exact absurd rfl atom
  | int _ | long _ | float _ => cases other
  | null =>
      cases b with
      | null => exact hbc
      | _ => cases hab
  | bool _ | char _ | text _ | function _ | builtin _ | hostClass _ | object _ _ =>
      cases b <;> try cases hab
      cases c <;> first | exact BEq.trans hab hbc | cases hbc

/-- Two values that are equal to a third are equal, unless integers of theirs that differ have met
one double. -/
theorem eql_trans_iff {contents : Identity → List Value} (ha : a.Coherent contents)
    (hb : b.Coherent contents) (hc : c.Coherent contents) (na : a.WithoutNaN) (nb : b.WithoutNaN)
    (hab : a.eql b = true) (hbc : b.eql c = true) : a.eql c = true ↔ ¬Bridges a b c := by
  induction a using inductionOn generalizing b c with
  | atom a atom =>
      cases hx : a.toFloat? with
      | none =>
          -- of what is no list, only numbers are bridged
          refine iff_of_true (eql_trans_of_atom atom hx hab hbc) fun bridges => ?_
          obtain ⟨x, number⟩ := toFloat?_of_bridges atom bridges
          rw [hx] at number
          cases number
      | some x =>
          obtain ⟨y, hy, first⟩ := (eql_number_iff hx).mp hab
          obtain ⟨z, hz, second⟩ := (eql_number_iff hy).mp hbc
          rw [eql_of_numbers hx hz]
          exact eqlNumber_trans_iff hx hy hz first second
  | list i xs ih =>
      obtain ⟨j, ys, rfl⟩ := exists_of_kind (kind_of_eql_list hab)
      obtain ⟨k, zs, rfl⟩ := exists_of_kind (kind_of_eql_list hbc)
      rw [eql_list_iff_items ha hb na, forall₂_iff_getElem?] at hab
      rw [eql_list_iff_items hb hc nb, forall₂_iff_getElem?] at hbc
      rw [eql_list_iff_items ha hc na, forall₂_iff_getElem?]
      have items {n : Nat} {a b c : Value} (hxs : xs[n]? = some a) (hys : ys[n]? = some b)
          (hzs : zs[n]? = some c) : a.eql c = true ↔ ¬Bridges a b c :=
        have mem := List.mem_of_getElem? hxs
        have mem' := List.mem_of_getElem? hys
        ih a mem ((coherent_list.mp ha).2 a mem) ((coherent_list.mp hb).2 b mem')
          ((coherent_list.mp hc).2 c (List.mem_of_getElem? hzs)) (withoutNaN_list.mp na a mem)
          (withoutNaN_list.mp nb b mem') (hab.2 hxs hys) (hbc.2 hys hzs)
      constructor
      · rintro ⟨-, equal⟩ (_ | ⟨hxs, hys, hzs, bridges⟩)
        exact (items hxs hys hzs).mp (equal hxs hzs) bridges
      · refine fun none => ⟨hab.1.trans hbc.1, fun {n a c} hxs hzs => ?_⟩
        obtain ⟨bound, -⟩ := List.getElem?_eq_some_iff.mp hxs
        have hys := List.getElem?_eq_getElem (hab.1 ▸ bound)
        exact (items hxs hys hzs).mpr fun bridges => none (.item hxs hys hzs bridges)

/-- What equality is as a relation between three values. -/
structure EqualityLaw (a b c : Value) : Prop where
  refl : a.eql a = true
  symm : a.eql b = true → b.eql a = true
  /-- Equality is handed on, unless integers that differ have met one double. -/
  trans_iff : a.eql b = true → b.eql c = true → (a.eql c = true ↔ ¬Bridges a b c)

end Value

/-- **Equality as a relation.** -/
theorem equality_as_relation {contents : Identity → List Value} {a b c : Value}
    (ha : a.Coherent contents) (hb : b.Coherent contents) (hc : c.Coherent contents)
    (na : a.WithoutNaN) (nb : b.WithoutNaN) : Value.EqualityLaw a b c where
  refl := (Value.eql_self_iff a).mpr na.notNaN
  symm h := Value.eql_comm a b ▸ h
  trans_iff := Value.eql_trans_iff ha hb hc na nb

/-- Lists of integers and doubles, the first two of them equal and the last two, in which two wide
integers meet one double. -/
theorem equality_as_relation_mixed :
    let a : Value := .list 0 [.int 1, .long 9007199254740992]
    let b : Value := .list 1 [.long 1, .float 9007199254740992]
    let c : Value := .list 2 [.float 1, .long 9007199254740993]
    let contents : Identity → List Value := fun i =>
      if i = 0 then [.int 1, .long 9007199254740992]
      else if i = 1 then [.long 1, .float 9007199254740992]
      else [.float 1, .long 9007199254740993]
    (a.Coherent contents ∧ b.Coherent contents ∧ c.Coherent contents ∧ a.WithoutNaN ∧
        b.WithoutNaN) ∧ Value.EqualityLaw a b c ∧
      a.eql b = true ∧ b.eql c = true ∧ a.eql c = false := by
  intro a b c contents
  have atoms : ∀ i (u v : Value), u.kind ≠ .list → v.kind ≠ .list → contents i = [u, v] →
      (Value.list i [u, v]).Coherent contents := by
    intro i u v hu hv own
    refine Value.coherent_list.mpr ⟨own.symm, ?_⟩
    simp [Value.coherent_of_atom hu, Value.coherent_of_atom hv]
  have ha : a.Coherent contents := atoms 0 _ _ nofun nofun rfl
  have hb : b.Coherent contents := atoms 1 _ _ nofun nofun rfl
  have hc : c.Coherent contents := atoms 2 _ _ nofun nofun rfl
  have na : a.WithoutNaN := (Value.eqlByItems_self_iff a).mp (by decide +kernel)
  have nb : b.WithoutNaN := (Value.eqlByItems_self_iff b).mp (by decide +kernel)
  exact ⟨⟨ha, hb, hc, na, nb⟩, equality_as_relation ha hb hc na nb, by decide +kernel,
    by decide +kernel, by decide +kernel⟩

/-- Two wide integers that differ, and a double that both are equal to. -/
theorem equality_not_transitive :
    let a : Value := .long 9007199254740992
    let b : Value := .float 9007199254740992
    let c : Value := .long 9007199254740993
    (a.WithoutNaN ∧ b.WithoutNaN ∧ c.WithoutNaN) ∧
      a.eql b = true ∧ b.eql c = true ∧ a.eql c = false := by
  intro a b c
  have number (v : Value) : v.eqlByItems v = true → v.WithoutNaN := v.eqlByItems_self_iff.mp
  exact ⟨⟨number a (by decide +kernel), number b (by decide +kernel), number c (by decide +kernel)⟩,
    by decide +kernel, by decide +kernel, by decide +kernel⟩

end ScriptConsole
