import Mathlib.Data.List.Forall2
import ScriptConsole.Proofs.Evaluation.Stock
import ScriptConsole.Proofs.Values.Comparisons

/-!
# Equality and the Identity of Lists

Two lists are equal if they are the same list, or item by item. The first is a shortcut for the
second: it saves going through the items of a list that both values share. `Value.eqlByItems` is the
equality without it, which no identity of a list has a say in.

The two agree as long as every value is equal to itself. All values are but NaN, and with a NaN the
shortcut shows: a list with a NaN in it is equal to itself, and not to another list of the same
items. More exactly, what is equal is equal item by item unless both values have a list in common,
at the same place, that holds a NaN somewhere (`Value.SharesNaN`).

Identities tell lists apart, so a list comes with its items wherever it stands. That is assumed of
the values that are compared (`Value.Coherent`). It holds of all values that are at hand in a
session at the same time (`Session.coherent_after`), since lists that are made have new identities.

## Main results

* `Value.eql_self_iff`, `Value.eqlByItems_self_iff`: what is equal to itself.
* `Value.eqlByItems_iff`: equality item by item, by induction on the first value.
* `equality_and_sharing`: **how equality depends on sharing**.
* `sharing_shows_nan`: a list that is equal to itself and not to its copy.
-/

namespace ScriptConsole

open List (Forall₂)

/-- Two lists are related item by item if they are as long and the items at every place are. -/
theorem forall₂_iff_getElem? {α β : Type} {R : α → β → Prop} {xs : List α} {ys : List β} :
    Forall₂ R xs ys ↔ xs.length = ys.length ∧
      ∀ {k : Nat} {a : α} {b : β}, xs[k]? = some a → ys[k]? = some b → R a b := by
  rw [List.forall₂_iff_get]
  refine and_congr_right fun same => ⟨fun h k a b ha hb => ?_, fun h k hk hk' => ?_⟩
  · obtain ⟨hk, rfl⟩ := List.getElem?_eq_some_iff.mp ha
    obtain ⟨hk', rfl⟩ := List.getElem?_eq_some_iff.mp hb
    exact h k hk hk'
  · exact h (List.getElem?_eq_getElem hk) (List.getElem?_eq_getElem hk')

namespace Value

variable {a b : Value} {i j : Identity} {xs ys : List Value}

/-! ### Values and their items -/

mutual

/-- Induction on values, where lists are reached through their elements. -/
theorem induction_aux {P : Value → Prop} (atom : ∀ v : Value, v.kind ≠ .list → P v)
    (list : ∀ (i : Identity) (items : List Value), (∀ v ∈ items, P v) → P (.list i items)) :
    ∀ v, P v
  | .list i items => list i items (induction_each atom list items)
  | .null | .bool _ | .int _ | .long _ | .float _ | .char _ | .text _ | .function _ | .builtin _
  | .hostClass _ | .object _ _ => atom _ nofun

/-- The same for the elements of a list. -/
theorem induction_each {P : Value → Prop} (atom : ∀ v : Value, v.kind ≠ .list → P v)
    (list : ∀ (i : Identity) (items : List Value), (∀ v ∈ items, P v) → P (.list i items)) :
    ∀ items : List Value, ∀ v ∈ items, P v
  | [] => nofun
  | v :: rest =>
      List.forall_mem_cons.mpr ⟨induction_aux atom list v, induction_each atom list rest⟩

end

/-- Induction on values: a value is no list, or a list of such values. -/
@[elab_as_elim]
theorem inductionOn {P : Value → Prop} (v : Value) (atom : ∀ v : Value, v.kind ≠ .list → P v)
    (list : ∀ (i : Identity) (items : List Value), (∀ v ∈ items, P v) → P (.list i items)) : P v :=
  induction_aux atom list v

/-- A value of the kind of lists is one. -/
theorem exists_of_kind (h : a.kind = .list) : ∃ i items, a = .list i items := by
  cases a with
  | list i items => exact ⟨i, items, rfl⟩
  | _ => cases h

/-- Whether each list that a value holds has the items that belong to its identity. -/
def Coherent (contents : Identity → List Value) (v : Value) : Prop :=
  ∀ i items, v.Holds (.list i items) → items = contents i

/-- Whether no NaN is held. -/
def WithoutNaN (v : Value) : Prop := ∀ x, v.Holds (.float x) → x.isNaN = false

/-- A list is coherent if its identity stands for its elements, and they are coherent. -/
theorem coherent_list {contents : Identity → List Value} :
    (list i xs).Coherent contents ↔ xs = contents i ∧ ∀ v ∈ xs, v.Coherent contents := by
  constructor
  · exact fun h => ⟨h i xs (.self _), fun v mem j items held => h j items (.item mem held)⟩
  · rintro ⟨own, inside⟩ j items (_ | ⟨mem, held⟩)
    · exact own
    · exact inside _ mem j items held

/-- Anything else is coherent. -/
theorem coherent_of_atom {contents : Identity → List Value} (atom : a.kind ≠ .list) :
    a.Coherent contents := by
  rintro j items (_ | _) <;> exact absurd rfl atom

/-- A list is without NaN if its elements are. -/
theorem withoutNaN_list : (list i xs).WithoutNaN ↔ ∀ v ∈ xs, v.WithoutNaN := by
  constructor
  · exact fun h v mem x held => h x (.item mem held)
  · rintro h x (_ | ⟨mem, held⟩)
    exact h _ mem x held

/-- What is without NaN is none. -/
theorem WithoutNaN.notNaN (h : a.WithoutNaN) : a.NotNaN := by
  rintro x rfl
  exact h x (.self _)

/-- What is no list is without NaN if it is none itself. -/
theorem withoutNaN_of_atom (atom : a.kind ≠ .list) : a.WithoutNaN ↔ a.NotNaN := by
  refine ⟨WithoutNaN.notNaN, ?_⟩
  rintro h x (_ | _)
  · exact h x rfl
  · exact absurd rfl atom

/-! ### Equality item by item -/

mutual

/-- The equality of the language, with lists compared by their items only. -/
def eqlByItems : Value → Value → Bool
  | list _ xs, list _ ys => eqlEachByItems xs ys
  | a, b => eql a b

/-- Equality by the items only, item by item. -/
def eqlEachByItems : List Value → List Value → Bool
  | [], [] => true
  | x :: xs, y :: ys => eqlByItems x y && eqlEachByItems xs ys
  | _, _ => false

end

/-- Identities matter only between lists. -/
theorem eqlByItems_of_atom (atom : a.kind ≠ .list ∨ b.kind ≠ .list) :
    a.eqlByItems b = a.eql b := by
  cases a with
  | list i xs =>
      cases b with
      | list j ys => rcases atom with no | no <;> exact absurd rfl no
      | _ => rfl
  | _ => rfl

/-- Elements are equal one by one. -/
theorem eqlItems_iff :
    eqlItems xs ys = true ↔ Forall₂ (fun a b : Value => a.eql b = true) xs ys := by
  induction xs generalizing ys with
  | nil => cases ys <;> simp [eqlItems]
  | cons x xs ih => cases ys <;> simp [eqlItems, ih]

/-- The same where identities are not looked at. -/
theorem eqlEachByItems_iff :
    eqlEachByItems xs ys = true ↔ Forall₂ (fun a b : Value => a.eqlByItems b = true) xs ys := by
  induction xs generalizing ys with
  | nil => cases ys <;> simp [eqlEachByItems]
  | cons x xs ih => cases ys <;> simp [eqlEachByItems, ih]

/-- Lists are equal if they are one list, or item by item. -/
theorem eql_list_iff : (list i xs).eql (list j ys) = true ↔
    i = j ∨ Forall₂ (fun a b : Value => a.eql b = true) xs ys := by
  rw [eql, Bool.or_eq_true, beq_iff_eq, eqlItems_iff]

/-- Lists are then equal if their elements are. -/
theorem eqlByItems_list_iff : (list i xs).eqlByItems (list j ys) = true ↔
    Forall₂ (fun a b : Value => a.eqlByItems b = true) xs ys := by
  rw [eqlByItems, eqlEachByItems_iff]

/-- A list is equal to nothing but lists. -/
theorem kind_of_eql_list (h : (list i xs).eql b = true) : b.kind = .list := by
  cases b with
  | list j ys => rfl
  | _ => cases h

/-! ### What is equal to itself -/

/-- A double is equal to itself unless it is NaN. -/
theorem beq_self_iff (x : Float) : (x == x) = true ↔ x.isNaN = false := by
  rw [beq_iff_orderFloats]
  constructor
  · intro h
    rw [orderFloats_eq] at h
    rw [Number.Binary64.isNaN_eq_false_iff]
    intro nan
    rw [nan] at h
    cases h
  · intro number
    obtain ⟨o, order⟩ := Option.isSome_iff_exists.mp (isSome_orderFloats number number)
    have swapped := orderFloats_swap x x
    rw [order] at swapped
    cases o with
    | eq => exact order
    | _ => cases swapped

/-- All values are equal to themselves but NaN. -/
theorem eql_self_iff (v : Value) : v.eql v = true ↔ v.NotNaN := by
  cases v with
  | float x =>
      refine (beq_self_iff x).trans ⟨fun number y same => ?_, fun h => h x rfl⟩
      exact float.inj same ▸ number
  | _ =>
      refine iff_of_true ?_ fun x h => ?_
      · simp [eql, eqlNumber, toInt64?]
      · cases h

/-- Item by item, a value is equal to itself if no NaN is in it. -/
theorem eqlByItems_self_iff (v : Value) : v.eqlByItems v = true ↔ v.WithoutNaN := by
  induction v using inductionOn with
  | atom v atom => rw [eqlByItems_of_atom (.inl atom), eql_self_iff, withoutNaN_of_atom atom]
  | list i items ih =>
      rw [eqlByItems_list_iff, List.forall₂_same, withoutNaN_list]
      exact forall₂_congr ih

/-- Without NaN, lists are equal if they are item by item. -/
theorem eql_list_iff_items {contents : Identity → List Value} (hx : (list i xs).Coherent contents)
    (hy : (list j ys).Coherent contents) (none : (list i xs).WithoutNaN) :
    (list i xs).eql (list j ys) = true ↔ Forall₂ (fun a b : Value => a.eql b = true) xs ys := by
  rw [eql_list_iff, or_iff_right_of_imp]
  rintro rfl
  obtain rfl : xs = ys := (coherent_list.mp hx).1.trans (coherent_list.mp hy).1.symm
  refine List.forall₂_same.mpr fun v mem => (eql_self_iff v).mpr ?_
  exact (withoutNaN_list.mp none v mem).notNaN

/-! ### Lists in common -/

/-- Whether two values have a list in common, at the same place in both, that holds a NaN. -/
inductive SharesNaN : Value → Value → Prop
  | here {i : Identity} {xs ys : List Value} :
      ¬(list i xs).WithoutNaN → SharesNaN (list i xs) (list i ys)
  | item {i j : Identity} {xs ys : List Value} {k : Nat} {a b : Value} :
      xs[k]? = some a → ys[k]? = some b → SharesNaN a b → SharesNaN (list i xs) (list j ys)

/-- Values that share a NaN are not without. -/
theorem SharesNaN.not_withoutNaN (h : a.SharesNaN b) : ¬a.WithoutNaN := by
  induction h with
  | here nan => exact nan
  | item ha _ _ ih =>
      intro none
      exact ih (withoutNaN_list.mp none _ (List.mem_of_getElem? ha))

/-- A list shares with itself the NaN that it holds. -/
theorem sharesNaN_self_iff : (list i xs).SharesNaN (list i xs) ↔ ¬(list i xs).WithoutNaN :=
  ⟨SharesNaN.not_withoutNaN, .here⟩

/-- Different lists share one through their elements. -/
theorem sharesNaN_of_ne (other : i ≠ j) : (list i xs).SharesNaN (list j ys) ↔
    ∃ (k : Nat) (a b : Value), xs[k]? = some a ∧ ys[k]? = some b ∧ a.SharesNaN b := by
  constructor
  · rintro (_ | ⟨ha, hb, shares⟩)
    · exact absurd rfl other
    · exact ⟨_, _, _, ha, hb, shares⟩
  · rintro ⟨k, a, b, ha, hb, shares⟩
    exact .item ha hb shares

/-- What is equal is equal item by item, unless there is a list in common that holds a NaN. -/
theorem eqlByItems_iff {contents : Identity → List Value} (ha : a.Coherent contents)
    (hb : b.Coherent contents) :
    a.eqlByItems b = true ↔ a.eql b = true ∧ ¬a.SharesNaN b := by
  induction a using inductionOn generalizing b with
  | atom a atom =>
      rw [eqlByItems_of_atom (.inl atom), iff_self_and]
      rintro - (_ | _) <;> exact atom rfl
  | list i xs ih =>
      by_cases hkind : b.kind = .list
      · obtain ⟨j, ys, rfl⟩ := exists_of_kind hkind
        by_cases same : i = j
        · -- the shortcut is taken, and one list has one list of items
          subst same
          obtain rfl : xs = ys := (coherent_list.mp ha).1.trans (coherent_list.mp hb).1.symm
          rw [eqlByItems_self_iff, sharesNaN_self_iff, not_not, eql_self_iff]
          exact (and_iff_right nofun).symm
        · rw [eqlByItems_list_iff, eql_list_iff, or_iff_right same, sharesNaN_of_ne same,
            forall₂_iff_getElem?, forall₂_iff_getElem?, and_assoc]
          refine and_congr_right fun _ => ?_
          have items {k : Nat} {a b : Value} (hxs : xs[k]? = some a) (hys : ys[k]? = some b) :
              a.eqlByItems b = true ↔ a.eql b = true ∧ ¬a.SharesNaN b :=
            have mem := List.mem_of_getElem? hxs
            ih a mem ((coherent_list.mp ha).2 a mem)
              ((coherent_list.mp hb).2 b (List.mem_of_getElem? hys))
          constructor
          · intro h
            refine ⟨fun hxs hys => ((items hxs hys).mp (h hxs hys)).1, ?_⟩
            rintro ⟨k, a, b, hxs, hys, shares⟩
            exact ((items hxs hys).mp (h hxs hys)).2 shares
          · rintro ⟨equal, none⟩ k a b hxs hys
            exact (items hxs hys).mpr
              ⟨equal hxs hys, fun shares => none ⟨k, a, b, hxs, hys, shares⟩⟩
      · rw [eqlByItems_of_atom (.inr hkind)]
        refine iff_of_false (fun h => hkind (kind_of_eql_list h)) ?_
        exact fun h => hkind (kind_of_eql_list h.1)

/-! ### Copies -/

mutual

/-- The value without regard to the identities of its lists. -/
def bare : Value → Value
  | list _ items => list 0 (bareEach items)
  | v => v

/-- The values without regard to the identities of their lists. -/
def bareEach : List Value → List Value
  | [] => []
  | v :: rest => bare v :: bareEach rest

end

mutual

/-- Item by item, identities do not matter. -/
theorem eqlByItems_bare : (a b : Value) → eqlByItems a.bare b.bare = eqlByItems a b
  | list i xs, b => by
      cases b with
      | list j ys => exact eqlEachByItems_bare xs ys
      | _ => rfl
  | null, b | bool _, b | int _, b | long _, b | float _, b | char _, b | text _, b
  | function _, b | builtin _, b | hostClass _, b | object _ _, b => by cases b <;> rfl

/-- Identities are not looked at, by recursion on the elements. -/
theorem eqlEachByItems_bare : (xs ys : List Value) →
    eqlEachByItems (bareEach xs) (bareEach ys) = eqlEachByItems xs ys
  | [], [] => rfl
  | [], _ :: _ => rfl
  | _ :: _, [] => rfl
  | x :: xs, y :: ys => by
      simp only [bareEach, eqlEachByItems]
      rw [eqlByItems_bare x y, eqlEachByItems_bare xs ys]

end

/-- Copies are equal item by item if what they are copies of is. -/
theorem eqlByItems_of_bare {a' b' : Value} (ha : a'.bare = a.bare) (hb : b'.bare = b.bare) :
    a'.eqlByItems b' = a.eqlByItems b := by
  rw [← eqlByItems_bare a' b', ha, hb, eqlByItems_bare]

/-- Whether a value is without NaN does not depend on identities. -/
theorem withoutNaN_of_bare {a' : Value} (ha : a'.bare = a.bare) :
    a'.WithoutNaN ↔ a.WithoutNaN := by
  rw [← eqlByItems_self_iff, ← eqlByItems_self_iff, eqlByItems_of_bare ha ha]

/-- Without NaN, the shortcut does not show. -/
theorem eql_eq_eqlByItems {contents : Identity → List Value} (ha : a.Coherent contents)
    (hb : b.Coherent contents) (none : a.WithoutNaN) : a.eql b = a.eqlByItems b := by
  rw [Bool.eq_iff_iff, eqlByItems_iff ha hb, iff_self_and]
  exact fun _ shares => shares.not_withoutNaN none

/-- How the equality of two values depends on the lists that they share. -/
structure SharingLaw (a b : Value) : Prop where
  /-- The shortcut makes a difference only where a list in common holds a NaN. -/
  byItems : a.eqlByItems b = true ↔ a.eql b = true ∧ ¬a.SharesNaN b
  /-- Item by item, copies are equal if what they are copies of is. -/
  copied {a' b' : Value} : a'.bare = a.bare → b'.bare = b.bare →
    a'.eqlByItems b' = a.eqlByItems b
  /-- Without NaN, equality does not depend on what is shared and what is copied. -/
  unshared {contents' : Identity → List Value} {a' b' : Value} : a.WithoutNaN →
    a'.Coherent contents' → b'.Coherent contents' → a'.bare = a.bare → b'.bare = b.bare →
    a'.eql b' = a.eql b
  /-- A list is equal to itself, and to a new list of the same items if none of these is NaN. -/
  renewed {i : Identity} {items : List Value} {w : World} : a = .list i items →
    i ≠ w.nextIdentity → a.eql a = true ∧ (w.newList items).1.eql a = a.eql (w.newList items).1 ∧
      (a.eql (w.newList items).1 = true ↔ ∀ v ∈ items, v.NotNaN)

end Value

/-- **Equality and sharing.** -/
theorem equality_and_sharing {contents : Identity → List Value} {a b : Value}
    (ha : a.Coherent contents) (hb : b.Coherent contents) : Value.SharingLaw a b where
  byItems := Value.eqlByItems_iff ha hb
  copied := Value.eqlByItems_of_bare
  unshared none ha' hb' same same' := by
    rw [Value.eql_eq_eqlByItems ha' hb' ((Value.withoutNaN_of_bare same).mpr none),
      Value.eqlByItems_of_bare same same', Value.eql_eq_eqlByItems ha hb none]
  renewed {i items w} shape other := by
    subst shape
    have forth : (Value.list i items).eql (w.newList items).1 = true ↔ ∀ v ∈ items, v.NotNaN := by
      rw [World.newList, Value.eql_list_iff, or_iff_right other, List.forall₂_same]
      exact forall₂_congr fun v _ => v.eql_self_iff
    have back : (w.newList items).1.eql (.list i items) = true ↔ ∀ v ∈ items, v.NotNaN := by
      rw [World.newList, Value.eql_list_iff, or_iff_right (Ne.symm other), List.forall₂_same]
      exact forall₂_congr fun v _ => v.eql_self_iff
    exact ⟨(Value.eql_self_iff _).mpr nofun, Bool.eq_iff_iff.mpr (back.trans forth.symm), forth⟩

/-- Two lists with one list in common, in which there is a NaN: they are equal, but not item by
item. -/
theorem equality_and_sharing_nested :
    let common : Value := .list 1 [.float (0 / 0)]
    let contents : Identity → List Value := fun i => if i = 1 then [.float (0 / 0)] else [common]
    let a : Value := .list 2 [common]
    let b : Value := .list 3 [common]
    a.Coherent contents ∧ b.Coherent contents ∧ Value.SharingLaw a b ∧ a.eql b = true ∧
      a.SharesNaN b := by
  intro common contents a b
  have hcommon : common.Coherent contents := by
    refine Value.coherent_list.mpr ⟨rfl, fun v mem => ?_⟩
    rw [List.mem_singleton.mp mem]
    exact Value.coherent_of_atom nofun
  have ha : a.Coherent contents :=
    Value.coherent_list.mpr ⟨rfl, fun v mem => List.mem_singleton.mp mem ▸ hcommon⟩
  have hb : b.Coherent contents :=
    Value.coherent_list.mpr ⟨rfl, fun v mem => List.mem_singleton.mp mem ▸ hcommon⟩
  have nan : ¬common.WithoutNaN := by
    intro none
    have number := none (0 / 0) (.item List.mem_cons_self (.self _))
    revert number
    decide +kernel
  have shares : common.SharesNaN common := .here nan
  exact ⟨ha, hb, equality_and_sharing ha hb, by decide +kernel,
    .item (k := 0) (a := common) (b := common) rfl rfl shares⟩

/-- A list of a NaN is equal to itself, and not to a list that is made of its items. -/
theorem sharing_shows_nan :
    let items : List Value := [.float (0 / 0)]
    let l : Value := .list 0 items
    let copy : Value := (World.newList ⟨#[], 0, 1⟩ items).1
    l.eql l = true ∧ l.eql copy = false ∧ copy.eql l = false ∧ copy.bare = l.bare := by
  exact ⟨by decide +kernel, by decide +kernel, by decide +kernel, rfl⟩

end ScriptConsole
