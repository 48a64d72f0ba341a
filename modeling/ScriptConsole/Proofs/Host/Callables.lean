import ScriptConsole.Host.Registry
import Std.Data.TreeMap.Lemmas

/-!
# The Callables of a Registry

A call that finds a callable finds one that the registry offers (`Registry.Offers`): a constructor,
a method or a static method of a class, of a signature that accepts the arguments, and applied to
what they are converted to. A call that finds none is rejected for one of a few reasons
(`Rejection`).

## Main results

* `HostClass.callable_eq_or_exists`, `HostClass.read_eq_or_found`, `Registry.hostClass_register`:
  classes and hosts with one part more.
* `exists_of_selectOverload`: the overload that a call takes is one of the candidates and accepts
  the arguments.
* `Registry.offers_of_methodTarget`, `Registry.offers_of_constructorTarget`: what calls find.
* `Registry.rejection_of_methodTarget`, `Registry.rejection_of_constructorTarget`,
  `Registry.rejection_of_member`, `Registry.rejection_of_resolvePath`: why they find nothing.
-/

namespace ScriptConsole

section

variable {φ : Type} {what : String} {candidates : List (Overload φ)} {args : List Value}

/-- The cheapest candidate after one more is the new one or the one before. -/
theorem Cheapest.best_update {seen : Option (Cheapest φ)} {next : Applicable φ} {c : Cheapest φ}
    (h : Cheapest.update seen next = some c) :
    c.best = next ∨ ∃ before, seen = some before ∧ c.best = before.best := by
  unfold update at h
  split at h
  · exact .inl (by rw [← Option.some.inj h])
  · next before =>
    split at h
    · exact .inr ⟨before, rfl, by rw [← Option.some.inj h]⟩
    · split at h
      · exact .inr ⟨before, rfl, by rw [← Option.some.inj h]⟩
      · exact .inl (by rw [← Option.some.inj h])

/-- The cheapest candidate of all is one of them. -/
theorem Cheapest.best_mem {list : List (Applicable φ)} {seen : Option (Cheapest φ)}
    {c : Cheapest φ} (h : list.foldl Cheapest.update seen = some c) :
    c.best ∈ list ∨ ∃ before, seen = some before ∧ c.best = before.best := by
  induction list generalizing seen with
  | nil => exact .inr ⟨c, h, rfl⟩
  | cons next list ih =>
      rcases ih h with mem | ⟨after, updated, best⟩
      · exact .inl (List.mem_cons_of_mem _ mem)
      · rcases best_update updated with new | ⟨before, hseen, old⟩
        · exact .inl (by rw [best, new]; exact List.mem_cons_self)
        · exact .inr ⟨before, hseen, best.trans old⟩

/-- The overload that a call takes is one of the candidates, and its signature accepts the
arguments. -/
theorem exists_of_selectOverload {callable : φ} {converted : List Value}
    (h : selectOverload what candidates args = .ok (callable, converted)) :
    ∃ o ∈ candidates, o.callable = callable ∧
      ∃ cost, acceptAll o.params args = some (cost, converted) := by
  unfold selectOverload at h
  split at h
  · cases h
  · next best tied taken =>
    split at h
    · cases h
    · rcases Cheapest.best_mem taken with mem | ⟨_, hseen, -⟩
      · obtain ⟨o, ho, accepted⟩ := List.mem_filterMap.mp mem
        obtain ⟨⟨cost, found⟩, accepts, rfl⟩ := Option.map_eq_some_iff.mp accepted
        obtain ⟨rfl, rfl⟩ := Prod.mk.inj (Except.ok.inj h)
        exact ⟨o, ho, rfl, cost, accepts⟩
      · cases hseen

end

namespace HostClass

/-- The overloads of a name after one more has been added are that one and those from before. -/
theorem callable_eq_or_exists {φ : Type} {t : Std.TreeMap String (List (Overload φ))}
    {name name' : String} {added o : Overload φ} {candidates : List (Overload φ)}
    (found : (t.insert name (t.getD name [] ++ [added]))[name']? = some candidates)
    (mem : o ∈ candidates) : o = added ∨ ∃ before, t[name']? = some before ∧ o ∈ before := by
  rw [Std.TreeMap.getElem?_insert] at found
  split at found
  · next same =>
    obtain rfl := Std.LawfulEqCmp.eq_of_compare same
    obtain rfl := Option.some.inj found
    rcases List.mem_append.mp mem with before | new
    · rw [Std.TreeMap.getD_eq_getD_getElem?] at before
      cases old : t[name]? with
      | none =>
          rw [old] at before
          cases before
      | some candidates => exact .inr ⟨candidates, rfl, by rwa [old] at before⟩
    · exact .inl (List.mem_singleton.mp new)
  · exact .inr ⟨candidates, found, mem⟩

/-- The read of a name after one more has been added is that one or the one from before. -/
theorem read_eq_or_found {ρ : Type} {t : Std.TreeMap String ρ} {name name' : String}
    {added read : ρ} (found : (t.insert name added)[name']? = some read) :
    read = added ∨ t[name']? = some read := by
  rw [Std.TreeMap.getElem?_insert] at found
  split at found
  · exact .inl (Option.some.inj found).symm
  · exact .inr found

end HostClass

/-- The classes of a registry after one more has been registered. -/
theorem Registry.hostClass_register (r : Registry) (c : HostClass) (ref : ClassRef) :
    (r.register c).hostClass ref = if ref.id = r.classes.size then c else r.hostClass ref := by
  simp only [hostClass, register, Array.getD_eq_getD_getElem?, Array.getElem?_push]
  split <;> rfl

/-- Why a call of the host is rejected before anything is run. -/
inductive Rejection : EvalError → Prop
  | noHostPath (segments : List String) : Rejection (.noHostPath segments)
  | noMethod (className name : String) : Rejection (.host (.noMethod className name))
  | noConstructor (className : String) : Rejection (.host (.noConstructor className))
  | noOverload (what : String) (kinds : List Kind) : Rejection (.host (.noOverload what kinds))
  | ambiguous (what : String) (kinds : List Kind) : Rejection (.host (.ambiguous what kinds))
  | methodOf (name : String) (target : Kind) : Rejection (.type (.methodOf name target))
  /-- A member on the way is no field. -/
  | noField (className name : String) : Rejection (.host (.noField className name))
  | isMethod (className name : String) : Rejection (.host (.isMethod className name))
  | memberOf (name : String) (target : Kind) : Rejection (.type (.memberOf name target))

/-- A choice that is not made is a rejection. -/
theorem rejection_of_selectOverload {φ : Type} {what : String} {candidates : List (Overload φ)}
    {args : List Value} {fault : HostFault}
    (h : selectOverload what candidates args = .error fault) : Rejection (.host fault) := by
  unfold selectOverload at h
  split at h
  · cases h
    exact .noOverload _ _
  · split at h
    · cases h
      exact .ambiguous _ _
    · cases h

namespace Registry

variable {r : Registry} {args : List Value}

/-- The callables of a registry for some arguments: what a constructor, a method or a static method
of a class does with the arguments as they are converted for one of its signatures, under the name
of the class and that of the member. -/
inductive Offers (r : Registry) (args : List Value) : Target → Prop
  | constructor {ref : ClassRef} {o : Overload (ClassRef → List Value → HostCall)} {cost : Nat}
      {converted : List Value} :
      o ∈ (r.hostClass ref).constructors → acceptAll o.params args = some (cost, converted) →
      Offers r args ⟨(r.hostClass ref).name, constructorName, o.callable ref converted⟩
  | method {ref : ClassRef} {id : ObjectId} {name : String}
      {candidates : List (Overload (HostObject → List Value → HostCall))}
      {o : Overload (HostObject → List Value → HostCall)} {cost : Nat} {converted : List Value} :
      (r.hostClass ref).methods[name]? = some candidates → o ∈ candidates →
      acceptAll o.params args = some (cost, converted) →
      Offers r args ⟨(r.hostClass ref).name, name, o.callable ⟨id, ref⟩ converted⟩
  | static {ref : ClassRef} {name : String} {candidates : List (Overload (List Value → HostCall))}
      {o : Overload (List Value → HostCall)} {cost : Nat} {converted : List Value} :
      (r.hostClass ref).statics[name]? = some candidates → o ∈ candidates →
      acceptAll o.params args = some (cost, converted) →
      Offers r args ⟨(r.hostClass ref).name, name, o.callable converted⟩

section

variable {φ : Type} {c : HostClass} {member what : String} {candidates : List (Overload φ)}
  {run : φ → List Value → HostCall}

/-- What a call picks from overloads is one of them, applied to the converted arguments. -/
theorem exists_of_pick {target : Target}
    (h : pick c member what candidates args run = .ok target) :
    ∃ o ∈ candidates, ∃ cost converted, acceptAll o.params args = some (cost, converted) ∧
      target = ⟨c.name, member, run o.callable converted⟩ := by
  unfold pick at h
  split at h
  · cases h
  · next callable converted selected =>
    obtain ⟨o, ho, rfl, cost, accepts⟩ := exists_of_selectOverload selected
    exact ⟨o, ho, cost, converted, accepts, (Except.ok.inj h).symm⟩

/-- A choice by name that is not made is a rejection. -/
theorem rejection_of_pick {e : EvalError} (h : pick c member what candidates args run = .error e) :
    Rejection e := by
  unfold pick at h
  split at h
  · next fault selected =>
    obtain rfl := Except.error.inj h
    exact rejection_of_selectOverload selected
  · cases h

end

/-- A static method that is found is offered. -/
theorem offers_of_staticTarget {ref : ClassRef} {name : String} {target : Target}
    (h : staticTarget (r.hostClass ref) name args = .ok target) : r.Offers args target := by
  unfold staticTarget at h
  split at h
  · next candidates found =>
    obtain ⟨o, ho, cost, converted, accepts, rfl⟩ := exists_of_pick h
    exact .static found ho accepts
  · cases h

/-- One that is not found is a rejection. -/
theorem rejection_of_staticTarget {c : HostClass} {name : String} {e : EvalError}
    (h : staticTarget c name args = .error e) : Rejection e := by
  unfold staticTarget at h
  split at h
  · exact rejection_of_pick h
  · cases h
    exact .noMethod _ _

/-- What a call of a member finds is a callable of the registry. -/
theorem offers_of_methodTarget {v : Value} {name : String} {target : Target}
    (h : r.methodTarget v name args = .ok target) : r.Offers args target := by
  unfold methodTarget at h
  split at h
  · exact offers_of_staticTarget h
  · dsimp only at h
    split at h
    · next candidates found =>
      obtain ⟨o, ho, cost, converted, accepts, rfl⟩ := exists_of_pick h
      exact .method found ho accepts
    · exact offers_of_staticTarget h
  · cases h

/-- Why a call of a member finds nothing. -/
theorem rejection_of_methodTarget {v : Value} {name : String} {e : EvalError}
    (h : r.methodTarget v name args = .error e) : Rejection e := by
  unfold methodTarget at h
  split at h
  · exact rejection_of_staticTarget h
  · dsimp only at h
    split at h
    · exact rejection_of_pick h
    · exact rejection_of_staticTarget h
  · cases h
    exact .methodOf _ _

/-- What a construction finds is a callable of the registry. -/
theorem offers_of_constructorTarget {ref : ClassRef} {target : Target}
    (h : r.constructorTarget ref args = .ok target) : r.Offers args target := by
  unfold constructorTarget at h
  dsimp only at h
  split at h
  · cases h
  · obtain ⟨o, ho, cost, converted, accepts, rfl⟩ := exists_of_pick h
    exact .constructor ho accepts

/-- Why a construction finds nothing. -/
theorem rejection_of_constructorTarget {ref : ClassRef} {e : EvalError}
    (h : r.constructorTarget ref args = .error e) : Rejection e := by
  unfold constructorTarget at h
  dsimp only at h
  split at h
  · cases h
    exact .noConstructor _
  · exact rejection_of_pick h

/-- A missing member is a rejection. -/
theorem rejection_missingMember (c : HostClass) (name : String) (isMethod : Bool) :
    Rejection (missingMember c name isMethod) := by
  unfold missingMember
  split
  · exact .isMethod _ _
  · exact .noField _ _

/-- A static member that cannot be read is a rejection. -/
theorem rejection_of_staticMember {c : HostClass} {name : String} {isMethod : Bool} {w : World}
    {e : EvalError} (h : (staticMember c name isMethod w).1 = .error e) : Rejection e := by
  unfold staticMember at h
  split at h
  · cases h
  · exact Except.error.inj h ▸ rejection_missingMember c name isMethod

/-- Why a member cannot be read. -/
theorem rejection_of_member {v : Value} {name : String} {w : World} {e : EvalError}
    (h : (r.member v name w).1 = .error e) : Rejection e := by
  unfold member at h
  split at h
  · exact rejection_of_staticMember h
  · dsimp only at h
    split at h
    · cases h
    · exact rejection_of_staticMember h
  · cases h
    exact .memberOf _ _

/-- Why a path is not resolved. -/
theorem rejection_of_resolvePath {segments : List String} {e : EvalError}
    (h : r.resolvePath segments = .error e) : Rejection e := by
  unfold resolvePath at h
  split at h
  · cases h
  · cases h
    exact .noHostPath _

end Registry

end ScriptConsole
