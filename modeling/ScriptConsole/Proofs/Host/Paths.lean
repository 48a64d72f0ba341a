import ScriptConsole.Host.Registry

/-!
# Paths of Host Names

A path starts with the name of a class, the longest that there is, and goes on through members. What
a path starts with does not change with a further name at its end, as long as the longer path is not
a class itself (`Registry.resolvePath_concat`).

The members behind the class are static fields, until an object comes up that has such a field of
its own. If reading a static field gives one value and has no effect (`Registry.PureStatics`), then
up to there the way through the members is the same in every world (`Registry.Leads`).

## Main results

* `Registry.le_of_resolvePath`: what names the class of a path is no longer than the path.
* `Registry.resolvePath_concat`: a path and a further name.
* `Registry.leads_or_meetsField`: where the way through the members leads.
-/

namespace ScriptConsole

/-- Whether reading a static field of a class always gives the same value, and has no effect. -/
def HostClass.PureStatics (c : HostClass) : Prop :=
  ∀ (name : String) (read : World → Value × World), c.staticFields[name]? = some read →
    ∃ v, ∀ w, read w = (v, w)

namespace Registry

variable {r : Registry}

/-! ### The class of a path -/

/-- A prefix that is resolved is no longer than was asked for. -/
theorem le_of_resolvePrefix {segments : List String} {n used : Nat} {c : ClassRef}
    (h : r.resolvePrefix segments n = some (c, used)) : used ≤ n := by
  induction n with
  | zero => cases h
  | succ n ih =>
      unfold resolvePrefix at h
      split at h
      · obtain ⟨-, rfl⟩ := Prod.mk.inj (Option.some.inj h)
        exact Nat.le_refl _
      · exact Nat.le_succ_of_le (ih h)

/-- A path that is resolved is not used beyond its end. -/
theorem le_of_resolvePath {segments : List String} {c : ClassRef} {used : Nat}
    (h : r.resolvePath segments = .ok (c, used)) : used ≤ segments.length := by
  unfold resolvePath at h
  split at h
  · next found resolved =>
    obtain rfl := Except.ok.inj h
    exact le_of_resolvePrefix resolved
  · cases h

/-- Whether a path, or a part of it from its start, names a class. -/
def StartsWithClass (r : Registry) (segments : List String) : Prop :=
  ∃ n, 0 < n ∧ n ≤ segments.length ∧
    ∃ c, r.find? (String.intercalate "." (segments.take n)) = some c

/-- Some prefix is resolved if one of them names a class. -/
theorem exists_resolvePrefix {segments : List String} {n k : Nat} {c : ClassRef} (pos : 0 < k)
    (le : k ≤ n) (found : r.find? (String.intercalate "." (segments.take k)) = some c) :
    ∃ resolved, r.resolvePrefix segments n = some resolved := by
  induction n with
  | zero => exact absurd (Nat.lt_of_lt_of_le pos le) (Nat.lt_irrefl 0)
  | succ n ih =>
      unfold resolvePrefix
      split
      · exact ⟨_, rfl⟩
      · next none =>
        rcases Nat.le_or_eq_of_le_succ le with le | rfl
        · exact ih le
        · rw [found] at none
          cases none

/-- Segments behind the prefixes do not matter. -/
theorem resolvePrefix_append {names rest : List String} {n : Nat} (le : n ≤ names.length) :
    r.resolvePrefix (names ++ rest) n = r.resolvePrefix names n := by
  induction n with
  | zero => rfl
  | succ n ih =>
      rw [resolvePrefix, resolvePrefix, List.take_append_of_le_length le,
        ih (Nat.le_of_succ_le le)]

/-- A path that starts with a class starts with the same class if a name is added to it, unless the
longer path is a class. -/
theorem resolvePath_concat {names : List String} {last : String}
    (noClass : r.find? (String.intercalate "." (names ++ [last])) = none)
    (starts : r.StartsWithClass names) :
    ∃ ref used, r.resolvePath names = .ok (ref, used) ∧
      r.resolvePath (names ++ [last]) = .ok (ref, used) := by
  obtain ⟨k, pos, le, c, found⟩ := starts
  obtain ⟨⟨ref, used⟩, resolved⟩ := exists_resolvePrefix pos le found
  have longer : r.resolvePrefix (names ++ [last]) (names ++ [last]).length =
      some (ref, used) := by
    rw [List.length_append, List.length_singleton, resolvePrefix, List.take_of_length_le (by simp),
      noClass]
    exact (resolvePrefix_append (Nat.le_refl _)).trans resolved
  exact ⟨ref, used, by rw [resolvePath, resolved], by rw [resolvePath, longer]⟩

/-! ### The members behind it -/

/-- Whether reading a static field of any class always gives the same value, and has no effect. -/
def PureStatics (r : Registry) : Prop := ∀ ref, (r.hostClass ref).PureStatics

/-- Whether a member comes to the same in every world. -/
def Reads (r : Registry) (v : Value) (name : String) (result : Except EvalError Value) : Prop :=
  ∀ w, r.member v name w = (result, w)

/-- Where the way from a value through members leads, if it is the same in every world: to a value,
or to the error of a member that cannot be read. -/
inductive Leads (r : Registry) : Value → List String → Except EvalError Value → Prop
  | arrived (v : Value) : Leads r v [] (.ok v)
  | through {v inner : Value} {name : String} {rest : List String}
      {result : Except EvalError Value} :
      r.Reads v name (.ok inner) → Leads r inner rest result → Leads r v (name :: rest) result
  | failed {v : Value} {name : String} {rest : List String} {e : EvalError} :
      r.Reads v name (.error e) → Leads r v (name :: rest) (.error e)

/-- Whether the way from a value through members comes to a field that an object has of its own. -/
inductive MeetsField (r : Registry) : Value → List String → Prop
  | here {o : ObjectId} {ref : ClassRef} {name : String} {rest : List String}
      {read : HostObject → World → Value × World} :
      (r.hostClass ref).fields[name]? = some read → MeetsField r (.object o ref) (name :: rest)
  | through {v inner : Value} {name : String} {rest : List String} :
      r.Reads v name (.ok inner) → MeetsField r inner rest → MeetsField r v (name :: rest)

namespace PureStatics

variable (pure : r.PureStatics)

include pure

/-- Pure static members are read without a look at the world. -/
theorem staticMember (ref : ClassRef) (name : String) (isMethod : Bool) :
    ∃ result, ∀ w, staticMember (r.hostClass ref) name isMethod w = (result, w) := by
  unfold Registry.staticMember
  split
  · next read found =>
    obtain ⟨v, same⟩ := pure ref name read found
    exact ⟨.ok v, fun w => by rw [same]⟩
  · exact ⟨_, fun _ => rfl⟩

/-- A member comes to the same in every world, unless it is a field of an object. -/
theorem reads_or_field (v : Value) (name : String) :
    (∃ result, r.Reads v name result) ∨
      ∃ o ref read, v = .object o ref ∧ (r.hostClass ref).fields[name]? = some read := by
  cases v with
  | hostClass ref => exact .inl (pure.staticMember ref name _)
  | object o ref =>
      cases own : (r.hostClass ref).fields[name]? with
      | some read => exact .inr ⟨o, ref, read, rfl, own⟩
      | none =>
          obtain ⟨result, same⟩ := pure.staticMember ref name
            ((r.hostClass ref).methods.contains name || (r.hostClass ref).statics.contains name)
          refine .inl ⟨result, fun w => ?_⟩
          unfold member
          dsimp only
          rw [own]
          exact same w
  | _ => exact .inl ⟨_, fun _ => rfl⟩

end PureStatics

/-- The way through members leads to one end, unless it comes to a field of an object. -/
theorem leads_or_meetsField (pure : r.PureStatics) (v : Value) (names : List String) :
    (∃ result, r.Leads v names result) ∨ r.MeetsField v names := by
  induction names generalizing v with
  | nil => exact .inl ⟨_, .arrived v⟩
  | cons name rest ih =>
      rcases pure.reads_or_field v name with ⟨e | inner, reads⟩ | ⟨o, ref, read, rfl, own⟩
      · exact .inl ⟨_, .failed reads⟩
      · rcases ih inner with ⟨result, leads⟩ | meets
        · exact .inl ⟨result, .through reads leads⟩
        · exact .inr (.through reads meets)
      · exact .inr (.here own)

end Registry

end ScriptConsole
