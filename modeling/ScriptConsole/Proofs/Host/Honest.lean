import ScriptConsole.Proofs.Evaluation.Discipline
import ScriptConsole.Proofs.Host.Callables

/-!
# Hosts That Make Nothing Up

A host may keep the values that it is given, hand them out again, and make lists and objects of
them. It keeps to a discipline (`Registry.Keeps`) if it hands out no others: what its callables
result in, what its fields hold and what its objects are made of may be at hand, as long as its
arguments may and its world keeps to the discipline. Nothing is asked of how objects are shown.

For a stock that means to be honest (`Registry.Honest`): to hand out no functions and builtins but
those that it is given.

## Main results

* `acceptAll_has`: arguments are converted to nothing but scalars.
* `Registry.Keeps.offers`: every callable that a call can arrive at keeps to the discipline.
* `Registry.Keeps.member`, `Registry.Keeps.elements?`: so does all that can be read.
* `Registry.keeps_discipline_iff`: what it is to be honest.
-/

namespace ScriptConsole

variable {σ : Type} {D : Discipline σ} {n : σ}

/-! ### Arguments -/

/-- An argument is handed over as it is, or as a scalar. -/
theorem ParamType.accept_eq {p : ParamType} {v v' : Value} {cost : Nat}
    (h : p.accept v = some (cost, v')) : v' = v ∨ v'.isScalar = true := by
  unfold accept at h
  split at h <;> grind [Value.isScalar]

/-- Arguments that are accepted may be at hand as converted. -/
theorem acceptAll_has {params : List ParamType} {args converted : List Value} {cost : Nat}
    (h : acceptAll params args = some (cost, converted)) (has : D.HasEach n args) :
    D.HasEach n converted := by
  induction params generalizing args converted cost with
  | nil =>
      cases args with
      | nil =>
          cases h
          exact Discipline.hasEach_nil
      | cons v args => cases h
  | cons p params ih =>
      cases args with
      | nil => cases h
      | cons v args =>
          obtain ⟨first, others⟩ := Discipline.hasEach_cons.mp has
          rw [acceptAll] at h
          split at h
          · next accepted rest =>
            cases h
            refine Discipline.hasEach_cons.mpr ⟨?_, ih rest others⟩
            rcases ParamType.accept_eq accepted with rfl | scalar
            · exact first
            · exact D.scalar scalar
          · cases h

/-! ### Honest classes -/

section

variable {s : Stock} {n : Nat}

/-- Whether the result and the world of a call of the host are of a stock. -/
structure OutcomeWithin {ε : Type} (s : Stock) (n : Nat) (o : Except ε Value × World) : Prop where
  value : ∀ v, o.1 = .ok v → s.Has n v
  world : o.2.Within s n

/-- Whether a call of the host keeps to a stock. -/
def HostCall.Within (s : Stock) (n : Nat) (x : HostCall) : Prop :=
  ∀ w, w.Within s n → OutcomeWithin s n (x w)

/-- Whether a class hands out only what is of a stock. -/
structure HostClass.Honest (s : Stock) (n : Nat) (c : HostClass) : Prop where
  constructors : ∀ o ∈ c.constructors, ∀ ref args, s.HasEach n args →
    (o.callable ref args).Within s n
  methods : ∀ {name : String} {candidates : List (Overload (HostObject → List Value → HostCall))},
    c.methods[name]? = some candidates → ∀ o ∈ candidates, ∀ self args, s.HasEach n args →
    (o.callable self args).Within s n
  statics : ∀ {name : String} {candidates : List (Overload (List Value → HostCall))},
    c.statics[name]? = some candidates → ∀ o ∈ candidates, ∀ args, s.HasEach n args →
    (o.callable args).Within s n
  fields : ∀ {name : String} {read : HostObject → World → Value × World},
    c.fields[name]? = some read → ∀ self w, w.Within s n → World.GivesWithin s n (read self w)
  staticFields : ∀ {name : String} {read : World → Value × World},
    c.staticFields[name]? = some read → ∀ w, w.Within s n → World.GivesWithin s n (read w)
  elements : ∀ elements ∈ c.elements, ∀ state : ObjectState, s.HasEach n state.values →
    s.HasEach n (elements state)

/-- Whether a host hands out only what is of a stock, however many frames there are. -/
def Registry.Honest (s : Stock) (r : Registry) : Prop :=
  ∀ (n : Nat) (ref : ClassRef), (r.hostClass ref).Honest s n

end

/-! ### Classes that keep to a discipline -/

/-- Whether a call of the host keeps to a discipline. -/
def HostCall.Keeps (D : Discipline σ) (n : σ) (x : HostCall) : Prop :=
  ∀ w, w.Keeps D n → World.Done D n D.HasResult (x w)

/-- Whether a class keeps to a discipline. -/
structure HostClass.Keeps (D : Discipline σ) (n : σ) (c : HostClass) : Prop where
  constructors : ∀ o ∈ c.constructors, ∀ ref args, D.HasEach n args →
    (o.callable ref args).Keeps D n
  methods : ∀ {name : String} {candidates : List (Overload (HostObject → List Value → HostCall))},
    c.methods[name]? = some candidates → ∀ o ∈ candidates, ∀ self args, D.HasEach n args →
    (o.callable self args).Keeps D n
  statics : ∀ {name : String} {candidates : List (Overload (List Value → HostCall))},
    c.statics[name]? = some candidates → ∀ o ∈ candidates, ∀ args, D.HasEach n args →
    (o.callable args).Keeps D n
  fields : ∀ {name : String} {read : HostObject → World → Value × World},
    c.fields[name]? = some read → ∀ self w, w.Keeps D n → World.Done D n D.Has (read self w)
  staticFields : ∀ {name : String} {read : World → Value × World},
    c.staticFields[name]? = some read → ∀ w, w.Keeps D n → World.Done D n D.Has (read w)
  elements : ∀ elements ∈ c.elements, ∀ state : ObjectState, D.HasEach n state.values →
    D.HasEach n (elements state)

/-- A class without members hands out nothing. -/
theorem HostClass.keeps_named (name : String) : (HostClass.named name).Keeps D n where
  constructors o mem := absurd mem List.not_mem_nil
  methods h := by cases h
  statics h := by cases h
  fields h := by cases h
  staticFields h := by cases h
  elements _ mem := by cases mem

/-- Whether a host keeps to a discipline, at all of its stages. -/
def Registry.Keeps (D : Discipline σ) (r : Registry) : Prop :=
  ∀ (n : σ) (ref : ClassRef), (r.hostClass ref).Keeps D n

section

variable {s : Stock} {n : Nat}

/-- For a stock, no step on a world goes on to another number of frames. -/
theorem World.done_discipline_iff {α : Type} {R : Nat → α → Prop} {o : α × World} :
    World.Done s.discipline n R o ↔ R n o.1 ∧ o.2.Within s n := by
  constructor
  · rintro ⟨n', beside, kept, result⟩
    obtain rfl : n' = n := beside.frames
    exact ⟨result, kept.kept⟩
  · exact fun ⟨result, kept⟩ => ⟨n, .refl n, ⟨trivial, kept⟩, result⟩

/-- Calls of the host that keep to the discipline of a stock are those within the stock. -/
theorem HostCall.keeps_discipline_iff {x : HostCall} :
    x.Keeps s.discipline n ↔ x.Within s n := by
  refine forall_congr' fun w => imp_congr World.keeps_discipline_iff ?_
  exact World.done_discipline_iff.trans ⟨fun h => ⟨h.1, h.2⟩, fun h => ⟨h.value, h.world⟩⟩

/-- Classes that keep to the discipline of a stock are the honest ones. -/
theorem HostClass.keeps_discipline_iff {c : HostClass} :
    c.Keeps s.discipline n ↔ c.Honest s n := by
  have gives : ∀ {a : Value × World},
      World.Done s.discipline n s.discipline.Has a ↔ World.GivesWithin s n a :=
    World.done_discipline_iff.trans ⟨fun h => ⟨h.1, h.2⟩, fun h => ⟨h.value, h.world⟩⟩
  constructor
  · exact fun h =>
      { constructors := fun o mem ref args has =>
          HostCall.keeps_discipline_iff.mp (h.constructors o mem ref args has)
        methods := fun found o mem self args has =>
          HostCall.keeps_discipline_iff.mp (h.methods found o mem self args has)
        statics := fun found o mem args has =>
          HostCall.keeps_discipline_iff.mp (h.statics found o mem args has)
        fields := fun found self w kept => gives.mp (h.fields found self w ⟨trivial, kept⟩)
        staticFields := fun found w kept => gives.mp (h.staticFields found w ⟨trivial, kept⟩)
        elements := h.elements }
  · exact fun h =>
      { constructors := fun o mem ref args has =>
          HostCall.keeps_discipline_iff.mpr (h.constructors o mem ref args has)
        methods := fun found o mem self args has =>
          HostCall.keeps_discipline_iff.mpr (h.methods found o mem self args has)
        statics := fun found o mem args has =>
          HostCall.keeps_discipline_iff.mpr (h.statics found o mem args has)
        fields := fun found self w kept => gives.mpr (h.fields found self w kept.kept)
        staticFields := fun found w kept => gives.mpr (h.staticFields found w kept.kept)
        elements := h.elements }

/-- A host is honest if it keeps to the discipline of the stock. -/
theorem Registry.keeps_discipline_iff {r : Registry} : r.Keeps s.discipline ↔ r.Honest s :=
  forall_congr' fun _ => forall_congr' fun _ => HostClass.keeps_discipline_iff

end

namespace Registry

variable {r : Registry} (keeps : r.Keeps D) {w : World}

include keeps

/-- Every callable that a call can arrive at keeps to the discipline. -/
theorem Keeps.offers {args : List Value} {target : Target} (offered : r.Offers args target)
    (has : D.HasEach n args) : target.call.Keeps D n := by
  cases offered with
  | constructor mem accepted =>
      exact (keeps n _).constructors _ mem _ _ (acceptAll_has accepted has)
  | method found mem accepted =>
      exact (keeps n _).methods found _ mem _ _ (acceptAll_has accepted has)
  | static found mem accepted =>
      exact (keeps n _).statics found _ mem _ (acceptAll_has accepted has)

/-- What an object is made of may be at hand. -/
theorem Keeps.elements? (h : w.Keeps D n) {o : ObjectId} {c : ClassRef} {items : List Value}
    (found : r.elements? w o c = some items) : D.HasEach n items := by
  obtain ⟨elements, mem, rfl⟩ := Option.map_eq_some_iff.mp found
  exact (keeps n c).elements elements mem _ (h.kept o)

/-- What a member holds may be at hand. -/
theorem Keeps.member (target : Value) (name : String) (h : w.Keeps D n) :
    World.Done D n D.HasResult (r.member target name w) := by
  have static : ∀ (ref : ClassRef) (isMethod : Bool),
      World.Done D n D.HasResult (staticMember (r.hostClass ref) name isMethod w) := by
    intro ref isMethod
    unfold staticMember
    split
    · next read found => exact ((keeps n ref).staticFields found w h).answer
    · exact h.error _
  unfold Registry.member
  split
  · exact static _ _
  · next o ref =>
    dsimp only
    split
    · next read found => exact ((keeps n ref).fields found ⟨o, ref⟩ w h).answer
    · exact static _ _
  · exact h.error _

omit keeps in
/-- The object that wraps an error keeps nothing. -/
theorem errorObject_done (r : Registry) (e : EvalError) (h : w.Keeps D n) :
    World.Done D n D.Has (r.errorObject e w) :=
  h.newObject _ Discipline.hasEach_nil

end Registry

/-- A call that is rejected for an error carries nothing. -/
theorem Rejection.values_eq_nil {e : EvalError} (h : Rejection e) : e.values = [] := by
  cases h <;> rfl

end ScriptConsole
