import ScriptConsole.Proofs.Host.HonestClasses
import ScriptConsole.Proofs.Session.Within
import ScriptConsole.Proofs.Values.Sharing

/-!
# Identities Tell Values Apart

Every list and every function that is made gets the next identity of the world, and the counter goes
on. So at any moment there is one value for each identity that has been given out: lists at hand
that have the same identity have the same items, and functions that have the same identity are the
same.

What has been made with which identity is no part of any state. It is what the stages of a
discipline keep track of (`Made.discipline`), and whatever keeps to that discipline keeps identities
apart: the evaluation itself, and every host that makes its lists by the world.

## Main results

* `Session.coherent_after`: **identities tell values apart** in a session, at all times.
-/

namespace ScriptConsole

/-- The identity of a value, if it has one. -/
def Value.identity? : Value → Option Identity
  | list i _ => some i
  | function f => some f.identity
  | _ => none

/-- Scalars have no identity. -/
theorem Value.identity?_of_isScalar {v : Value} (scalar : v.isScalar = true) :
    v.identity? = none := by
  cases v with
  | list | function => cases scalar
  | _ => rfl

/-- What has been made: so many frames, and one value with each identity before the next one. -/
structure Made where
  frames : Nat
  next : Identity
  value : Identity → Value

namespace Made

variable {n n' : Made}

/-- Whether what is known of a value's identity is right: it has been given out, with that value. -/
def Knows (n : Made) (v : Value) : Prop :=
  ∀ i, v.identity? = some i → i < n.next ∧ n.value i = v

/-- Nothing is to be known of a value without identity. -/
theorem knows_of_none {v : Value} (none : v.identity? = none) : n.Knows v :=
  fun _ same => nomatch none.symm.trans same

/-- Whether that is so for everything inside of a value. -/
def Has (n : Made) (v : Value) : Prop := ∀ u, v.Holds u → n.Knows u

/-- Whether more has been made. -/
structure Later (n n' : Made) : Prop where
  frames : n.frames ≤ n'.frames
  next : n.next ≤ n'.next
  value : ∀ i < n.next, n'.value i = n.value i

/-- One more value, with the next identity. -/
def add (n : Made) (v : Value) : Made where
  frames := n.frames
  next := n.next + 1
  value i := if i = n.next then v else n.value i

/-- Nothing that was made before is forgotten. -/
theorem later_add (n : Made) (v : Value) : n.Later (n.add v) :=
  ⟨Nat.le_refl _, Nat.le_succ _, fun _ lt => if_neg (Nat.ne_of_lt lt)⟩

/-- The value that has been made last is known by its identity. -/
theorem knows_add (n : Made) {v : Value} (next : v.identity? = some n.next) :
    (n.add v).Knows v := by
  intro i same
  obtain rfl : n.next = i := Option.some.inj (next.symm.trans same)
  exact ⟨Nat.lt_succ_self _, if_pos rfl⟩

/-- What is known of the inside of a value stays known. -/
theorem Has.mono (later : n.Later n') {v : Value} (h : n.Has v) : n'.Has v := by
  intro u held i same
  obtain ⟨given, right⟩ := h u held i same
  exact ⟨Nat.lt_of_lt_of_le given later.next, (later.value i given).trans right⟩

/-- All that is inside of a list is the list itself and what is inside of its items. -/
theorem has_list {i : Identity} {items : List Value} (own : n.Knows (.list i items))
    (inside : ∀ v ∈ items, n.Has v) : n.Has (.list i items) := by
  rintro u (_ | ⟨mem, held⟩)
  · exact own
  · exact inside _ mem u held

/-- All that is inside of a value that is no list is the value itself. -/
theorem has_of_atom {v : Value} (atom : v.kind ≠ .list) (own : n.Knows v) : n.Has v := by
  rintro u (_ | _)
  · exact own
  · exact absurd rfl atom

/-- Values are known by their identities, at every stage. -/
def discipline : Discipline Made where
  Later := Later
  frames := frames
  next n i := n.next = i
  Has := Has
  refl _ := ⟨Nat.le_refl _, Nat.le_refl _, fun _ _ => rfl⟩
  trans h h' := ⟨Nat.le_trans h.frames h'.frames, Nat.le_trans h.next h'.next,
    fun i lt => (h'.value i (Nat.lt_of_lt_of_le lt h.next)).trans (h.value i lt)⟩
  frames_mono later := later.frames
  mono later _ h := h.mono later
  scalar {n} {v} scalar := by
    refine has_of_atom (fun list => ?_) (knows_of_none (Value.identity?_of_isScalar scalar))
    obtain ⟨i, items, rfl⟩ := Value.exists_of_kind list
    cases scalar
  items h v mem u held := h u (.item mem held)
  newFrame n := ⟨{ n with frames := n.frames + 1 },
    ⟨Nat.le_succ _, Nat.le_refl _, fun _ _ => rfl⟩, rfl, fun _ same => same⟩
  newList {n} {i} {items} next inside := by
    subst next
    have later := n.later_add (.list n.next items)
    exact ⟨_, later, rfl, rfl,
      has_list (n.knows_add rfl) fun v mem => (inside v mem).mono later⟩
  newFunction {n} {f} next _ := by
    have own := n.knows_add (v := .function f) (congrArg some next.symm)
    exact ⟨_, n.later_add (.function f), rfl, congrArg (· + 1) next,
      has_of_atom Kind.noConfusion own⟩

/-- The items of the list that was made with an identity. -/
def items (n : Made) (i : Identity) : List Value :=
  match n.value i with
  | .list _ items => items
  | _ => []

/-- The lists inside of a value come with the items that belong to their identities. -/
theorem Has.coherent {v : Value} (h : n.Has v) : v.Coherent n.items := by
  intro i items held
  have right := (h _ held i rfl).2
  rw [Made.items, right]

end Made

/-- Whether identities tell values apart among those at hand: there is one list of items for each
identity of a list, and one function for each identity of a function. -/
structure ToldApart (atHand : Value → Prop) : Prop where
  lists : ∃ contents, ∀ v, atHand v → v.Coherent contents
  functions : ∀ f g, atHand (.function f) → atHand (.function g) → f.identity = g.identity → f = g

/-- Values are told apart if the identities of all of them are known at one stage. -/
theorem Made.toldApart {n : Made} {atHand : Value → Prop} (h : ∀ v, atHand v → n.Has v) :
    ToldApart atHand where
  lists := ⟨n.items, fun v hand => (h v hand).coherent⟩
  functions f g hf hg same := by
    have first := (h _ hf _ (.self _) f.identity rfl).2
    have second := (h _ hg _ (.self _) f.identity (congrArg some same.symm)).2
    exact Value.function.inj (first.symm.trans second)

namespace Session

/-- Whether identities tell the values of a session apart. -/
structure Coherent (s : Session) : Prop where
  /-- Before and behind programs, -/
  held : ToldApart s.machine.Holds
  /-- and at every event during a program. -/
  during : ∀ fuel p, ∀ e ∈ s.events fuel p, ToldApart e.Holds

/-- Sessions that keep to the discipline tell their values apart. -/
theorem Within.coherent {s : Session} (h : s.Within Made.discipline) : s.Coherent where
  held := by
    obtain ⟨n, machine⟩ := h.machine
    exact Made.toldApart fun v => machine.has
  during fuel p e mem := by
    obtain ⟨n, -, has⟩ := (h.events fuel p e mem).has
    exact Made.toldApart has

/-- **Identities tell values apart** in a session, after whatever has been done that brought in no
lists and functions from elsewhere. -/
theorem coherent_after (builtins : List Builtin) {registry : Registry}
    (host : registry.Keeps Made.discipline) (config : Config) {world : World} {n : Made}
    (one : n.frames = 1) (kept : world.Keeps Made.discipline n) (console : Console)
    (tracer : Tracer) {ops : List Operation}
    (obeys : (startWith builtins registry config world console tracer).Obeys Made.discipline ops) :
    ((startWith builtins registry config world console tracer).after ops).Coherent := by
  have allowed : ∀ b ∈ builtins, Made.discipline.Has n (.builtin b) :=
    fun _ _ => Made.has_of_atom Kind.noConfusion (Made.knows_of_none rfl)
  have start := within_startWith allowed one host config kept console tracer
  exact (start.after obeys).coherent

/-- In the demo world, lists that scripts make and bind stay what they are. -/
example (config : Config) (console : Console) (tracer : Tracer) (fuel : Nat)
    (source line : String) : ((start Demo.registry config World.empty console tracer).after
      [.eval fuel source, .setGlobal "zero" (.int 0), .line fuel line]).Coherent := by
  have kept : World.empty.Keeps Made.discipline ⟨1, 0, fun _ => .null⟩ :=
    ⟨rfl, fun _ => Discipline.hasEach_nil⟩
  exact coherent_after Builtin.all Demo.keeps_registry config rfl kept console tracer
    ⟨trivial, fun _ _ => Made.discipline.scalar rfl, trivial, trivial⟩

end Session

end ScriptConsole
