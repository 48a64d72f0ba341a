import ScriptConsole.Host.Arguments
import ScriptConsole.Proofs.Host.Callables
import ScriptConsole.Proofs.Host.Selection

/-!
# Arguments and Their Accessors

A callable that asks for each of its arguments by the declared kind gets them as overload selection
has converted them. The one exception is `null`, which is accepted where a text is declared, but not
converted to one: asking for that text is an error, the one of a callable that asks for another kind
than the declared one.

## Main results

* `Arguments.Accessor.served`: what an accessor makes of an argument that a parameter of its kind
  has accepted.
* `selected_arguments_served`: **accessors** give the arguments of every call that selection lets
  through, except for `null` as a text.
-/

namespace ScriptConsole

namespace Arguments

/-- The accessors of arguments that are not objects. -/
inductive Accessor where
  | int
  | float
  | text
  deriving DecidableEq, Repr

namespace Accessor

/-- The kind of the parameters that an accessor is for. -/
def declared : Accessor → ParamType
  | int => .int
  | float => .float
  | text => .text

/-- What an accessor asks for, as its errors call it. -/
def wanted : Accessor → String
  | int => "int"
  | float => "float"
  | text => "string"

/-- What an accessor gives for an argument. -/
def read (args : List Value) (i : Nat) : Accessor → Except HostError Value
  | int => (Arguments.int args i).map .int
  | float => (Arguments.float args i).map .float
  | text => (Arguments.text args i).map .text

/-- What an accessor makes of a value that it finds. -/
def given? : Accessor → Value → Option Value
  | int, .int n => some (.int n)
  | float, v => v.toFloat?.map .float
  | text, .text s => some (.text s)
  | _, _ => none

variable {args converted : List Value} {i : Nat} {v w : Value} {cost : Nat}

/-- The accessors differ in the values that they take, and in what their errors ask for. -/
theorem read_eq (x : Accessor) : x.read args i =
    match args[i]?.bind x.given? with
    | some w => .ok w
    | none => .error (mismatch i x.wanted args[i]?) := by
  cases x with
  | int =>
      rw [read, Arguments.int]
      rcases args[i]? with _ | v
      · rfl
      · cases v <;> rfl
  | float =>
      rw [read, Arguments.float]
      rcases args[i]? with _ | v
      · rfl
      · cases v <;> rfl
  | text =>
      rw [read, Arguments.text]
      rcases args[i]? with _ | v
      · rfl
      · cases v <;> rfl

/-- Every error of an accessor tells which argument it is about, what has been asked for, and what
is there instead. -/
theorem eq_mismatch_of_read {x : Accessor} {e : HostError} (h : x.read args i = .error e) :
    e = mismatch i x.wanted args[i]? := by
  rw [read_eq] at h
  split at h
  · cases h
  · exact (Except.error.inj h).symm

/-! ### Accepted arguments -/

/-- What an accessor makes of an argument which a parameter of its kind has accepted and selection
has converted: it gives the converted argument, unless that is `null`, where a text should be. -/
structure Served (x : Accessor) (args converted : List Value) (i : Nat) : Prop where
  fails_iff : (∃ e, x.read converted i = .error e) ↔ x = .text ∧ args[i]? = some .null
  gives : ∀ w, x.read converted i = .ok w → converted[i]? = some w ∧
    ∃ v cost, args[i]? = some v ∧ x.declared.Takes v cost w
  blames : ∀ e, x.read converted i = .error e → e = mismatch i "string" (some .null)

theorem given?_of_exact {x : Accessor} (exact : x.declared.Exact w) : x.given? w = some w := by
  cases x <;> cases exact <;> rfl

/-- A converted argument of the accessor's own kind is given as it is. -/
theorem read_of_exact {x : Accessor} (exact : x.declared.Exact w)
    (hw : converted[i]? = some w) : x.read converted i = .ok w := by
  rw [read_eq, hw, Option.bind_some, given?_of_exact exact]

/-- What a parameter makes of an argument is of the declared kind, but `null` where a text is
declared. -/
theorem exact_or_null_of_takes {x : Accessor} (h : x.declared.Takes v cost w) :
    (x.declared.Exact w ∧ ¬(x = .text ∧ v = .null)) ∨ (x = .text ∧ v = .null ∧ w = .null) := by
  cases x with
  | int =>
      rcases h with exact | widens
      · exact .inl ⟨exact, nofun⟩
      · cases widens
  | float =>
      rcases h with exact | widens
      · exact .inl ⟨exact, nofun⟩
      · cases widens <;> exact .inl ⟨.float _, nofun⟩
  | text =>
      rcases h with exact | widens
      · cases exact
        exact .inl ⟨.text _, nofun⟩
      · cases widens with
        | charToText c => exact .inl ⟨.text _, nofun⟩
        | nullToText => exact .inr ⟨rfl, rfl, rfl⟩

theorem served {x : Accessor} (hv : args[i]? = some v) (hw : converted[i]? = some w)
    (takes : x.declared.Takes v cost w) : x.Served args converted i := by
  rcases exact_or_null_of_takes takes with ⟨exact, notNull⟩ | ⟨rfl, rfl, rfl⟩
  · have given := read_of_exact exact hw
    constructor
    · rw [given, hv]
      exact iff_of_false nofun fun ⟨hx, isNull⟩ => notNull ⟨hx, Option.some.inj isNull⟩
    · intro w' hw'
      obtain rfl := Except.ok.inj (given.symm.trans hw')
      exact ⟨hw, v, cost, hv, takes⟩
    · intro e he
      rw [given] at he
      cases he
  · have refused : read converted i .text = .error (mismatch i "string" (some .null)) := by
      rw [read_eq, hw]
      rfl
    constructor
    · exact iff_of_true ⟨_, refused⟩ ⟨rfl, hv⟩
    · intro w' hw'
      rw [refused] at hw'
      cases hw'
    · intro e he
      exact Except.error.inj (he.symm.trans refused)

end Accessor

end Arguments

open Arguments (Accessor)

variable {φ : Type}

/-- An accessor is served at each place where an overload that accepts the arguments declares its
kind. -/
theorem Overload.Accepts.served {o : Overload φ} {args converted : List Value} {cost : Nat}
    (h : o.Accepts args cost converted) {x : Accessor} {i : Nat}
    (declared : o.params[i]? = some x.declared) : x.Served args converted i := by
  obtain ⟨costs, -, params, length, values, takes⟩ := h
  have inside : i < args.length := params ▸ (List.getElem?_eq_some_iff.mp declared).1
  have hv := List.getElem?_eq_getElem inside
  have hw := List.getElem?_eq_getElem (values ▸ inside)
  have hc := List.getElem?_eq_getElem (length ▸ inside)
  exact Accessor.served hv hw (takes i _ _ _ _ declared hv hc hw)

/-- **Accessors.** The arguments that selection hands to a callable are those of one of the
candidates with that callable. Wherever a candidate that is handed these arguments declares an
integer, a double or a text, the accessor of that kind gives what the argument has been converted
to. It fails exactly if a text is declared and the argument is `null`. Apart from that, an accessor
fails only where another kind than its own has been declared. It always tells which argument it is
about. -/
theorem selected_arguments_served {what : String} {candidates : List (Overload φ)}
    {args converted : List Value} {callable : φ}
    (selected : selectOverload what candidates args = .ok (callable, converted)) :
    (∃ o ∈ candidates, o.callable = callable ∧ ∃ cost, o.Accepts args cost converted) ∧
      (∀ o ∈ candidates, ∀ cost, o.Accepts args cost converted → ∀ (x : Accessor) (i : Nat),
        o.params[i]? = some x.declared → x.Served args converted i) ∧
      ∀ (x : Accessor) (i : Nat) (e : HostError), x.read converted i = .error e →
        e = Arguments.mismatch i x.wanted converted[i]? := by
  obtain ⟨o, mem, same, cost, accepted⟩ := exists_of_selectOverload selected
  exact ⟨⟨o, mem, same, cost, Overload.accepts_iff.mp accepted⟩,
    fun _ _ _ accepts _ _ declared => accepts.served declared,
    fun _ _ _ failed => Accessor.eq_mismatch_of_read failed⟩

/-- The integer, the character and the `null` of a call, as its callable asks for them. -/
theorem selected_arguments_served_widened :
    let candidates : List (Overload Nat) := [⟨[.any, .any, .any], 0⟩, ⟨[.float, .text, .text], 1⟩]
    let args : List Value := [.int 3, .char 'a', .null]
    let converted : List Value := [.float (Number.Binary64.ofInt 3), .text "a", .null]
    selectOverload "f" candidates args = .ok (1, converted) ∧
      (∃ o ∈ candidates, o.callable = 1 ∧ ∃ cost, o.Accepts args cost converted) ∧
      Accessor.float.read converted 0 = .ok (.float (Number.Binary64.ofInt 3)) ∧
      Accessor.text.read converted 1 = .ok (.text "a") ∧
      (∃ e, Accessor.text.read converted 2 = .error e) := by
  intro candidates args converted
  have selected : selectOverload "f" candidates args = .ok (1, converted) := rfl
  obtain ⟨⟨o, mem, isOne, cost, accepts⟩, served, -⟩ := selected_arguments_served selected
  refine ⟨selected, ⟨o, mem, isOne, cost, accepts⟩, rfl, rfl, ?_⟩
  have params : o.params[2]? = some Accessor.text.declared := by
    rcases List.mem_pair.mp mem with rfl | rfl
    · cases isOne
    · rfl
  exact (served o mem cost accepts .text 2 params).fails_iff.mpr ⟨rfl, rfl⟩

/-- A callable that has declared a text, and asks for that text, is refused the `null` that
selection has handed to it. -/
theorem not_served_null :
    let candidates : List (Overload Unit) := [⟨[.text], ()⟩]
    selectOverload "T.m" candidates [.null] = .ok ((), [.null]) ∧
      Arguments.text [.null] 0 =
        .error (.badArgument "argument 1 should be string, got null") := by
  intro candidates
  exact ⟨rfl, by rw [Arguments.text]; rfl⟩

end ScriptConsole
