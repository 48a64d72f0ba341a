import ScriptConsole.Eval.Machine
import ScriptConsole.Value.Operators

/-!
# What Values Are Made Of

Functions and builtins get around inside values: they stand in lists, lists stand in lists, and
names are bound to them (`Value.Holds`). Evaluation makes functions in frames that it has made
itself, and it makes no builtins. So whatever is allowed to begin with stays all there is, if
functions of the frames that there are count as allowed.

A `Stock` says what is allowed. What counts as allowed depends on how many frames there are, and
there are only ever more of them, so what is of the stock at one time is of the stock ever after
(`Stock.Has.mono`).

## Main results

* `Stock.has_list`: a list is of the stock if its items are.
* `World.Within`: the worlds whose objects keep only what is of a stock.
* `Value.scalar_unary`, `Value.scalar_binary`: operators give neither functions nor builtins.
-/

namespace ScriptConsole

/-- Whether a value holds another: it is that value, or a list with an item that holds it. -/
inductive Value.Holds : Value → Value → Prop
  | self (v : Value) : Holds v v
  | item {i : Identity} {items : List Value} {v u : Value} :
      v ∈ items → Holds v u → Holds (.list i items) u

/-- Whether a value is no list, no function and no builtin. -/
def Value.isScalar : Value → Bool
  | list _ _ => false
  | function _ => false
  | builtin _ => false
  | _ => true

/-- Which functions and builtins values may hold when there are so many frames. -/
structure Stock where
  function : Nat → Closure → Prop
  builtin : Builtin → Prop
  /-- What is allowed stays allowed. -/
  mono : ∀ {n n' : Nat}, n ≤ n' → ∀ {f : Closure}, function n f → function n' f
  /-- Functions of frames that there are are allowed. -/
  made : ∀ {n : Nat} {f : Closure}, f.frame < n → function n f

namespace Stock

variable {s : Stock} {n n' : Nat}

/-- Whether a value is allowed to be held, whatever it holds itself. -/
def Allows (s : Stock) (n : Nat) : Value → Prop
  | .function f => s.function n f
  | .builtin b => s.builtin b
  | _ => True

/-- Whether a value is of the stock: all that it holds is allowed. -/
def Has (s : Stock) (n : Nat) (v : Value) : Prop := ∀ u, v.Holds u → s.Allows n u

/-- Whether each of some values is of the stock. -/
def HasEach (s : Stock) (n : Nat) (vs : List Value) : Prop := ∀ v ∈ vs, s.Has n v

/-- What is of the stock at one time is of the stock when there are more frames. -/
theorem Has.mono {v : Value} (h : s.Has n v) (le : n ≤ n') : s.Has n' v := by
  intro u held
  have allowed := h u held
  cases u with
  | function f => exact s.mono le allowed
  | builtin b => exact allowed
  | _ => trivial

/-- Scalars hold nothing but themselves. -/
theorem has_of_scalar {v : Value} (scalar : v.isScalar = true) : s.Has n v := by
  rintro u (_ | _)
  · cases v with
    | function f => cases scalar
    | builtin b => cases scalar
    | _ => trivial
  · cases scalar

/-- A list is of the stock if its items are. -/
@[simp] theorem has_list {i : Identity} {items : List Value} :
    s.Has n (.list i items) ↔ s.HasEach n items := by
  constructor
  · exact fun h v mem u held => h u (.item mem held)
  · rintro h u (_ | ⟨mem, held⟩)
    · trivial
    · exact h _ mem u held

/-- A function is of the stock if it is allowed itself. -/
@[simp] theorem has_function {f : Closure} : s.Has n (.function f) ↔ s.function n f := by
  constructor
  · exact fun h => h _ (.self _)
  · rintro h u ⟨_⟩
    exact h

/-- A builtin is of the stock if it is allowed. -/
@[simp] theorem has_builtin {b : Builtin} : s.Has n (.builtin b) ↔ s.builtin b := by
  constructor
  · exact fun h => h _ (.self _)
  · rintro h u ⟨_⟩
    exact h

/-- No values are of every stock. -/
theorem hasEach_nil : s.HasEach n [] := fun _ mem => absurd mem List.not_mem_nil

end Stock

/-! ### Worlds and machines -/

/-- The values that the state of an object keeps. -/
def ObjectState.values : ObjectState → List Value
  | fields values => values
  | _ => []

/-- Whether all that the objects of a world keep is of a stock. -/
def World.Within (s : Stock) (n : Nat) (w : World) : Prop :=
  ∀ o, s.HasEach n (w.state o).values

/-- There are no objects in an empty world. -/
theorem World.within_empty {s : Stock} {n : Nat} : World.empty.Within s n :=
  fun _ => Stock.hasEach_nil

/-- Whether a value and a world are of a stock. -/
structure World.GivesWithin (s : Stock) (n : Nat) (a : Value × World) : Prop where
  value : s.Has n a.1
  world : a.2.Within s n

/-- Whether a machine holds a value: some frame binds a name to it, some object keeps it, or it is
inside of what is bound or kept. -/
inductive Machine.Holds (m : Machine) (u : Value) : Prop
  | bound {h : FrameId} {name : String} {v : Value} :
      m.frames.own? h name = some v → v.Holds u → Holds m u
  | kept {o : ObjectId} {v : Value} : v ∈ (m.world.state o).values → v.Holds u → Holds m u

/-- The values that an error carries. -/
def EvalError.values : EvalError → List Value
  | thrown v => [v]
  | _ => []

/-- The values that a stop carries. -/
def Stop.values : Stop → List Value
  | exit _ v => [v]
  | fault e => e.values
  | _ => []

/-! ### Operators -/

/-- Whether a computation gives a scalar, or an error that carries nothing. -/
inductive Value.Scalar : Except EvalError Value → Prop
  | ok {v : Value} : v.isScalar = true → Scalar (.ok v)
  | error {e : EvalError} : e.values = [] → Scalar (.error e)

namespace Value

/-- Arithmetic gives numbers. -/
theorem scalar_arithmetic (op : Arithmetic) (a b : Value) : Scalar (arithmetic op a b) := by
  have wrapped : ∀ {ω : Type} {wrap : ω → Value}, (∀ n, (wrap n).isScalar = true) →
      ∀ r : Except ArithmeticFault ω, Scalar ((r.map wrap).mapError .arithmetic) := by
    intro ω wrap scalar r
    cases r with
    | ok n => exact .ok (scalar n)
    | error e => exact .error rfl
  unfold arithmetic
  split
  · exact wrapped (fun _ => rfl) _
  · split
    · exact wrapped (fun _ => rfl) _
    · split
      · exact .ok rfl
      · exact .error rfl

/-- Comparisons give truth values. -/
theorem scalar_comparison (op : Comparison) (a b : Value) : Scalar (comparison op a b) := by
  unfold comparison
  split
  · exact .ok rfl
  · exact .ok rfl
  · exact .error rfl

/-- An operator between two values gives a scalar. -/
theorem scalar_binary (legend : Legend) (op : BinaryOp) (a b : Value) :
    Scalar (binary legend op a b) := by
  cases op with
  | equal | notEqual | bothAnd | eitherOr => exact .ok rfl
  | less | lessEqual | greater | greaterEqual => exact scalar_comparison _ a b
  | add =>
      rw [binary]
      split
      · exact .ok rfl
      · exact scalar_arithmetic _ a b
  | subtract | multiply | divide | remainder => exact scalar_arithmetic _ a b

/-- An operator before a value gives a scalar. -/
theorem scalar_unary (op : UnaryOp) (v : Value) : Scalar (unary op v) := by
  have wrapped : ∀ {ω : Type} {wrap : ω → Value}, (∀ n, (wrap n).isScalar = true) →
      ∀ r : Option ω, Scalar (negated wrap r) := by
    intro ω wrap scalar r
    cases r with
    | some n => exact .ok (scalar n)
    | none => exact .error rfl
  unfold unary
  split
  · exact .ok rfl
  · exact wrapped (fun _ => rfl) _
  · exact wrapped (fun _ => rfl) _
  · exact .ok rfl
  · exact .error rfl

end Value

end ScriptConsole
