/-!
# Reading from the Front of a List

A reader takes something off the front of its input and leaves a rest that is strictly shorter.
The proof of that comes with every result, so that a loop over a reader ends because its input
runs out; no reader needs a bound on the number of its steps.

The readers of tokens (`ScriptConsole.Expr.Parser`) and of characters (`ScriptConsole.Json.Reader`)
have this form.
-/

namespace ScriptConsole

variable {τ α β ε : Type}

/-- A value read off the front of `input`, and the rest. -/
structure Reading {τ : Type} (input : List τ) (α : Type) where
  value : α
  rest : List τ
  shorter : rest.length < input.length

namespace Reading

/-- A reading with another value. -/
def map {input : List τ} (f : α → β) (r : Reading input α) : Reading input β :=
  ⟨f r.value, r.rest, r.shorter⟩

/-- The first element of a list, read off it. -/
def first (head : τ) (tail : List τ) : Reading (head :: tail) τ :=
  ⟨head, tail, Nat.lt_succ_self _⟩

/-- A reading that goes on where another ended, seen as one from the start. -/
def after {input : List τ} (r : Reading input α) (s : Reading r.rest β) : Reading input β :=
  ⟨s.value, s.rest, Nat.lt_trans s.shorter r.shorter⟩

end Reading

/-- A function that reads a value off the front of its input, or fails. -/
abbrev Reader (τ ε α : Type) := (input : List τ) → Except ε (Reading input α)

namespace Reader

/-- A reader with its values changed. -/
def map (f : α → β) (p : Reader τ ε α) : Reader τ ε β := fun input =>
  match p input with
  | .error e => .error e
  | .ok r => .ok (r.map f)

end Reader

/-! ### Comparing results

Results of readers can be compared with a given value or error by running the reader, also where
values of the other kind cannot be compared.
-/

instance decidableEqOk [DecidableEq α] (a : α) : (r : Except ε α) → Decidable (r = .ok a)
  | .ok b => decidable_of_iff (b = a) ⟨congrArg _, Except.ok.inj⟩
  | .error _ => isFalse nofun

instance decidableEqError [DecidableEq ε] (e : ε) : (r : Except ε α) → Decidable (r = .error e)
  | .ok _ => isFalse nofun
  | .error d => decidable_of_iff (d = e) ⟨congrArg _, Except.error.inj⟩

end ScriptConsole
