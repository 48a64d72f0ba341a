/-!
# Literals

The values that can be written down as a single token: numbers, characters, texts, the two truth
values and `null`.
-/

namespace ScriptConsole

/-- The value written by a literal. -/
inductive Literal where
  | int (n : Int32)
  | long (n : Int64)
  | float (x : Float)
  | char (c : Char)
  | text (s : String)
  | bool (b : Bool)
  | null
  deriving DecidableEq

end ScriptConsole
