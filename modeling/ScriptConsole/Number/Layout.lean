import ScriptConsole.Number.Shortest

/-!
# How Doubles Are Written

Four outputs write doubles, each in its own layout over the same shortest digits: messages and
hashed texts (`FloatLayout.plain`), values shown to the user (`displayFloat`), the tree dump
(`FloatLayout.dump`) and JSON (`FloatLayout.json`, which has no infinities or NaN and leaves those
to its printer). A layout says for which decimal exponents it is positional, whether a whole
number keeps `.0`, how a positive exponent is marked, and which way a tie between two shortest
decimals goes.
-/

namespace ScriptConsole.Number

/-- The choices of an output that writes doubles. The value of a number is `d.ddd · 10 ^ e`, and
it is positional for `leastPower ≤ e < powerLimit`; without limits it always is. -/
structure FloatLayout where
  powers : Option (Int × Int)
  pointZero : Bool
  plus : Bool
  tie : Tie

namespace FloatLayout

/-- Positional throughout; a whole number has no point. -/
def plain : FloatLayout := ⟨none, false, false, .away⟩

/-- Positional throughout; a whole number ends in `.0`. -/
def pointed : FloatLayout := ⟨none, true, false, .away⟩

/-- Positional from `0.0001` up to below `10 ^ 16`; a whole number ends in `.0`. -/
def dump : FloatLayout := ⟨some (-4, 16), true, false, .away⟩

/-- Positional from `0.00001` up to below `10 ^ 16`; a whole number ends in `.0`, and a positive
exponent has its sign. -/
def json : FloatLayout := ⟨some (-5, 16), true, true, .toEven⟩

/-- The text of a positive decimal. -/
def writeDecimal (l : FloatLayout) (d : Decimal) : List Char :=
  match l.powers with
  | none => d.positional l.pointZero
  | some (least, limit) =>
    if least ≤ d.point - 1 && d.point - 1 < limit then d.positional l.pointZero
    else d.scientific l.plus

/-- The text of a finite double. Zero keeps its sign. -/
def writeFinite (l : FloatLayout) (x : Float) : String :=
  let magnitude :=
    if x == 0 then (if l.pointZero then ['0', '.', '0'] else ['0'])
    else l.writeDecimal (Decimal.shortest l.tie x)
  String.ofList (if Binary64.signBit x then '-' :: magnitude else magnitude)

/-- The text of a double; NaN has no sign. -/
def write (l : FloatLayout) (x : Float) : String :=
  if x.isNaN then "NaN"
  else if x.isInf then (if x < 0 then "-inf" else "inf")
  else l.writeFinite x

end FloatLayout

/-- A double as the user sees it: whole numbers below `10 ^ 16` end in `.0`, larger ones do
not. -/
def displayFloat (x : Float) : String :=
  if x.isFinite && Binary64.isIntegral x && x.abs < 1e16 then FloatLayout.pointed.write x
  else FloatLayout.plain.write x

end ScriptConsole.Number
