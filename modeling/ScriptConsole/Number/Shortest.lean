import ScriptConsole.Number.Binary64

/-!
# The Shortest Decimal of a Double

Every real number between the two midpoints around a double `x` rounds to `x`; the midpoints
themselves do when the mantissa of `x` is even. Among the decimals in that interval
`Decimal.shortest` takes one with the fewest significant digits, and of those the one nearest
to `x`. Of two that are equally near, a `Tie` says which.

For each number of digits, a grid of decimals is fixed by the magnitude of `x`, and only the two
neighbours of `x` on that grid are tested: if any point of the grid lies in the interval, one of
these does. Seventeen digits always suffice.
-/

namespace ScriptConsole.Number

/-- Which of two equally near decimals is taken. -/
inductive Tie where
  | toEven
  | away

/-- Whether the lower neighbour on a grid is taken, when the value lies `rest` of `step` above
it. -/
def Tie.takesLower (tie : Tie) (lower rest step : Nat) : Bool :=
  match tie with
  | .toEven => 2 * rest < step || (2 * rest = step && lower % 2 = 0)
  | .away => 2 * rest < step

/-- A positive decimal `digits · 10 ^ exponent`. -/
structure Decimal where
  digits : Nat
  exponent : Int

namespace Decimal

/-- A positive power of ten as a factor. -/
def scaleUp (exponent : Int) : Nat := Nat.pow 10 exponent.toNat

/-- The fraction `num / den` with the distances to the midpoints below and above it, all over the
same denominator. -/
structure Rounding where
  num : Nat
  den : Nat
  below : Nat
  above : Nat
  closed : Bool

/-- The interval of a positive double. The gap below a power of two is half as wide as the one
above it, except at the bottom of the range. -/
def Rounding.ofBinary (b : Binary64) : Rounding :=
  let up := Binary64.scaleUp b.exponent
  let narrow := b.mantissa = Binary64.leadingBit ∧ b.exponent ≠ -1074
  { num := 4 * b.mantissa * up
    den := 4 * Binary64.scaleUp (-b.exponent)
    below := if narrow then up else 2 * up
    above := 2 * up
    closed := b.mantissa % 2 = 0 }

/-- Whether `digits · 10 ^ exponent` rounds to the double. -/
def Rounding.admits (r : Rounding) (digits : Nat) (exponent : Int) : Bool :=
  let value := digits * scaleUp exponent * r.den
  let scale := scaleUp (-exponent)
  let low := (r.num - r.below) * scale
  let high := (r.num + r.above) * scale
  if r.closed then low ≤ value && value ≤ high else low < value && value < high

/-- The number of places before the decimal point: the least `p` with `num / den < 10 ^ p`. The
first guess comes from the binary logarithm and is off by at most one. -/
def Rounding.places (r : Rounding) : Int :=
  let guess : Int := (((r.num.log2 : Int) - (r.den.log2 : Int)) * 1233).fdiv 4096 + 1
  let reaches (p : Int) : Bool := r.den * scaleUp p ≤ r.num * scaleUp (-p)
  if reaches (guess + 1) then guess + 2
  else if reaches guess then guess + 1
  else if reaches (guess - 1) then guess
  else guess - 1

/-- The best decimal with `count` significant digits, if one rounds to the double. -/
def Rounding.withDigits? (r : Rounding) (tie : Tie) (places : Int) (count : Nat) :
    Option Decimal :=
  let exponent := places - count
  let step := r.den * scaleUp exponent
  let value := r.num * scaleUp (-exponent)
  let down := value / step
  let up := down + 1
  let nearDown := tie.takesLower down (value % step) step
  match r.admits down exponent, r.admits up exponent with
  | true, true => some ⟨if nearDown then down else up, exponent⟩
  | true, false => some ⟨down, exponent⟩
  | false, true => some ⟨up, exponent⟩
  | false, false => none

/-- The decimal without zeros at its end; `steps` bounds their number. -/
def trim : (steps : Nat) → Decimal → Decimal
  | 0, d => d
  | steps + 1, d =>
    if d.digits % 10 = 0 then trim steps ⟨d.digits / 10, d.exponent + 1⟩ else d

/-- The shortest decimal that rounds to the magnitude of a finite double other than zero. -/
def shortest (tie : Tie) (x : Float) : Decimal :=
  let r := Rounding.ofBinary (Binary64.ofFloat x)
  let places := r.places
  let counts := (List.range 17).map (· + 1)
  match counts.findSome? (r.withDigits? tie places) with
  | some d => trim 20 d
  | none => ⟨0, 0⟩

/-- The significant digits as text. -/
def text (d : Decimal) : List Char :=
  Nat.toDigits 10 d.digits

/-- The position of the decimal point, counted from the first significant digit: the value is
`0.d₁d₂d₃… · 10 ^ point`. -/
def point (d : Decimal) : Int :=
  d.text.length + d.exponent

/-- Positional notation. A whole number is written without a point, or with `.0` after it. -/
def positional (d : Decimal) (pointZero : Bool) : List Char :=
  let digits := d.text
  if d.point ≤ 0 then '0' :: '.' :: List.replicate (-d.point).toNat '0' ++ digits
  else
    let before := d.point.toNat
    if digits.length ≤ before then
      digits ++ List.replicate (before - digits.length) '0' ++
        (if pointZero then ['.', '0'] else [])
    else digits.take before ++ '.' :: digits.drop before

/-- Scientific notation with one digit before the point. -/
def scientific (d : Decimal) (plus : Bool) : List Char :=
  let power := d.point - 1
  let sign := if power < 0 then ['-'] else if plus then ['+'] else []
  let mantissa := match d.text with
    | [] => ['0']
    | [c] => [c]
    | c :: rest => c :: '.' :: rest
  mantissa ++ 'e' :: sign ++ Nat.toDigits 10 power.natAbs

end Decimal

end ScriptConsole.Number
