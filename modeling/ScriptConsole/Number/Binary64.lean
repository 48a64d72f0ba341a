/-!
# Double-Precision Numbers as Exact Fractions

A finite double is `± m · 2 ^ e` for a natural number `m` and an integer `e`, read off its bits.
The operations of this module work on that form with exact arithmetic and round once at the end:

* `Binary64.ofRatio` is the double nearest to a fraction, with ties to the even neighbour;
* `Binary64.ofDecimal` reads a decimal;
* `Binary64.ofInt` is the double nearest to an integer of either width;
* `Binary64.remainder` is the remainder of a division truncated toward zero, which is exact;
* `Binary64.hypotenuse` is the length of the vector with two given coordinates;
* `Binary64.isIntegral` says whether a double is a whole number.
-/

namespace ScriptConsole.Number

/-- A double split into its sign and its magnitude `mantissa · 2 ^ exponent`. -/
structure Binary64 where
  negative : Bool
  mantissa : Nat
  exponent : Int

namespace Binary64

/-- The sign bit of a double, set for `-0.0` and for some NaNs too. -/
def signBit (x : Float) : Bool :=
  x.toBits >>> 63 == 1

/-- The leading bit of the mantissa of a normal double, `2 ^ 52`. -/
def leadingBit : Nat := 4503599627370496

/-- The parts of a finite double. The parts of an infinity or a NaN have no meaning; callers test
for those first. -/
def ofFloat (x : Float) : Binary64 :=
  let bits := x.toBits
  let fraction := (bits &&& 0xFFFFFFFFFFFFF).toNat
  let biased := ((bits >>> 52) &&& 0x7FF).toNat
  if biased = 0 then ⟨signBit x, fraction, -1074⟩
  else ⟨signBit x, fraction + leadingBit, (biased : Int) - 1075⟩

/-- A positive power of two as the factor of a numerator, a negative one of a denominator. -/
def scaleUp (exponent : Int) : Nat := Nat.pow 2 exponent.toNat

/-- The magnitude as a fraction. -/
def ratio (b : Binary64) : Nat × Nat :=
  (b.mantissa * scaleUp b.exponent, scaleUp (-b.exponent))

/-- The whole number nearest to `num / den`, with ties to the even neighbour. -/
def roundHalfEven (num den : Nat) : Nat :=
  let whole := num / den
  let twice := 2 * (num % den)
  if twice < den || (twice = den && whole % 2 = 0) then whole else whole + 1

/-- The exponent of the last binary place of the double nearest to `num / den`: 53 places are
kept, fewer below the least normal number. -/
def lastPlace (num den : Nat) : Int :=
  let guess : Int := (num.log2 : Int) - (den.log2 : Int) - 53
  let tooFine := 2 * leadingBit ≤ (num * scaleUp (-guess)) / (den * scaleUp guess)
  max (if tooFine then guess + 1 else guess) (-1074)

/-- The double nearest to `num / den`. Rounding up to the next power of two carries into the
exponent by itself, because the bits of a double are in the order of its values. -/
def ofRatio (num den : Nat) : Float :=
  if num = 0 then 0 else
    let place := lastPlace num den
    let steps := roundHalfEven (num * scaleUp (-place)) (den * scaleUp place)
    let bits := (place + 1074).toNat * leadingBit + steps
    Float.ofBits (min bits 0x7FF0000000000000).toUInt64

/-- The double nearest to `digits · 10 ^ exponent`. -/
def ofDecimal (digits : Nat) (exponent : Int) : Float :=
  ofRatio (digits * Nat.pow 10 exponent.toNat) (Nat.pow 10 (-exponent).toNat)

/-- Whether a finite double is a whole number. -/
def isIntegral (x : Float) : Bool :=
  let (num, den) := (ofFloat x).ratio
  num % den = 0

/-- A magnitude with a sign. -/
def withSign (negative : Bool) (x : Float) : Float :=
  if negative then -x else x

/-- The double nearest to an integer of at most 64 bits, with ties to the even neighbour. -/
def ofInt (n : Int) : Float := withSign (n < 0) n.natAbs.toUInt64.toFloat

/-- The remainder of `x / y` truncated toward zero, which has the sign of `x`. It is exact, so no
rounding takes place. -/
def remainder (x y : Float) : Float :=
  if x.isNaN || y.isNaN || x.isInf || y == 0 then 0 / 0
  else if y.isInf then x
  else
    let a := ofFloat x
    let b := ofFloat y
    let place := min a.exponent b.exponent
    let left := a.mantissa * scaleUp (a.exponent - place)
    let right := b.mantissa * scaleUp (b.exponent - place)
    let rest := left % right
    withSign a.negative (ofRatio (rest * scaleUp place) (scaleUp (-place)))

/-- The integer part of the square root, by Newton's iteration from above; `steps` bounds their
number. -/
def sqrtFrom : (steps guess n : Nat) → Nat
  | 0, guess, _ => guess
  | steps + 1, guess, n =>
    let better := (guess + n / guess) / 2
    if better < guess then sqrtFrom steps better n else guess

/-- The greatest natural number whose square is at most `n`. -/
def natSqrt (n : Nat) : Nat :=
  if n = 0 then 0 else sqrtFrom (n.log2 + 2) (Nat.pow 2 (n.log2 / 2 + 1)) n

/-- The length of the vector `(x, y)`: the square root of the exact sum of squares, taken with
more than a double's places and a last binary digit that says whether anything was cut off. -/
def hypotenuse (x y : Float) : Float :=
  if x.isInf || y.isInf then 1 / 0
  else if x.isNaN || y.isNaN then 0 / 0
  else
    let a := ofFloat x
    let b := ofFloat y
    let place := min a.exponent b.exponent
    let left := a.mantissa * scaleUp (a.exponent - place)
    let right := b.mantissa * scaleUp (b.exponent - place)
    let square := (left * left + right * right) * scaleUp 128
    let root := natSqrt square
    let sticky := 2 * root + (if root * root = square then 0 else 1)
    ofRatio (sticky * scaleUp (place - 65)) (scaleUp (65 - place))

end Binary64

end ScriptConsole.Number
