import ScriptConsole.Json.Basic
import ScriptConsole.Number.Binary64
import ScriptConsole.Number.Fixed

/-!
# Reading the Numbers of JSON

A number without point and exponent is an integer when it fits in 64 bits. Every other number is a
double: as many of its digits as fit are taken as one 64-bit natural number, further digits only
count as places, and the result is scaled by a power of ten. Each of these steps rounds, so a
number with many digits may end up next to the double nearest to it.

A number too large for a double is refused; one too small becomes zero.
-/

namespace ScriptConsole.Json

/-- Why a text is no JSON document. -/
inductive Fault where
  | malformed
  | outOfRange
  | tooDeep
  deriving DecidableEq, Repr

/-- The value of a decimal digit. -/
def digitValue (c : Char) : Nat := c.toNat - '0'.toNat

/-- Appends digits to a significand while it fits in 64 bits. The second result is the number of
digits left over from the first that does not fit. -/
def appendDigits (significand : Nat) : List Char → Nat × Nat
  | [] => (significand, 0)
  | c :: rest =>
    let next := significand * 10 + digitValue c
    if next < Number.limit64 then appendDigits next rest else (significand, rest.length + 1)

/-- Divides a double by ten to a power past the range of doubles, in steps of `10 ^ 308`. After
`steps` such divisions every 64-bit number is zero. -/
def scaleDown : (steps : Nat) → Float → (power : Nat) → Float
  | 0, _, _ => 0
  | steps + 1, x, power =>
    if power ≤ 308 then x / Number.Binary64.ofDecimal 1 power
    else scaleDown steps (x / Number.Binary64.ofDecimal 1 308) (power - 308)

/-- The double `significand · 10 ^ exponent`. -/
def scale (significand : Nat) (exponent : Int) : Except Fault Float :=
  let x := significand.toUInt64.toFloat
  if significand = 0 then .ok 0
  else if exponent < 0 then .ok (scaleDown 4 x exponent.natAbs)
  else if 308 < exponent then .error .outOfRange
  else
    let scaled := x * Number.Binary64.ofDecimal 1 exponent
    if scaled.isInf then .error .outOfRange else .ok scaled

/-- The greatest exponent that is taken at its value. -/
def greatestExponent : Nat := 2147483647

/-- The number with the given digits before and after the point and the given written exponent;
`none` stands for an absent part. -/
def numberOfParts (negative : Bool) (whole : List Char) (fraction : Option (List Char))
    (exponent : Option (Bool × List Char)) : Except Fault Number :=
  let (significand, dropped) := appendDigits 0 whole
  match fraction, exponent, dropped with
  | none, none, 0 =>
    if !negative then .ok (.natural significand.toUInt64)
    else if 0 < significand ∧ significand ≤ 9223372036854775808 then
      .ok (.negative (Int64.ofInt (-(significand : Int))))
    else .ok (.float (-significand.toUInt64.toFloat))
  | fraction, exponent, dropped =>
    let places := fraction.getD []
    let (significand, unread) := appendDigits significand places
    let start : Int := (dropped : Int) - ((places.length : Int) - (unread : Int))
    let magnitude := match exponent with
      | none => scale significand start
      | some (down, digits) =>
        let written := digits.foldl (fun n c => n * 10 + digitValue c) 0
        if written ≤ greatestExponent then
          scale significand (if down then start - written else start + written)
        else if significand = 0 || down then .ok 0
        else .error .outOfRange
    match magnitude with
    | .error e => .error e
    | .ok x => .ok (.float (Number.Binary64.withSign negative x))

end ScriptConsole.Json
