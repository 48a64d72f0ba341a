import ScriptConsole.Eval.HostAccess
import ScriptConsole.Number.Fixed

/-!
# Builtins Without Callbacks

The builtin functions that call nothing back. Those that take functions to call are part of the
evaluator (`ScriptConsole.Eval.Evaluator`).

* Texts and lists count and number their elements alike; a text has characters. A negative index
  counts from the end.
* `Range` is inclusive at both ends and limited to `rangeLimit` elements. Its elements are narrow
  integers if both bounds are.
-/

namespace ScriptConsole

/-- The most elements that `Range` makes. -/
def rangeLimit : Int := 10000000

namespace Plain

/-- A length or count as a value: a narrow integer if it fits. -/
def size (n : Nat) : Value :=
  match Number.int32? n with
  | some n => .int n
  | none => .long (Int64.ofNat n)

/-- An argument that has to be a name. -/
def nameArgument (b : Builtin) (v : Value) : Run String :=
  match v.toText? with
  | some s => pure s
  | none => .fault (.type (.nameWanted b v.kind))

/-- An argument that has to be an integer. -/
def integerArgument (b : Builtin) (v : Value) : Run Int64 :=
  match v.toInt64? with
  | some n => pure n
  | none => .fault (.type (.integerWanted b v.kind))

/-- A new list. -/
def newList (items : List Value) : Run Value := .onWorld (·.newList items)

/-- The value of a name, or the error that it is unbound. -/
def bound (name : String) (found : Option Value) : Run Value :=
  match found with
  | some v => pure v
  | none => .fault (.unbound name)

/-- A number held within the bounds of 64 bits. -/
def saturate (n : Int) : Int := max (-9223372036854775808) (min 9223372036854775807 n)

/-- The elements from `low` to `high`. -/
def rangeItems (narrow : Bool) (low high : Int) : List Value :=
  (List.range (high - low + 1).toNat).map fun (i : Nat) =>
    if narrow then .int (Int32.ofInt (low + i)) else .long (Int64.ofInt (low + i))

/-- Whether a value is a narrow integer. -/
def isInt : Value → Bool
  | .int _ => true
  | _ => false

/-- The list from one bound to another. -/
def range (a b : Value) : Run Value := do
  let low ← integerArgument .range a
  let high ← integerArgument .range b
  if high < low then newList []
  else
    let count := saturate (saturate (high.toInt - low.toInt) + 1)
    if rangeLimit < count then .fault (.type (.rangeLimit count rangeLimit))
    else newList (rangeItems (isInt a && isInt b) low.toInt high.toInt)

/-- The place that an index denotes in a sequence of the given length. -/
def place? (length : Nat) (index : Int64) : Option Nat :=
  let i : Int := if index < 0 then length + index.toInt else index.toInt
  if 0 ≤ i ∧ i < length then some i.toNat else none

/-- The element of a sequence at an index. -/
def element (items : List Value) (index : Int64) : Run Value :=
  match (place? items.length index).bind fun i => items[i]? with
  | some v => pure v
  | none => .fault (.type (.indexRange index items.length))

/-- The characters of a text as values. -/
def characters (s : String) : List Value := s.toList.map .char

/-- The element of a list or text at an index. -/
def get (sequence index : Value) : Run Value := do
  let i ← integerArgument .get index
  match sequence with
  | .list _ items => element items i
  | .text s => element (characters s) i
  | other => .fault (.type (.notIndexable other.kind))

/-- The number of elements of a sequence. -/
def length (registry : Registry) (v : Value) : Run Value :=
  match v with
  | .text s => pure (size s.length)
  | .list _ items => pure (size items.length)
  | .object o c => fun m =>
    match registry.elements? m.world o c with
    | some items => (.ok (size items.length), m)
    | none => (.error (.fault (.type (.noLength c.name))), m)
  | other => .fault (.type (.noLengthOfKind other.kind))

/-- The elements that a loop goes through. -/
def elements (registry : Registry) (v : Value) : Run (List Value) :=
  match v with
  | .list _ items => pure items
  | .text s => pure (characters s)
  | .object o c => fun m =>
    match registry.elements? m.world o c with
    | some items => (.ok items, m)
    | none => (.error (.fault (.type (.notIterable c.name))), m)
  | other => .fault (.type (.notSequence other.kind))

/-- How many calls an exit leaves. -/
def exitDepth (v : Value) : Run Nat := do
  let depth ← integerArgument .exitMany v
  if 1 ≤ depth.toInt ∧ depth.toInt < Number.limit32 then pure depth.toInt.toNat
  else .fault (.type (.exitDepth depth))

/-- The texts of values, one after the other. -/
def joined (registry : Registry) (args : List Value) : Run String :=
  .look fun m => String.join (args.map fun v => v.display (registry.legend m.world))

/-- The name of a value's type: its class for an object, its kind for all others. -/
def typeName : Value → String
  | .object _ c => c.name
  | other => other.kind.name

/-- The result of a builtin that calls nothing back, in the frame of its caller. -/
def apply (registry : Registry) (env : FrameId) : Builtin → List Value → Run Value
  | .print, args => do
    let line ← joined registry args
    Run.print line
    pure .null
  | .range, [a, b] => range a b
  | .throw, [v] => .fault (.thrown v)
  | .both, [a, b] => pure (.bool (a.truthy && b.truthy))
  | .either, [a, b] => pure (.bool (a.truthy || b.truthy))
  | .negation, [a] => pure (.bool (!a.truthy))
  | .eql, [a, b] => pure (.bool (a.eql b))
  | .isNull, [a] => pure (.bool (a.kind = .null))
  | .isClass, [a] => pure (.bool (a.kind = .hostClass))
  | .isBound, [a] => do
    let name ← nameArgument .isBound a
    .look fun m => .bool (m.frames.isBound env name)
  | .setGlobal, [a, v] => do
    let name ← nameArgument .setGlobal a
    .onFrames fun fs => (v, fs.setGlobal env name v)
  | .getGlobal, [a] => do
    let name ← nameArgument .getGlobal a
    let found ← .look fun m => m.frames.getGlobal? env name
    bound name found
  | .getParentVar, [a] => do
    let name ← nameArgument .getParentVar a
    let found ← .look fun m => m.frames.getOuter? env name
    bound name found
  | .exit, [] => .stop (.exit 1 .null)
  | .exit, [v] => .stop (.exit 1 v)
  | .exitMany, [d, v] => do
    let depth ← exitDepth d
    .stop (.exit depth v)
  | .display, [v] => do
    let s ← HostAccess.display registry v
    pure (.text s)
  | .typeOf, [v] => pure (.text (typeName v))
  | .length, [v] => length registry v
  | .list, args => newList args
  | .get, [sequence, index] => get sequence index
  | .locals, [] => do
    let names ← .look fun m => m.frames.names env
    newList (names.map .text)
  | .globals, [] => do
    let names ← .look fun m => m.frames.names (m.frames.root env)
    newList (names.map .text)
  | _, _ => .stop .stuck

end Plain

end ScriptConsole
