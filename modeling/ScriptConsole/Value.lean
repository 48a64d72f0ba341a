import ScriptConsole.Expr
import ScriptConsole.Number.Layout
import ScriptConsole.Text.Quoted
import ScriptConsole.Value.Builtin

/-!
# Values

What expressions evaluate to. Lists and functions have an identity: two lists with the same items
that were made apart are told apart where that matters, and a function is equal only to itself.
Classes and objects of the host are known here by their numbers; how objects show themselves comes
in through a `Legend`.

* `Value.truthy` is the truth value of a value as a condition.
* `Value.eql` is the equality of the language: numbers compare across their kinds, texts by
  content, lists by identity or item by item, functions, classes and objects by identity.
* `Value.display` is the text of a value, `Value.repr` its source-like form, in which texts and
  characters are quoted and wide integers end in `L`.
-/

namespace ScriptConsole

/-- The number that tells a list or a function from all others. -/
abbrev Identity := Nat

/-- The number of a host class in its registry. -/
abbrev ClassId := Nat

/-- A class of the host, as values refer to it. The number tells it from other classes that may have
borne the same name. -/
structure ClassRef where
  id : ClassId
  name : String

/-- The number of a host object in its world. -/
abbrev ObjectId := Nat

/-- The number of a frame. -/
abbrev FrameId := Nat

/-- A function of the language: its parameters and body, and the frame where it was made. -/
structure Closure where
  identity : Identity
  params : List String
  body : List Expr
  frame : FrameId

/-- A value. -/
inductive Value where
  | null
  | bool (b : Bool)
  | int (n : Int32)
  | long (n : Int64)
  | float (x : Float)
  | char (c : Char)
  | text (s : String)
  | list (identity : Identity) (items : List Value)
  | function (f : Closure)
  | builtin (b : Builtin)
  | hostClass (c : ClassRef)
  | object (o : ObjectId) (c : ClassRef)

/-- What a value is. -/
inductive Kind where
  | null
  | bool
  | int
  | long
  | float
  | char
  | string
  | list
  | function
  | builtin
  | hostClass
  | object
  deriving DecidableEq, Repr

/-- The name of a kind, in messages and as the result of `typeOf`. -/
def Kind.name : Kind → String
  | null => "null"
  | bool => "bool"
  | int => "int"
  | long => "long"
  | float => "float"
  | char => "char"
  | string => "string"
  | list => "list"
  | function => "function"
  | builtin => "builtin"
  | hostClass => "class"
  | object => "object"

/-- How objects of the host are shown. -/
abbrev Legend := ObjectId → ClassRef → String

namespace Value

/-- The kind of a value. -/
def kind : Value → Kind
  | null => .null
  | bool _ => .bool
  | int _ => .int
  | long _ => .long
  | float _ => .float
  | char _ => .char
  | text _ => .string
  | list _ _ => .list
  | function _ => .function
  | builtin _ => .builtin
  | hostClass _ => .hostClass
  | object _ _ => .object

/-- The truth value of a value as a condition. -/
def truthy : Value → Bool
  | null => false
  | bool b => b
  | int n => n != 0
  | long n => n != 0
  | float x => x != 0
  | char c => c != '\x00'
  | text s => !s.isEmpty
  | list _ items => !items.isEmpty
  | function _ => true
  | builtin _ => true
  | hostClass _ => true
  | object _ _ => true

/-- Whether a value can be called. -/
def isCallable : Value → Bool
  | function _ => true
  | builtin _ => true
  | hostClass _ => true
  | _ => false

/-- The value of an integer of either width. -/
def toInt64? : Value → Option Int64
  | int n => some n.toInt64
  | long n => some n
  | _ => none

/-- The value of a number of any kind as a double. -/
def toFloat? : Value → Option Float
  | int n => some (Number.Binary64.ofInt n.toInt)
  | long n => some (Number.Binary64.ofInt n.toInt)
  | float x => some x
  | _ => none

/-- The text of a text value. -/
def toText? : Value → Option String
  | text s => some s
  | _ => none

/-! ### Equality -/

/-- Equality of numbers: of integers as such, of others as doubles. Values that are not both
numbers differ. -/
def eqlNumber (a b : Value) : Bool :=
  match a.toInt64?, b.toInt64? with
  | some m, some n => m == n
  | _, _ =>
    match a.toFloat?, b.toFloat? with
    | some x, some y => x == y
    | _, _ => false

mutual

/-- The equality of the language. -/
def eql : Value → Value → Bool
  | null, null => true
  | bool a, bool b => a == b
  | char a, char b => a == b
  | text a, text b => a == b
  | list i xs, list j ys => i == j || eqlItems xs ys
  | function f, function g => f.identity == g.identity
  | builtin a, builtin b => a == b
  | hostClass c, hostClass d => c.id == d.id
  | object o _, object p _ => o == p
  | a, b => eqlNumber a b

/-- Equality item by item. -/
def eqlItems : List Value → List Value → Bool
  | [], [] => true
  | x :: xs, y :: ys => eql x y && eqlItems xs ys
  | _, _ => false

end

/-! ### Text -/

mutual

/-- The text of a value, with texts and characters quoted and wide integers marked if `quoted`. The
items of a list always are. -/
def render (legend : Legend) (quoted : Bool) : Value → String
  | null => "null"
  | bool b => if b then "true" else "false"
  | int n => toString n.toInt
  | long n => if quoted then toString n.toInt ++ "L" else toString n.toInt
  | float x => Number.displayFloat x
  | char c => if quoted then Text.quotedChar c else String.singleton c
  | text s => if quoted then Text.quotedText s else s
  | list _ items => "[" ++ String.intercalate ", " (renderItems legend items) ++ "]"
  | function f => "<fn(" ++ String.intercalate ", " f.params ++ ")>"
  | builtin b => "<builtin " ++ b.name ++ ">"
  | hostClass c => "<class " ++ c.name ++ ">"
  | object o c => legend o c

/-- The quoted texts of items. -/
def renderItems (legend : Legend) : List Value → List String
  | [] => []
  | x :: xs => render legend true x :: renderItems legend xs

end

/-- The text of a value. -/
def display (legend : Legend) (v : Value) : String := render legend false v

/-- The source-like text of a value. -/
def repr (legend : Legend) (v : Value) : String := render legend true v

end Value

end ScriptConsole
