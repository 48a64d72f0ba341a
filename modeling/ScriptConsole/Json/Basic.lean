/-!
# JSON Documents

A document keeps the entries of an object in the order in which they were written, repeated keys
included; what repetition means is for the reader of the object to say. A number is a natural
number or a negative integer of 64 bits where it was written as one and fits, and a double
otherwise.
-/

namespace ScriptConsole

/-- A number of a JSON document. -/
inductive Json.Number where
  | natural (n : UInt64)
  | negative (n : Int64)
  | float (x : Float)

/-- A JSON document. -/
inductive Json where
  | null
  | bool (b : Bool)
  | number (n : Json.Number)
  | text (s : String)
  | array (items : List Json)
  | object (entries : List (String × Json))

namespace Json

/-- The document of a natural number. Numbers past 64 bits do not occur as lengths or counts. -/
def ofNat (n : Nat) : Json := .number (.natural n.toUInt64)

/-- The document of a 64-bit integer. -/
def ofInt64 (n : Int64) : Json :=
  if n < 0 then .number (.negative n) else .number (.natural n.toUInt64)

/-- The document of a double; JSON has no infinities and no NaN, so those become `null`. -/
def ofFloat (x : Float) : Json :=
  if x.isFinite then .number (.float x) else .null

end Json

end ScriptConsole
