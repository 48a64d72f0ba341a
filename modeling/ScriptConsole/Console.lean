/-!
# The Console

A console holds the lines printed so far and the input lines that wait. It can be closed, which is
only noted.
-/

namespace ScriptConsole

/-- What has been printed and what waits to be read. -/
structure Console where
  output : Array String
  input : List String
  closed : Bool

namespace Console

/-- A console with the given lines to read. -/
def ofInput (lines : List String) : Console := ⟨#[], lines, false⟩

/-- Prints one line. -/
def print (c : Console) (line : String) : Console :=
  { c with output := c.output.push line }

/-- Whether a line waits. -/
def hasNext (c : Console) : Bool := !c.input.isEmpty

/-- Takes the next line. -/
def nextLine (c : Console) : Option String × Console :=
  match c.input with
  | [] => (none, c)
  | line :: rest => (some line, { c with input := rest })

/-- Notes that the console is closed. -/
def close (c : Console) : Console := { c with closed := true }

/-- Forgets the lines printed so far. -/
def clear (c : Console) : Console := { c with output := #[] }

/-- The lines printed so far, with newlines between them. -/
def text (c : Console) : String := String.intercalate "\n" c.output.toList

/-- A line that is printed is the last one of the output. -/
@[simp] theorem output_print (c : Console) (line : String) :
    (c.print line).output.toList = c.output.toList ++ [line] := by
  simp [print]

/-- A line that is printed leaves the input as it is. -/
@[simp] theorem input_print (c : Console) (line : String) : (c.print line).input = c.input := rfl

/-- A line that is printed does not close the console. -/
@[simp] theorem closed_print (c : Console) (line : String) :
    (c.print line).closed = c.closed := rfl

end Console

end ScriptConsole
