import ScriptConsole.Text.Printable

/-!
# Quoted Texts

The form in which a text or a character is shown between quotes: NUL, tab, carriage return,
newline, the backslash and the delimiter are written with a backslash, a character that cannot be
shown as itself by its code point in hexadecimal between `\u{` and `}`, and every other character
as itself.

Which characters count as "cannot be shown" is a parameter of the general form (`Quoted.write`);
`quotedText` and `quotedChar` take it from the tables of `ScriptConsole.Text.Printable`.
-/

namespace ScriptConsole.Text

namespace Quoted

/-- The code point of a character, in lower-case hexadecimal without padding. -/
def codePoint (c : Char) : List Char :=
  ['\\', 'u', '\x7b'] ++ Nat.toDigits 16 c.toNat ++ ['\x7d']

/-- The written form of one character between two delimiters. The characters with an escape of
their own come first, so that `hidden` is asked about the others only. -/
def writeChar (hidden : Char → Bool) (delimiter c : Char) : List Char :=
  if c = '\x00' then ['\\', '0']
  else if c = '\t' then ['\\', 't']
  else if c = '\r' then ['\\', 'r']
  else if c = '\n' then ['\\', 'n']
  else if c = '\\' then ['\\', '\\']
  else if c = delimiter then ['\\', delimiter]
  else if hidden c then codePoint c
  else [c]

/-- The written form of a text: its characters one by one, between two delimiters. -/
def write (hidden : Char → Bool) (delimiter : Char) (text : List Char) : List Char :=
  delimiter :: text.flatMap (writeChar hidden delimiter) ++ [delimiter]

/-- A character with no escape that can be shown is written as itself. -/
theorem writeChar_plain {hidden : Char → Bool} {d c : Char} (shown : hidden c = false)
    (nul : c ≠ '\x00') (tab : c ≠ '\t') (cr : c ≠ '\r') (nl : c ≠ '\n') (slash : c ≠ '\\')
    (delim : c ≠ d) : writeChar hidden d c = [c] := by
  simp [writeChar, *]

end Quoted

/-- A text between double quotes. -/
def quotedText (s : String) : String :=
  String.ofList (Quoted.write needsCodePoint '"' s.toList)

/-- A character between single quotes. -/
def quotedChar (c : Char) : String :=
  String.ofList (Quoted.write needsCodePoint '\'' [c])

end ScriptConsole.Text
