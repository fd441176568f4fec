/-!
# Shell quoting

`quote` turns any text into one word of a POSIX shell command line. Text of plain
characters alone stays as it is. Everything else goes between single quotes, where a
shell takes every character literally; only the single quote itself and the exclamation
mark, which interactive shells expand even there, are put behind a backslash outside of
the quotes.
-/

namespace DevVm.Shell

/-- The characters that no shell gives a meaning of its own. -/
def isPlain (c : Char) : Bool :=
  c.isAlphanum || ['-', '_', '=', '/', ',', '.', '+'].contains c

/-- One character between single quotes. -/
def quotedChar (c : Char) : List Char :=
  if c = '\x27' ∨ c = '!' then ['\x27', '\\', c, '\x27'] else [c]

/-- A text between single quotes. -/
def quoted (text : List Char) : List Char :=
  '\x27' :: text.flatMap quotedChar ++ ['\x27']

/-- The word of a command line whose value is the text. -/
def quoteChars (text : List Char) : List Char :=
  if text ≠ [] ∧ text.all isPlain then text else quoted text

/-- The word of a command line whose value is the text. -/
def quote (text : String) : String := String.ofList (quoteChars text.toList)

end DevVm.Shell
