/-!
# JSON text

The compact form of an object whose members are texts or lists of texts, in the order
given and without blanks. Quote, backslash and control characters are escaped, the latter
by their short names where they have one; every other character stands for itself.
-/

namespace DevVm.Json

/-- What a member of an object holds. -/
inductive Value where
  | text (value : String)
  | texts (values : List String)
deriving DecidableEq, Repr

/-- A hexadecimal digit, in small letters. -/
def hexDigit (n : Nat) : Char := "0123456789abcdef".toList.getD n '0'

/-- One character of a string. -/
def writtenChar (c : Char) : List Char :=
  match c with
  | '"' => ['\\', '"']
  | '\\' => ['\\', '\\']
  | '\x08' => ['\\', 'b']
  | '\x0c' => ['\\', 'f']
  | '\n' => ['\\', 'n']
  | '\r' => ['\\', 'r']
  | '\t' => ['\\', 't']
  | c =>
    if c.toNat < 0x20 then ['\\', 'u', '0', '0', hexDigit (c.toNat / 16), hexDigit (c.toNat % 16)]
    else [c]

/-- A string. -/
def writtenText (text : String) : List Char := '"' :: text.toList.flatMap writtenChar ++ ['"']

/-- Texts with a comma between two neighbours. -/
def commaSeparated : List (List Char) → List Char
  | [] => []
  | [item] => item
  | item :: more => item ++ ',' :: commaSeparated more

/-- A member's value. -/
def Value.written : Value → List Char
  | .text value => writtenText value
  | .texts values => '[' :: commaSeparated (values.map writtenText) ++ [']']

/-- An object. -/
def writtenObject (members : List (String × Value)) : List Char :=
  let written := members.map fun (name, value) => writtenText name ++ ':' :: value.written
  '\x7b' :: commaSeparated written ++ ['\x7d']

end DevVm.Json
