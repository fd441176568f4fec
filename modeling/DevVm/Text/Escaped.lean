import DevVm.Text.Unprintable
import DevVm.Text.Combining

/-!
# Text shown with escapes

`escaped` writes a text between double quotes on one line that shows every character for
what it is: backslash and quote behind a backslash, the usual letters for tab and line
breaks, and the code point in braces for every character that has no shape of its own or
would merge with the character before it.
-/

namespace DevVm.Text

/-- Membership in a set given by an inversion list: an odd number of its bounds lie at or
below the code point. -/
def inInversionList (bounds : List Nat) (c : Char) : Bool :=
  (bounds.takeWhile (· ≤ c.toNat)).length % 2 == 1

/-- Whether a character can be shown as it is. -/
def isShown (c : Char) : Bool :=
  !inInversionList unprintableBounds c && !inInversionList combiningBounds c

/-- The code point of a character, between braces behind `\u`. -/
def codePointEscape (c : Char) : List Char :=
  ['\\', 'u', '\x7b'] ++ Nat.toDigits 16 c.toNat ++ ['\x7d']

/-- One character of an escaped text. -/
def escapedChar (c : Char) : List Char :=
  match c with
  | '\x00' => ['\\', '0']
  | '\t' => ['\\', 't']
  | '\r' => ['\\', 'r']
  | '\n' => ['\\', 'n']
  | '\\' => ['\\', '\\']
  | '"' => ['\\', '"']
  | c => if isShown c then [c] else codePointEscape c

/-- A text between double quotes, with escapes. -/
def escaped (text : String) : String :=
  String.ofList ('"' :: text.toList.flatMap escapedChar ++ ['"'])

end DevVm.Text
