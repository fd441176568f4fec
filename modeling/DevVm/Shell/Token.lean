/-!
# Shell tokens

How a POSIX shell reads a command line: words are parted by blanks, single quotes and a
backslash outside of them take what they cover literally, and an operator character that
is not quoted stands for itself. Adjacent quoted and unquoted parts make up one word.

A shell does more with a word in which certain characters stand unquoted: it puts something
else in their place, or leaves out what follows. A line with such a character is not read at
all, so what is read says just what it stands for.
-/

namespace DevVm.Shell

/-- A word with the quotes taken away, or an operator character. -/
inductive Token where
  | word (value : List Char)
  | operator (c : Char)
deriving DecidableEq, Repr

/-- The characters that part words. -/
def isSeparator (c : Char) : Bool := c = ' ' || c = '\t'

/-- The characters that end a word and stand for an operator. A line break ends a command as a
semicolon does. -/
def isOperator (c : Char) : Bool := ['|', '>', '<', '&', ';', '(', ')', '\n'].contains c

/-- The characters that are more than themselves where they stand unquoted: they begin an
expansion, a pattern, a comment, a group or quotes of the other kind. -/
def isActive (c : Char) : Bool :=
  ['"', '`', '$', '*', '?', '[', ']', '#', '~', '!', '\x7b', '\x7d'].contains c

/-- Where a reader of a command line stands: between words, inside one, or inside its
single quotes. -/
inductive Mode where
  | between
  | inWord (value : List Char)
  | inQuotes (value : List Char)
deriving DecidableEq, Repr

/-- The word in progress, as a token. -/
def Mode.finished : Mode → List Token
  | .between => []
  | .inWord value | .inQuotes value => [.word value]

/-- The value of the word in progress. -/
def Mode.value : Mode → List Char
  | .between => []
  | .inWord value | .inQuotes value => value

/-- The tokens of a command line, or nothing if a quote is left open, a backslash ends it or an
active character is not quoted. -/
def tokensFrom : Mode → List Char → Option (List Token)
  | .inQuotes _, [] => none
  | mode, [] => some mode.finished
  | .inQuotes value, c :: rest =>
    if c = '\x27' then tokensFrom (.inWord value) rest
    else tokensFrom (.inQuotes (value ++ [c])) rest
  -- A line break behind a backslash is no character, but goes on with the line.
  | mode, '\\' :: '\n' :: rest => tokensFrom mode rest
  | mode, '\\' :: c :: rest => tokensFrom (.inWord (mode.value ++ [c])) rest
  | mode, c :: rest =>
    if c = '\\' || isActive c then none
    else if c = '\x27' then tokensFrom (.inQuotes mode.value) rest
    else if isSeparator c then (tokensFrom .between rest).map (mode.finished ++ ·)
    else if isOperator c then
      (tokensFrom .between rest).map (mode.finished ++ .operator c :: ·)
    else tokensFrom (.inWord (mode.value ++ [c])) rest

/-- The tokens of a command line. -/
def tokens? (line : List Char) : Option (List Token) := tokensFrom .between line

end DevVm.Shell
