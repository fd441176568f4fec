import DevVm.Json.Writer

/-!
# Reading JSON text

What a reader makes of a JSON text that is an object whose members are texts or lists of texts:
the members in the order in which they stand. Blanks between tokens do not matter, and a string
may spell any character by an escape. A text that is anything else, or no JSON at all, is not
read.

A text is read in two passes. The first one finds its tokens, and the second one goes from token
to token, so that each pass follows its list.
-/

namespace DevVm.Json

/-! ## Tokens -/

/-- A string with its escapes taken away, or a mark of the grammar. -/
inductive Token where
  | text (value : String)
  | mark (c : Char)
deriving DecidableEq, Repr

/-- The blanks that may stand between tokens. -/
def isBlank (c : Char) : Bool := c = ' ' || c = '\t' || c = '\n' || c = '\r'

/-- The marks of the grammar. -/
def isMark (c : Char) : Bool := ['\x7b', '\x7d', '[', ']', ':', ','].contains c

/-- The character that a backslash and a letter stand for. -/
def shortEscape? : Char → Option Char
  | '"' => some '"'
  | '\\' => some '\\'
  | '/' => some '/'
  | 'b' => some '\x08'
  | 'f' => some '\x0c'
  | 'n' => some '\n'
  | 'r' => some '\r'
  | 't' => some '\t'
  | _ => none

/-- The value of a hexadecimal digit, in small or capital letters. -/
def hexValue? (c : Char) : Option Nat :=
  if '0' ≤ c ∧ c ≤ '9' then some (c.toNat - '0'.toNat)
  else if 'a' ≤ c ∧ c ≤ 'f' then some (c.toNat - 'a'.toNat + 10)
  else if 'A' ≤ c ∧ c ≤ 'F' then some (c.toNat - 'A'.toNat + 10)
  else none

/-- The number that four hexadecimal digits spell. -/
def unit? (a b c d : Char) : Option Nat := do
  return (((← hexValue? a) * 16 + (← hexValue? b)) * 16 + (← hexValue? c)) * 16 + (← hexValue? d)

/-- Numbers that are no character, but begin a pair that is one. -/
def isLead (unit : Nat) : Bool := 0xD800 ≤ unit && unit ≤ 0xDBFF

/-- Numbers that are no character, but end such a pair. -/
def isTrail (unit : Nat) : Bool := 0xDC00 ≤ unit && unit ≤ 0xDFFF

/-- The character of a pair. -/
def paired (lead trail : Nat) : Char :=
  Char.ofNat (0x10000 + (lead - 0xD800) * 0x400 + (trail - 0xDC00))

/-- Where a reader stands: between tokens, inside a string, or inside one and within a pair. -/
inductive Mode where
  | between
  | inText (value : List Char)
  | inPair (value : List Char) (lead : Nat)
deriving DecidableEq, Repr

/-- The tokens of a text, or nothing if there is something else in it. -/
def tokensFrom : Mode → List Char → Option (List Token)
  | .between, [] => some []
  | .between, c :: rest =>
    if c = '"' then tokensFrom (.inText []) rest
    else if isBlank c then tokensFrom .between rest
    else if isMark c then (tokensFrom .between rest).map (.mark c :: ·)
    else none
  | .inText value, '\\' :: 'u' :: a :: b :: c :: d :: rest =>
    match unit? a b c d with
    | some unit =>
      if isLead unit then tokensFrom (.inPair value unit) rest
      else if isTrail unit then none
      else tokensFrom (.inText (value ++ [Char.ofNat unit])) rest
    | none => none
  | .inText value, '\\' :: c :: rest =>
    match shortEscape? c with
    | some c => tokensFrom (.inText (value ++ [c])) rest
    | none => none
  | .inText value, c :: rest =>
    if c = '"' then (tokensFrom .between rest).map (.text (String.ofList value) :: ·)
    else if c = '\\' ∨ c.toNat < 0x20 then none
    else tokensFrom (.inText (value ++ [c])) rest
  | .inPair value lead, '\\' :: 'u' :: a :: b :: c :: d :: rest =>
    match unit? a b c d with
    | some trail =>
      if isTrail trail then tokensFrom (.inText (value ++ [paired lead trail])) rest else none
    | none => none
  | .inText _, [] | .inPair _ _, _ => none

/-! ## Objects -/

/-- Members of an object, in the order in which they stand. -/
abbrev Members : Type := List (String × Value)

/-- How far an object has been read: the members so far, and what has been read of the next one. -/
inductive Progress where
  | begun
  /-- After the opening brace. -/
  | opened
  /-- After a comma between members. -/
  | wanting (members : Members)
  | named (members : Members) (name : String)
  /-- After a name and its colon. -/
  | assigned (members : Members) (name : String)
  /-- After the opening bracket of a list. -/
  | listing (members : Members) (name : String)
  /-- After a comma between items. -/
  | wantingItem (members : Members) (name : String) (items : List String)
  | listed (members : Members) (name : String) (items : List String)
  | complete (members : Members)
  /-- After the closing brace. -/
  | closed (members : Members)
deriving DecidableEq, Repr

/-- How one more token takes the reader on, if it may stand there. -/
def Progress.step : Progress → Token → Option Progress
  | begun, .mark '\x7b' => some opened
  | opened, .mark '\x7d' => some (closed [])
  | opened, .text name => some (named [] name)
  | wanting members, .text name => some (named members name)
  | named members name, .mark ':' => some (assigned members name)
  | assigned members name, .text value => some (complete (members ++ [(name, .text value)]))
  | assigned members name, .mark '[' => some (listing members name)
  | listing members name, .mark ']' => some (complete (members ++ [(name, .texts [])]))
  | listing members name, .text item => some (listed members name [item])
  | wantingItem members name items, .text item => some (listed members name (items ++ [item]))
  | listed members name items, .mark ',' => some (wantingItem members name items)
  | listed members name items, .mark ']' => some (complete (members ++ [(name, .texts items)]))
  | complete members, .mark ',' => some (wanting members)
  | complete members, .mark '\x7d' => some (closed members)
  | _, _ => none

/-- The members of an object that has been read to its end. -/
def Progress.members? : Progress → Option Members
  | closed members => some members
  | _ => none

/-- The members of the object that a text spells, if it spells one. -/
def read? (text : List Char) : Option Members := do
  let tokens ← tokensFrom .between text
  let reached ← tokens.foldlM Progress.step .begun
  reached.members?

end DevVm.Json
