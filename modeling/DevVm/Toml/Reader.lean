import DevVm.Text.Decimal

/-!
# Flat TOML documents

A settings file is a TOML document of simple keys with texts and whole numbers. `entries?`
reads exactly those: every key, text and integer form of the format is understood, and a
document that holds anything else (tables, arrays, floats, truth values, dates, dotted
keys) or that is not well formed is refused, since no setting takes such a value.

Every reader takes what it needs off the front of the text and hands back the rest.
-/

namespace DevVm.Toml

/-- The values a setting may have. -/
inductive Value where
  | text (value : String)
  | integer (value : Int)
deriving DecidableEq, Repr

/-- Blanks within a line. -/
def isBlank (c : Char) : Bool := c = ' ' || c = '\t'

/-- Characters a comment may hold, and a text, apart from what delimits it. -/
def isContent (c : Char) : Bool := c = '\t' || (0x20 ≤ c.toNat && c.toNat ≠ 0x7F)

/-- Characters of a key without quotes. -/
def isBareKey (c : Char) : Bool := c.isAlphanum || c = '_' || c = '-'

/-- The text after the blanks it starts with. -/
def skipBlanks (text : List Char) : List Char := text.dropWhile isBlank

/-- The text after a line break. -/
def newline? : List Char → Option (List Char)
  | '\n' :: rest => some rest
  | '\r' :: '\n' :: rest => some rest
  | _ => none

/-- The text after the end of a line: blanks, at most a comment, and a line break unless
the document ends there. -/
def endOfLine? (text : List Char) : Option (List Char) :=
  let rest := match skipBlanks text with
    | '#' :: comment => comment.dropWhile isContent
    | rest => rest
  if rest.isEmpty then some [] else newline? rest

/-- The value of a hexadecimal digit. -/
def hexValue? (c : Char) : Option Nat :=
  if '0' ≤ c ∧ c ≤ '9' then some (c.toNat - '0'.toNat)
  else if 'a' ≤ c ∧ c ≤ 'f' then some (c.toNat - 'a'.toNat + 10)
  else if 'A' ≤ c ∧ c ≤ 'F' then some (c.toNat - 'A'.toNat + 10)
  else none

/-- The character with a code point written in hexadecimal digits; surrogates and numbers
beyond the last code point have none. -/
def codePoint? (digits : List Char) : Option Char := do
  let n ← digits.foldlM (fun acc c => (hexValue? c).map (16 * acc + ·)) 0
  if n.isValidChar then some (Char.ofNat n)
  else none

/-- The character a short escape stands for. -/
def shortEscape? : Char → Option Char
  | 'b' => some '\x08'
  | 't' => some '\t'
  | 'n' => some '\n'
  | 'f' => some '\x0c'
  | 'r' => some '\r'
  | 'e' => some '\x1b'
  | '"' => some '"'
  | '\\' => some '\\'
  | _ => none

/-- A character put in front of what was read. -/
def push (c : Char) (read : Option (List Char × List Char)) : Option (List Char × List Char) :=
  read.map fun (value, rest) => (c :: value, rest)

/-- The rest of a text between double quotes. With `multi` it may hold line breaks and ends
at three quotes, of which up to two more may belong to the text. -/
def basicText? (multi : Bool) : List Char → Option (List Char × List Char)
  | [] => none
  | '\\' :: 'x' :: a :: b :: rest => do
    push (← codePoint? [a, b]) (basicText? multi rest)
  | '\\' :: 'u' :: a :: b :: c :: d :: rest => do
    push (← codePoint? [a, b, c, d]) (basicText? multi rest)
  | '\\' :: 'U' :: a :: b :: c :: d :: e :: f :: g :: h :: rest => do
    push (← codePoint? [a, b, c, d, e, f, g, h]) (basicText? multi rest)
  | '\\' :: c :: rest =>
    match shortEscape? c with
    | some e => push e (basicText? multi rest)
    | none => if multi then continuation? (c :: rest) else none
  | '"' :: rest =>
    if !multi then some ([], rest)
    else match rest with
      | '"' :: '"' :: rest =>
        match rest with
        | '"' :: '"' :: rest => some (['"', '"'], rest)
        | '"' :: rest => some (['"'], rest)
        | rest => some ([], rest)
      | rest => push '"' (basicText? multi rest)
  | '\r' :: '\n' :: rest => if multi then push '\r' (push '\n' (basicText? multi rest)) else none
  | '\n' :: rest => if multi then push '\n' (basicText? multi rest) else none
  | c :: rest => if isContent c && c ≠ '\\' then push c (basicText? multi rest) else none
where
  /-- A backslash at the end of a line takes away the line break and all the white space up
  to the next character. -/
  continuation? : List Char → Option (List Char × List Char)
    | [] => none
    | ' ' :: rest | '\t' :: rest => continuation? rest
    | '\n' :: rest => gap? rest
    | '\r' :: '\n' :: rest => gap? rest
    | _ => none
  /-- The white space after a backslash at the end of a line. -/
  gap? : List Char → Option (List Char × List Char)
    | ' ' :: rest | '\t' :: rest | '\n' :: rest => gap? rest
    | '\r' :: '\n' :: rest => gap? rest
    | rest => basicText? true rest

/-- The rest of a text between single quotes, where nothing is escaped. With `multi` it may
hold line breaks and ends at three quotes, of which up to two more may belong to the
text. -/
def literalText? (multi : Bool) : List Char → Option (List Char × List Char)
  | [] => none
  | '\x27' :: rest =>
    if !multi then some ([], rest)
    else match rest with
      | '\x27' :: '\x27' :: rest =>
        match rest with
        | '\x27' :: '\x27' :: rest => some (['\x27', '\x27'], rest)
        | '\x27' :: rest => some (['\x27'], rest)
        | rest => some ([], rest)
      | rest => push '\x27' (literalText? multi rest)
  | '\r' :: '\n' :: rest =>
    if multi then push '\r' (push '\n' (literalText? multi rest)) else none
  | '\n' :: rest => if multi then push '\n' (literalText? multi rest) else none
  | c :: rest => if isContent c then push c (literalText? multi rest) else none

/-- A text in any of the four forms. A line break right after three opening quotes is not
part of the text. -/
def text? : List Char → Option (List Char × List Char)
  | '"' :: '"' :: '"' :: rest => basicText? true ((newline? rest).getD rest)
  | '\x27' :: '\x27' :: '\x27' :: rest => literalText? true ((newline? rest).getD rest)
  | '"' :: rest => basicText? false rest
  | '\x27' :: rest => literalText? false rest
  | _ => none

/-- Digits of a base, where an underscore may stand between two of them. -/
def digits? (base : Nat) : List Char → Option Nat
  | [] => none
  | c :: rest => do readOn (← digit? c) rest
where
  /-- The value of a digit of the base. -/
  digit? (c : Char) : Option Nat := (hexValue? c).filter (· < base)
  /-- The digits after the first one. -/
  readOn (acc : Nat) : List Char → Option Nat
    | [] => some acc
    | '_' :: c :: rest => do readOn (base * acc + (← digit? c)) rest
    | c :: rest => do readOn (base * acc + (← digit? c)) rest

/-- A decimal number, without leading zeros. -/
def decimal? : List Char → Option Nat
  | '0' :: _ :: _ => none
  | text => digits? 10 text

/-- A whole number: decimal with or without a sign, or in base 16, 8 or 2 without one. -/
def integer? : List Char → Option Int
  | '0' :: 'x' :: rest => (digits? 16 rest).map Int.ofNat
  | '0' :: 'o' :: rest => (digits? 8 rest).map Int.ofNat
  | '0' :: 'b' :: rest => (digits? 2 rest).map Int.ofNat
  | '+' :: rest => (decimal? rest).map Int.ofNat
  | '-' :: rest => (decimal? rest).map fun n => -Int.ofNat n
  | text => (decimal? text).map Int.ofNat

/-- Characters that may belong to a number. -/
def isNumberPart (c : Char) : Bool := isBareKey c || c = '+' || c = '.' || c = ':'

/-- A value. -/
def value? (source : List Char) : Option (Value × List Char) :=
  match source with
  | '"' :: _ | '\x27' :: _ => (text? source).map fun (t, rest) => (.text (String.ofList t), rest)
  | _ =>
    (integer? (source.takeWhile isNumberPart)).map fun n =>
      (.integer n, source.dropWhile isNumberPart)

/-- A key, without or within quotes on one line. -/
def key? (source : List Char) : Option (String × List Char) :=
  match source with
  | '"' :: rest => (basicText? false rest).map fun (k, rest) => (String.ofList k, rest)
  | '\x27' :: rest => (literalText? false rest).map fun (k, rest) => (String.ofList k, rest)
  | _ =>
    let key := source.takeWhile isBareKey
    if key.isEmpty then none else some (String.ofList key, source.dropWhile isBareKey)

/-- A key, an equals sign and a value, to the end of the line. -/
def entry? (source : List Char) : Option ((String × Value) × List Char) := do
  let (key, rest) ← key? source
  match skipBlanks rest with
  | '=' :: rest =>
    let (value, rest) ← value? (skipBlanks rest)
    return ((key, value), ← endOfLine? rest)
  | _ => none

/-- The entries of a document, as long as there are lines; `allowance` bounds their
number. -/
def entriesWithin? : (allowance : Nat) → List Char → Option (List (String × Value))
  | 0, _ => none
  | allowance + 1, source =>
    let source := skipBlanks source
    if source.isEmpty then some []
    else match endOfLine? source with
      | some rest => entriesWithin? allowance rest
      | none => do
        let (entry, rest) ← entry? source
        return entry :: (← entriesWithin? allowance rest)

/-- The entries of a document in order, a byte order mark in front of it set aside. A key
that occurs twice makes the document ill-formed. -/
def entries? (document : String) : Option (List (String × Value)) := do
  let source := match document.toList with
    | '\uFEFF' :: rest => rest
    | source => source
  let entries ← entriesWithin? (source.length + 1) source
  if (entries.map Prod.fst).Nodup then some entries else none

end DevVm.Toml
