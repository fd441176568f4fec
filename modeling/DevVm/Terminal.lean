import DevVm.Text.Blank
import DevVm.Text.Lower
import DevVm.Text.Utf8

/-!
# The user's terminal

Lines are put on the terminal, and questions are answered by a line each. Anything but a
plain yes declines, and so does everything that keeps an answer from being read: the end of
the input, a line that is not well-formed text, a stream that fails.

A question that cannot be written takes nothing from the input.
-/

namespace DevVm

/-- A terminal: what the user still has typed ahead, what has been written so far, and
whether its streams fail. -/
structure Terminal where
  input : Bytes
  output : Bytes := []
  inputFails : Bool := false
  outputFails : Bool := false
deriving DecidableEq, Repr

namespace Terminal

/-- The type of terminal that a guest is told of, unless the environment names one. -/
def typeName (named : Option String) : String := named.getD "xterm-256color"

/-- The octet of a line feed. -/
def newline : UInt8 := 0x0A

/-- The first line of some input, with its line feed if it has one, and what follows. -/
def takeLine : Bytes → Bytes × Bytes
  | [] => ([], [])
  | b :: rest =>
    if b = newline then ([b], rest)
    else ((b :: (takeLine rest).1), (takeLine rest).2)

/-- Whether an answer is a yes. -/
def isYes (answer : String) : Bool :=
  let word := Text.lowerCase (Text.trim answer.toList)
  word = "y".toList || word = "yes".toList

/-- Whether a line of input is a yes. -/
def accepts (line : Bytes) : Bool :=
  match Text.Utf8.decode? line with
  | some answer => isYes answer
  | none => false

/-- The terminal after some octets were written, unless writing fails. -/
def write (octets : Bytes) (t : Terminal) : Terminal :=
  if t.outputFails then t else { t with output := t.output ++ octets }

/-- The terminal after a line was put on it. -/
def tell (text : String) (t : Terminal) : Terminal :=
  t.write (Text.Utf8.encode text ++ [newline])

/-- A question's answer, and the terminal after it. -/
def confirm (question : String) (t : Terminal) : Bool × Terminal :=
  if t.outputFails then (false, t)
  else
    let t := t.write (Text.Utf8.encode question)
    if t.inputFails then (false, t)
    else
      let (line, rest) := takeLine t.input
      (accepts line, { t with input := rest })

end Terminal

end DevVm
