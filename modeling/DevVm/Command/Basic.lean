import DevVm.Command.Error
import DevVm.Duration
import DevVm.Program
import DevVm.Text.Field
import DevVm.Text.Utf8

/-!
# Commands on the host

A command is a program with its arguments. Running one gives an `Output`, or nothing when
the program could not be started; `outcome`, `checked` and `text` are the three ways of
reading that, from the least demanding one to the text of a success.

Whoever runs commands may also look at the clock and wait. These are the calls of
`runnerSignature`.
-/

namespace DevVm

/-- A program with its arguments. -/
structure Command where
  program : String
  args : List String
deriving DecidableEq, Repr

/-- What a program that was run left behind. -/
structure Output where
  status : ExitStatus := .exited 0
  out : Bytes := []
  err : Bytes := []
deriving DecidableEq, Repr

namespace Command

/-- Whether a word can be handed to a program, for which a NUL ends it. -/
def isPassable (word : String) : Bool := !word.toList.contains '\x00'

/-- A word as messages show it. -/
def shownWord (word : String) : String :=
  if isPassable word then word else "<string-with-nul>"

/-- Whether there can be a program that is run like this. -/
def canStart (c : Command) : Bool := (c.program :: c.args).all isPassable

/-- A command as text, for messages only: arguments are separated by blanks and not
quoted. -/
def shown (c : Command) : String :=
  match Text.joinWith [' '] (c.args.map fun word => (shownWord word).toList) with
  | [] => shownWord c.program
  | args => shownWord c.program ++ " " ++ String.ofList args

/-- A command has to be started. -/
def outcome (c : Command) : Option Output → Except CommandError Output
  | some output => .ok output
  | none => .error (.notStarted c.shown)

/-- A command has to succeed. -/
def checked (c : Command) (reply : Option Output) : Except CommandError Output := do
  let output ← c.outcome reply
  if output.status.isSuccess then return output
  throw (.unsuccessful c.shown output.status (Text.Utf8.decodeLossy output.err))

/-- The text a command that has to succeed wrote. -/
def text (c : Command) (reply : Option Output) : Except CommandError String :=
  (c.checked reply).map fun output => Text.Utf8.decodeLossy output.out

end Command

/-- What whoever runs commands may ask for. Times count from some point in the past. -/
inductive RunnerCall where
  | run (command : Command)
  | now
  | sleep (length : Duration)
deriving DecidableEq, Repr

/-- What it is answered with. -/
def RunnerCall.Reply : RunnerCall → Type
  | run _ => Option Output
  | now => Duration
  | sleep _ => Unit

/-- The calls of running commands. -/
def runnerSignature : Signature := ⟨RunnerCall, RunnerCall.Reply⟩

/-- A task that runs commands. -/
abbrev RunnerTask (ε α : Type) := ExceptT ε (Program runnerSignature) α

namespace RunnerTask

variable {ε : Type}

/-- Runs a command. -/
def execute (command : Command) : RunnerTask ε (Option Output) :=
  ExceptT.lift (Program.ask (S := runnerSignature) (.run command))

/-- Looks at the clock. -/
def now : RunnerTask ε Duration :=
  ExceptT.lift (Program.ask (S := runnerSignature) .now)

/-- Waits. -/
def sleep (length : Duration) : RunnerTask ε Unit :=
  ExceptT.lift (Program.ask (S := runnerSignature) (.sleep length))

end RunnerTask

end DevVm
