import DevVm.Command.Basic
import DevVm.World.Replies

/-!
# Programs that follow a script

A script says which programs are installed and what their command lines are answered with.
A command line without a rule writes nothing and succeeds. Time stands still while a
program runs, and a pause takes exactly its length.
-/

namespace DevVm.World

/-- A rule for one command line. -/
structure ScriptRule where
  command : Command
  replies : List Output
deriving DecidableEq, Repr

/-- A script, and the time on its clock. -/
structure Script where
  installed : List String
  rules : List ScriptRule := []
  time : Duration := ⟨0⟩
deriving DecidableEq, Repr

namespace Script

/-- The first rule for a command, with the rules once it has answered. -/
def pick? (command : Command) : List ScriptRule → Option (Output × List ScriptRule)
  | [] => none
  | rule :: more =>
    if rule.command = command then
      rule.replies.head?.map fun output =>
        (output, { rule with replies := Replies.advance rule.replies } :: more)
    else (pick? command more).map fun (output, rest) => (output, rule :: rest)

/-- What a command is answered with, and the script after it. -/
def run (command : Command) (s : Script) : Option Output × Script :=
  if command.program ∈ s.installed ∧ command.canStart then
    match pick? command s.rules with
    | some (output, rules) => (some output, { s with rules })
    | none => (some {}, s)
  else (none, s)

/-- What whoever runs commands is answered with. -/
def answer : (c : RunnerCall) → Script → c.Reply × Script
  | .run command, s => s.run command
  | .now, s => (s.time, s)
  | .sleep length, s => ((), { s with time := ⟨s.time.nanos + length.nanos⟩ })

/-- A script as the host of tasks that run commands. -/
def host : Host runnerSignature Script := ⟨answer⟩

end Script

end DevVm.World
