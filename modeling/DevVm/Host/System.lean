import DevVm.Hypervisor.Tool
import DevVm.Files.Private
import DevVm.Host.Call

/-!
# What calls come down to on a computer

A request to the hypervisor is carried out by the hypervisor's tool, and a private file is
written step by step. `carryOut` gives, for each call, the program over the calls of a
computer that finds its reply.
-/

namespace DevVm

/-- The calls of a computer. -/
inductive SystemCall where
  | runner (c : RunnerCall)
  | file (c : FileCall)
  | ssh (c : SshCall)
  /-- Whether a program can be found. -/
  | isInstalled (program : String)
  | tell (text : String)
  | confirm (question : String)
deriving DecidableEq, Repr

/-- What they are answered with. -/
def SystemCall.Reply : SystemCall → Type
  | runner c => c.Reply
  | file c => Except Refusal c.Value
  | ssh c => Except SshError c.Value
  | isInstalled _ | confirm _ => Bool
  | tell _ => Unit

/-- The calls of a computer, as a signature. -/
def systemSignature : Signature := ⟨SystemCall, SystemCall.Reply⟩

/-- A task on a computer. -/
abbrev SystemTask (ε α : Type) := ExceptT ε (Program systemSignature) α

namespace SystemTask

variable {ε α : Type}

/-- One call. -/
def ask (c : SystemCall) : Program systemSignature c.Reply :=
  Program.ask (S := systemSignature) c

/-- A task that runs commands, on a computer. -/
def ofRunner (task : RunnerTask ε α) : SystemTask ε α :=
  ExceptT.mk (Program.refine (S := runnerSignature) (fun c => ask (.runner c)) (ExceptT.run task))

/-- A task that works with files, on a computer. -/
def ofFiles (task : FileTask α) : SystemTask FileError α :=
  ExceptT.mk (Program.refine (S := fileSignature) (fun c => ask (.file c)) (ExceptT.run task))

end SystemTask

/-- Runs a command that has to succeed. -/
def Command.succeed (command : Command) : RunnerTask CommandError Unit := do
  let reply ← RunnerTask.execute command
  let _ ← ExceptT.mk (pure (command.checked reply))

/-- The program that finds the reply to a call. -/
def Call.carryOut (tool : Hypervisor.Tool) : (c : Call) → Program systemSignature c.Reply
  | .hypervisor request => (SystemTask.ofRunner (tool.perform request)).run
  | .ssh request => SystemTask.ask (.ssh request)
  | .read path => (SystemTask.ofFiles (FileTask.read path)).run
  | .writePrivate path content => (SystemTask.ofFiles (FileTask.writePrivate path content)).run
  | .runProgram program args => (SystemTask.ofRunner (Command.succeed ⟨program, args⟩)).run
  | .tell text => do
    SystemTask.ask (.tell text)
    return .ok ()
  | .confirm question => do
    let accepted : Bool ← SystemTask.ask (.confirm question)
    return .ok accepted

/-- A task, carried out on a computer. -/
def Task.carryOut {ε α : Type} (tool : Hypervisor.Tool) (task : Task ε α) : SystemTask ε α :=
  ExceptT.mk (Program.refine (S := hostSignature) (fun c => c.call.carryOut tool)
    (ExceptT.run task))

end DevVm
