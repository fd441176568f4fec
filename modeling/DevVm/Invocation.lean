import DevVm.UserCommand
import DevVm.Host.System

/-!
# One invocation of the program

The settings are read first, then the hypervisor's tool is looked for, and only then the
command is carried out. An invocation fails for want of any of the three.
-/

namespace DevVm

/-- Why an invocation failed. -/
inductive InvocationError where
  | settings (cause : SettingsError)
  | hypervisor (cause : HypervisorError)
  | vm (cause : VmError)
deriving DecidableEq, Repr

/-- The wording of an error. -/
def InvocationError.message : InvocationError → String
  | settings cause => cause.message
  | hypervisor cause => cause.message
  | vm cause => cause.message

namespace Invocation

/-- How often a start may be handed on from state to state. -/
def handOffs : Nat := 1000

/-- What reading the settings file came to. -/
def settingsReply : Except Refusal Bytes → Settings.FileReply
  | .ok octets => .content octets
  | .error .notFound => .missing
  | .error refusal => .failed refusal.reason

/-- Reads the settings. -/
def readSettings (env : Environment) (freeMemory : UInt64) : SystemTask SettingsError Settings := do
  let baseDir ← ExceptT.mk (pure env.baseDir)
  let reply : Except Refusal Bytes ←
    ExceptT.lift (SystemTask.ask (.file (.read (Settings.filePath baseDir))))
  ExceptT.mk (pure (Settings.gather env freeMemory fun _ => settingsReply reply))

/-- Finds the hypervisor's tool. -/
def findTool : SystemTask HypervisorError Hypervisor.Tool := do
  let tool : Hypervisor.Tool := {}
  let found : Bool ← ExceptT.lift (SystemTask.ask (.isInstalled tool.program))
  if !found then throw (.missingExecutable "cannot find binary path")
  return tool

/-- Carries out a command. `stdin` is what the user types into a shell. -/
def perform (env : Environment) (freeMemory : UInt64) (stdin : Bytes) (command : UserCommand) :
    SystemTask InvocationError Unit := do
  let settings ← (readSettings env freeMemory).adapt .settings
  let tool ← findTool.adapt .hypervisor
  ((UserCommand.perform settings handOffs stdin command).carryOut tool).adapt .vm

end Invocation

end DevVm
