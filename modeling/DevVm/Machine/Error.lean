import DevVm.Hypervisor.Error
import DevVm.Files.Error
import DevVm.Ssh.Error

/-!
# What can go wrong with a machine

An operation on a machine fails because a call it made failed, because the machine has no
way to be reached, or because it was asked for an address that is none.
-/

namespace DevVm

/-- Why an operation on a machine failed. -/
inductive MachineError where
  | hypervisor (cause : HypervisorError)
  | ssh (cause : SshError)
  | files (cause : FileError)
  | missingForwardPort (name : String)
  | invalidIp (ip : String)
deriving DecidableEq, Repr

/-- The wording of an error. -/
def MachineError.message : MachineError → String
  | .hypervisor cause => cause.message
  | .ssh cause => cause.message
  | .files cause => cause.message
  | .missingForwardPort name => "VM " ++ name ++ " has no forwarded SSH port"
  | .invalidIp ip => "invalid IPv4 address: " ++ ip

end DevVm
