import DevVm.Machine.Error

/-!
# What can go wrong with a command of the user

A command is refused because of what was asked for, or it fails at some stage because a
call failed. `VmError.fault?` is the failed call's own error, however deep it sits.
-/

namespace DevVm

/-- The stages a failure is attributed to. -/
inductive Stage where
  | start
  | stop
  | suspend
  | resume
  | importing
  | provision
  | trust
  | target
  | collectLogs
deriving DecidableEq, Repr

/-- What a stage was about to do. -/
def Stage.purpose : Stage → String
  | .start => "start VM"
  | .stop => "stop VM"
  | .suspend => "suspend VM"
  | .resume => "resume VM"
  | .importing => "import VM"
  | .provision => "provision VM"
  | .trust => "trust VM certificates"
  | .target => "target PCF Dev"
  | .collectLogs => "retrieve logs"

/-- The properties of a VM that are settled once it has been created. -/
inductive Fixed where
  | memory
  | cores
  | services
  | domain
  | ip
  | registries
deriving DecidableEq, Repr

/-- Why a command of the user did not succeed. -/
inductive VmError where
  | during (stage : Stage) (cause : VmError)
  | changed (property : Fixed)
  | insufficientMemory (requested minimum : UInt64)
  | declined
  | oldVmPresent
  | machine (cause : MachineError)
  | ssh (cause : SshError)
  | files (cause : FileError)
  | command (cause : CommandError)
deriving DecidableEq, Repr

/-- The refusal to change a settled property. -/
def Fixed.refusal : Fixed → String
  | .memory => "memory cannot be changed once the vm has been created"
  | .cores => "cores cannot be changed once the vm has been created"
  | .services => "services cannot be changed once the vm has been created"
  | .domain => "the -d flag cannot be used if the VM has already been created"
  | .ip => "the -i flag cannot be used if the VM has already been created"
  | .registries => "private registries cannot be changed once the vm has been created"

/-- The wording of an error. -/
def VmError.message : VmError → String
  | .during stage cause => "failed to " ++ stage.purpose ++ ": " ++ cause.message
  | .changed property => property.refusal
  | .insufficientMemory requested minimum =>
    "PCF Dev requires at least " ++ Text.decimal minimum.toNat ++ " MB of memory to run, "
      ++ Text.decimal requested.toNat ++ " MB requested"
  | .declined => "user declined to continue, exiting"
  | .oldVmPresent =>
    "Old version of PCF Dev detected. You must run `pcfdev destroy` to continue."
  | .machine cause => cause.message
  | .ssh cause => cause.message
  | .files cause => cause.message
  | .command cause => cause.message

/-- The error of a call that failed. -/
inductive Fault where
  | hypervisor (cause : HypervisorError)
  | ssh (cause : SshError)
  | files (cause : FileError)
  | command (cause : CommandError)
deriving DecidableEq, Repr

/-- The failed call's error in a machine's error, if a failed call is what it comes from. -/
def MachineError.fault? : MachineError → Option Fault
  | .hypervisor cause => some (.hypervisor cause)
  | .ssh cause => some (.ssh cause)
  | .files cause => some (.files cause)
  | .missingForwardPort _ | .invalidIp _ => none

/-- The innermost cause of an error, if a failed call is what it comes from. -/
def VmError.fault? : VmError → Option Fault
  | .during _ cause => cause.fault?
  | .machine cause => cause.fault?
  | .ssh cause => some (.ssh cause)
  | .files cause => some (.files cause)
  | .command cause => some (.command cause)
  | .changed _ | .insufficientMemory _ _ | .declined | .oldVmPresent => none

/-- How many stages an error is attributed to. -/
def VmError.stages : VmError → List Stage
  | .during stage cause => stage :: cause.stages
  | _ => []

end DevVm
