import DevVm.Machine.Operations

/-!
# The states of the VM

The VM is in one of five states: not created, stopped, saved, or running, and a running
guest is either provisioned or not. `Vm.select` finds out which one it is by asking the
hypervisor, and for a running VM the guest. It only looks and changes nothing.

A guest counts as provisioned if its health check passes. Without the private key there is
no way to tell, so it counts as not provisioned; neither failure is an error.
-/

namespace DevVm

/-- The states the VM can be in. -/
inductive Phase where
  | notCreated
  | stopped
  | saved
  | unprovisioned
  | running
deriving DecidableEq, Repr

/-- The VM in one of its states. If it is not created, the configuration is the one a
fresh import would use. -/
structure Vm where
  phase : Phase
  profile : VmProfile
deriving DecidableEq, Repr

/-- The status shown to the user. A guest that is not provisioned is running all the
same. -/
def Phase.status : Phase → String
  | .notCreated => "Not created"
  | .stopped => "Stopped"
  | .saved => "Suspended"
  | .unprovisioned | .running => "Running"

/-- How long to dial a guest that is up. -/
def sshLimit : Duration := .ofSeconds 300

/-- How long to dial a guest only to see how it is. -/
def healthLimit : Duration := .ofSeconds 30

/-- The error of an operation on a machine, as part of a stage. -/
def VmError.ofMachine (stage : Stage) (e : MachineError) : VmError := .during stage (.machine e)

namespace Vm

/-- The private key that opens the guest. -/
def readKey (settings : Settings) (wrap : FileError → VmError) : Task VmError Bytes :=
  Task.need (.read settings.privateKeyPath) wrap

/-- Whether a running guest has been provisioned, as far as can be told. -/
def answersHealthy (settings : Settings) (vm : VmProfile) : Task VmError Bool := do
  let read : Except FileError Bytes ← Task.attempt (.read settings.privateKeyPath)
  match read with
  | .error _ => return false
  | .ok key =>
    let checked : Except SshError String ←
      Task.attempt (.ssh (.capture .checkHealth vm.endpoints key healthLimit))
    return checked.isOk

/-- The VM of a name, in the state it is in now. -/
def select (settings : Settings) (name : String) : Task VmError Vm := do
  match ← (Machine.status name).mapError .machine with
  | .notCreated =>
    return ⟨.notCreated, { VmProfile.planned settings none none none none with name }⟩
  | .stopped =>
    let vm ← (Machine.describe name).mapError .machine
    let saved ← (Machine.isSuspended name).mapError .machine
    return ⟨if saved then .saved else .stopped, vm⟩
  | .running =>
    let vm ← (Machine.describe name).mapError .machine
    let provisioned ← answersHealthy settings vm
    return ⟨if provisioned then .running else .unprovisioned, vm⟩

end Vm

end DevVm
