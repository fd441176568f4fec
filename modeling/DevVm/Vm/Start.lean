import DevVm.Vm.State

/-!
# Starting the VM

What a start does depends on the state the VM is in, and it may take several steps: a VM
that is not there is imported and then booted, and a booted VM is looked at again, to be
provisioned through whatever state it turns out to be in. `Vm.startStep` is the part of
one state, which either finishes the start or hands it on with options; `Vm.start`
follows the hand-offs.

Whether a start can succeed at all is settled by `Vm.verify` before anything is changed.
-/

namespace DevVm.Vm

/-- The VM that an import on request would make. -/
def requested (settings : Settings) (vm : Vm) (opts : StartOptions) : VmProfile :=
  { VmProfile.planned settings opts.memory opts.cpus (StartOptions.asked? opts.ip)
      (StartOptions.asked? opts.domain) with
    name := vm.profile.name }

/-- The question asked when the host is short of memory. -/
def memoryQuestion (memory : UInt64) : String :=
  "Less than " ++ Text.decimal memory.toNat ++ " MB of free memory detected, continue (y/N): "

/-- Lets the user decide if the host has less free memory than the VM takes. -/
def confirmMemory (settings : Settings) (memory : UInt64) : Task VmError Unit := do
  if settings.freeMemory < memory then
    let accepted ← Task.confirm (memoryQuestion memory)
    if !accepted then throw .declined

/-- Whether the VM can be started with these options: refuses to change a VM that is
there, to import one beside another one, and to make one too small to work. -/
def verify (settings : Settings) (vm : Vm) (opts : StartOptions) : Task VmError Unit := do
  match vm.phase with
  | .notCreated =>
    if ← (Machine.conflicting vm.profile.name).mapError .machine then throw .oldVmPresent
    let memory := opts.memory.getD settings.defaultMemory
    if memory < settings.minMemory then throw (.insufficientMemory memory settings.minMemory)
    confirmMemory settings memory
  | .stopped | .saved =>
    Task.ofExcept opts.refuseChange
    confirmMemory settings vm.profile.memory
  | .unprovisioned | .running => Task.ofExcept opts.refuseChange

/-- Powers the VM on and hands the guest its options. Unless provisioning is not wanted,
the start is handed on to whatever state the guest is in then, to provision it. -/
def switchOn (settings : Settings) (vm : VmProfile) (opts : StartOptions) :
    Task VmError (Option StartOptions) := do
  Task.tell "Starting VM..."
  let sshPort ← (Machine.start settings vm).mapError (.ofMachine .start)
  let vm := { vm with sshPort := some sshPort }
  let key ← readKey settings (.during .start ∘ .files)
  Task.need (.ssh (.run (.writeOptions (.ofStart vm opts)) vm.endpoints key sshLimit))
    (.during .start ∘ .ssh)
  if opts.noProvision then
    Task.tell "VM will not be provisioned because '-n' (no-provision) flag was specified."
    return none
  return some { opts with provision := true }

/-- Restores a suspended VM and waits until it can be reached. Its network has survived
the suspension, so nothing is set up again. -/
def restore (settings : Settings) (vm : VmProfile) : Task VmError Unit := do
  confirmMemory settings vm.memory
  Task.tell "Resuming VM..."
  (Machine.resume vm).mapError (.ofMachine .resume)
  let key ← readKey settings (.during .resume ∘ .files)
  Task.need (.ssh (.wait vm.endpoints key sshLimit)) (.during .resume ∘ .ssh)
  Task.tell "PCF Dev is now running."

/-- Powers the VM off, as part of a stage. -/
def switchOff (vm : VmProfile) (stage : Stage) : Task VmError Unit := do
  Task.tell "Stopping VM..."
  (Machine.stop vm.name).mapError (.ofMachine stage)
  Task.tell "PCF Dev is now stopped."

/-- Provisions a running guest. -/
def provision (settings : Settings) (vm : VmProfile) (opts : StartOptions) : Task VmError Unit := do
  Task.tell "Provisioning VM..."
  let key ← readKey settings (.during .provision ∘ .files)
  Task.need (.ssh (.run (.provision opts.masterPassword) vm.endpoints key sshLimit))
    (.during .provision ∘ .ssh)

/-- What one state contributes to a start: it finishes the start, or hands it on with the
options given. -/
def startStep (settings : Settings) (vm : Vm) (opts : StartOptions) :
    Task VmError (Option StartOptions) := do
  match vm.phase with
  | .notCreated =>
    verify settings vm opts
    let wanted := requested settings vm opts
    Task.tell "Importing VM..."
    (Machine.importImage settings.imagePath wanted).mapError (.ofMachine .importing)
    Task.tell "PCF Dev is now imported to Virtualbox."
    switchOn settings wanted opts
  | .stopped =>
    verify settings vm opts
    switchOn settings vm.profile opts
  | .saved =>
    -- Not `verify`: restoring asks about the memory itself, and nobody is asked twice.
    Task.ofExcept opts.refuseChange
    restore settings vm.profile
    return none
  | .unprovisioned =>
    if opts.provision then
      provision settings vm.profile opts
      return none
    verify settings vm opts
    switchOff vm.profile .start
    switchOn settings vm.profile opts
  | .running =>
    if opts.provision then
      let key ← readKey settings (.during .start ∘ .files)
      let _ : String ← Task.need
        (.ssh (.capture .forgetHealth vm.profile.endpoints key healthLimit))
        (.during .start ∘ .ssh)
      return some opts
    verify settings vm opts
    Task.tell "PCF Dev is running."
    return none

/-- Starts the VM: its state's own step, and then, as long as the start is handed on, the
step of the state the VM is in by then. A start that is handed on more often than the
allowance says is cut off. -/
def start (settings : Settings) : (allowance : Nat) → Vm → StartOptions → Task VmError Unit
  | 0, _, _ => Task.cut
  | allowance + 1, vm, opts => do
    match ← startStep settings vm opts with
    | none => return ()
    | some opts =>
      let next ← (select settings vm.profile.name).mapError (.during .start)
      start settings allowance next opts

end DevVm.Vm
