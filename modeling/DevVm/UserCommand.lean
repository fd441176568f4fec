import DevVm.Vm.Operations

/-!
# The user's commands

Each command selects the VM of the configured name in the state it is in and acts on it;
`destroy` concerns every VM of this program instead.
-/

namespace DevVm

/-- A command of the user. -/
inductive UserCommand where
  | start (opts : StartOptions)
  | stop
  | suspend
  | resume
  | status
  | trust (print : Bool)
  | ssh
  | target
  | debug
  | destroy
deriving DecidableEq, Repr

namespace UserCommand

/-- Removes every VM of this program. -/
def destroyAll : Task VmError Unit := do
  let names ← Machine.ownVms.mapError .machine
  if names.isEmpty then
    Task.tell Vm.notCreatedText
  else
    Task.tell "Destroying VM..."
    (Machine.destroy names).mapError .machine
    Task.tell "PCF Dev VM has been destroyed."

/-- Carries out a command. The allowance bounds how often a start is handed on, and
`stdin` is what the user types into a shell. -/
def perform (settings : Settings) (allowance : Nat) (stdin : Bytes) :
    UserCommand → Task VmError Unit
  | .start opts => do
    let vm ← Vm.select settings settings.vmName
    vm.start settings allowance opts
    if opts.target then
      let vm ← Vm.select settings settings.vmName
      vm.target true
  | .stop => do (← Vm.select settings settings.vmName).stop
  | .suspend => do (← Vm.select settings settings.vmName).suspend
  | .resume => do (← Vm.select settings settings.vmName).resume settings
  | .status => do Task.tell (← Vm.select settings settings.vmName).phase.status
  | .trust print => do (← Vm.select settings settings.vmName).trust settings print
  | .ssh => do (← Vm.select settings settings.vmName).shell settings stdin
  | .target => do (← Vm.select settings settings.vmName).target false
  | .debug => do (← Vm.select settings settings.vmName).diagnose settings
  | .destroy => destroyAll

end UserCommand

end DevVm
