import DevVm.Host.Call
import DevVm.Machine.Network

/-!
# Operations on machines

What the hypervisor's requests add up to: importing a machine and connecting it, starting
it (with the one-off set-up of the guest on its first boot), stopping, suspending,
destroying, and finding out about machines. Calls are made strictly in order, and the
first one that fails ends the operation with its error.

The set-up of a guest is recorded on the machine itself, as extra data: the guest's
address once it has been set up and restarted, and after it the domain. A machine without
the recorded address is set up on its next start.
-/

namespace DevVm.Machine

/-- The extra data that holds the guest's address. -/
def ipKey : String := "pcfdev/ip"

/-- The extra data that holds the guest's domain. -/
def domainKey : String := "pcfdev/domain"

/-- How long to dial a guest that boots for the first time. -/
def firstBootLimit : Duration := .ofSeconds 120

/-- A request to the hypervisor that has to succeed. -/
def hypervisor (request : HypervisorCall) : Task MachineError request.Value :=
  Task.need (.hypervisor request) .hypervisor

/-- A request to the SSH client that has to succeed. -/
def ssh (request : SshCall) : Task MachineError request.Value :=
  Task.need (.ssh request) .ssh

/-- The interface with an address, or a new one. -/
def interfaceFor (hostIp : String) : Task MachineError String := do
  let listed : List HostInterface ← hypervisor .interfaces
  match listed.find? (·.ip = hostIp) with
  | some interface => return interface.name
  | none => hypervisor (.createInterface hostIp)

/-- Imports a machine from an image and connects it: it gets a card on the host-only
network, and a free port of the host is forwarded to its SSH daemon. -/
def importImage (image : String) (vm : VmProfile) : Task MachineError Unit := do
  let hostIp ← Task.ofExcept (hostAddress vm.ip)
  let address : Endpoint ← ssh .freshEndpoint
  hypervisor (.importImage image vm.name vm.memory vm.cpus)
  let interface ← interfaceFor hostIp
  hypervisor (.attach interface vm.name)
  hypervisor (.forward vm.name forwardingRule address.port daemonPort)

/-- Sets a guest up with the key built into its appliance: it gets its fixed address, and a
fresh key is authorised and kept on the host. -/
def setUpGuest (settings : Settings) (vm : VmProfile) (sshPort : UInt16) :
    Task MachineError Unit := do
  let insecureKey : Bytes ← Task.need (.read settings.insecureKeyPath) .files
  let addresses : List Endpoint := [⟨loopback, sshPort⟩]
  let _ : String ← ssh (.capture (.configureNetwork vm.ip) addresses insecureKey firstBootLimit)
  let pair : KeyPair ← ssh .freshKeyPair
  let publicKey := Text.trim (Text.Utf8.decodeLossy pair.publicKey).toList
  let _ : String ← ssh (.capture (.authorizeKey (String.ofList publicKey)) addresses insecureKey
    firstBootLimit)
  Task.need (.writePrivate settings.privateKeyPath pair.privateKey) .files

/-- Starts a machine and gives the host's port that leads to it. On the first boot the
guest is set up and restarted before that is recorded. -/
def start (settings : Settings) (vm : VmProfile) : Task MachineError UInt16 := do
  let forwarded : Option UInt16 ← hypervisor (.forwardedPort vm.name forwardingRule)
  let some sshPort := forwarded | throw (.missingForwardPort vm.name)
  let recorded : Option String ← hypervisor (.extraData vm.name ipKey)
  hypervisor (.powerOn vm.name)
  if recorded.isNone then
    setUpGuest settings vm sshPort
    hypervisor (.shutDown vm.name)
    hypervisor (.powerOn vm.name)
    -- Recorded last, so that a set-up that failed on the way is done again.
    hypervisor (.putExtraData vm.name ipKey vm.ip)
    hypervisor (.putExtraData vm.name domainKey vm.domain)
  return sshPort

/-- Stops a machine. -/
def stop (name : String) : Task MachineError Unit := hypervisor (.shutDown name)

/-- Saves a machine's state and stops it. -/
def suspend (name : String) : Task MachineError Unit := hypervisor (.saveState name)

/-- Restores a suspended machine, which is what starting it does. -/
def resume (vm : VmProfile) : Task MachineError Unit := hypervisor (.powerOn vm.name)

/-- Removes one machine, if it is there, powering it off first if it runs. -/
def destroyOne (name : String) : Task MachineError Unit := do
  let present : Bool ← hypervisor (.isRegistered name)
  if present then
    let running : Bool ← hypervisor (.isRunning name)
    if running then hypervisor (.switchOff name)
    hypervisor (.remove name)

/-- Removes machines, in the order given. -/
def destroy : List String → Task MachineError Unit
  | [] => return ()
  | name :: more => do
    destroyOne name
    destroy more

/-- Whether a machine is there and whether it runs. -/
inductive Status where
  | running
  | stopped
  | notCreated
deriving DecidableEq, Repr

/-- The wording of a status. -/
def Status.shown : Status → String
  | .running => "Running"
  | .stopped => "Stopped"
  | .notCreated => "Not created"

/-- The status of a machine. -/
def status (name : String) : Task MachineError Status := do
  let present : Bool ← hypervisor (.isRegistered name)
  if !present then return .notCreated
  let running : Bool ← hypervisor (.isRunning name)
  return if running then .running else .stopped

/-- Whether a machine's state has been saved. -/
def isSuspended (name : String) : Task MachineError Bool := hypervisor (.isSaved name)

/-- Whether a name is one that this program gives. -/
def isOwnName (name : String) : Bool := ownNameLead.toList.isPrefixOf name.toList

/-- The names of this program's machines, in the hypervisor's order. -/
def ownVms : Task MachineError (List String) := do
  let names : List String ← hypervisor .listAll
  return names.filter isOwnName

/-- Whether this program has a machine of another name. -/
def conflicting (name : String) : Task MachineError Bool := do
  return (← ownVms).any (· ≠ name)

/-- The facts about a machine that is there. What its set-up has not recorded yet is what
an import without wishes would have made it. -/
def describe (name : String) : Task MachineError VmProfile := do
  let info : MachineSize ← hypervisor (.size name)
  let sshPort : Option UInt16 ← hypervisor (.forwardedPort name forwardingRule)
  let recordedIp : Option String ← hypervisor (.extraData name ipKey)
  let ip := recordedIp.getD usualIp
  let recordedDomain : Option String ← hypervisor (.extraData name domainKey)
  return {
    name, ip, sshPort
    domain := recordedDomain.getD (impliedDomain ip)
    memory := info.memory
    cpus := info.cpus
    provider := hypervisorName
  }

end DevVm.Machine
