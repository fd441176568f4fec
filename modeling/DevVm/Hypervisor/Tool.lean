import DevVm.Command.Basic
import DevVm.Hypervisor.Listing

/-!
# The hypervisor's tool

Every request to the hypervisor is carried out by its command line tool: `Tool.perform`
says with which arguments it is run, in which order, and what is made of the text it
writes.

Stopping a machine presses its power button and then looks once a second whether it still
runs. When the time limit has passed, the machine is switched off. The rounds of looking
have an allowance, and `Tool.rounds` of them are enough for every clock that runs at least
as fast as the pauses are long.
-/

namespace DevVm.Hypervisor

/-- A task that runs the hypervisor's tool. -/
abbrev ToolTask (α : Type) := RunnerTask HypervisorError α

/-- The tool: the program that is run, and how long a machine may take to shut down. -/
structure Tool where
  program : String := "VBoxManage"
  stopLimit : Duration := .ofSeconds 120
deriving DecidableEq, Repr

/-- The name of the tool in messages about what it wrote. -/
def toolName : String := "VBoxManage"

/-- The size of a host-only network. -/
def netmask : String := "255.255.255.0"

/-- The pause between two looks at a machine that is to stop. -/
def pollInterval : Duration := .ofSeconds 1

namespace Tool

/-- Runs the tool and gives the text it wrote. -/
def invoke (tool : Tool) (args : List String) : ToolTask String := do
  let command : Command := ⟨tool.program, args⟩
  let reply ← RunnerTask.execute command
  ExceptT.mk (pure ((command.text reply).mapError .command))

/-- Runs the tool for its effect. -/
def order (tool : Tool) (args : List String) : ToolTask Unit := do
  let _ ← tool.invoke args

/-- The machines that run. -/
def listRunning (tool : Tool) : ToolTask (List String) := do
  return vmNames (← tool.invoke ["list", "runningvms"])

/-- All machines. -/
def listAll (tool : Tool) : ToolTask (List String) := do
  return vmNames (← tool.invoke ["list", "vms"])

/-- Whether a machine runs. -/
def isRunning (tool : Tool) (name : String) : ToolTask Bool := do
  return (← tool.listRunning).contains name

/-- What the tool states about a machine. -/
def describe (tool : Tool) (name : String) : ToolTask (List Fact) := do
  return facts (← tool.invoke ["showvminfo", name, "--machinereadable"])

/-- A machine's size. -/
def size (tool : Tool) (name : String) : ToolTask MachineSize := do
  match size? (← tool.describe name) with
  | some info => return info
  | none =>
    throw (.parse (toolName ++ " showvminfo " ++ name ++ " --machinereadable")
      "missing memory or cpus")

/-- Creates a host-only interface with an address, and gives its name. -/
def createInterface (tool : Tool) (ip : String) : ToolTask String := do
  let output ← tool.invoke ["hostonlyif", "create"]
  match createdInterface? output with
  | none => throw (.parse (toolName ++ " hostonlyif create") output)
  | some interface =>
    tool.order ["hostonlyif", "ipconfig", interface, "--ip", ip, "--netmask", netmask]
    return interface

/-- A rule that forwards a port of the host to a port of the guest. -/
def forwarding (rule : String) (hostPort guestPort : UInt16) : String :=
  rule ++ ",tcp," ++ loopback ++ "," ++ Text.decimal hostPort.toNat ++ ",,"
    ++ Text.decimal guestPort.toNat

/-- Switches a machine off. -/
def powerOff (tool : Tool) (name : String) : ToolTask Unit :=
  tool.order ["controlvm", name, "poweroff"]

/-- Whether a machine stops by itself before a point in time. The first number is the
allowance of rounds. -/
def stopsBefore (tool : Tool) (name : String) (deadline : Duration) : Nat → ToolTask Bool
  | 0 => ExceptT.mk .cut
  | rounds + 1 => do
    -- The clock comes first: no look begins once the limit has passed.
    let now ← RunnerTask.now
    if deadline.nanos ≤ now.nanos then return false
    if !(← tool.isRunning name) then return true
    RunnerTask.sleep pollInterval
    tool.stopsBefore name deadline rounds

/-- How many rounds there can be: one for every pause that begins within the time limit,
and one more to find that it has passed. -/
def rounds (tool : Tool) : Nat :=
  (tool.stopLimit.nanos + pollInterval.nanos - 1) / pollInterval.nanos + 1

/-- Stops a machine, if need be by switching it off. -/
def shutDown (tool : Tool) (name : String) : ToolTask Unit := do
  tool.order ["controlvm", name, "acpipowerbutton"]
  let now ← RunnerTask.now
  let stopped ← tool.stopsBefore name ⟨now.nanos + tool.stopLimit.nanos⟩ tool.rounds
  if !stopped then tool.powerOff name

/-- Carries out a request. -/
def perform (tool : Tool) : (c : HypervisorCall) → ToolTask c.Value
  | .isRegistered name => do return (← tool.listAll).contains name
  | .isRunning name => tool.isRunning name
  | .isSaved name => do return isSaved (← tool.describe name)
  | .listRunning => tool.listRunning
  | .listAll => tool.listAll
  | .importImage image name memory cpus =>
    tool.order ["import", image, "--vsys", "0", "--vmname", name,
      "--memory", Text.decimal memory.toNat, "--cpus", Text.decimal cpus.toNat]
  | .powerOn name => tool.order ["startvm", name, "--type", "headless"]
  | .shutDown name => tool.shutDown name
  | .saveState name => tool.order ["controlvm", name, "savestate"]
  | .switchOff name => tool.powerOff name
  | .remove name => tool.order ["unregistervm", name, "--delete"]
  | .size name => tool.size name
  | .interfaces => do return hostInterfaces (← tool.invoke ["list", "hostonlyifs"])
  | .createInterface ip => tool.createInterface ip
  | .attach interface name =>
    tool.order ["modifyvm", name, "--nic2", "hostonly", "--hostonlyadapter2", interface]
  | .forward name rule hostPort guestPort =>
    tool.order ["modifyvm", name, "--natpf1", forwarding rule hostPort guestPort]
  | .forwardedPort name rule => do return forwardedPort? rule (← tool.describe name)
  | .extraData name key => do
    return extraData? (← tool.invoke ["getextradata", name, key])
  | .putExtraData name key value => tool.order ["setextradata", name, key, value]

end Tool

end DevVm.Hypervisor
