import DevVm.Host.Call
import DevVm.Terminal
import DevVm.World.Guest
import DevVm.World.Table

/-!
# The state of a simulated host

A `World` holds all that the program acts on: the hypervisor's machines and interfaces, the
host's files, the guest, and the terminal.

Any call can be made to fail by a `FaultPlan`, which sees the call and how often one of its
name has been made. What calls are named is up to whoever sets up the world.
-/

namespace DevVm.World

/-- Whether a machine runs. The hypervisor knows more states than this program tells
apart. -/
inductive Power where
  | stopped
  | running
  | saved
  | other (name : String)
deriving DecidableEq, Repr

/-- A machine the hypervisor has registered. -/
structure Machine where
  name : String
  power : Power
  memory : UInt64
  cpus : UInt32
  forward : List (String × UInt16) := []
  extra : List (String × String) := []
deriving DecidableEq, Repr

/-- What calls are named: requests to the hypervisor in its refusals, and calls of all kinds
when they are counted. -/
structure CallNames where
  request : HypervisorCall → String
  call : Call → String

/-- Which calls fail, and how: for a call and the number of calls of its name so far, this
one included. -/
def FaultPlan : Type := (c : Call) → (occurrence : Nat) → Option c.Failure

/-- The plan by which every call succeeds. -/
def FaultPlan.none : FaultPlan := fun _ _ => Option.none

/-- A fault as the failure of a call, if the call can fail that way. A fault of a file is
about the path of the call. -/
def failureOf? : (c : Call) → Fault → Option c.Failure
  | .hypervisor _, .hypervisor e => some e
  | .ssh _, .ssh e => some e
  | .read path, .files e | .writePrivate path _, .files e =>
    some ({ e with path } : FileError)
  | .runProgram _ _, .command e => some e
  | _, _ => Option.none

/-- A rule that makes calls of a name fail: every one of them, or one by its number. -/
structure FaultRule where
  name : String
  occurrence : Option Nat
  fault : Fault
deriving DecidableEq, Repr

/-- Whether a rule is about a call of a name. -/
def FaultRule.applies (name : String) (occurrence : Nat) (rule : FaultRule) : Bool :=
  rule.name = name && (rule.occurrence.isNone || rule.occurrence = some occurrence)

/-- The plan of a list of rules, of which the first one about a call counts. -/
def FaultPlan.ofRules (names : CallNames) (rules : List FaultRule) : FaultPlan :=
  fun c occurrence =>
    (rules.find? (·.applies (names.call c) occurrence)).bind fun rule => failureOf? c rule.fault

/-- What was written to a pair of streams. -/
structure Streams where
  out : Bytes := []
  err : Bytes := []
deriving DecidableEq, Repr

/-- The streams after some more was written. -/
def Streams.write (out err : Bytes) (s : Streams) : Streams :=
  ⟨s.out ++ out, s.err ++ err⟩

end DevVm.World

namespace DevVm

/-- The world a program acts on. `process` are the streams of the program itself, and
`session` those an interactive session is connected to. -/
structure World where
  machines : List World.Machine := []
  interfaces : List HostInterface := []
  files : List (String × Bytes) := []
  guest : World.Guest := {}
  /-- The key pairs that are generated, one after the other. -/
  keyPairs : Nat → KeyPair
  keyPairsMade : Nat := 0
  nextPort : UInt16
  terminal : Terminal
  process : World.Streams := {}
  session : World.Streams := {}
  names : World.CallNames
  plan : World.FaultPlan
  /-- The names of the calls that were made, the latest one first. -/
  history : List String := []

end DevVm
