import DevVm.Guest.Command
import DevVm.Program
import DevVm.Ssh.Endpoint
import DevVm.Text.Utf8

/-!
# What the host is asked to do

The calls by which the program acts on its surroundings: requests to the hypervisor,
commands over SSH, file access, programs on the host, and the user's terminal. A reply is
the failure or the value of the call; the terminal never fails.

A call may be *tolerated*: its failure is then an answer like any other and does not end
what the user asked for.
-/

namespace DevVm

/-- A host-only network interface. -/
structure HostInterface where
  name : String
  ip : String
deriving DecidableEq, Repr

/-- A VM's size. Memory is in MB. -/
structure MachineSize where
  memory : UInt64
  cpus : UInt32
deriving DecidableEq, Repr

/-- A fresh key pair: the private half as a file's content, and the public half as a line
of a file of authorised keys. -/
structure KeyPair where
  privateKey : Bytes
  publicKey : Bytes
deriving DecidableEq, Repr

/-- Requests to the hypervisor. -/
inductive HypervisorCall where
  | isRegistered (name : String)
  | isRunning (name : String)
  | isSaved (name : String)
  | listRunning
  | listAll
  | importImage (image name : String) (memory : UInt64) (cpus : UInt32)
  | powerOn (name : String)
  | shutDown (name : String)
  | saveState (name : String)
  | switchOff (name : String)
  | remove (name : String)
  | size (name : String)
  | interfaces
  | createInterface (ip : String)
  | attach (interface name : String)
  | forward (name rule : String) (hostPort guestPort : UInt16)
  | forwardedPort (name rule : String)
  | extraData (name key : String)
  | putExtraData (name key value : String)
deriving DecidableEq, Repr

/-- What a request to the hypervisor is answered with. -/
def HypervisorCall.Value : HypervisorCall → Type
  | isRegistered _ | isRunning _ | isSaved _ => Bool
  | listRunning | listAll => List String
  | size _ => MachineSize
  | interfaces => List HostInterface
  | createInterface _ => String
  | forwardedPort _ _ => Option UInt16
  | extraData _ _ => Option String
  | importImage .. | powerOn _ | shutDown _ | saveState _ | switchOff _ | remove _
  | attach _ _ | forward .. | putExtraData .. => Unit

/-- What is asked of the SSH client. The time limit bounds the dialling only. -/
inductive SshCall where
  | freshEndpoint
  | freshKeyPair
  | wait (addresses : List Endpoint) (key : Bytes) (limit : Duration)
  | run (command : GuestCommand) (addresses : List Endpoint) (key : Bytes) (limit : Duration)
  | capture (command : GuestCommand) (addresses : List Endpoint) (key : Bytes)
      (limit : Duration)
  | session (addresses : List Endpoint) (key : Bytes) (limit : Duration) (stdin : Bytes)
deriving DecidableEq, Repr

/-- What the SSH client answers with: for a captured command, all it wrote. -/
def SshCall.Value : SshCall → Type
  | freshEndpoint => Endpoint
  | freshKeyPair => KeyPair
  | capture .. => String
  | wait .. | run .. | session .. => Unit

/-- A call. -/
inductive Call where
  | hypervisor (request : HypervisorCall)
  | ssh (request : SshCall)
  | read (path : String)
  | writePrivate (path : String) (content : Bytes)
  | runProgram (program : String) (args : List String)
  | tell (text : String)
  | confirm (question : String)
deriving DecidableEq, Repr

namespace Call

/-- How a call can fail. -/
def Failure : Call → Type
  | hypervisor _ => HypervisorError
  | ssh _ => SshError
  | read _ | writePrivate _ _ => FileError
  | runProgram _ _ => CommandError
  | tell _ | confirm _ => Empty

/-- What a call that succeeds is answered with. -/
def Value : Call → Type
  | hypervisor request => request.Value
  | ssh request => request.Value
  | read _ => Bytes
  | confirm _ => Bool
  | writePrivate _ _ | runProgram _ _ | tell _ => Unit

/-- The answer to a call. -/
abbrev Reply (c : Call) : Type := Except c.Failure c.Value

/-- A call's failure as the fault it is, whatever the call. -/
def fault : (c : Call) → c.Failure → Fault
  | hypervisor _, e => .hypervisor e
  | ssh _, e => .ssh e
  | read _, e | writePrivate _ _, e => .files e
  | runProgram _ _, e => .command e

end Call

/-- A call together with whether its failure is tolerated. -/
structure HostCall where
  call : Call
  tolerated : Bool := false
deriving DecidableEq, Repr

/-- The calls a program may make to its host. -/
def hostSignature : Signature := ⟨HostCall, fun c => c.call.Reply⟩

/-- A program on the host that ends with an error or with a value. -/
abbrev Task (ε α : Type) := ExceptT ε (Program hostSignature) α

namespace Task

variable {ε ε' α : Type}

/-- Makes a call whose failure ends the task, with an error made of it. -/
def need (c : Call) (wrap : c.Failure → ε) : Task ε c.Value :=
  ExceptT.mk (.call ⟨c, false⟩ fun reply => .done (reply.mapError wrap))

/-- Makes a call whose failure is an answer like any other. -/
def attempt (c : Call) : Task ε (Except c.Failure c.Value) :=
  ExceptT.mk (.call ⟨c, true⟩ fun reply => .done (.ok reply))

/-- Puts a line on the user's terminal. -/
def tell (text : String) : Task ε Unit := need (.tell text) (nomatch ·)

/-- Asks the user a question. -/
def confirm (question : String) : Task ε Bool := need (.confirm question) (nomatch ·)

/-- The task that makes no call and ends with an answer that is already there. -/
def ofExcept (answer : Except ε α) : Task ε α := ExceptT.mk (.done answer)

/-- Turns the error of a task into another one. -/
def mapError (f : ε → ε') (task : Task ε α) : Task ε' α := ExceptT.adapt f task

/-- The task that is cut off here. -/
def cut : Task ε α := ExceptT.mk .cut

end Task

end DevVm
