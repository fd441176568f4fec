import DevVm.Program
import DevVm.Ssh.Endpoint
import DevVm.Ssh.Error
import DevVm.Text.Utf8

/-!
# A connection to a guest

The calls by which the SSH client works: it dials and hangs up, opens a channel and asks
for what is to run on it, exchanges messages over the channel, writes to the streams it
was given, and controls the local terminal during a session.

While a session runs, three things can arrive: input from the user, a change of the
window, and a message of the guest. Which of them comes first is up to whoever answers the
calls. Input is only asked for as long as it has not ended, and the type of what can arrive
says so.
-/

namespace DevVm.Ssh

/-- What a guest sends over a channel. -/
inductive Message where
  | data (octets : Bytes)
  /-- Data of another stream, of which number 1 is the one for errors. -/
  | extended (stream : UInt32) (octets : Bytes)
  | exitStatus (status : UInt32)
  | exitSignal
  | eof
  | close
  | other
deriving DecidableEq, Repr

/-- The number of the stream for errors. -/
def errorStream : UInt32 := 1

/-- A size of a terminal, in characters. -/
structure WindowSize where
  columns : UInt16
  rows : UInt16
deriving DecidableEq, Repr

/-- The local streams that a guest's output goes to. -/
inductive Stream where
  | out
  | err
deriving DecidableEq, Repr

/-- What arrives during a session. -/
inductive Arrival : (listening : Bool) → Type where
  /-- Some input, or its end if there are no octets. -/
  | input (octets : Bytes) : Arrival true
  | inputFailed (reason : String) : Arrival true
  | resized {listening : Bool} (size : WindowSize) : Arrival listening
  | message {listening : Bool} (message : Message) : Arrival listening
  /-- The channel is gone. -/
  | gone {listening : Bool} : Arrival listening

/-- The calls of the SSH client. -/
inductive RemoteCall where
  | dial (addresses : List Endpoint) (key : Bytes) (limit : Duration)
  | hangUp
  /-- Opens a channel, runs a command on it, and takes all that the guest sends. -/
  | exec (command : String)
  | openChannel
  | terminalSize
  | requestTerminal (type : String) (size : WindowSize)
  | requestShell
  | enterRawMode
  | leaveRawMode
  | watchResizes
  | stopWatching
  | next (listening : Bool)
  | sendInput (octets : Bytes)
  | sendEnd
  | sendSize (size : WindowSize)
  | write (stream : Stream) (octets : Bytes)
deriving DecidableEq, Repr

/-- What they are answered with. Reasons of the local system are plain texts. -/
def RemoteCall.Reply : RemoteCall → Type
  | dial .. | openChannel | requestTerminal .. | requestShell | sendInput _ | sendEnd
  | sendSize _ => Except SshError Unit
  | exec _ => Except SshError (List Message)
  | terminalSize => Option WindowSize
  | enterRawMode | watchResizes | write .. => Except String Unit
  | next listening => Arrival listening
  | hangUp | leaveRawMode | stopWatching => Unit

/-- The calls of the SSH client, as a signature. -/
def remoteSignature : Signature := ⟨RemoteCall, RemoteCall.Reply⟩

/-- A task of the SSH client. -/
abbrev RemoteTask (α : Type) := ExceptT SshError (Program remoteSignature) α

namespace RemoteTask

variable {α : Type}

/-- A call that cannot fail. -/
def ask (c : RemoteCall) : RemoteTask c.Reply :=
  ExceptT.lift (Program.ask (S := remoteSignature) c)

/-- Takes an answer for the result of the task. -/
def ofExcept (answer : Except SshError α) : RemoteTask α := ExceptT.mk (pure answer)

/-- The task that is cut off here. -/
def cut : RemoteTask α := ExceptT.mk .cut

/-- A task with something to be done after it, however it ends. -/
def ensuring (task : RemoteTask α) (after : Program remoteSignature Unit) : RemoteTask α :=
  ExceptT.mk do
    let answer ← task.run
    after
    return answer

/-- Opens a channel. -/
def openChannel : RemoteTask Unit := do ofExcept (← ask .openChannel)

/-- Writes to a local stream. -/
def write (stream : Stream) (octets : Bytes) : RemoteTask Unit := do
  let reply : Except String Unit ← ask (.write stream octets)
  ofExcept (reply.mapError .io)

end RemoteTask

end DevVm.Ssh
