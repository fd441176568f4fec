import DevVm.Ssh.Remote

/-!
# Running a command in a guest

A command's output either goes to two local streams as it arrives (`run`) or is collected
as one text (`capture`). Both look at the guest's messages up to the one that closes the
channel, and both go by the last exit status among them: `exitResult` is the one rule for
what a status means.
-/

namespace DevVm.Ssh

/-- What a status means for a command that left some output. -/
def exitResult (status : Option UInt32) (output : String) : Except SshError String :=
  match status with
  | some 0 => .ok output
  | some n => .error (.exitStatus n output)
  | none => .error .missingExitStatus

/-- Writes the output among some messages to the local streams, and gives the last status
among them. The number is the status so far. -/
def relay : List Message → Option UInt32 → RemoteTask (Option UInt32)
  | [], status => return status
  | message :: more, status =>
    match message with
    | .close => return status
    | .data octets => do
      RemoteTask.write .out octets
      relay more status
    | .extended stream octets =>
      if stream = errorStream then do
        RemoteTask.write .err octets
        relay more status
      else relay more status
    | .exitStatus n => relay more (some n)
    | .exitSignal | .eof | .other => relay more status

/-- What a command wrote, on both streams, and the status it ended with. -/
structure Collected where
  output : Bytes := []
  status : Option UInt32 := none
deriving DecidableEq, Repr

/-- Collects the output among some messages. -/
def collect : List Message → Collected → Collected
  | [], sofar => sofar
  | message :: more, sofar =>
    match message with
    | .close => sofar
    | .data octets => collect more { sofar with output := sofar.output ++ octets }
    | .extended stream octets =>
      if stream = errorStream then
        collect more { sofar with output := sofar.output ++ octets }
      else collect more sofar
    | .exitStatus n => collect more { sofar with status := some n }
    | .exitSignal | .eof | .other => collect more sofar

/-- What a collected output comes to. -/
def Collected.result (c : Collected) : Except SshError String :=
  exitResult c.status (Text.Utf8.decodeLossy c.output)

/-- Does something with a connection, and hangs up however that ends. -/
def connected {α : Type} (addresses : List Endpoint) (key : Bytes) (limit : Duration)
    (task : RemoteTask α) : RemoteTask α := do
  RemoteTask.ofExcept (← RemoteTask.ask (.dial addresses key limit))
  task.ensuring (Program.ask (S := remoteSignature) .hangUp)

/-- Finds out whether a guest can be reached. -/
def wait (addresses : List Endpoint) (key : Bytes) (limit : Duration) : RemoteTask Unit :=
  connected addresses key limit (pure ())

/-- Runs a command, with its output going to the local streams. -/
def run (command : String) (addresses : List Endpoint) (key : Bytes) (limit : Duration) :
    RemoteTask Unit := do
  let status ← connected addresses key limit do
    let messages ← RemoteTask.ofExcept (← RemoteTask.ask (.exec command))
    relay messages none
  let _ ← RemoteTask.ofExcept (exitResult status "")

/-- Runs a command and gives what it wrote. -/
def capture (command : String) (addresses : List Endpoint) (key : Bytes)
    (limit : Duration) : RemoteTask String := do
  let collected ← connected addresses key limit do
    let messages ← RemoteTask.ofExcept (← RemoteTask.ask (.exec command))
    return collect messages {}
  RemoteTask.ofExcept collected.result

end DevVm.Ssh
