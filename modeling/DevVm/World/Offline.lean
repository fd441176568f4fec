import DevVm.Ssh.Dial
import DevVm.Ssh.PrivateKey
import DevVm.Ssh.Session

/-!
# Without a network

Where nobody answers at any address, all that comes of dialling is that time passes. The
host of the SSH client keeps the time that has passed; without a connection, no other call
than dialling is answered with anything.
-/

namespace DevVm.World.Offline

/-- The race between addresses where nobody answers. -/
def connect (addresses : List Endpoint) (key : Bytes) (limit : Duration) : Ssh.Race :=
  (Ssh.connect Ssh.readPrivateKey key limit (addresses.map fun _ => [])).race

/-- What a call is answered with that needs a connection. -/
def notConnected {α : Type} : Except SshError α := .error (.protocol "not connected")

/-- What the SSH client is answered with. -/
def answer : (c : Ssh.RemoteCall) → Duration → c.Reply × Duration
  | .dial addresses key limit, time =>
    let race := connect addresses key limit
    (race.result, ⟨time.nanos + race.time⟩)
  | .exec _, time => (notConnected, time)
  | .openChannel, time | .requestTerminal .., time | .requestShell, time
  | .sendInput _, time | .sendEnd, time | .sendSize _, time => (notConnected, time)
  | .terminalSize, time => (none, time)
  | .enterRawMode, time | .watchResizes, time | .write .., time => (.ok (), time)
  | .next _, time => (.gone, time)
  | .hangUp, time | .leaveRawMode, time | .stopWatching, time => ((), time)

/-- The absent network, as the host of the SSH client. -/
def host : Host Ssh.remoteSignature Duration := ⟨answer⟩

/-- What comes of a task of the SSH client, and the time after it. -/
def run {α : Type} (task : Ssh.RemoteTask α) (time : Duration) : Except SshError α × Duration :=
  let outcome := Program.run host (ExceptT.run task) time
  (outcome.result.getD notConnected, outcome.state)

end DevVm.World.Offline
