import DevVm.Ssh.Exec

/-!
# Interactive sessions

A session connects the local terminal to a shell in the guest. Input, changes of the
window and the guest's messages are taken as they arrive (`exchange`), until the guest closes
the channel; the end of the input is passed on and does not end the session.

The terminal is in raw mode only while the session runs, and changes of the window are
watched only within that time. Both are undone in the opposite order, however the session
ends, and the connection is given up last. An exchange goes on for as long as messages arrive,
so it has an allowance of rounds.
-/

namespace DevVm.Ssh

/-- The window a guest is told of when there is no local terminal. -/
def assumedSize : WindowSize := ⟨80, 24⟩

/-- Passes on what arrives until the channel is closed, and gives the last status.
`listening` says whether there may be more input. -/
def exchange : (rounds : Nat) → (listening : Bool) → (status : Option UInt32) →
    RemoteTask (Option UInt32)
  | 0, _, _ => RemoteTask.cut
  | rounds + 1, listening, status => do
    let arrival : Arrival listening ← RemoteTask.ask (.next listening)
    match listening, arrival with
    | _, .inputFailed reason => throw (.io reason)
    -- A reading without octets is the end of the input.
    | _, .input [] =>
      RemoteTask.ofExcept (← RemoteTask.ask .sendEnd)
      exchange rounds false status
    | _, .input octets =>
      RemoteTask.ofExcept (← RemoteTask.ask (.sendInput octets))
      exchange rounds true status
    | listening, .resized size =>
      RemoteTask.ofExcept (← RemoteTask.ask (.sendSize size))
      exchange rounds listening status
    | _, .gone => return status
    | listening, .message message =>
      match message with
      | .close => return status
      | .data octets =>
        RemoteTask.write .out octets
        exchange rounds listening status
      | .extended stream octets =>
        if stream = errorStream then RemoteTask.write .err octets
        exchange rounds listening status
      | .exitStatus n => exchange rounds listening (some n)
      | .exitSignal | .eof | .other => exchange rounds listening status

/-- Watches changes of the window while a task runs. -/
def watching {α : Type} (task : RemoteTask α) : RemoteTask α := do
  let reply : Except String Unit ← RemoteTask.ask .watchResizes
  RemoteTask.ofExcept (reply.mapError .signals)
  task.ensuring (Program.ask (S := remoteSignature) .stopWatching)

/-- Keeps the terminal in raw mode while a task runs. -/
def inRawMode {α : Type} (task : RemoteTask α) : RemoteTask α := do
  let reply : Except String Unit ← RemoteTask.ask .enterRawMode
  RemoteTask.ofExcept (reply.mapError .rawMode)
  task.ensuring (Program.ask (S := remoteSignature) .leaveRawMode)

/-- A shell in the guest, on a terminal of the local one's type and size, and the status
it ends with. -/
def openShell (rounds : Nat) (terminalType : String) : RemoteTask (Option UInt32) := do
  RemoteTask.openChannel
  let size : Option WindowSize ← RemoteTask.ask .terminalSize
  RemoteTask.ofExcept
    (← RemoteTask.ask (.requestTerminal terminalType (size.getD assumedSize)))
  RemoteTask.ofExcept (← RemoteTask.ask .requestShell)
  inRawMode (watching (exchange rounds true none))

/-- An interactive session with a guest. -/
def session (rounds : Nat) (terminalType : String) (addresses : List Endpoint) (key : Bytes)
    (limit : Duration) : RemoteTask Unit := do
  let status ← connected addresses key limit (openShell rounds terminalType)
  let _ ← RemoteTask.ofExcept (exitResult status "")

end DevVm.Ssh
