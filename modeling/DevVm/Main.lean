import DevVm.CommandLine.Help
import DevVm.Host.Memory
import DevVm.Invocation
import DevVm.Terminal
import DevVm.World.Offline

/-!
# The command line

Connects the program to the files, the environment and the terminal of a computer, call by
call. It decides nothing itself. Programs are not started from here and no guest can be
dialled, so these calls are answered as on a computer that cannot do them.
-/

namespace DevVm.Main

/-- The reason for an error of the system. -/
def refusal : IO.Error → Refusal
  | .noFileOrDirectory .. => .notFound
  | e => .other (toString e)

/-- Something done with a file, or why it could not be done. -/
def attempt {α : Type} (action : IO α) : IO (Except Refusal α) := do
  try return .ok (← action) catch e => return .error (refusal e)

/-- Keeps a file to its owner. -/
def restrict (path : String) : IO Unit :=
  IO.setAccessRights path { user := { read := true, write := true } }

/-- Empties a file. A new one is kept to its owner before anything is in it. -/
def openEmpty (path : String) : IO Unit := do
  let fresh ← try
      discard (IO.FS.Handle.mk path .writeNew)
      pure true
    catch _ => pure false
  if fresh then restrict path else discard (IO.FS.Handle.mk path .write)

/-- Octets as the system takes them. -/
def packed (octets : Bytes) : ByteArray := ⟨octets.toArray⟩

/-- Writes to the end of a file. -/
def append (path : String) (octets : Bytes) : IO Unit := do
  let handle ← IO.FS.Handle.mk path .append
  handle.write (packed octets)

/-- Answers a call about files. -/
def fileAnswer : (c : FileCall) → IO (Except Refusal c.Value)
  | .read path => attempt do return (← IO.FS.readBinFile path).toList
  | .createDirs path => attempt (if path = "" then pure () else IO.FS.createDirAll path)
  | .openEmpty path => attempt (openEmpty path)
  | .write path octets => attempt (append path octets)
  | .flush _ => return .ok ()
  | .restrict path => attempt (restrict path)

/-- Answers a request to the SSH client. -/
def sshAnswer : (c : SshCall) → IO (Except SshError c.Value)
  | .freshEndpoint | .freshKeyPair => return World.Offline.notConnected
  | .wait addresses key limit =>
    return (World.Offline.run (Ssh.wait addresses key limit) ⟨0⟩).1
  | .run command addresses key limit =>
    return (World.Offline.run (Ssh.run command.text addresses key limit) ⟨0⟩).1
  | .capture command addresses key limit =>
    return (World.Offline.run (Ssh.capture command.text addresses key limit) ⟨0⟩).1
  | .session addresses key limit _ =>
    return (World.Offline.run (Ssh.session 1 (Terminal.typeName none) addresses key limit) ⟨0⟩).1

/-- Whether a file can be read. -/
def isReadable (path : String) : IO Bool := do
  try
    discard (IO.FS.Handle.mk path .read)
    return true
  catch _ => return false

/-- Whether a program can be found. -/
def isInstalled (program : String) : IO Bool := do
  let dirs := (← IO.getEnv "PATH").getD ""
  (Text.fields ':' dirs.toList).anyM fun dir =>
    isReadable (Path.join (String.ofList dir) program)

/-- Asks a question on the terminal. -/
def confirm (question : String) : IO Bool := do
  try
    let stdout ← IO.getStdout
    stdout.putStr question
    stdout.flush
    return Terminal.isYes (← (← IO.getStdin).getLine)
  catch _ => return false

/-- Answers a call. -/
def answer : (c : SystemCall) → IO c.Reply
  | .runner (.run _) => return none
  | .runner .now => return ⟨← IO.monoNanosNow⟩
  | .runner (.sleep length) => IO.sleep (UInt32.ofNat (length.nanos / 1000000))
  | .file c => fileAnswer c
  | .ssh c => sshAnswer c
  | .isInstalled program => isInstalled program
  | .tell text => IO.println text
  | .confirm question => confirm question

/-- Carries a program out. -/
def perform {α : Type} : Program systemSignature α → IO (Option α)
  | .done value => return some value
  | .cut => return none
  | .call c next => do perform (next (← answer c))

/-- The octets of an environment variable. -/
def envValue? (name : String) : IO (Option Bytes) := do
  return (← IO.getEnv name).map Text.Utf8.encode

/-- The system's list of the sizes of its memory. -/
def memoryListing : IO String := do
  try IO.FS.readFile "/proc/meminfo" catch _ => return ""

end DevVm.Main

open DevVm in
/-- Reads the command line and carries the command out. -/
def main (args : List String) : IO UInt32 := do
  match CommandLine.read args (← Main.envValue? "PCFDEV_MASTER_PASSWORD") with
  | .error e =>
    let stream ← if e.exitCode = 0 then IO.getStdout else IO.getStderr
    stream.putStr e.text
    return e.exitCode.toUInt32
  | .ok invocation =>
    let env := Environment.ofValues (← Main.envValue? "HOME") (← Main.envValue? "PCFDEV_HOME")
      (← Main.envValue? "TERM")
    let memory := availableMegabytes (← Main.memoryListing)
    match ← Main.perform (Invocation.perform env memory [] invocation.command).run with
    | some (.ok ()) => return 0
    | some (.error e) =>
      IO.eprintln ("ERROR pcfdev: " ++ e.message)
      return 1
    | none => return 1
