import DevVm.Host.System
import DevVm.Terminal
import DevVm.World.FileTree
import DevVm.World.Offline
import DevVm.World.Script

/-!
# A simulated computer

A computer with a tree of files, programs that follow a script, and a terminal, but on no
network. Its clock is the script's.
-/

namespace DevVm.World

/-- A computer. -/
structure Computer where
  script : Script
  files : FileTree := {}
  terminal : Terminal := { input := [] }
  /-- The key pairs that are generated, one after the other. -/
  keyPairs : Nat → KeyPair
  keyPairsMade : Nat := 0
  nextPort : UInt16 := 50022

namespace Computer

/-- A task of the SSH client, carried out with no network. -/
def offline {α : Type} (task : Ssh.RemoteTask α) (c : Computer) :
    Except SshError α × Computer :=
  let (result, time) := Offline.run task c.script.time
  (result, { c with script := { c.script with time } })

/-- What requests to the SSH client are answered with. -/
def sshAnswer : (request : SshCall) → Computer → Except SshError request.Value × Computer
  | .freshEndpoint, c => (.ok ⟨loopback, c.nextPort⟩, { c with nextPort := c.nextPort + 1 })
  | .freshKeyPair, c =>
    (.ok (c.keyPairs c.keyPairsMade), { c with keyPairsMade := c.keyPairsMade + 1 })
  | .wait addresses key limit, c => c.offline (Ssh.wait addresses key limit)
  | .run command addresses key limit, c => c.offline (Ssh.run command.text addresses key limit)
  | .capture command addresses key limit, c =>
    c.offline (Ssh.capture command.text addresses key limit)
  | .session addresses key limit _, c =>
    c.offline (Ssh.session 1 (Terminal.typeName none) addresses key limit)

/-- What calls are answered with. -/
def answer : (call : SystemCall) → Computer → call.Reply × Computer
  | .runner call, c =>
    let (reply, script) := c.script.answer call
    (reply, { c with script })
  | .file call, c =>
    let (reply, files) := c.files.answer call
    (reply, { c with files })
  | .ssh request, c => c.sshAnswer request
  | .isInstalled program, c => (c.script.installed.contains program, c)
  | .tell text, c => ((), { c with terminal := c.terminal.tell text })
  | .confirm question, c =>
    let (accepted, terminal) := c.terminal.confirm question
    (accepted, { c with terminal })

/-- A computer as the host of programs. -/
def host : Host systemSignature Computer := ⟨answer⟩

/-- A task carried out on a computer. -/
def run {ε α : Type} (task : SystemTask ε α) (c : Computer) :
    Outcome systemSignature Computer (Except ε α) :=
  Program.run host (ExceptT.run task) c

end Computer

end DevVm.World
