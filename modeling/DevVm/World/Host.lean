import DevVm.Ssh.Exec
import DevVm.World.State

/-!
# A simulated host

`World.host` answers every call of a program from a world and does what the call is named
for. A call that fails by plan has no effect but to be counted.
-/

namespace DevVm

namespace World

/-- The machine of a name. -/
def machine? (w : World) (name : String) : Option Machine :=
  w.machines.find? (·.name = name)

/-- A change to the first machine of a name. -/
def updateFirst (name : String) (f : Machine → Machine) : List Machine → List Machine
  | [] => []
  | m :: more => if m.name = name then f m :: more else m :: updateFirst name f more

/-- The failure of a request about a machine that is not there. -/
def noSuchVm (request : HypervisorCall) (name : String) (w : World) : HypervisorError :=
  .parse (w.names.request request) ("no such vm " ++ name)

/-- A request that reads from a machine. -/
def inspect {α : Type} (request : HypervisorCall) (name : String) (read : Machine → α)
    (w : World) : Except HypervisorError α × World :=
  match w.machine? name with
  | some m => (.ok (read m), w)
  | none => (.error (w.noSuchVm request name), w)

/-- A request that changes a machine. -/
def modify (request : HypervisorCall) (name : String) (f : Machine → Machine) (w : World) :
    Except HypervisorError Unit × World :=
  match w.machine? name with
  | some _ => (.ok (), { w with machines := updateFirst name f w.machines })
  | none => (.error (w.noSuchVm request name), w)

/-- The hypervisor at work. -/
def hypervisorAnswer : (c : HypervisorCall) → World → Except HypervisorError c.Value × World
  | .isRegistered name, w => (.ok (w.machine? name).isSome, w)
  | .isRunning name, w => (.ok ((w.machine? name).any (·.power = .running)), w)
  | .isSaved name, w => (.ok ((w.machine? name).any (·.power = .saved)), w)
  | .listRunning, w => (.ok ((w.machines.filter (·.power = .running)).map (·.name)), w)
  | .listAll, w => (.ok (w.machines.map (·.name)), w)
  | .importImage _ name memory cpus, w =>
    (.ok (), { w with machines := w.machines ++ [{ name, power := .stopped, memory, cpus }] })
  | c@(.powerOn name), w => w.modify c name ({ · with power := .running })
  | c@(.shutDown name), w => w.modify c name ({ · with power := .stopped })
  | c@(.switchOff name), w => w.modify c name ({ · with power := .stopped })
  | c@(.saveState name), w => w.modify c name ({ · with power := .saved })
  | c@(.remove name), w =>
    match w.machine? name with
    | some _ => (.ok (), { w with machines := w.machines.filter (·.name ≠ name) })
    | none => (.error (w.noSuchVm c name), w)
  | c@(.size name), w => w.inspect c name fun m => ⟨m.memory, m.cpus⟩
  | .interfaces, w => (.ok w.interfaces, w)
  | .createInterface ip, w =>
    let name := "vboxnet" ++ Text.decimal w.interfaces.length
    (.ok name, { w with interfaces := w.interfaces ++ [⟨name, ip⟩] })
  | c@(.attach _ name), w => w.inspect c name fun _ => ()
  | c@(.forward name rule hostPort _), w =>
    w.modify c name fun m => { m with forward := Table.put rule hostPort m.forward }
  | c@(.forwardedPort name rule), w => w.inspect c name fun m => Table.get? rule m.forward
  | c@(.extraData name key), w => w.inspect c name fun m => Table.get? key m.extra
  | c@(.putExtraData name key value), w =>
    w.modify c name fun m => { m with extra := Table.put key value m.extra }

/-- The SSH client at work. -/
def sshAnswer : (c : SshCall) → World → Except SshError c.Value × World
  | .freshEndpoint, w =>
    (.ok ⟨loopback, w.nextPort⟩, { w with nextPort := w.nextPort + 1 })
  | .freshKeyPair, w =>
    (.ok (w.keyPairs w.keyPairsMade), { w with keyPairsMade := w.keyPairsMade + 1 })
  | .wait .., w => (.ok (), w)
  | .run command _ _ _, w =>
    let (reply, guest) := w.guest.answer command.text
    ((Ssh.exitResult reply.status "").map fun _ => (),
      { w with guest, process := w.process.write reply.out reply.err })
  | .capture command _ _ _, w =>
    let (reply, guest) := w.guest.answer command.text
    (Ssh.exitResult reply.status (Text.Utf8.decodeLossy (reply.out ++ reply.err)), { w with guest })
  | .session _ _ _ stdin, w =>
    let (reply, guest) := w.guest.answer ""
    ((Ssh.exitResult reply.status "").map fun _ => (),
      { w with guest, session := w.session.write (stdin ++ reply.out) reply.err })

/-- The host at work, when a call does not fail by plan. -/
def perform : (c : Call) → World → c.Reply × World
  | .hypervisor request, w => w.hypervisorAnswer request
  | .ssh request, w => w.sshAnswer request
  | .read path, w =>
    match Table.get? path w.files with
    | some content => (.ok content, w)
    | none => (.error ⟨.read, path, "no such file"⟩, w)
  | .writePrivate path content, w =>
    (.ok (), { w with files := Table.put path content w.files })
  | .runProgram _ _, w => (.ok (), w)
  | .tell text, w => (.ok (), { w with terminal := w.terminal.tell text })
  | .confirm question, w =>
    let (accepted, terminal) := w.terminal.confirm question
    (.ok accepted, { w with terminal })

/-- The world after a call of a name was counted. -/
def counted (name : String) (w : World) : World := { w with history := name :: w.history }

/-- The answer to a call: the failure the plan has for it, or else what the host does. -/
def answer (c : HostCall) (w : World) : c.call.Reply × World :=
  let name := w.names.call c.call
  -- Counted before the plan is asked, so that a call that fails counts too.
  let w := w.counted name
  match w.plan c.call (w.history.count name) with
  | some failure => (.error failure, w)
  | none => w.perform c.call

/-- A world as the host of programs. -/
def host : Host hostSignature World := ⟨answer⟩

/-- A task carried out in a world. -/
def run {ε α : Type} (task : Task ε α) (w : World) :
    Outcome hostSignature World (Except ε α) :=
  Program.run host task w

end World

end DevVm
