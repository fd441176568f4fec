import DevVm.Proofs.Machines
import DevVm.Proofs.Moments

/-!
# What calls do to machines, interfaces and files

The inventory of a world is what a user would find on the host: all machines in the hypervisor's
order, all interfaces, and the files. A standing shows the machine of one name; the inventory
shows also those that a command has nothing to do with.

A call that is answered changes the inventory by `Inventory.effect` and nothing else of it
(`inventory_of_ok`), and a call that fails leaves it alone (`inventory_of_error`). Most calls
leave it alone in either case (`Call.leaves`).
-/

namespace DevVm

open DevVm.Task

/-- Requests that leave the machines, the interfaces and the files as they are. -/
def HypervisorCall.leaves : HypervisorCall → Bool
  | .isRegistered _ | .isRunning _ | .isSaved _ | .listRunning | .listAll | .size _ | .interfaces
  | .attach _ _ | .forwardedPort _ _ | .extraData _ _ => true
  | .importImage .. | .powerOn _ | .shutDown _ | .saveState _ | .switchOff _ | .remove _
  | .createInterface _ | .forward .. | .putExtraData .. => false

/-- Calls that leave the machines, the interfaces and the files as they are. What is done in the
guest does not concern the host. -/
def Call.leaves : Call → Bool
  | .hypervisor request => request.leaves
  | .writePrivate _ _ => false
  | .ssh _ | .read _ | .runProgram _ _ | .tell _ | .confirm _ => true

namespace World

/-- What a user would find on the host of a world. -/
structure Inventory where
  machines : List Machine
  interfaces : List HostInterface
  files : List (String × Bytes)

/-- The inventory of a world. -/
def inventory (w : World) : Inventory := ⟨w.machines, w.interfaces, w.files⟩

namespace Inventory

/-- A change to the first machine of a name. -/
def change (name : String) (f : Machine → Machine) (i : Inventory) : Inventory :=
  { i with machines := updateFirst name f i.machines }

/-- What an answered request does to an inventory. -/
def requestEffect : HypervisorCall → Inventory → Inventory
  | .importImage _ name memory cpus, i =>
    { i with machines := i.machines ++ [{ name, power := .stopped, memory, cpus }] }
  | .powerOn name, i => i.change name (·.powered .running)
  | .shutDown name, i | .switchOff name, i => i.change name (·.powered .stopped)
  | .saveState name, i => i.change name (·.powered .saved)
  | .remove name, i => { i with machines := i.machines.filter (·.name ≠ name) }
  | .createInterface ip, i =>
    { i with interfaces :=
        i.interfaces ++ [⟨"vboxnet" ++ Text.decimal i.interfaces.length, ip⟩] }
  | .forward name rule hostPort _, i =>
    i.change name fun m => { m with forward := Table.put rule hostPort m.forward }
  | .putExtraData name key value, i => i.change name (·.noting key value)
  | _, i => i

/-- What an answered call does to an inventory. -/
def effect : Call → Inventory → Inventory
  | .hypervisor request, i => i.requestEffect request
  | .writePrivate path content, i => { i with files := Table.put path content i.files }
  | _, i => i

theorem effect_of_leaves {c : Call} (h : c.leaves = true) (i : Inventory) : i.effect c = i := by
  cases c with
  | hypervisor request => cases request <;> first | rfl | cases h
  | writePrivate path content => cases h
  | _ => rfl

end Inventory

variable {w w' : World}

theorem inventory_of_inspect {α : Type} {request : HypervisorCall} {name : String}
    {read : Machine → α} {v : α} (h : w.inspect request name read = (.ok v, w')) :
    w'.inventory = w.inventory := by
  rw [(inspect_ok h).1]

theorem inventory_of_modify {request : HypervisorCall} {name : String} {f : Machine → Machine}
    {v : Unit} (h : w.modify request name f = (.ok v, w')) :
    w'.inventory = w.inventory.change name f := by
  unfold modify at h
  split at h
  next => rw [← (Prod.mk.inj h).2]; rfl
  next => cases (Prod.mk.inj h).1

theorem inventory_of_request {request : HypervisorCall} {v : request.Value}
    (h : w.hypervisorAnswer request = (.ok v, w')) :
    w'.inventory = w.inventory.requestEffect request := by
  cases request with
  | powerOn name => exact inventory_of_modify h
  | shutDown name => exact inventory_of_modify h
  | saveState name => exact inventory_of_modify h
  | switchOff name => exact inventory_of_modify h
  | forward name rule hostPort guestPort => exact inventory_of_modify h
  | putExtraData name key value => exact inventory_of_modify h
  | size name => exact inventory_of_inspect h
  | attach interface name => exact inventory_of_inspect h
  | forwardedPort name rule => exact inventory_of_inspect h
  | extraData name key => exact inventory_of_inspect h
  | remove name =>
    unfold hypervisorAnswer at h
    dsimp only at h
    split at h
    next => rw [← (Prod.mk.inj h).2]; rfl
    next => cases (Prod.mk.inj h).1
  | _ => rw [← (Prod.mk.inj h).2]; rfl

/-- What happens in the guest does not concern the host. -/
theorem inventory_of_ssh (request : SshCall) :
    (w.sshAnswer request).2.inventory = w.inventory := by cases request <;> rfl

/-- What an answered call does to the inventory, when the host does what it is named for. -/
theorem inventory_of_perform {c : Call} {v : c.Value} (h : w.perform c = (.ok v, w')) :
    w'.inventory = w.inventory.effect c := by
  cases c with
  | hypervisor request => exact inventory_of_request h
  | ssh request =>
    rw [← (Prod.mk.inj h).2]
    exact inventory_of_ssh request
  | read path =>
    unfold perform at h
    dsimp only at h
    split at h
    next => rw [← (Prod.mk.inj h).2]; rfl
    next => cases (Prod.mk.inj h).1
  | _ => rw [← (Prod.mk.inj h).2]; rfl

theorem inventory_of_refusal {c : Call} {e : c.Failure} (h : w.perform c = (.error e, w')) :
    w'.inventory = w.inventory := by
  cases c with
  | hypervisor request => rw [request_error h]
  | ssh request =>
    rw [← (Prod.mk.inj h).2]
    exact inventory_of_ssh request
  | read path =>
    unfold perform at h
    dsimp only at h
    split at h
    next => cases (Prod.mk.inj h).1
    next => rw [← (Prod.mk.inj h).2]
  | _ => cases (Prod.mk.inj h).1

/-- An answered call has its effect on the inventory. -/
theorem inventory_of_ok {c : HostCall} {v : c.call.Value} (h : w.answer c = (.ok v, w')) :
    w'.inventory = w.inventory.effect c.call := by
  unfold World.answer at h
  dsimp only at h
  split at h
  next => cases (Prod.mk.inj h).1
  next =>
    have hperformed := inventory_of_perform h
    exact hperformed

/-- A call that fails has none, whether its failure was planned or not. -/
theorem inventory_of_error {c : HostCall} {e : c.call.Failure}
    (h : w.answer c = (.error e, w')) : w'.inventory = w.inventory := by
  unfold World.answer at h
  dsimp only at h
  split at h
  next => rw [← (Prod.mk.inj h).2]; rfl
  next =>
    have hrefused := inventory_of_refusal h
    exact hrefused

/-- What holds of the inventory after a call that was answered, and without a change, holds of it
after every call. -/
theorem inventory_cases {c : HostCall} {P : c.call.Reply → Inventory → Prop}
    (hok : ∀ v, P (.ok v) (w.inventory.effect c.call)) (herror : ∀ e, P (.error e) w.inventory) :
    P (World.host.answer c w).1 (World.host.answer c w).2.inventory := by
  rcases hr : World.host.answer c w with ⟨e | v, w'⟩
  · show P (.error e) w'.inventory
    rw [inventory_of_error hr]
    exact herror e
  · show P (.ok v) w'.inventory
    rw [inventory_of_ok hr]
    exact hok v

/-- A task that makes no other calls leaves the inventory alone. -/
theorem inventory_of_leaves {ε α : Type} {t : Task ε α} (ht : t.Makes fun c => c.leaves = true)
    (w : World) : (w.run t).state.inventory = w.inventory := by
  have step : ∀ (es : List (Event hostSignature)) (w' : World) (c : HostCall),
      c.call.leaves = true → w'.inventory = w.inventory →
      (World.host.answer c w').2.inventory = w.inventory := by
    intro es w' c hc hw'
    refine inventory_cases (P := fun _ i => i = w.inventory) (fun _ => ?_) fun _ => hw'
    rw [Inventory.effect_of_leaves hc, hw']
  exact Program.Makes.run_keeps (S := hostSignature) step ht [] rfl

end World

end DevVm
