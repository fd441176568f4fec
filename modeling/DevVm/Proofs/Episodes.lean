import DevVm.Invocation
import DevVm.Proofs.FailStop
import DevVm.Proofs.Machines

/-!
# Commands one after the other

An `Order` is a command of the user, and an `Attempt` is an order together with the calls
that fail while it is carried out. Attempts follow each other in one world, which keeps its
machines, its files and its guest from each to the next.

Whether an import succeeded can be read off the calls that were made: forwarding a port to
the new machine is its last call and nobody else's (`importImage_ensures`). A VM is there and
can be reached at the end of a command that imported it (`reachable_of_imported`).
-/

namespace DevVm

open DevVm.Task DevVm.World

/-- A command, with what the user types into a shell. -/
structure Order where
  command : UserCommand
  stdin : Bytes := []

/-- What carrying out an order does. -/
def Order.task (settings : Settings) (o : Order) : Task VmError Unit :=
  o.command.perform settings Invocation.handOffs o.stdin

/-- An order, with the calls that are to fail while it is carried out. -/
structure Attempt extends Order where
  plan : FaultPlan

namespace World

/-- What becomes of an attempt. -/
def attempt (settings : Settings) (a : Attempt) (w : World) :
    Outcome hostSignature World (Except VmError Unit) :=
  { w with plan := a.plan }.run (a.task settings)

/-- The world after some attempts. -/
def afterAll (settings : Settings) : List Attempt → World → World
  | [], w => w
  | a :: more, w => afterAll settings more (w.attempt settings a).state

end World

/-! ## Successful imports -/

/-- A machine of a name has been imported: a port was forwarded to its SSH daemon. -/
def Imported (n : String) (es : List (Event hostSignature)) : Prop :=
  ∃ port, (⟨⟨.hypervisor (.forward n Machine.forwardingRule port daemonPort), false⟩, .ok ()⟩ :
    Event hostSignature) ∈ es

theorem not_imported_nil {n : String} : ¬Imported n [] := by
  intro himported
  obtain ⟨port, h⟩ := himported
  cases h

theorem imported_append {n : String} {es more : List (Event hostSignature)} :
    Imported n (es ++ more) ↔ Imported n es ∨ Imported n more := by
  unfold Imported
  constructor
  · intro himported
    obtain ⟨port, h⟩ := himported
    exact (List.mem_append.mp h).imp (⟨port, ·⟩) (⟨port, ·⟩)
  · intro himported
    rcases himported with ⟨port, h⟩ | ⟨port, h⟩
    · exact ⟨port, List.mem_append.mpr (.inl h)⟩
    · exact ⟨port, List.mem_append.mpr (.inr h)⟩

section

variable {σ ε α β : Type} {host : Host hostSignature σ} {s : σ} {n : String}

/-- A call other than forwarding imports nothing. -/
theorem ensures_notImported {c : Call} {wrap : c.Failure → ε}
    (h : ∀ port, c ≠ .hypervisor (.forward n Machine.forwardingRule port daemonPort)) :
    Ensures host (Task.need c wrap) s (fun _ es _ => ¬Imported n es)
      (fun _ es _ => ¬Imported n es) := by
  have hsingle : ∀ reply, ¬Imported n [⟨⟨c, false⟩, reply⟩] := by
    intro reply himported
    obtain ⟨port, hmem⟩ := himported
    have hcall := congrArg (·.call.call) (List.mem_singleton.mp hmem)
    exact h port hcall.symm
  exact ensures_need (fun v s' _ => hsingle _) fun e s' _ => hsingle _

/-- As long as nothing has been imported, it is up to the rest. -/
theorem Task.Ensures.thenImport {t : Task ε α} {f : α → Task ε β}
    (ht : Ensures host t s (fun _ es _ => ¬Imported n es) (fun _ es _ => ¬Imported n es))
    (hf : ∀ a s', Ensures host (f a) s' (fun _ es _ => Imported n es)
      (fun _ es _ => ¬Imported n es)) :
    Ensures host (t >>= f) s (fun _ es _ => Imported n es) (fun _ es _ => ¬Imported n es) := by
  refine ht.bind fun a es s' hnone => (hf a s').mono ?_ ?_
  · exact fun b more _ h => imported_append.mpr (.inr h)
  · exact fun e more _ h himported => (imported_append.mp himported).elim hnone h

/-- An import succeeds exactly if a port is forwarded to the new machine. -/
theorem importImage_ensures (image : String) (vm : VmProfile) :
    Ensures host (Machine.importImage image vm) s (fun _ es _ => Imported vm.name es)
      (fun _ es _ => ¬Imported vm.name es) := by
  have haddress : Ensures host (Task.ofExcept (Machine.hostAddress vm.ip)) s
      (fun _ es _ => ¬Imported vm.name es) (fun _ es _ => ¬Imported vm.name es) :=
    ensures_ofExcept (fun _ _ => not_imported_nil) fun _ _ => not_imported_nil
  have hinterface : ∀ hostIp (s : σ), Ensures host (Machine.interfaceFor hostIp) s
      (fun _ es _ => ¬Imported vm.name es) (fun _ es _ => ¬Imported vm.name es) := by
    intro hostIp s
    refine (ensures_notImported (by nofun)).bind fun listed es s' hnone => ?_
    have hmore : ∀ more, ¬Imported vm.name more → ¬Imported vm.name (es ++ more) :=
      fun more h himported => (imported_append.mp himported).elim hnone h
    split
    · exact ensures_pure (hmore [] not_imported_nil)
    · exact (ensures_notImported (by nofun)).mono (fun _ more _ => hmore more)
        fun _ more _ => hmore more
  refine haddress.thenImport fun hostIp s => ?_
  refine Ensures.thenImport (ensures_notImported (by nofun)) fun address s => ?_
  refine Ensures.thenImport (ensures_notImported (by nofun)) fun _ s => ?_
  refine (hinterface hostIp s).thenImport fun interface s => ?_
  refine Ensures.thenImport (ensures_notImported (by nofun)) fun _ s => ?_
  refine ensures_need (fun _ _ _ => ⟨address.port, List.mem_singleton.mpr rfl⟩) fun e _ _ => ?_
  intro himported
  obtain ⟨port, h⟩ := himported
  cases List.mem_singleton.mp h

end

/-! ## Machines that stay reachable -/

namespace World

/-- The machine of the name is there and can be reached. -/
def Standing.Reachable (s : Standing) : Prop := ∃ m, s.machine = some m ∧ m.port?.isSome

variable {n : String} {s : Standing}

/-- A machine that is changed stays reachable if its forwarding does not get lost. -/
theorem Standing.Reachable.change {name : String} {f : Machine → Machine}
    (hf : ∀ m, m.port?.isSome → (f m).port?.isSome) (h : s.Reachable) :
    (s.change n name f).Reachable := by
  obtain ⟨m, hm, hport⟩ := h
  unfold Standing.change
  split
  · exact ⟨f m, by rw [hm]; rfl, hf m hport⟩
  · exact ⟨m, hm, hport⟩

/-- Only removing it makes a machine unreachable. -/
theorem Standing.Reachable.effect {c : Call} (hc : ∀ name, c ≠ .hypervisor (.remove name))
    (h : s.Reachable) : (s.effect n c).Reachable := by
  cases c with
  | hypervisor request =>
    cases request with
    | remove name => exact absurd rfl (hc name)
    | importImage image name memory cpus =>
      obtain ⟨m, hm, hport⟩ := h
      refine ⟨m, ?_, hport⟩
      show s.machine.or _ = some m
      rw [hm]
      rfl
    | powerOn name => exact h.change fun _ h => h
    | shutDown name => exact h.change fun _ h => h
    | saveState name => exact h.change fun _ h => h
    | switchOff name => exact h.change fun _ h => h
    | forward name rule hostPort guestPort => exact h.change fun _ h => Table.isSome_get?_put h
    | putExtraData name key value => exact h.change fun _ h => h
    | _ => exact h
  | ssh request => cases request <;> exact h
  | _ => exact h

/-- Forwarding a port to a machine makes it reachable. -/
theorem Standing.reachable_of_forward {port : UInt16} (h : s.machine.isSome) :
    (s.effect n (.hypervisor
      (.forward n DevVm.Machine.forwardingRule port daemonPort))).Reachable := by
  obtain ⟨m, hm⟩ := Option.isSome_iff_exists.mp h
  refine ⟨m.connected port, ?_, ?_⟩
  · show (s.change n n (·.connected port)).machine = _
    unfold Standing.change
    rw [if_pos rfl, hm]
    rfl
  · show (Table.get? DevVm.Machine.forwardingRule
      (Table.put DevVm.Machine.forwardingRule port _)).isSome
    rw [Table.get?_put, if_pos rfl]
    rfl

/-- A machine that has been imported can be reached at the end of a task that removes none. -/
theorem reachable_of_imported {ε α : Type} {licence : HostCall → Prop} {removes : Prop}
    {account : Account ε} {t : Task ε α} (ht : FailsStop licence removes account t)
    (hremoves : ¬removes) {w : World}
    (h : Imported n (w.run t).events) : ((w.run t).state.standing n).Reachable := by
  -- The invariant is about the calls made so far and the world they led to: once there was an
  -- import among the calls, the machine can be reached.
  have step : ∀ (es : List (Event hostSignature)) (w : World) (c : HostCall),
      (licence c ∧ (c.Removes → removes)) →
      (Imported n es → (w.standing n).Reachable) →
      Imported n (es ++ [⟨c, (World.host.answer c w).1⟩]) →
        ((World.host.answer c w).2.standing n).Reachable := by
    intro es w c hc hes himported
    have hspares : ∀ name, c.call ≠ .hypervisor (.remove name) := fun name h =>
      hremoves (hc.2 ⟨name, h⟩)
    rcases hr : World.host.answer c w with ⟨e | v, w'⟩
    · rw [hr] at himported
      show (w'.standing n).Reachable
      rw [standing_of_error hr]
      rcases imported_append.mp himported with hbefore | ⟨port, hnow⟩
      · exact hes hbefore
      · cases List.mem_singleton.mp hnow
    · rw [hr] at himported
      obtain ⟨heffect, hvalue⟩ := standing_of_ok (n := n) hr
      show (w'.standing n).Reachable
      rw [heffect]
      rcases imported_append.mp himported with hbefore | ⟨port, hnow⟩
      · exact (hes hbefore).effect hspares
      · obtain rfl : c = _ := (congrArg Event.call (List.mem_singleton.mp hnow)).symm
        exact Standing.reachable_of_forward (hvalue rfl)
  have hkept : Imported n ([] ++ (w.run t).events) → ((w.run t).state.standing n).Reachable :=
    Program.Makes.run_keeps (S := hostSignature) step ht.makes [] fun h => absurd h not_imported_nil
  exact hkept h

end World

/-! ## A host to try things on -/

/-- The settings on a host with 8 GB of free memory. -/
def sampleSettings : Settings := .default "/home/user/.pcfdev" 8192

/-- A host without any machine, with the two keys in place. -/
def sampleWorld : World where
  files := [(sampleSettings.insecureKeyPath, [1]), (sampleSettings.privateKeyPath, [2])]
  keyPairs i := ⟨[UInt8.ofNat i, 3], [UInt8.ofNat i, 4]⟩
  nextPort := 4000
  terminal := { input := [] }
  names := ⟨fun _ => "", fun _ => ""⟩
  plan := .none

/-- No machine can be shut down. -/
def shutDownFails : FaultPlan
  | .hypervisor (.shutDown _), _ => some (.parse "" "")
  | _, _ => none

end DevVm
