import DevVm.Proofs.Conduct
import DevVm.Proofs.Episodes

/-!
# Rejected requests

A request may be rejected for what it asks for: because it would change a VM that has been
created, because it asks for too little memory or for an address that is none, because another
VM is in the way, or because the user declines. All this is settled before anything is done
(`rejected_untouched`), although a start goes on in several steps of which each begins by looking
at the VM: the checks are made by the first step only, and a later step has no way to reject.
-/

namespace DevVm

open DevVm.Task DevVm.World

namespace World

/-- What the user's commands are about is the same as before. -/
structure Unchanged (w w' : World) : Prop where
  machines : w'.machines = w.machines
  interfaces : w'.interfaces = w.interfaces
  files : w'.files = w.files
  healthy : w'.guest.healthy = w.guest.healthy

variable {w w' : World}

theorem Unchanged.refl (w : World) : w.Unchanged w := ⟨rfl, rfl, rfl, rfl⟩

theorem Unchanged.trans {w'' : World} (h : w.Unchanged w') (h' : w'.Unchanged w'') :
    w.Unchanged w'' where
  machines := h'.machines.trans h.machines
  interfaces := h'.interfaces.trans h.interfaces
  files := h'.files.trans h.files
  healthy := h'.healthy.trans h.healthy

/-- Reading from a machine changes nothing, whether it is there or not. -/
theorem unchanged_inspect {α : Type} {request : HypervisorCall} {name : String}
    {read : Machine → α} : w.Unchanged (w.inspect request name read).2 := by
  unfold inspect
  split <;> exact .refl w

theorem unchanged_request {request : HypervisorCall} (h : request.looks = true) :
    w.Unchanged (w.hypervisorAnswer request).2 := by
  cases request with
  | isRegistered name => exact .refl w
  | isRunning name => exact .refl w
  | isSaved name => exact .refl w
  | listRunning => exact .refl w
  | listAll => exact .refl w
  | size name => exact unchanged_inspect
  | interfaces => exact .refl w
  | forwardedPort name rule => exact unchanged_inspect
  | extraData name key => exact unchanged_inspect
  | _ => cases h

/-- Checking the guest's health does nothing to it, whatever the guest's answer. -/
theorem healthy_checkHealth {guest : Guest} :
    (guest.answer GuestCommand.checkHealth.text).2.healthy = guest.healthy := by
  rw [Guest.answer_healthy]
  split
  · rw [GuestCommand.healthAfter_text]
    rfl
  · rfl

/-- Looking around and asking the user leave everything as it is. -/
theorem unchanged_perform {c : Call} (h : c.looks = true ∨ c.asks = true) :
    w.Unchanged (w.perform c).2 := by
  cases c with
  | hypervisor request => exact unchanged_request (h.resolve_right nofun)
  | ssh request =>
    have hlooks : (Call.ssh request).looks = true := h.resolve_right nofun
    cases request with
    | capture command addresses key limit =>
      cases command with
      | checkHealth => exact ⟨rfl, rfl, rfl, healthy_checkHealth⟩
      | _ => cases hlooks
    | _ => cases hlooks
  | read path =>
    unfold perform
    dsimp only
    split <;> exact .refl w
  | tell text => exact ⟨rfl, rfl, rfl, rfl⟩
  | confirm question => exact ⟨rfl, rfl, rfl, rfl⟩
  | writePrivate path content => rcases h with h | h <;> cases h
  | runProgram program args => rcases h with h | h <;> cases h

theorem unchanged_answer {c : HostCall} (h : c.call.looks = true ∨ c.call.asks = true) :
    w.Unchanged (w.answer c).2 := by
  have hcounted : w.Unchanged (w.counted (w.names.call c.call)) := ⟨rfl, rfl, rfl, rfl⟩
  unfold World.answer
  dsimp only
  split
  · exact hcounted
  · exact hcounted.trans (unchanged_perform h)

end World

variable {settings : Settings} {command : UserCommand} {w : World}

/-- A request that is rejected has changed nothing. Whatever the world, the user's answers and the
calls that fail: a command that ends with a rejection has only looked around and asked, and the
machines, the interfaces, the files and the guest's health are as they were. -/
theorem rejected_untouched {allowance : Nat} {stdin : Bytes} {error : VmError}
    (hresult : (w.run (command.perform settings allowance stdin)).result = some (.error error))
    (hrejection : error.isRejection = true) :
    Undone (w.run (command.perform settings allowance stdin)).events ∧
      w.Unchanged (w.run (command.perform settings allowance stdin)).state := by
  have hundone : Undone (w.run (command.perform settings allowance stdin)).events :=
    (UserCommand.behaves_perform settings allowance stdin command _).of_error rfl hresult error rfl
      hrejection
  have step : ∀ (w' : World) (c : HostCall), c.call.looks = true ∨ c.call.asks = true →
      w.Unchanged w' → w.Unchanged (World.host.answer c w').2 :=
    fun _ _ hc h => h.trans (unchanged_answer hc)
  exact ⟨hundone, Program.run_keeps_of_events step hundone (.refl w)⟩

/-- A user who is asked about memory and gives no answer. -/
theorem rejected_untouched_declined :
    let run := sampleWorld.run
      (UserCommand.perform sampleSettings 1 [] (.start { memory := some 16384 }))
    run.result = some (.error .declined) ∧ Undone run.events ∧ sampleWorld.Unchanged run.state := by
  have hresult : (sampleWorld.run (UserCommand.perform sampleSettings 1 []
      (.start { memory := some 16384 }))).result = some (.error .declined) := rfl
  exact ⟨hresult, rejected_untouched hresult rfl⟩

end DevVm
