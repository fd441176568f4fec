import DevVm.Proofs.Starting
import DevVm.UserCommand

/-!
# What the other commands come to

Stopping, suspending and resuming change the power of the machine, if the state of the VM
allows it. Trusting and diagnosing write a file at most, and a shell, a login and a status
change nothing. Destroying removes the machine.
-/

namespace DevVm

namespace World.Standing

/-- The standing with its machine, if there is one, in another state of power. -/
def repowered (power : Power) (s : Standing) : Standing :=
  { s with machine := s.machine.map (·.powered power) }

theorem repowered_eq {power : Power} {s : Standing} {m : Machine} (hm : s.machine = some m) :
    s.repowered power = s.withMachine (m.powered power) := by
  unfold repowered withMachine
  rw [hm]
  rfl

/-- Nothing has changed but a file at most. -/
def WroteAtMost (s s' : Standing) : Prop :=
  s' = s ∨ ∃ path content, s' = { s with files := Table.put path content s.files }

end World.Standing

namespace Vm

open DevVm.Task DevVm.World

variable {n : String} {sure : Prop} {s : Standing} {m : World.Machine} {settings : Settings}
  {vm : Vm}

/-- A VM that is not seen to be absent has a machine. -/
theorem seen_machine (hseen : s.Seen settings sure vm) (h : vm.phase ≠ .notCreated) :
    ∃ m, s.machine = some m := by
  rcases hm : s.machine with _ | m
  · exact absurd (seen_absent hseen hm) h
  · exact ⟨m, rfl⟩

/-- What a command comes to that acts on the VM it selects. -/
theorem yields_selected {f : Vm → Task VmError Unit} {good : Unit → Standing → Prop}
    {bad : Standing → Prop} (hbad : bad s)
    (hf : ∀ vm, s.Seen settings sure vm → Yields settings.vmName sure (f vm) s good bad) :
    Yields settings.vmName sure (select settings settings.vmName >>= f) s good bad :=
  (yields_select.leavingAt hbad).nextWith hf

/-- What holds of a standing holds after the user was told something, or could not be. -/
theorem yields_tellIn {good bad : Standing → Prop} (text : String) (hgood : good s) (hbad : bad s) :
    Yields n sure (Task.tell text : Task VmError Unit) s (fun _ s' => good s') bad :=
  yields_need (fun _ => trivial) (fun _ _ => hgood) hbad

theorem yields_stop (hseen : s.Seen settings sure vm) :
    Yields settings.vmName sure vm.stop s
      (fun _ s' => s' = if vm.phase.isUp then s.repowered .stopped else s)
      (fun s' => s' = s ∨ s' = s.repowered .stopped) := by
  unfold stop
  have hup : vm.phase.isUp = true → Yields settings.vmName sure (switchOff vm.profile .stop) s
      (fun _ s' => s' = s.repowered .stopped) (fun s' => s' = s ∨ s' = s.repowered .stopped) := by
    intro hup
    obtain ⟨m, hm⟩ := seen_machine hseen fun habsent => by
      rw [habsent] at hup
      cases hup
    rw [Standing.repowered_eq hm]
    exact yields_switchOff (seen_name hseen) hm
  cases hphase : vm.phase with
  | notCreated => exact yields_tellIn _ rfl (.inl rfl)
  | stopped => exact yields_tellIn _ rfl (.inl rfl)
  | saved => exact yields_tellIn _ rfl (.inl rfl)
  | unprovisioned => exact hup (by rw [hphase]; rfl)
  | running => exact hup (by rw [hphase]; rfl)

theorem yields_suspend (hseen : s.Seen settings sure vm) :
    Yields settings.vmName sure vm.suspend s
      (fun _ s' => s' = if vm.phase = .running then s.repowered .saved else s)
      (fun s' => s' = s ∨ s' = s.repowered .saved) := by
  unfold suspend
  cases hphase : vm.phase with
  | notCreated => exact yields_tellIn _ rfl (.inl rfl)
  | stopped => exact yields_tellIn _ rfl (.inl rfl)
  | saved => exact yields_tellIn _ rfl (.inl rfl)
  | unprovisioned => exact yields_tellIn _ rfl (.inl rfl)
  | running =>
    obtain ⟨m, hm⟩ := seen_machine hseen (by rw [hphase]; nofun)
    rw [if_pos rfl, Standing.repowered_eq hm]
    dsimp only
    rw [seen_name hseen]
    refine ((yields_tell _).leaving fun _ => .inl).next fun _ => ?_
    refine Yields.next ((Machine.yields_saveState hm).mapError.leaving fun _ => .inl) fun _ => ?_
    exact yields_tellIn _ rfl (.inr rfl)

theorem yields_resume (hseen : s.Seen settings sure vm)
    (hsure : sure → s.hasKey settings = true ∧ ∀ m, s.machine = some m →
      m.memory ≤ settings.freeMemory) :
    Yields settings.vmName sure (vm.resume settings) s
      (fun _ s' => s' = if vm.phase = .saved then s.repowered .running else s)
      (fun s' => s' = s ∨ s' = s.repowered .running) := by
  unfold resume
  cases hphase : vm.phase with
  | notCreated => exact yields_tellIn _ rfl (.inl rfl)
  | stopped => exact yields_tellIn _ rfl (.inl rfl)
  | saved =>
    obtain ⟨m, hm⟩ := seen_machine hseen (by rw [hphase]; nofun)
    rw [if_pos rfl, Standing.repowered_eq hm, hseen.profile, profile_present hm]
    exact yields_restore rfl hm (fun hs => (hsure hs).2 m hm) fun hs => (hsure hs).1
  | unprovisioned => exact yields_tellIn _ rfl (.inl rfl)
  | running => exact yields_tellIn _ rfl (.inl rfl)

theorem yields_target (auto : Bool) :
    Yields n sure (vm.target auto) s (fun _ s' => s' = s) (· = s) := by
  unfold target
  cases vm.phase with
  | running =>
    have hlogin : ∀ args, Yields n sure
        (Task.need (.runProgram "cf" args) (VmError.during .target ∘ VmError.command)) s
        (fun _ s' => s' = s) (· = s) := fun args =>
    yields_need (fun _ => trivial) (fun _ _ => rfl) rfl
    refine (hlogin _).next fun _ => ?_
    split
    · exact yields_tell _
    · exact yields_pure rfl
  | _ => exact yields_tell _

theorem yields_shell (stdin : Bytes) (hkey : sure → s.hasKey settings = true) :
    Yields n sure (vm.shell settings stdin) s (fun _ s' => s' = s) (· = s) := by
  unfold shell
  have hopen : Yields n sure (do
      let key ← readKey settings .files
      Task.need (.ssh (.session vm.profile.endpoints key sshLimit stdin)) .ssh) s
      (fun _ s' => s' = s) (· = s) := by
    refine (yields_readKey _ hkey).next fun key => ?_
    exact yields_need (fun _ => trivial) (fun _ _ => rfl) rfl
  cases vm.phase with
  | unprovisioned => exact hopen
  | running => exact hopen
  | _ => exact yields_tell _

theorem yields_writePrivate {path : String} {content : Bytes} {wrap : FileError → VmError} :
    Yields n sure (Task.need (.writePrivate path content) wrap) s (fun _ s' => s.WroteAtMost s')
      (· = s) :=
  yields_need (fun _ => trivial) (fun _ _ => .inr ⟨path, content, rfl⟩) rfl

theorem yields_trust (print : Bool) (hkey : sure → s.hasKey settings = true) :
    Yields n sure (vm.trust settings print) s (fun _ s' => s.WroteAtMost s') s.WroteAtMost := by
  unfold trust
  cases vm.phase with
  | running =>
    refine ((yields_readKey _ hkey).leaving fun _ => .inl).next fun key => ?_
    refine ((Machine.yields_capture (by nofun)).leaving fun _ => .inl).next fun certificate => ?_
    split
    · exact yields_tellIn _ (.inl rfl) (.inl rfl)
    · refine (yields_writePrivate.leaving fun _ => .inl).bind ?_
      exact fun _ _ hwrote => yields_tellIn _ hwrote hwrote
  | _ => exact yields_tellIn _ (.inl rfl) (.inl rfl)

/-- Collecting diagnostics changes nothing, whether they can be had or not. -/
theorem yields_collect (addresses : List Endpoint) (key : Bytes) (whats : List Diagnostic) :
    Yields n sure (collect addresses key whats) s (fun _ s' => s' = s) (· = s) := by
  induction whats generalizing s with
  | nil => exact yields_pure rfl
  | cons what more ih =>
    have hattempt : Yields n sure (Task.attempt
        (.ssh (.capture (.diagnose what) addresses key healthLimit)) : Task VmError _) s
        (fun _ s' => s' = s) (· = s) := yields_attempt (fun _ _ => rfl) fun _ _ => rfl
    refine hattempt.next fun reply => ?_
    refine ih.next fun rest => ?_
    exact yields_pure rfl

theorem yields_diagnose (hkey : sure → s.hasKey settings = true) :
    Yields n sure (vm.diagnose settings) s (fun _ s' => s.WroteAtMost s') s.WroteAtMost := by
  have hlogs : Yields n sure (collectLogs settings vm.profile) s (fun _ s' => s.WroteAtMost s')
      s.WroteAtMost := by
    refine ((yields_readKey _ hkey).leaving fun _ => .inl).next fun key => ?_
    refine ((yields_collect _ key _).leaving fun _ => .inl).next fun logs => ?_
    exact yields_writePrivate.leaving fun _ => .inl
  unfold diagnose
  cases vm.phase with
  | unprovisioned => exact Yields.bind hlogs.mapError fun _ _ h => yields_tellIn _ h h
  | running => exact Yields.bind hlogs.mapError fun _ _ h => yields_tellIn _ h h
  | _ => exact yields_tellIn _ (.inl rfl) (.inl rfl)

end Vm

/-! ## Destroying -/

namespace World.Standing

/-- The standing once the machines of the name are gone. -/
def removed (n : String) (s : Standing) : Standing :=
  { s with names := s.names.filter (· ≠ n), machine := none }

/-- The machine of the name, if it is there at all, is of some kind. -/
def MachineIs (J : Machine → Prop) (s : Standing) : Prop := ∀ m, s.machine = some m → J m

variable {J : Machine → Prop} {s s' : Standing}

theorem machineIs_of_some {m : Machine} (hm : s.machine = some m) (h : J m) : s.MachineIs J := by
  intro m' hm'
  rw [hm] at hm'
  exact Option.some.inj hm' ▸ h

theorem MachineIs.repowered {power : Power} (hJ : ∀ m power, J m → J (m.powered power))
    (h : s.MachineIs J) : (s.repowered power).MachineIs J := by
  intro m hm
  obtain ⟨m', hm', rfl⟩ := Option.map_eq_some_iff.mp hm
  exact hJ _ _ (h m' hm')

theorem MachineIs.wrote (h : s.MachineIs J) (hwrote : s.WroteAtMost s') : s'.MachineIs J := by
  rcases hwrote with rfl | ⟨path, content, rfl⟩
  · exact h
  · exact h

end World.Standing

namespace Machine

open DevVm.Task DevVm.World

variable {n : String} {sure : Prop} {s : Standing} {m : World.Machine}

/-- Destroying a machine that is there removes it, whether it runs or not. -/
theorem yields_destroyOne (hm : s.machine = some m) :
    Yields n sure (destroyOne n) s (fun _ s' => s' = s.removed n) (fun _ => True) := by
  have hremove : ∀ {s : Standing} {m : World.Machine}, s.machine = some m →
      Yields n sure (hypervisor (.remove n)) s (fun _ s' => s' = s.removed n) (fun _ => True) := by
    intro s m hm
    refine Yields.leaving (yields_request (fun name hname => ?_) fun _ _ => ?_) fun _ _ => trivial
    · exact ⟨(Option.some.inj hname).symm, by rw [hm]; rfl⟩
    · unfold Standing.requestEffect Standing.removed
      dsimp only
      rw [if_pos rfl]
  refine (yields_isRegistered.leaving fun _ _ => trivial).nextIs ?_
  rw [hm]
  refine (yields_isRunning.leaving fun _ _ => trivial).nextIs ?_
  split
  · have hoff : Yields n sure (hypervisor (.switchOff n)) s
        (fun _ s' => s' = s.withMachine (m.powered .stopped)) (· = s) :=
      yields_change hm rfl rfl fun _ => rfl
    refine (hoff.leaving fun _ _ => trivial).next fun _ => ?_
    exact hremove rfl
  · exact hremove hm

section Keeping

variable {J : World.Machine → Prop} (hJ : ∀ m power, J m → J (m.powered power))
include hJ

/-- What does not depend on its power stays true of the machine while one of any name is
destroyed, as long as it is there. -/
theorem yields_destroyOne_keeps (name : String) (h : s.MachineIs J) :
    Yields n False (destroyOne name) s (fun _ s' => s'.MachineIs J) (Standing.MachineIs J) := by
  have hrequest : ∀ {request : HypervisorCall} {s : Standing}, s.MachineIs J →
      (s.requestEffect n request).MachineIs J →
      Yields n False (hypervisor request) s (fun _ s' => s'.MachineIs J) (Standing.MachineIs J) :=
    fun h heffect => yields_need False.elim (fun _ _ => heffect) h
  -- Of a machine that is gone everything is true, and one of another name is left alone.
  have hremoved : ∀ {s : Standing}, s.MachineIs J →
      (s.requestEffect n (.remove name)).MachineIs J := by
    intro s h m hm
    have hm : (if name = n then none else s.machine) = some m := hm
    split at hm
    · cases hm
    · exact h m hm
  have hoff : ∀ {s : Standing}, s.MachineIs J →
      (s.requestEffect n (.switchOff name)).MachineIs J := by
    intro s h m hm
    have hm : (s.change n name (·.powered .stopped)).machine = some m := hm
    unfold Standing.change at hm
    split at hm
    · obtain ⟨m', hm', rfl⟩ := Option.map_eq_some_iff.mp hm
      exact hJ _ _ (h m' hm')
    · exact h m hm
  refine (hrequest h (by exact h)).bind fun present s h => ?_
  split
  · refine (hrequest h (by exact h)).bind fun running s h => ?_
    split
    · exact (hrequest h (hoff h)).bind fun _ _ h => hrequest h (hremoved h)
    · exact hrequest h (hremoved h)
  · exact yields_pure h

theorem yields_destroy_keeps (names : List String) (h : s.MachineIs J) :
    Yields n False (destroy names) s (fun _ s' => s'.MachineIs J) (Standing.MachineIs J) := by
  induction names generalizing s with
  | nil => exact yields_pure h
  | cons name more ih => exact (yields_destroyOne_keeps hJ name h).bind fun _ _ h => ih h

end Keeping

end Machine

namespace UserCommand

open DevVm.Task DevVm.World

variable {settings : Settings} {n : String} {sure : Prop} {s : Standing}

/-- What a command to start the VM comes to: what the start does, since a login after it
changes nothing. -/
theorem yields_start {opts : StartOptions} {allowance : Nat} {K bad : Standing → Prop}
    (hbad : bad s) (hK : ∀ s', K s' → bad s') (stdin : Bytes)
    (hstart : ∀ vm, s.Seen settings sure vm →
      Yields settings.vmName sure (Vm.start settings allowance vm opts) s (fun _ s' => K s') bad) :
    Yields settings.vmName sure (UserCommand.perform settings allowance stdin (.start opts)) s
      (fun _ s' => K s') bad := by
  refine Vm.yields_selected hbad fun vm hseen => (hstart vm hseen).bind fun _ s h => ?_
  -- The login selects the VM anew, but only looks at it.
  split
  · exact Vm.yields_selected (hK s h) fun vm _ =>
      ((Vm.yields_target true).comingTo fun _ => h).leavingAt (hK s h)
  · exact yields_pure h

/-- Destroying removes the machine if it is there and the only one of this program. -/
theorem yields_destroyAll
    (hown : s.names.filter Machine.isOwnName = if s.machine.isSome then [n] else []) :
    Yields n sure destroyAll s
      (fun _ s' => s' = if s.machine.isSome then s.removed n else s) (fun _ => True) := by
  refine Yields.nextIs (Machine.yields_ownVms.mapError.leaving fun _ _ => trivial) ?_
  rw [hown]
  rcases hm : s.machine with _ | m
  · exact Vm.yields_tellIn _ rfl trivial
  · refine ((Vm.yields_tell _).leaving fun _ _ => trivial).next fun _ => ?_
    have hdestroy : Yields n sure (Machine.destroy [n]) s (fun _ s' => s' = s.removed n)
        (fun _ => True) :=
      (Machine.yields_destroyOne hm).bind fun _ _ h => yields_pure h
    refine Yields.next hdestroy.mapError fun _ => ?_
    exact Vm.yields_tellIn _ rfl trivial

/-! ## What commands keep -/

/-- What does not depend on its power stays true of the machine, as long as it is there,
whatever fails in a command other than a start. -/
theorem yields_keeps {J : World.Machine → Prop} (hJ : ∀ m power, J m → J (m.powered power))
    (h : s.MachineIs J) {command : UserCommand} (hstart : ∀ opts, command ≠ .start opts)
    (allowance : Nat) (stdin : Bytes) :
    Yields settings.vmName False (command.perform settings allowance stdin) s
      (fun _ s' => s'.MachineIs J) (Standing.MachineIs J) := by
  have hpower : ∀ power s', s' = s ∨ s' = s.repowered power → s'.MachineIs J := by
    intro power _ hends
    rcases hends with rfl | rfl
    · exact h
    · exact h.repowered hJ
  have hif : ∀ {p : Prop} [Decidable p] power s', s' = (if p then s.repowered power else s) →
      s'.MachineIs J := by
    intro p _ power _ heq
    subst heq
    split
    · exact h.repowered hJ
    · exact h
  have hwrote : ∀ s', s.WroteAtMost s' → s'.MachineIs J := fun _ => h.wrote
  cases command with
  | start opts => exact absurd rfl (hstart opts)
  | stop =>
    exact Vm.yields_selected h fun vm hseen =>
      (Vm.yields_stop hseen).mono (fun _ => hif .stopped) (hpower .stopped)
  | suspend =>
    exact Vm.yields_selected h fun vm hseen =>
      (Vm.yields_suspend hseen).mono (fun _ => hif .saved) (hpower .saved)
  | resume =>
    exact Vm.yields_selected h fun vm hseen =>
      (Vm.yields_resume hseen False.elim).mono (fun _ => hif .running) (hpower .running)
  | status => exact Vm.yields_selected h fun vm _ => Vm.yields_tellIn _ h h
  | trust print =>
    exact Vm.yields_selected h fun vm _ =>
      (Vm.yields_trust print False.elim).mono (fun _ => hwrote) hwrote
  | ssh =>
    exact Vm.yields_selected h fun vm _ =>
      ((Vm.yields_shell stdin False.elim).comingTo fun _ => h).leavingAt h
  | target =>
    exact Vm.yields_selected h fun vm _ =>
      ((Vm.yields_target false).comingTo fun _ => h).leavingAt h
  | debug =>
    exact Vm.yields_selected h fun vm _ =>
      (Vm.yields_diagnose False.elim).mono (fun _ => hwrote) hwrote
  | destroy =>
    refine Yields.nextIs (Machine.yields_ownVms.mapError.leavingAt h) ?_
    split
    · exact Vm.yields_tellIn _ h h
    · refine ((Vm.yields_tell _).leavingAt h).next fun _ => ?_
      refine Yields.bind (Machine.yields_destroy_keeps hJ _ h).mapError ?_
      exact fun _ s h => Vm.yields_tellIn _ h h

end UserCommand

end DevVm
