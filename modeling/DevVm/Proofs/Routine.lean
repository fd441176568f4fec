import DevVm.Proofs.FailStop
import DevVm.Proofs.Moments

/-!
# Routine calls

Most calls of a command matter to nobody but the command. What a VM is made of hangs on few:
importing it, setting it up and recording that, handing it its options, and what the user is
asked. All other calls are `Routine`, and those among them that change nothing only look.

Selecting the VM, and finding out about machines in general, only looks (`Vm.looks_select`).
Every command but a start and a resumption makes routine calls only
(`UserCommand.routine_perform`). These refuse nothing either, so none of their errors is one of
those by which a request is rejected (`VmError.isRejection`, `StopsAtFault.not_rejection`).
-/

namespace DevVm

/-! ## Kinds of calls -/

/-- Requests that change nothing. -/
def HypervisorCall.looks : HypervisorCall → Bool
  | .isRegistered _ | .isRunning _ | .isSaved _ | .listRunning | .listAll | .size _ | .interfaces
  | .forwardedPort _ _ | .extraData _ _ => true
  | .importImage .. | .powerOn _ | .shutDown _ | .saveState _ | .switchOff _ | .remove _
  | .createInterface _ | .attach _ _ | .forward .. | .putExtraData .. => false

/-- Calls that change nothing, but for what the user is told. Of a guest they ask how it is. -/
def Call.looks : Call → Bool
  | .hypervisor request => request.looks
  | .ssh (.capture .checkHealth _ _ _) | .read _ | .tell _ => true
  | .ssh _ | .writePrivate _ _ | .runProgram _ _ | .confirm _ => false

/-- The command that a call runs in the guest. -/
def Call.command? : Call → Option GuestCommand
  | .ssh (.run command _ _ _) | .ssh (.capture command _ _ _) => some command
  | _ => none

/-- Commands that neither set the guest up nor hand it its options. -/
def GuestCommand.isRoutine : GuestCommand → Bool
  | .configureNetwork _ | .authorizeKey _ | .writeOptions _ => false
  | .provision _ | .checkHealth | .forgetHealth | .showCertificate | .diagnose _ => true

/-- Calls that matter to nobody but the command that makes them. -/
def Call.Routine (settings : Settings) : Call → Prop
  | .hypervisor (.importImage ..) | .hypervisor (.putExtraData ..) | .confirm _ => False
  | .ssh (.run command _ _ _) | .ssh (.capture command _ _ _) => command.isRoutine = true
  | .writePrivate path _ => path ≠ settings.privateKeyPath
  | .hypervisor _ | .ssh _ | .read _ | .runProgram _ _ | .tell _ => True

/-- A look is a routine. -/
theorem Call.routine_of_looks {settings : Settings} {c : Call} (h : c.looks = true) :
    c.Routine settings := by
  cases c with
  | hypervisor request => cases request <;> first | exact trivial | cases h
  | ssh request =>
    cases request with
    | capture command addresses key limit => cases command <;> first | exact rfl | cases h
    | _ => cases h
  | read path => exact trivial
  | tell text => exact trivial
  | writePrivate path content => cases h
  | runProgram program args => cases h
  | confirm question => cases h

/-- The errors by which a request is rejected before anything is done. -/
def VmError.isRejection : VmError → Bool
  | .changed _ | .insufficientMemory _ _ | .declined | .oldVmPresent
  | .during .importing (.machine (.invalidIp _)) => true
  | _ => false

/-- No failed call is behind a rejection. -/
theorem VmError.fault?_of_isRejection {e : VmError} (h : e.isRejection = true) :
    e.fault? = none := by
  cases e with
  | changed _ | insufficientMemory _ _ | declined | oldVmPresent => rfl
  | during stage cause =>
    cases cause with
    | machine cause =>
      cases cause with
      | invalidIp ip => rfl
      | _ => cases stage <;> cases h
    | _ => cases stage <;> cases h
  | _ => cases h

/-- Where nothing is refused, no error is a rejection. -/
theorem Outcome.StopsAtFault.not_rejection {σ α : Type} {licence : HostCall → Prop} {depth : Nat}
    {o : Outcome hostSignature σ (Except VmError α)} {error : VmError}
    (h : o.StopsAtFault licence (VmError.account depth fun _ => False))
    (hr : o.result = some (.error error)) : error.isRejection = false := by
  rcases hfirst : o.events.find? (·.fault?.isSome) with _ | e
  · -- Without a fault among the calls there would be no error.
    refine (h.refuses (fun e he => ?_) error hr).elim
    have hnone := List.find?_eq_none.mp hfirst e he
    exact Option.not_isSome_iff_eq_none.mp hnone
  · obtain ⟨hsome, before, after, hevents, hbefore⟩ := List.find?_eq_some_iff_append.mp hfirst
    obtain ⟨fault, hfault⟩ := Option.isSome_iff_exists.mp hsome
    have hnone : ∀ earlier ∈ before, earlier.fault? = none := by
      intro earlier hin
      simpa using hbefore earlier hin
    obtain ⟨-, blamed, hresult, hblames, -⟩ := h.stops before e after fault hevents hnone hfault
    obtain rfl : error = blamed := Except.error.inj (Option.some.inj (hr.symm.trans hresult))
    refine Bool.eq_false_iff.mpr fun hrejection => ?_
    rw [VmError.fault?_of_isRejection hrejection] at hblames
    cases hblames

/-! ## What only looks -/

/-- A task that makes calls that only look. -/
abbrev Task.Looks {ε α : Type} (t : Task ε α) : Prop := t.Makes fun c => c.looks = true

namespace Machine

open DevVm.Task

theorem looks_hypervisor {request : HypervisorCall} (h : request.looks = true) :
    (hypervisor request).Looks := makes_need h

theorem looks_status (name : String) : (status name).Looks := by
  refine (looks_hypervisor rfl).bind fun present => ?_
  split
  · exact makes_pure _
  · exact (looks_hypervisor rfl).bind fun running => makes_pure _

theorem looks_describe (name : String) : (describe name).Looks := by
  refine (looks_hypervisor rfl).bind fun info => ?_
  refine (looks_hypervisor rfl).bind fun sshPort => ?_
  refine (looks_hypervisor rfl).bind fun recordedIp => ?_
  exact (looks_hypervisor rfl).bind fun recordedDomain => makes_pure _

theorem looks_ownVms : ownVms.Looks :=
  (looks_hypervisor rfl).bind fun _ => makes_pure _

theorem looks_conflicting (name : String) : (conflicting name).Looks :=
  looks_ownVms.bind fun _ => makes_pure _

end Machine

namespace Vm

open DevVm.Task

variable {settings : Settings}

theorem looks_tell {ε : Type} (text : String) : (Task.tell text : Task ε Unit).Looks :=
  makes_need rfl

theorem looks_readKey (wrap : FileError → VmError) : (readKey settings wrap).Looks :=
  makes_need rfl

theorem looks_answersHealthy (vm : VmProfile) : (answersHealthy settings vm).Looks := by
  refine (makes_attempt (by rfl)).bind fun read => ?_
  cases read with
  | error e => exact makes_pure _
  | ok key => exact (makes_attempt (by rfl)).bind fun checked => makes_pure _

/-- Selecting the VM only looks. -/
theorem looks_select (name : String) : (select settings name).Looks := by
  refine (Machine.looks_status name).mapError.bind fun status => ?_
  cases status with
  | notCreated => exact makes_pure _
  | stopped =>
    refine (Machine.looks_describe name).mapError.bind fun vm => ?_
    exact (Machine.looks_hypervisor rfl).mapError.bind fun saved => makes_pure _
  | running =>
    refine (Machine.looks_describe name).mapError.bind fun vm => ?_
    exact (looks_answersHealthy vm).bind fun provisioned => makes_pure _

end Vm

/-! ## What is routine -/

/-- A task that makes routine calls. -/
abbrev Task.IsRoutine (settings : Settings) {ε α : Type} (t : Task ε α) : Prop :=
  t.Makes (Call.Routine settings)

theorem Task.Looks.isRoutine {settings : Settings} {ε α : Type} {t : Task ε α} (h : t.Looks) :
    t.IsRoutine settings := h.mono fun _ => Call.routine_of_looks

namespace Machine

open DevVm.Task

variable {settings : Settings}

theorem routine_hypervisor {request : HypervisorCall}
    (h : (Call.hypervisor request).Routine settings) :
    (hypervisor request).IsRoutine settings := makes_need h

theorem routine_destroyOne (name : String) : (destroyOne name).IsRoutine settings := by
  refine (routine_hypervisor (by exact trivial)).bind fun present => ?_
  split
  · refine (routine_hypervisor (by exact trivial)).bind fun running => ?_
    split
    · exact (routine_hypervisor (by exact trivial)).bind fun _ =>
        routine_hypervisor (by exact trivial)
    · exact routine_hypervisor (by exact trivial)
  · exact makes_pure _

theorem routine_destroy (names : List String) : (destroy names).IsRoutine settings := by
  induction names with
  | nil => exact makes_pure _
  | cons name more ih => exact (routine_destroyOne name).bind fun _ => ih

end Machine

/-! ### Files other than the private key -/

namespace Path

/-- Different names lead to different files of a directory. -/
theorem join_ne_join {dir a b : String} (ha : a.toList.head? ≠ some '/')
    (hb : b.toList.head? ≠ some '/') (h : a ≠ b) : join dir a ≠ join dir b := by
  unfold join
  intro hjoin
  by_cases hempty : dir = ""
  · rw [if_pos (.inr hempty), if_pos (.inr hempty)] at hjoin
    exact h hjoin
  · rw [if_neg (not_or.mpr ⟨ha, hempty⟩), if_neg (not_or.mpr ⟨hb, hempty⟩)] at hjoin
    split at hjoin
    · exact h (String.append_right_inj _ |>.mp hjoin)
    · exact h (String.append_right_inj _ |>.mp hjoin)

/-- A path ends like the name of what it leads to. -/
theorem getLast?_join {dir name : String} {last : Char} (h : name.toList.getLast? = some last) :
    (join dir name).toList.getLast? = some last := by
  unfold join
  split
  · exact h
  · split <;> simp only [String.toList_append, List.getLast?_append, h, Option.some_or]

end Path

namespace Settings

variable (settings : Settings)

theorem certificatePath_ne_privateKeyPath :
    settings.certificatePath ≠ settings.privateKeyPath :=
  Path.join_ne_join (by decide) (by decide) (by decide)

theorem logsPath_ne_privateKeyPath : settings.logsPath ≠ settings.privateKeyPath := by
  intro heq
  have hkey : settings.privateKeyPath.toList.getLast? = some 'm' := Path.getLast?_join (by decide)
  rw [← heq] at hkey
  exact absurd hkey (by decide : "pcfdev-debug.log".toList.getLast? ≠ some 'm')

end Settings

/-! ### Commands -/

namespace Vm

open DevVm.Task

variable {settings : Settings} {vm : Vm}

theorem routine_tell {ε : Type} (text : String) :
    (Task.tell text : Task ε Unit).IsRoutine settings := (looks_tell text).isRoutine

theorem routine_readKey (wrap : FileError → VmError) :
    (readKey settings wrap).IsRoutine settings := (looks_readKey wrap).isRoutine

theorem routine_ssh {request : SshCall} {wrap : SshError → VmError}
    (h : (Call.ssh request).Routine settings) :
    (Task.need (.ssh request) wrap).IsRoutine settings := makes_need h

theorem routine_switchOff (profile : VmProfile) (stage : Stage) :
    (switchOff profile stage).IsRoutine settings := by
  refine (routine_tell _).bind fun _ => ?_
  refine Makes.bind (Machine.routine_hypervisor (by exact trivial)).mapError fun _ => ?_
  exact routine_tell _

theorem routine_stop : vm.stop.IsRoutine settings := by
  unfold stop
  split
  all_goals first | exact routine_tell _ | exact routine_switchOff _ _

theorem routine_suspend : vm.suspend.IsRoutine settings := by
  unfold suspend
  split
  all_goals try exact routine_tell _
  refine (routine_tell _).bind fun _ => ?_
  refine Makes.bind (Machine.routine_hypervisor (by exact trivial)).mapError fun _ => ?_
  exact routine_tell _

theorem routine_trust (print : Bool) : (vm.trust settings print).IsRoutine settings := by
  unfold trust
  split
  all_goals try exact routine_tell _
  refine (routine_readKey _).bind fun key => ?_
  refine (routine_ssh (by exact rfl)).bind fun certificate => ?_
  split
  · exact routine_tell _
  · have hpath := settings.certificatePath_ne_privateKeyPath
    exact Makes.bind (makes_need hpath) fun _ => routine_tell _

theorem routine_shell (stdin : Bytes) : (vm.shell settings stdin).IsRoutine settings := by
  unfold shell
  split
  all_goals try exact routine_tell _
  all_goals
    refine (routine_readKey _).bind fun key => ?_
    exact routine_ssh (by exact trivial)

theorem routine_target (auto : Bool) : (vm.target auto).IsRoutine settings := by
  unfold target
  split
  all_goals try exact routine_tell _
  refine (makes_need (by exact trivial)).bind fun _ => ?_
  split
  · exact routine_tell _
  · exact makes_pure _

theorem routine_collect (addresses : List Endpoint) (key : Bytes) (whats : List Diagnostic) :
    (collect addresses key whats).IsRoutine settings := by
  induction whats with
  | nil => exact makes_pure _
  | cons what more ih =>
    refine (makes_attempt (by exact rfl)).bind fun reply => ?_
    exact ih.bind fun rest => makes_pure _

theorem routine_diagnose : (vm.diagnose settings).IsRoutine settings := by
  have hlogs : (collectLogs settings vm.profile).IsRoutine settings := by
    refine (routine_readKey _).bind fun key => ?_
    refine (routine_collect _ key _).bind fun logs => ?_
    exact makes_need settings.logsPath_ne_privateKeyPath
  unfold diagnose
  split
  all_goals try exact routine_tell _
  all_goals exact hlogs.mapError.bind fun _ => routine_tell _

end Vm

namespace UserCommand

open DevVm.Task

variable {settings : Settings}

theorem routine_destroyAll : destroyAll.IsRoutine settings := by
  refine Makes.bind (Looks.isRoutine Machine.looks_ownVms).mapError fun names => ?_
  split
  · exact Vm.routine_tell _
  · refine (Vm.routine_tell _).bind fun _ => ?_
    exact (Machine.routine_destroy _).mapError.bind fun _ => Vm.routine_tell _

theorem routine_perform {command : UserCommand} (h : command.isPlain = true) (allowance : Nat)
    (stdin : Bytes) : (command.perform settings allowance stdin).IsRoutine settings := by
  have hselect : (Vm.select settings settings.vmName).IsRoutine settings :=
    (Vm.looks_select _).isRoutine
  cases command with
  | start opts => cases h
  | resume => cases h
  | stop => exact hselect.bind fun vm => Vm.routine_stop
  | suspend => exact hselect.bind fun vm => Vm.routine_suspend
  | status => exact hselect.bind fun vm => Vm.routine_tell _
  | trust print => exact hselect.bind fun vm => Vm.routine_trust print
  | ssh => exact hselect.bind fun vm => Vm.routine_shell stdin
  | target => exact hselect.bind fun vm => Vm.routine_target false
  | debug => exact hselect.bind fun vm => Vm.routine_diagnose
  | destroy => exact routine_destroyAll

end UserCommand

end DevVm
