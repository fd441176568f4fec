import DevVm.Proofs.FailStop

/-!
# Where failures are tolerated

Failures are tolerated in two places only: in finding out which state the VM is in (`Vm.select`),
and in collecting diagnostics from the guest (`Vm.collect`). So a run of a command falls into strict
calls and whole runs of these two (`TolerantInLooks`), and a tolerated call is one that they make
themselves, at the place where they make it.

Sequences keep this (`Task.TolerantInLooks.bind`), and whatever makes strict calls only has it
(`Task.TolerantInLooks.of_strict`); so only the operations that select the VM or collect its
diagnostics are left to look at. With what `FailsStop` says of a command it makes up
`UserCommand.perform_stopsAtFault`.
-/

namespace DevVm

/-! ## Runs -/

/-- Some calls that are made to a host from a state: strict ones, whole runs of finding out which
state a VM is in, and whole runs of collecting its diagnostics. -/
inductive TolerantInLooks {σ : Type} (host : Host hostSignature σ) (settings : Settings) :
    σ → List (Event hostSignature) → Prop where
  | done (s : σ) : TolerantInLooks host settings s []
  | strict {s : σ} {e : Event hostSignature} {es : List (Event hostSignature)} (h : e.call.Strict)
      (rest : TolerantInLooks host settings (host.answer e.call s).2 es) :
      TolerantInLooks host settings s (e :: es)
  | selecting (name : String) {s : σ} {es : List (Event hostSignature)}
      (rest : TolerantInLooks host settings
        (Program.run host (Vm.select settings name).program s).state es) :
      TolerantInLooks host settings s
        ((Program.run host (Vm.select settings name).program s).events ++ es)
  | collecting (addresses : List Endpoint) (key : Bytes) {s : σ} {es : List (Event hostSignature)}
      (rest : TolerantInLooks host settings
        (Program.run host (Vm.collect addresses key Diagnostic.all).program s).state es) :
      TolerantInLooks host settings s
        ((Program.run host (Vm.collect addresses key Diagnostic.all).program s).events ++ es)

section Runs

variable {σ : Type} {host : Host hostSignature σ} {settings : Settings} {s : σ}
  {es more : List (Event hostSignature)}

theorem TolerantInLooks.of_strict (h : ∀ e ∈ es, e.call.Strict) :
    TolerantInLooks host settings s es := by
  induction es generalizing s with
  | nil => exact .done s
  | cons e es ih =>
    obtain ⟨he, hes⟩ := List.forall_mem_cons.mp h
    exact .strict he (ih hes)

theorem TolerantInLooks.append (h : TolerantInLooks host settings s es)
    (hmore : TolerantInLooks host settings (host.after s es) more) :
    TolerantInLooks host settings s (es ++ more) := by
  induction h with
  | done s => exact hmore
  | strict h rest ih => exact .strict h (ih hmore)
  | selecting name rest ih =>
    rw [Host.after_append, ← Program.run_state] at hmore
    rw [List.append_assoc]
    exact .selecting name (ih hmore)
  | collecting addresses key rest ih =>
    rw [Host.after_append, ← Program.run_state] at hmore
    rw [List.append_assoc]
    exact .collecting addresses key (ih hmore)

end Runs

/-! ## Tasks -/

namespace Task

variable {ε ε' α β : Type} {settings : Settings}

/-- A task that tolerates failures in looks only, whoever answers its calls. -/
def TolerantInLooks (settings : Settings) (t : Task ε α) : Prop :=
  ∀ (σ : Type) (host : Host hostSignature σ) (s : σ),
    DevVm.TolerantInLooks host settings s (Program.run host t.program s).events

theorem tolerantInLooks_pure (a : α) : TolerantInLooks settings (pure a : Task ε α) :=
  fun _ _ s => .done s

theorem tolerantInLooks_cut : TolerantInLooks settings (cut : Task ε α) := fun _ _ s => .done s

/-- A task of strict calls tolerates nothing, whatever it removes and refuses. -/
theorem TolerantInLooks.of_strict {t : Task VmError α}
    (h : FailsStop HostCall.Strict True (VmError.account 1 VmError.Refusal) t) :
    t.TolerantInLooks settings :=
  fun _ host s => .of_strict (h.run host s).licensed

theorem TolerantInLooks.bind {t : Task ε α} {f : α → Task ε β} (ht : t.TolerantInLooks settings)
    (hf : ∀ a, (f a).TolerantInLooks settings) : (t >>= f).TolerantInLooks settings := by
  intro σ host s
  have hrun : Program.run host (t >>= f).program s = _ :=
    Program.run_bind host t.program (ExceptT.bindCont f) s
  rw [hrun]
  rcases (Program.run host t.program s).result with _ | e | a
  · exact ht σ host s
  · exact (ht σ host s).append (.done _)
  · refine (ht σ host s).append ?_
    rw [← Program.run_state]
    exact hf a σ host _

theorem TolerantInLooks.mapError {t : Task ε α} (ht : t.TolerantInLooks settings) (g : ε → ε') :
    (t.mapError g).TolerantInLooks settings := by
  intro σ host s
  rw [run_mapError]
  exact ht σ host s

end Task

/-! ## Operations that look -/

namespace Vm

open DevVm.Task

variable {settings : Settings}

theorem tolerantInLooks_select (name : String) :
    (select settings name).TolerantInLooks settings := by
  intro σ host s
  have hselect : DevVm.TolerantInLooks host settings s
      ((Program.run host (select settings name).program s).events ++ []) :=
    .selecting name (.done _)
  rwa [List.append_nil] at hselect

theorem tolerantInLooks_collect (addresses : List Endpoint) (key : Bytes) :
    (collect addresses key Diagnostic.all).TolerantInLooks settings := by
  intro σ host s
  have hcollect : DevVm.TolerantInLooks host settings s
      ((Program.run host (collect addresses key Diagnostic.all).program s).events ++ []) :=
    .collecting addresses key (.done _)
  rwa [List.append_nil] at hcollect

/-- Each time a start is handed on the VM is selected anew. -/
theorem tolerantInLooks_start (allowance : Nat) (vm : Vm) (opts : StartOptions) :
    (start settings allowance vm opts).TolerantInLooks settings := by
  induction allowance generalizing vm opts with
  | zero => exact tolerantInLooks_cut
  | succ allowance ih =>
    refine TolerantInLooks.bind (.of_strict (failsStop_startStep vm opts)) fun handed => ?_
    cases handed with
    | none => exact tolerantInLooks_pure _
    | some opts =>
      exact ((tolerantInLooks_select _).mapError _).bind fun next => ih next opts

/-- The key and the file of logs are needed, and only the diagnostics between them are not. -/
theorem tolerantInLooks_diagnose (vm : Vm) : (vm.diagnose settings).TolerantInLooks settings := by
  have hcollect : (collectLogs settings vm.profile).TolerantInLooks settings := by
    refine TolerantInLooks.bind (.of_strict (failsStop_readKey fun _ => ⟨rfl, Nat.zero_le 1⟩))
      fun key => ?_
    refine (tolerantInLooks_collect _ key).bind fun logs => ?_
    exact .of_strict (failsStop_write fun _ => ⟨rfl, Nat.zero_le 1⟩)
  unfold diagnose
  split
  all_goals try exact .of_strict (failsStop_tell _)
  all_goals exact (hcollect.mapError _).bind fun _ => .of_strict (failsStop_tell _)

end Vm

/-! ## Commands -/

namespace UserCommand

open DevVm.Task

/-- Every command tolerates failures in looks only. -/
theorem tolerantInLooks_perform (settings : Settings) (allowance : Nat) (stdin : Bytes)
    (command : UserCommand) :
    (command.perform settings allowance stdin).TolerantInLooks settings := by
  have hselect : (Vm.select settings settings.vmName).TolerantInLooks settings :=
    Vm.tolerantInLooks_select _
  cases command with
  | start opts =>
    refine hselect.bind fun vm => ?_
    refine (Vm.tolerantInLooks_start allowance vm opts).bind fun _ => ?_
    split
    · exact hselect.bind fun vm => .of_strict (Vm.failsStop_target vm true)
    · exact tolerantInLooks_pure _
  | stop => exact hselect.bind fun vm => .of_strict (Vm.failsStop_stop vm)
  | suspend => exact hselect.bind fun vm => .of_strict (Vm.failsStop_suspend vm)
  | resume => exact hselect.bind fun vm => .of_strict (Vm.failsStop_resume vm)
  | status => exact hselect.bind fun _ => .of_strict (failsStop_tell _)
  | trust print => exact hselect.bind fun vm => .of_strict (Vm.failsStop_trust vm print)
  | ssh => exact hselect.bind fun vm => .of_strict (Vm.failsStop_shell vm stdin)
  | target => exact hselect.bind fun vm => .of_strict (Vm.failsStop_target vm false)
  | debug => exact hselect.bind fun vm => Vm.tolerantInLooks_diagnose vm
  | destroy => exact .of_strict (failsStop_destroyAll trivial)

/-- Whoever answers the calls of a command, and however: the first call that fails and may
not is the last thing the command does and the innermost cause of its error, which is
attributed to one stage at most. If no call fails so, the command can only end with a
refusal. The calls that may fail are the looks that `Vm.select` takes at the guest and the
diagnostics that `Vm.collect` asks for, each where these two make it. -/
theorem perform_stopsAtFault {σ : Type} (host : Host hostSignature σ) (settings : Settings)
    (allowance : Nat) (stdin : Bytes) (command : UserCommand) (s : σ) :
    let outcome := Program.run host (command.perform settings allowance stdin).program s
    outcome.StopsAtFault (HostCall.Licensed settings) (VmError.account 1 VmError.Refusal) ∧
      TolerantInLooks host settings s outcome.events :=
  ⟨(failsStop_perform settings allowance stdin command).run host s,
    tolerantInLooks_perform settings allowance stdin command σ host s⟩

end UserCommand

end DevVm
