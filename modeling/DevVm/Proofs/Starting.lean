import DevVm.Proofs.Machines
import DevVm.Vm.Start

/-!
# What a start comes to

The steps of a start, by standings: selecting the VM, checking what was asked for, switching
the VM on, provisioning it, and what the step of each state does (`yields_startStep_absent`
and its like).

Selecting only looks. It tells a machine that is up from one that is not even if calls fail,
but a failed look at the guest makes it count as not provisioned, and a scripted one may
answer anything (`Standing.Seen`).
-/

namespace DevVm

/-- Whether the VM is running, provisioned or not. -/
def Phase.isUp : Phase → Bool
  | .unprovisioned | .running => true
  | .notCreated | .stopped | .saved => false

namespace World.Standing

variable {settings : Settings} {s : Standing}

/-- Whether the private key is there to be read. -/
def hasKey (settings : Settings) (s : Standing) : Bool :=
  (Table.get? settings.privateKeyPath s.files).isSome

/-- Whether the key built into the appliance is there to be read. -/
def hasInsecureKey (settings : Settings) (s : Standing) : Bool :=
  (Table.get? settings.insecureKeyPath s.files).isSome

/-- The state the VM is in. -/
def phase (settings : Settings) (s : Standing) : Phase :=
  match s.machine with
  | none => .notCreated
  | some m =>
    match m.power with
    | .running => if s.healthy && s.hasKey settings then .running else .unprovisioned
    | .saved => .saved
    | .stopped | .other _ => .stopped

/-- The facts about the VM, or about the one a fresh import would make. -/
def profile (settings : Settings) (s : Standing) : VmProfile :=
  match s.machine with
  | none => VmProfile.planned settings none none none none
  | some m => m.profile settings.vmName

/-- What selecting the VM makes of a standing. -/
structure Seen (settings : Settings) (sure : Prop) (s : Standing) (vm : Vm) : Prop where
  profile : vm.profile = s.profile settings
  phase : vm.phase = s.phase settings ∨ ¬sure ∧ vm.phase.isUp ∧ (s.phase settings).isUp

/-- A request that a start does not refuse: for a VM that is there it changes nothing, and for
one that is not there is no other VM of this program and enough memory is asked for. -/
def Accepts (settings : Settings) (opts : StartOptions) (s : Standing) : Prop :=
  match s.machine with
  | none =>
    (∀ name ∈ s.names, DevVm.Machine.isOwnName name → name = settings.vmName) ∧
      settings.minMemory ≤ opts.memory.getD settings.defaultMemory
  | some _ => opts.refuseChange = .ok ()

/-- The host has the memory free that the VM takes, or would take. -/
def HasRoom (settings : Settings) (opts : StartOptions) (s : Standing) : Prop :=
  match s.machine with
  | none => opts.memory.getD settings.defaultMemory ≤ settings.freeMemory
  | some m => m.memory ≤ settings.freeMemory

end World.Standing

namespace Vm

open DevVm.Task DevVm.World

variable {n : String} {sure : Prop} {s : Standing} {m : World.Machine} {settings : Settings}

/-! ## Selecting -/

/-- In a calm world a guest counts as provisioned if it is healthy and the key is there. -/
theorem yields_answersHealthy (vm : VmProfile) :
    Yields n sure (answersHealthy settings vm) s
      (fun answer s' => s' = s ∧ (sure → answer = (s.healthy && s.hasKey settings))) (· = s) := by
  have hread : Yields n sure (Task.attempt (.read settings.privateKeyPath) : Task VmError _) s
      (fun reply s' => s' = s ∧ (sure → Except.isOk reply = s.hasKey settings)) (· = s) := by
    refine yields_attempt (fun v hvalue => ⟨rfl, fun _ => ?_⟩) fun e hfailed => ⟨rfl, fun hs => ?_⟩
    · exact (congrArg Option.isSome (show Table.get? _ s.files = some v from hvalue)).symm
    · exact (Bool.eq_false_iff.mpr (hfailed hs)).symm
  refine hread.nextWith fun read hread => ?_
  cases read with
  | error e =>
    refine yields_pure ⟨rfl, fun hs => ?_⟩
    rw [← hread hs]
    exact (Bool.and_false _).symm
  | ok key =>
    refine yields_checkHealth.nextWith fun checked hchecked => ?_
    refine yields_pure ⟨rfl, fun hs => ?_⟩
    refine (hchecked hs).trans ?_
    rw [← hread hs]
    exact (Bool.and_true _).symm

theorem phase_stopped (hm : s.machine = some m) (hpower : m.power ≠ .running) :
    s.phase settings = if m.power = .saved then .saved else .stopped := by
  unfold Standing.phase
  rw [hm]
  dsimp only
  split
  next hp => exact absurd hp hpower
  next hp => rw [if_pos hp]
  next hp => rw [if_neg (by rw [hp]; nofun)]
  next hp => rw [if_neg (by rw [hp]; nofun)]

theorem phase_running (hm : s.machine = some m) (hpower : m.power = .running) :
    s.phase settings = if s.healthy && s.hasKey settings then .running else .unprovisioned := by
  unfold Standing.phase
  rw [hm]
  dsimp only
  rw [hpower]

/-- A machine that counts as saved is saved. -/
theorem saved_of_phase (hm : s.machine = some m) (h : s.phase settings = .saved) :
    m.power = .saved := by
  by_cases hpower : m.power = .running
  · rw [phase_running hm hpower] at h
    split at h <;> cases h
  · rw [phase_stopped hm hpower] at h
    split at h
    next hsaved => exact hsaved
    next => cases h

/-- A VM that counts as running is so, and healthy besides. -/
theorem running_of_phase (hm : s.machine = some m) (h : s.phase settings = .running) :
    m.power = .running ∧ s.healthy = true ∧ s.hasKey settings = true := by
  by_cases hpower : m.power = .running
  · rw [phase_running hm hpower] at h
    split at h
    next hhealthy => exact ⟨hpower, Bool.and_eq_true_iff.mp hhealthy⟩
    next => cases h
  · rw [phase_stopped hm hpower] at h
    split at h <;> cases h

theorem profile_present (hm : s.machine = some m) :
    s.profile settings = m.profile settings.vmName := by
  unfold Standing.profile
  rw [hm]

/-- Selecting the VM only looks, and sees what there is. -/
theorem yields_select :
    Yields settings.vmName sure (select settings settings.vmName) s
      (fun vm s' => s' = s ∧ s.Seen settings sure vm) (· = s) := by
  refine Yields.nextIs (Machine.yields_status.mapError) ?_
  unfold Standing.status
  rcases hm : s.machine with _ | m
  · refine yields_pure ⟨rfl, ?_, .inl ?_⟩
    · unfold Standing.profile
      rw [hm]
      rfl
    · unfold Standing.phase
      rw [hm]
  dsimp only
  by_cases hpower : m.power = .running
  · rw [if_pos hpower]
    refine Yields.nextIs (Machine.yields_describe hm).mapError ?_
    refine (yields_answersHealthy _).nextWith fun provisioned hprovisioned => ?_
    refine yields_pure ⟨rfl, (profile_present hm).symm, ?_⟩
    rw [phase_running hm hpower]
    by_cases hs : sure
    · left
      rw [hprovisioned hs]
    · -- The look at the guest may have failed, but that the VM is up is certain.
      right
      refine ⟨hs, ?_, ?_⟩
      · cases provisioned <;> rfl
      · split <;> rfl
  · rw [if_neg hpower]
    refine Yields.nextIs (Machine.yields_describe hm).mapError ?_
    refine Yields.nextIs Machine.yields_isSuspended.mapError ?_
    refine yields_pure ⟨rfl, (profile_present hm).symm, .inl ?_⟩
    rw [phase_stopped hm hpower]
    simp only [hm, Option.any_some, decide_eq_true_eq]

/-! ## Checking what was asked for -/

theorem yields_tell (text : String) :
    Yields n sure (Task.tell text : Task VmError Unit) s (fun _ s' => s' = s) (· = s) :=
  yields_need (fun _ => trivial) (fun _ _ => rfl) rfl

theorem yields_refuseChange {opts : StartOptions} (h : sure → opts.refuseChange = .ok ()) :
    Yields n sure (Task.ofExcept opts.refuseChange) s
      (fun _ s' => s' = s ∧ opts.refuseChange = .ok ()) (· = s) := by
  refine yields_ofExcept (fun _ hok => ⟨rfl, hok⟩) fun e he => ⟨fun hs => ?_, rfl⟩
  rw [h hs] at he
  cases he

/-- Nobody is asked about memory if there is enough of it. -/
theorem yields_confirmMemory {memory : UInt64} (h : sure → memory ≤ settings.freeMemory) :
    Yields n sure (confirmMemory settings memory) s (fun _ s' => s' = s) (· = s) := by
  unfold confirmMemory
  split
  next hshort =>
    have hsure : ¬sure := fun hs => absurd hshort (UInt64.not_lt.mpr (h hs))
    refine (yields_need (fun _ => trivial) (fun _ _ => rfl) rfl :
      Yields n sure (Task.confirm _) s (fun _ s' => s' = s) (· = s)).next fun accepted => ?_
    split
    · exact yields_throw hsure rfl
    · exact yields_pure rfl
  next => exact yields_pure rfl

variable {vm : Vm} {opts : StartOptions}

theorem seen_name (hseen : s.Seen settings sure vm) : vm.profile.name = settings.vmName := by
  rw [hseen.profile]
  unfold Standing.profile
  split <;> rfl

/-- In a calm world the VM is seen in the state it is in. -/
theorem seen_sure (hseen : s.Seen settings True vm) : vm.phase = s.phase settings :=
  hseen.phase.resolve_right fun h => h.1 trivial

theorem seen_absent (hseen : s.Seen settings sure vm) (hm : s.machine = none) :
    vm.phase = .notCreated := by
  have hphase : s.phase settings = .notCreated := by
    unfold Standing.phase
    rw [hm]
  rcases hseen.phase with h | ⟨-, -, h⟩
  · exact h.trans hphase
  · rw [hphase] at h
    cases h

theorem phase_present (hm : s.machine = some m) : s.phase settings ≠ .notCreated := by
  by_cases hpower : m.power = .running
  · rw [phase_running hm hpower]
    split <;> nofun
  · rw [phase_stopped hm hpower]
    split <;> nofun

theorem seen_present (hseen : s.Seen settings sure vm) (hm : s.machine = some m) :
    vm.phase ≠ .notCreated := by
  rcases hseen.phase with h | ⟨-, h, -⟩
  · rw [h]
    exact phase_present hm
  · intro hnone
    rw [hnone] at h
    cases h

/-- A request is accepted only if it is acceptable, and in a calm world with room enough it is
accepted then. -/
theorem yields_verify (hseen : s.Seen settings sure vm)
    (hsure : sure → s.Accepts settings opts ∧ s.HasRoom settings opts) :
    Yields settings.vmName sure (verify settings vm opts) s
      (fun _ s' => s' = s ∧ s.Accepts settings opts) (· = s) := by
  unfold Standing.Accepts Standing.HasRoom at *
  unfold verify
  rcases hm : s.machine with _ | m
  · rw [hm] at hsure
    rw [seen_absent hseen hm, seen_name hseen]
    refine Yields.nextWith Machine.yields_conflicting.mapError fun conflicting hconflicting => ?_
    split
    next htrue =>
      refine yields_throw (fun hs => ?_) rfl
      rw [hconflicting.mpr (hsure hs).1.1] at htrue
      cases htrue
    next hfalse =>
      have hnone := hconflicting.mp (Bool.not_eq_true _ ▸ hfalse)
      dsimp only
      split
      next hsmall =>
        refine yields_throw (fun hs => ?_) rfl
        exact absurd hsmall (UInt64.not_lt.mpr (hsure hs).1.2)
      next hlarge =>
        exact (yields_confirmMemory fun hs => (hsure hs).2).comingTo
          fun _ => ⟨rfl, hnone, UInt64.not_lt.mp hlarge⟩
  · rw [hm] at hsure
    have hrefuse := yields_refuseChange (n := settings.vmName) (s := s) fun hs => (hsure hs).1
    have hmemory : sure → vm.profile.memory ≤ settings.freeMemory := by
      intro hs
      rw [hseen.profile, profile_present hm]
      exact (hsure hs).2
    have hasked : Yields settings.vmName sure (do
        Task.ofExcept opts.refuseChange
        confirmMemory settings vm.profile.memory) s
        (fun _ s' => s' = s ∧ opts.refuseChange = .ok ()) (· = s) := by
      refine hrefuse.nextWith fun _ haccepted => ?_
      exact (yields_confirmMemory hmemory).comingTo fun _ => ⟨rfl, haccepted⟩
    -- Memory is only an issue for a VM that is to be switched on.
    split
    next hphase => exact absurd hphase (seen_present hseen hm)
    · exact hasked
    · exact hasked
    · exact hrefuse
    · exact hrefuse

/-! ## Steps of a start -/

theorem yields_wait {addresses : List Endpoint} {key : Bytes} {limit : Duration}
    {wrap : SshError → VmError} :
    Yields n sure (Task.need (.ssh (.wait addresses key limit)) wrap) s (fun _ s' => s' = s)
      (· = s) := yields_need (fun _ => trivial) (fun _ _ => rfl) rfl

theorem yields_readKey (wrap : FileError → VmError) (h : sure → s.hasKey settings = true) :
    Yields n sure (readKey settings wrap) s (fun _ s' => s' = s) (· = s) :=
  (Machine.yields_read h).mono (fun _ _ h => h.1) fun _ h => h

theorem yields_runCommand {command : GuestCommand} (h : command ≠ .checkHealth)
    {addresses : List Endpoint} {key : Bytes} {limit : Duration} {wrap : SshError → VmError} :
    Yields n sure (Task.need (.ssh (.run command addresses key limit)) wrap) s
      (fun _ s' => s' = { s with healthy := command.healthAfter s.healthy }) (· = s) :=
  yields_need (fun _ heq => absurd heq h) (fun _ _ => rfl) rfl

/-- A machine that has been booted is there and runs. -/
theorem booted_machine (settings : Settings) (profile : VmProfile) (m : World.Machine)
    (s : Standing) :
    ∃ m', (s.booted settings profile m).machine = some m' ∧ m'.power = .running := by
  unfold Standing.booted
  split
  · exact ⟨_, rfl, rfl⟩
  · exact ⟨_, rfl, rfl⟩

/-- Booting makes sure of the private key, unless the machine counts as set up already. -/
theorem booted_hasKey {profile : VmProfile}
    (h : m.isSetUp = true → s.hasKey settings = true) :
    (s.booted settings profile m).hasKey settings = true := by
  unfold Standing.booted
  split
  next hset => exact h hset
  next =>
    show (Table.get? settings.privateKeyPath (Table.put settings.privateKeyPath _ s.files)).isSome
      = true
    rw [Table.get?_put, if_pos rfl]
    rfl

/-- What is left to do once the VM is switched on. -/
def handedOn (opts : StartOptions) : Option StartOptions :=
  if opts.noProvision then none else some { opts with provision := true }

/-- Switching the VM on boots its machine. -/
theorem yields_switchOn {profile : VmProfile} (hname : profile.name = n)
    (hm : s.machine = some m) (hport : m.port?.isSome)
    (hinsecure : sure → m.isSetUp = false → s.hasInsecureKey settings = true)
    (hkey : sure → m.isSetUp = true → s.hasKey settings = true) :
    Yields n sure (switchOn settings profile opts) s
      (fun handed s' => s' = s.booted settings profile m ∧ handed = handedOn opts)
      (fun s' => s.Halfway settings profile m s' ∨ s' = s.booted settings profile m) := by
  refine ((yields_tell _).leavingAt (.inl .untouched)).next fun _ => ?_
  refine Yields.next ((Machine.yields_start hname hm hport hinsecure).mapError.leaving
    fun _ => .inl) fun sshPort => ?_
  -- Whatever fails now, the machine has been booted.
  have hread := yields_readKey (n := n) (s := s.booted settings profile m)
    (VmError.during .start ∘ VmError.files) fun hs => booted_hasKey (hkey hs)
  refine (hread.leaving fun _ => .inr).next fun key => ?_
  refine ((yields_runCommand (by nofun)).leaving fun _ => .inr).next fun _ => ?_
  unfold handedOn
  split
  · refine ((yields_tell _).leaving fun _ => .inr).next fun _ => ?_
    exact yields_pure ⟨rfl, rfl⟩
  · exact yields_pure ⟨rfl, rfl⟩

theorem yields_switchOff {profile : VmProfile} {stage : Stage} (hname : profile.name = n)
    (hm : s.machine = some m) :
    Yields n sure (switchOff profile stage) s
      (fun _ s' => s' = s.withMachine (m.powered .stopped))
      (fun s' => s' = s ∨ s' = s.withMachine (m.powered .stopped)) := by
  subst hname
  refine ((yields_tell _).leaving fun _ => .inl).next fun _ => ?_
  refine Yields.next ((Machine.yields_shutDown hm).mapError.leaving fun _ => .inl) fun _ => ?_
  exact (yields_tell _).leaving fun _ => .inr

/-- Provisioning makes the guest healthy. -/
theorem yields_provision {profile : VmProfile} (hkey : sure → s.hasKey settings = true) :
    Yields n sure (provision settings profile opts) s
      (fun _ s' => s' = { s with healthy := true }) (· = s) := by
  refine (yields_tell _).next fun _ => ?_
  refine (yields_readKey _ hkey).next fun key => ?_
  exact yields_runCommand (by nofun)

/-- Restoring a saved VM makes its machine run. -/
theorem yields_restore {profile : VmProfile} (hname : profile.name = n) (hm : s.machine = some m)
    (hroom : sure → profile.memory ≤ settings.freeMemory)
    (hkey : sure → s.hasKey settings = true) :
    Yields n sure (restore settings profile) s
      (fun _ s' => s' = s.withMachine (m.powered .running))
      (fun s' => s' = s ∨ s' = s.withMachine (m.powered .running)) := by
  subst hname
  refine ((yields_confirmMemory hroom).leaving fun _ => .inl).next fun _ => ?_
  refine ((yields_tell _).leaving fun _ => .inl).next fun _ => ?_
  refine Yields.next ((Machine.yields_powerOn hm).mapError.leaving fun _ => .inl) fun _ => ?_
  have hread := yields_readKey (n := profile.name) (s := s.withMachine (m.powered .running))
    (.during .resume ∘ .files) hkey
  refine (hread.leaving fun _ => .inr).next fun key => ?_
  refine (yields_wait.leaving fun _ => .inr).next fun _ => ?_
  exact (yields_tell _).leaving fun _ => .inr

/-! ## What each state contributes -/

/-- The VM that a request asks for. -/
def wanted (settings : Settings) (opts : StartOptions) : VmProfile :=
  VmProfile.planned settings opts.memory opts.cpus (StartOptions.asked? opts.ip)
    (StartOptions.asked? opts.domain)

theorem requested_eq_wanted (hseen : s.Seen settings sure vm) :
    requested settings vm opts = wanted settings opts := by
  unfold requested
  rw [seen_name hseen]
  rfl

/-- A VM that is not there is imported and booted. -/
theorem yields_startStep_absent (hseen : s.Seen settings sure vm) (hm : s.machine = none)
    (hsure : sure → s.Accepts settings opts ∧ s.HasRoom settings opts ∧
      (Network.Ipv4.ofText? (wanted settings opts).ip.toList).isSome ∧
      s.hasInsecureKey settings = true) :
    Yields settings.vmName sure (startStep settings vm opts) s
      (fun handed s' => (∃ port, s' = (s.connected (wanted settings opts) port).booted settings
          (wanted settings opts) ((World.Machine.fresh (wanted settings opts)).connected port)) ∧
        handed = handedOn opts)
      (fun s' => s' = s ∨ s' = s.imported (wanted settings opts) ∨
        ∃ port, (s.connected (wanted settings opts) port).Halfway settings (wanted settings opts)
            ((World.Machine.fresh (wanted settings opts)).connected port) s' ∨
          s' = (s.connected (wanted settings opts) port).booted settings (wanted settings opts)
            ((World.Machine.fresh (wanted settings opts)).connected port)) := by
  unfold startStep
  rw [seen_absent hseen hm]
  refine ((yields_verify hseen fun hs => ⟨(hsure hs).1, (hsure hs).2.1⟩).leaving
    fun _ => .inl).nextWith fun _ _ => ?_
  refine ((yields_tell _).leaving fun _ => .inl).next fun _ => ?_
  rw [requested_eq_wanted hseen]
  have himport : Yields settings.vmName sure
      ((Machine.importImage settings.imagePath (wanted settings opts)).mapError
        (VmError.ofMachine .importing)) s _ _ :=
    (Machine.yields_importImage rfl hm fun hs => (hsure hs).2.2.1).mapError
  refine (himport.leaving fun _ h => h.imp_right .inl).bind ?_
  intro _ s' hconnected
  obtain ⟨port, rfl⟩ := hconnected
  -- The import is over, and whatever fails now leaves a machine that can be reached.
  refine ((yields_tell _).leavingAt (.inr (.inr ⟨port, .inl .untouched⟩))).next fun _ => ?_
  have hboot : Yields settings.vmName sure (switchOn settings (wanted settings opts) opts)
      (s.connected (wanted settings opts) port) _ _ :=
    yields_switchOn (m := (World.Machine.fresh (wanted settings opts)).connected port) rfl rfl rfl
      (fun hs _ => (hsure hs).2.2.2) fun _ => nofun
  exact hboot.mono (fun handed s' h => ⟨⟨port, h.1⟩, h.2⟩) fun s' h => .inr (.inr ⟨port, h⟩)

/-- A running guest that is not provisioned is provisioned if that is asked for. -/
theorem yields_startStep_provision (hphase : vm.phase = .unprovisioned)
    (hprovision : opts.provision = true) (hkey : sure → s.hasKey settings = true) :
    Yields settings.vmName sure (startStep settings vm opts) s
      (fun handed s' => s' = { s with healthy := true } ∧ handed = none) (· = s) := by
  unfold startStep
  rw [hphase]
  dsimp only
  rw [if_pos hprovision]
  refine (yields_provision hkey).next fun _ => ?_
  exact yields_pure ⟨rfl, rfl⟩

/-- A provisioned guest forgets its health if it is to be provisioned again. -/
theorem yields_startStep_forget (hphase : vm.phase = .running) (hprovision : opts.provision = true)
    (hkey : sure → s.hasKey settings = true) :
    Yields settings.vmName sure (startStep settings vm opts) s
      (fun handed s' => s' = { s with healthy := false } ∧ handed = some opts) (· = s) := by
  unfold startStep
  rw [hphase]
  dsimp only
  rw [if_pos hprovision]
  refine (yields_readKey _ hkey).next fun key => ?_
  refine (Machine.yields_capture (by nofun)).next fun _ => ?_
  exact yields_pure ⟨rfl, rfl⟩

section Present

variable (hseen : s.Seen settings sure vm) (hm : s.machine = some m)
include hseen hm

/-- A stopped VM is booted. -/
theorem yields_startStep_stopped (hphase : vm.phase = .stopped) (hport : m.port?.isSome)
    (hsure : sure → s.Accepts settings opts ∧ s.HasRoom settings opts ∧
      (m.isSetUp = false → s.hasInsecureKey settings = true) ∧
      (m.isSetUp = true → s.hasKey settings = true)) :
    Yields settings.vmName sure (startStep settings vm opts) s
      (fun handed s' => s' = s.booted settings (m.profile settings.vmName) m ∧
        handed = handedOn opts)
      (fun s' => s.Halfway settings (m.profile settings.vmName) m s' ∨
        s' = s.booted settings (m.profile settings.vmName) m) := by
  unfold startStep
  rw [hphase]
  have hverify := yields_verify hseen fun hs => ⟨(hsure hs).1, (hsure hs).2.1⟩
  refine (hverify.leavingAt (.inl .untouched)).nextWith fun _ _ => ?_
  rw [hseen.profile, profile_present hm]
  exact yields_switchOn rfl hm hport (fun hs => (hsure hs).2.2.1) fun hs => (hsure hs).2.2.2

/-- A saved VM is restored. -/
theorem yields_startStep_saved (hphase : vm.phase = .saved)
    (hsure : sure → s.Accepts settings opts ∧ s.HasRoom settings opts ∧ s.hasKey settings = true) :
    Yields settings.vmName sure (startStep settings vm opts) s
      (fun handed s' => s' = s.withMachine (m.powered .running) ∧ handed = none)
      (fun s' => s' = s ∨ s' = s.withMachine (m.powered .running)) := by
  unfold Standing.Accepts Standing.HasRoom at hsure
  rw [hm] at hsure
  unfold startStep
  rw [hphase]
  refine ((yields_refuseChange fun hs => (hsure hs).1).leaving fun _ => .inl).nextWith fun _ _ => ?_
  rw [hseen.profile, profile_present hm]
  have hroom : sure → (m.profile settings.vmName).memory ≤ settings.freeMemory :=
    fun hs => (hsure hs).2.1
  refine (yields_restore rfl hm hroom fun hs => (hsure hs).2.2).next fun _ => ?_
  exact yields_pure ⟨rfl, rfl⟩

/-- A running guest that is not provisioned is otherwise switched off and booted. -/
theorem yields_startStep_reboot (hphase : vm.phase = .unprovisioned)
    (hprovision : opts.provision = false) (hport : m.port?.isSome)
    (hsure : sure → s.Accepts settings opts ∧ s.HasRoom settings opts ∧
      (m.isSetUp = false → s.hasInsecureKey settings = true) ∧
      (m.isSetUp = true → s.hasKey settings = true)) :
    Yields settings.vmName sure (startStep settings vm opts) s
      (fun handed s' => s' = s.booted settings (m.profile settings.vmName) m ∧
        handed = handedOn opts)
      (fun s' => s' = s ∨
        (s.withMachine (m.powered .stopped)).Halfway settings (m.profile settings.vmName)
          (m.powered .stopped) s' ∨
        s' = s.booted settings (m.profile settings.vmName) m) := by
  unfold startStep
  rw [hphase]
  dsimp only
  rw [if_neg (by rw [hprovision]; nofun)]
  refine ((yields_verify hseen fun hs => ⟨(hsure hs).1, (hsure hs).2.1⟩).leaving
    fun _ => .inl).nextWith fun _ _ => ?_
  rw [hseen.profile, profile_present hm]
  have hoff : Yields settings.vmName sure (switchOff (m.profile settings.vmName) .start) s _ _ :=
    yields_switchOff rfl hm
  have hon : Yields settings.vmName sure (switchOn settings (m.profile settings.vmName) opts)
      (s.withMachine (m.powered .stopped)) _ _ :=
    yields_switchOn (m := m.powered .stopped) rfl rfl hport (fun hs => (hsure hs).2.2.1)
      fun hs => (hsure hs).2.2.2
  have huntouched : ∀ s', s' = s.withMachine (m.powered .stopped) →
      (s.withMachine (m.powered .stopped)).Halfway settings (m.profile settings.vmName)
        (m.powered .stopped) s' := by
    intro s' heq
    rw [heq]
    exact .untouched
  refine (hoff.leaving fun s' h => h.imp_right fun heq => .inl (huntouched s' heq)).next fun _ => ?_
  exact hon.leaving fun _ => .inr

end Present

/-- A provisioned guest is otherwise left as it is. -/
theorem yields_startStep_running (hseen : s.Seen settings sure vm) (hphase : vm.phase = .running)
    (hprovision : opts.provision = false)
    (hsure : sure → s.Accepts settings opts ∧ s.HasRoom settings opts) :
    Yields settings.vmName sure (startStep settings vm opts) s
      (fun handed s' => s' = s ∧ handed = none) (· = s) := by
  unfold startStep
  rw [hphase]
  dsimp only
  rw [if_neg (by rw [hprovision]; nofun)]
  refine (yields_verify hseen hsure).nextWith fun _ _ => ?_
  refine (yields_tell _).next fun _ => ?_
  exact yields_pure ⟨rfl, rfl⟩

/-! ## From step to step -/

/-- What follows a step of a start: nothing, or the step of the state the VM is in by then. -/
def followUp (settings : Settings) (allowance : Nat) (vm : Vm) : Option StartOptions →
    Task VmError Unit
  | none => return ()
  | some opts => do
    let next ← (select settings vm.profile.name).mapError (.during .start)
    start settings allowance next opts

theorem start_succ (allowance : Nat) :
    start settings (allowance + 1) vm opts =
      startStep settings vm opts >>= followUp settings allowance vm := rfl

/-- What follows if a step hands the start on: the VM is selected again, and goes on from what
it is seen to be. -/
theorem yields_followUp {allowance : Nat} {more : StartOptions} {good : Unit → Standing → Prop}
    {bad : Standing → Prop} (hname : vm.profile.name = settings.vmName) (hbad : bad s)
    (hnext : ∀ next, s.Seen settings sure next →
      Yields settings.vmName sure (start settings allowance next more) s good bad) :
    Yields settings.vmName sure (followUp settings allowance vm (some more)) s good bad := by
  unfold followUp
  dsimp only
  rw [hname]
  exact Yields.nextWith (yields_select.mapError.leavingAt hbad) hnext

/-! ## Provisioning after a boot -/

/-- In a calm world a VM that runs ends up healthy if it is to be provisioned. A guest that is
provisioned already forgets its health first, and so takes one step more. -/
theorem yields_start_provision (hm : s.machine = some m) (hpower : m.power = .running)
    (hkey : s.hasKey settings = true) (hseen : s.Seen settings True vm)
    (hprovision : opts.provision = true) (allowance : Nat) :
    Yields settings.vmName True (start settings (allowance + 2) vm opts) s
      (fun _ s' => s' = { s with healthy := true }) (fun _ => True) := by
  have hunhealthy : ∀ (s : Standing) (vm : Vm) (allowance : Nat), s.hasKey settings = true →
      vm.phase = .unprovisioned →
      Yields settings.vmName True (start settings (allowance + 1) vm opts) s
        (fun _ s' => s' = { s with healthy := true }) (fun _ => True) := by
    intro s vm allowance hkey hphase
    rw [start_succ]
    refine ((yields_startStep_provision hphase hprovision fun _ => hkey).leaving
      fun _ _ => trivial).nextIs ?_
    exact yields_pure rfl
  have hphase : vm.phase = if s.healthy && s.hasKey settings then .running else .unprovisioned :=
    (seen_sure hseen).trans (phase_running hm hpower)
  split at hphase
  · -- Having forgotten its health, the guest is next seen not to be provisioned.
    rw [start_succ]
    refine ((yields_startStep_forget hphase hprovision fun _ => hkey).leaving
      fun _ _ => trivial).nextIs ?_
    refine yields_followUp (seen_name hseen) trivial fun next hnext => ?_
    have hforgot : next.phase = .unprovisioned :=
      (seen_sure hnext).trans (phase_running (s := { s with healthy := false }) hm hpower)
    exact hunhealthy { s with healthy := false } next allowance hkey hforgot
  · exact hunhealthy s vm (allowance + 1) hkey hphase

/-- In a calm world a VM that has been booted is provisioned after that, unless this is not
wanted. -/
theorem yields_followUp_boot (hm : s.machine = some m) (hpower : m.power = .running)
    (hkey : s.hasKey settings = true) (hname : vm.profile.name = settings.vmName)
    (allowance : Nat) :
    Yields settings.vmName True (followUp settings (allowance + 2) vm (handedOn opts)) s
      (fun _ s' => s' = if opts.noProvision then s else { s with healthy := true })
      (fun _ => True) := by
  unfold handedOn
  split
  · exact yields_pure rfl
  · exact yields_followUp hname trivial fun next hnext =>
      yields_start_provision hm hpower hkey hnext rfl allowance

end Vm

/-! ## Starts in which nothing fails -/

namespace World.Standing

/-- What a start needs so as to succeed. -/
structure Startable (settings : Settings) (opts : StartOptions) (s : Standing) : Prop where
  accepts : s.Accepts settings opts
  room : s.HasRoom settings opts
  ip : s.machine = none → (Network.Ipv4.ofText? (Vm.wanted settings opts).ip.toList).isSome
  reachable : ∀ m, s.machine = some m → m.port?.isSome
  insecureKey : s.hasInsecureKey settings = true
  key : ∀ m, s.machine = some m → m.isSetUp = true ∨ m.power = .saved ∨ opts.provision = true →
    s.hasKey settings = true

/-- The standing once the guest was provisioned. -/
def provisioned (s : Standing) : Standing := { s with healthy := true }

/-- The standing once the guest was provisioned, unless this is not wanted. -/
def served (opts : StartOptions) (s : Standing) : Standing :=
  if opts.noProvision then s else s.provisioned

/-- Where a start leads that succeeds. -/
def StartsTo (settings : Settings) (opts : StartOptions) (s s' : Standing) : Prop :=
  match s.machine with
  | none => ∃ port, s' = ((s.connected (Vm.wanted settings opts) port).booted settings
      (Vm.wanted settings opts)
      ((Machine.fresh (Vm.wanted settings opts)).connected port)).served opts
  | some m =>
    match s.phase settings with
    | .running => s' = s
    | .saved => s' = s.withMachine (m.powered .running)
    | .unprovisioned =>
      if opts.provision then s' = s.provisioned
      else s' = (s.booted settings (m.profile settings.vmName) m).served opts
    | .stopped | .notCreated => s' = (s.booted settings (m.profile settings.vmName) m).served opts

end World.Standing

namespace Vm

open DevVm.Task DevVm.World

variable {s : Standing} {settings : Settings} {vm : Vm} {opts : StartOptions}

/-- What a start comes to in a calm world. -/
theorem yields_start_calm (h : s.Startable settings opts) (hseen : s.Seen settings True vm)
    (allowance : Nat) :
    Yields settings.vmName True (start settings (allowance + 3) vm opts) s
      (fun _ s' => s.StartsTo settings opts s') (fun _ => True) := by
  have hverified : True → s.Accepts settings opts ∧ s.HasRoom settings opts :=
    fun _ => ⟨h.accepts, h.room⟩
  -- A VM that was booted is provisioned next, unless this is not wanted.
  have hserve : ∀ {bad : Standing → Prop} {b : Standing} {m : World.Machine},
      b.machine = some m → m.power = .running → b.hasKey settings = true →
      Yields settings.vmName True (startStep settings vm opts) s
        (fun handed s' => s' = b ∧ handed = handedOn opts) bad →
      Yields settings.vmName True (start settings (allowance + 3) vm opts) s
        (fun _ s' => s' = b.served opts) (fun _ => True) := by
    intro bad b m hm hpower hkey hstep
    rw [start_succ]
    refine (hstep.leaving fun _ _ => trivial).nextIs ?_
    exact yields_followUp_boot hm hpower hkey (seen_name hseen) allowance
  -- A step that hands nothing on is all there is.
  have hdone : ∀ {good : Standing → Prop} {bad : Standing → Prop},
      Yields settings.vmName True (startStep settings vm opts) s
        (fun handed s' => good s' ∧ handed = none) bad →
      Yields settings.vmName True (start settings (allowance + 3) vm opts) s
        (fun _ s' => good s') (fun _ => True) := by
    intro good bad hstep
    rw [start_succ]
    refine (hstep.leaving fun _ _ => trivial).bind ?_
    intro handed s' h
    rw [h.2]
    exact yields_pure h.1
  have hphase := seen_sure hseen
  unfold Standing.StartsTo
  rcases hm : s.machine with _ | m
  · dsimp only
    rw [start_succ]
    refine ((yields_startStep_absent hseen hm fun _ =>
      ⟨h.accepts, h.room, h.ip hm, h.insecureKey⟩).leaving fun _ _ => trivial).bind ?_
    intro handed s' himported
    obtain ⟨⟨port, rfl⟩, rfl⟩ := himported
    obtain ⟨m', hm', hpower⟩ := booted_machine settings (wanted settings opts)
      ((World.Machine.fresh (wanted settings opts)).connected port)
      (s.connected (wanted settings opts) port)
    exact (yields_followUp_boot hm' hpower (booted_hasKey nofun) (seen_name hseen) allowance).mono
      (fun _ _ h => ⟨port, h⟩) fun _ h => h
  · have hport := h.reachable m hm
    have hkeys : m.isSetUp = true → s.hasKey settings = true := fun hset => h.key m hm (.inl hset)
    obtain ⟨m', hm', hpower'⟩ := booted_machine settings (m.profile settings.vmName) m s
    have hbooted : (s.booted settings (m.profile settings.vmName) m).hasKey settings = true :=
      booted_hasKey hkeys
    dsimp only
    cases hp : s.phase settings with
    | notCreated => exact absurd hp (phase_present hm)
    | stopped =>
      exact hserve hm' hpower' hbooted (yields_startStep_stopped hseen hm (hphase.trans hp) hport
        fun hs => ⟨h.accepts, h.room, fun _ => h.insecureKey, hkeys⟩)
    | saved =>
      have hsaved := saved_of_phase hm hp
      exact hdone (yields_startStep_saved hseen hm (hphase.trans hp) fun _ =>
        ⟨h.accepts, h.room, h.key m hm (.inr (.inl hsaved))⟩)
    | unprovisioned =>
      dsimp only
      split
      next hprovision =>
        exact hdone (yields_startStep_provision (hphase.trans hp) hprovision fun _ =>
          h.key m hm (.inr (.inr hprovision)))
      next hprovision =>
        exact hserve hm' hpower' hbooted (yields_startStep_reboot hseen hm (hphase.trans hp)
          (Bool.not_eq_true _ ▸ hprovision) hport
          fun hs => ⟨h.accepts, h.room, fun _ => h.insecureKey, hkeys⟩)
    | running =>
      obtain ⟨hpower, hhealthy, hkey⟩ := running_of_phase hm hp
      cases hprovision : opts.provision with
      | true =>
        -- The guest forgets its health and gets it back.
        refine (yields_start_provision hm hpower hkey hseen hprovision (allowance + 1)).comingTo
          fun _ => ?_
        show { s with healthy := true } = s
        rw [← hhealthy]
      | false =>
        exact hdone (yields_startStep_running hseen (hphase.trans hp) hprovision hverified)

end Vm

end DevVm
