import DevVm.Proofs.Episodes
import DevVm.Proofs.Lasting

/-!
# The identity of a VM

A VM that can be reached is reported as the same one from then on, whatever is done short of
destroying it and whatever fails on the way (`reported_afterAll`): the later boots only record
what is reported anyway.

This says nothing of the VM that was asked for. Its size is the machine's own from the import
on, but its address and its domain are recorded at the end of the first boot and reported as
the usual ones until then. So they last exactly if the first start got as far as recording
them, or if they are the usual ones (`identity_lasts_iff`).
-/

namespace DevVm

open DevVm.Task DevVm.World

/-! ## What is reported of a machine -/

namespace World.Machine

variable {n value : String} {m : Machine}

/-- Recording what is reported anyway changes no report. -/
theorem profile_noting_ip (h : value = m.ip) :
    (m.noting DevVm.Machine.ipKey value).profile n = m.profile n := by
  unfold profile
  rw [ip_noting_ip, domain_noting_ip h, h]
  rfl

theorem profile_noting_domain (h : value = m.domain) :
    (m.noting DevVm.Machine.domainKey value).profile n = m.profile n := by
  unfold profile
  rw [ip_noting_domain, domain_noting_domain, h]
  rfl

/-- The machine can be reached, and is reported in some way. -/
def Reported (n : String) (P : VmProfile → Prop) (m : Machine) : Prop :=
  m.port?.isSome ∧ P (m.profile n)

variable {settings : Settings} {P : VmProfile → Prop} {s s' : Standing}

/-- A boot to what is reported keeps the report, wherever it leaves off. -/
theorem Reported.halfway (h : m.Reported settings.vmName P) (hm : s.machine = some m)
    (hhalf : s.Halfway settings (m.profile settings.vmName) m s') :
    ∃ m', s'.machine = some m' ∧ m'.Reported settings.vmName P := by
  cases hhalf with
  | untouched => exact ⟨m, hm, h⟩
  | switchedOn => exact ⟨_, rfl, h⟩
  | keyMade hset => exact ⟨_, rfl, h⟩
  | keyKept hset power hpower => exact ⟨_, rfl, h⟩
  | ipRecorded hset =>
    have hsame : ((m.powered .running).noting DevVm.Machine.ipKey m.ip).profile settings.vmName =
        m.profile settings.vmName := profile_noting_ip rfl
    exact ⟨_, rfl, h.1, (congrArg P hsame).mpr h.2⟩

theorem Reported.booted (h : m.Reported settings.vmName P) :
    ∃ m', (s.booted settings (m.profile settings.vmName) m).machine = some m' ∧
      m'.Reported settings.vmName P := by
  unfold Standing.booted
  split
  · exact ⟨_, rfl, h⟩
  · have hsame : (((m.powered .running).noting DevVm.Machine.ipKey m.ip).noting
        DevVm.Machine.domainKey m.domain).profile settings.vmName = m.profile settings.vmName :=
      (profile_noting_domain (domain_noting_ip (m := m.powered .running) rfl).symm).trans
        (profile_noting_ip rfl)
    exact ⟨_, rfl, h.1, (congrArg P hsame).mpr h.2⟩

/-- Starts keep the report of a machine that can be reached. -/
theorem Reported.lasting (settings : Settings) (P : VmProfile → Prop) :
    Lasting settings (fun s m => s.machine = some m ∧ m.Reported settings.vmName P)
      (fun _ => True) where
  there h := h.1
  reachable h := h.2.1
  powered h _ := ⟨rfl, h.2⟩
  halfway h hhalf := h.2.halfway h.1 hhalf
  booted h := h.2.booted.imp fun _ h => ⟨h, trivial⟩
  provisioned h _ := h
  forgotten h := h

end World.Machine

/-! ## What commands keep of it -/

section

variable {settings : Settings} {P : VmProfile → Prop} {s : Standing}

/-- Whatever fails in a command, the machine is reported as before, if it is still there. -/
theorem UserCommand.yields_reported {m : World.Machine} (hm : s.machine = some m)
    (h : m.Reported settings.vmName P) (allowance : Nat) (stdin : Bytes) (command : UserCommand) :
    Yields settings.vmName False (command.perform settings allowance stdin) s
      (fun _ s' => s'.MachineIs (World.Machine.Reported settings.vmName P))
      (Standing.MachineIs (World.Machine.Reported settings.vmName P)) := by
  by_cases hstart : ∃ opts, command = .start opts
  · obtain ⟨opts, rfl⟩ := hstart
    have hkept : ∀ s' : Standing, (∃ m', s'.machine = some m' ∧
        m'.Reported settings.vmName P) → s'.MachineIs (World.Machine.Reported settings.vmName P) :=
      fun s' ⟨m', hm', h'⟩ => Standing.machineIs_of_some hm' h'
    exact ((World.Machine.Reported.lasting settings P).perform_start ⟨hm, h⟩ (fun _ => trivial)
      allowance stdin).mono (fun _ => hkept) hkept
  · exact yields_keeps (fun _ _ h => h) (Standing.machineIs_of_some hm h)
      (fun opts heq => hstart ⟨opts, heq⟩) allowance stdin

namespace World

/-- The VM is there at the end of each of the attempts. -/
def Spared (settings : Settings) : List Attempt → World → Prop
  | [], _ => True
  | a :: more, w => ((w.attempt settings a).state.machine? settings.vmName).isSome ∧
      Spared settings more (w.attempt settings a).state

/-- How the VM is reported whenever it is, now and after any attempts that spare it, with any
calls failing in the attempts and in the report. -/
def Reports (settings : Settings) (P : VmProfile → Prop) (w : World) : Prop :=
  ∀ later plan vm, w.Spared settings later →
    ({ w.afterAll settings later with plan }.run
      (DevVm.Machine.describe settings.vmName)).result = some (.ok vm) → P vm

end World

/-- Attempts that spare the VM keep how it is reported. -/
theorem reported_afterAll {later : List Attempt} {w : World} {m : World.Machine}
    (hm : w.machine? settings.vmName = some m) (h : m.Reported settings.vmName P)
    (hspared : w.Spared settings later) :
    ∃ m', (w.afterAll settings later).machine? settings.vmName = some m' ∧
      m'.Reported settings.vmName P := by
  induction later generalizing w m with
  | nil => exact ⟨m, hm, h⟩
  | cons a more ih =>
    obtain ⟨hthere, hmore⟩ := hspared
    obtain ⟨m', hm'⟩ := Option.isSome_iff_exists.mp hthere
    obtain ⟨⟨command, stdin⟩, plan⟩ := a
    -- A command keeps the report of a machine that is still there, and this one is.
    have hends := (UserCommand.yields_reported hm h Invocation.handOffs stdin command).ends
      (w := { w with plan }) rfl (P := Standing.MachineIs _) (fun _ _ h => h) fun _ h => h
    exact ih hm' (hends m' hm') hmore

/-! ## What is reported now -/

variable {n : String} {w : World} {m : World.Machine}

/-- A report that succeeds tells what there is. -/
theorem Machine.describe_reports (hm : w.machine? n = some m) {vm : VmProfile}
    (h : (w.run (Machine.describe n)).result = some (.ok vm)) : vm = m.profile n := by
  have hdescribed : Yields n False (Machine.describe n) (w.standing n) _ _ :=
    Machine.yields_describe hm
  exact (hdescribed.of_ok rfl h).2

/-- If no failure is planned, a request about a machine that is there is answered. -/
theorem Machine.ensures_answered {request : HypervisorCall} (hplan : w.plan = FaultPlan.none)
    (hsubject : ∀ name, request.subject? = some name → (w.machine? name).isSome) :
    Ensures World.host (Machine.hypervisor request) w
      (fun _ _ w' => w'.plan = FaultPlan.none ∧
        w'.standing n = (w.standing n).requestEffect n request)
      (fun _ _ _ => False) := by
  have hanswer := answer_unplanned hplan ⟨.hypervisor request, false⟩
  refine ensures_need (fun v w' h => ⟨?_, (standing_of_ok h).1⟩) fun e w' h => ?_
  · have hkept := perform_plan (w := w.counted (w.names.call (.hypervisor request)))
      (.hypervisor request)
    rw [← hanswer, show w.answer _ = (.ok v, w') from h] at hkept
    exact hkept.trans hplan
  · have hok := request_answered (w := w.counted (w.names.call (.hypervisor request))) hsubject
    have hfailed := congrArg (fun answer => Except.isOk answer.1) (hanswer.symm.trans h)
    exact absurd (hok.symm.trans hfailed) (by nofun)

/-- If no failure is planned, a machine that is there is reported. -/
theorem Machine.describe_answered (hplan : w.plan = FaultPlan.none) (hm : w.machine? n = some m) :
    (w.run (Machine.describe n)).result = some (.ok (m.profile n)) := by
  have hask : ∀ {request : HypervisorCall} {w' : World}, request.subject? = some n →
      (w.standing n).requestEffect n request = w.standing n → w'.plan = FaultPlan.none →
      w'.standing n = w.standing n →
      Ensures World.host (Machine.hypervisor request) w'
        (fun _ _ w'' => w''.plan = FaultPlan.none ∧ w''.standing n = w.standing n)
        (fun _ _ _ => False) := by
    intro request w' hsubject heffect hplan hsame
    have hthere : w'.machine? n = some m := (congrArg Standing.machine hsame).trans hm
    refine (Machine.ensures_answered (n := n) hplan fun name hname => ?_).mono ?_
      fun _ _ _ h => h
    · rw [← Option.some.inj (hsubject.symm.trans hname), hthere]
      rfl
    · intro _ _ w'' hanswered
      obtain ⟨hplan, heffected⟩ := hanswered
      exact ⟨hplan, by rw [heffected, hsame, heffect]⟩
  have hends : Ensures World.host (Machine.describe n) w (fun _ _ _ => True)
      (fun _ _ _ => False) := by
    refine (hask rfl rfl hplan rfl).bind fun _ _ _ h => ?_
    refine (hask rfl rfl h.1 h.2).bind fun _ _ _ h => ?_
    refine (hask rfl rfl h.1 h.2).bind fun _ _ _ h => ?_
    exact (hask rfl rfl h.1 h.2).bind fun _ _ _ _ => ensures_pure trivial
  obtain ⟨vm, hresult, -⟩ := hends.succeeds
  rw [← Machine.describe_reports hm hresult]
  exact hresult

/-- How a machine that can be reached is reported is settled for good. -/
theorem reports_iff (hm : w.machine? settings.vmName = some m) (hport : m.port?.isSome) :
    w.Reports settings P ↔ P (m.profile settings.vmName) := by
  constructor
  · intro h
    exact h [] FaultPlan.none _ trivial (Machine.describe_answered rfl hm)
  · intro h later plan vm hspared hvm
    obtain ⟨m', hm', h'⟩ := reported_afterAll hm ⟨hport, h⟩ hspared
    rw [Machine.describe_reports (w := { w.afterAll settings later with plan }) hm' hvm]
    exact h'.2

end

/-! ## From the first start on -/

/-- A VM of the size of another one. -/
def VmProfile.SameSize (vm other : VmProfile) : Prop :=
  other.memory = vm.memory ∧ other.cpus = vm.cpus

/-- A VM of the size, the address and the domain of another one. -/
def VmProfile.SameIdentity (vm other : VmProfile) : Prop :=
  vm.SameSize other ∧ other.ip = vm.ip ∧ other.domain = vm.domain

/-- A machine that was imported for a VM: what is recorded of it is right. -/
structure World.Machine.Founded (vm : VmProfile) (m : World.Machine) : Prop where
  reachable : m.port?.isSome
  memory : m.memory = vm.memory
  cpus : m.cpus = vm.cpus
  ip : ∀ ip, Table.get? Machine.ipKey m.extra = some ip → ip = vm.ip
  domain : ∀ domain, Table.get? Machine.domainKey m.extra = some domain → domain = vm.domain

/-- A VM as it was asked for is reported of a machine of its own exactly as far as this has been
recorded or goes without saying. -/
theorem World.Machine.Founded.sameIdentity_iff {vm : VmProfile} {m : World.Machine} {n : String}
    (h : m.Founded vm) :
    vm.SameIdentity (m.profile n) ↔
      ((Table.get? Machine.ipKey m.extra).isSome ∨ vm.ip = usualIp) ∧
      ((Table.get? Machine.domainKey m.extra).isSome ∨ vm.domain = impliedDomain vm.ip) := by
  have hip : m.ip = vm.ip ↔ (Table.get? Machine.ipKey m.extra).isSome ∨ vm.ip = usualIp := by
    unfold World.Machine.ip
    rcases hr : Table.get? Machine.ipKey m.extra with _ | ip
    · simp [eq_comm]
    · simp [h.ip ip hr]
  -- Which domain goes without saying depends on the address, so that comes first.
  have hdomain : m.ip = vm.ip → (m.domain = vm.domain ↔
      (Table.get? Machine.domainKey m.extra).isSome ∨ vm.domain = impliedDomain vm.ip) := by
    intro hsame
    unfold World.Machine.domain
    rw [hsame]
    rcases hr : Table.get? Machine.domainKey m.extra with _ | domain
    · simp [eq_comm]
    · simp [h.domain domain hr]
  show ((m.memory = vm.memory ∧ m.cpus = vm.cpus) ∧ m.ip = vm.ip ∧ m.domain = vm.domain) ↔ _
  constructor
  · intro hidentity
    obtain ⟨-, hsame, hdomains⟩ := hidentity
    exact ⟨hip.mp hsame, (hdomain hsame).mp hdomains⟩
  · intro hrecorded
    obtain ⟨hrecorded, hrecordedDomain⟩ := hrecorded
    have hsame := hip.mpr hrecorded
    exact ⟨⟨h.memory, h.cpus⟩, hsame, (hdomain hsame).mpr hrecordedDomain⟩

/-- What is reported rightly is recorded rightly. -/
theorem World.Machine.Reported.founded {vm : VmProfile} {m : World.Machine} {n : String}
    (h : m.Reported n vm.SameIdentity) : m.Founded vm := by
  obtain ⟨hport, ⟨hmemory, hcpus⟩, hip, hdomain⟩ := h
  refine ⟨hport, hmemory, hcpus, fun ip hrecorded => ?_, fun domain hrecorded => ?_⟩
  · rw [← hip]
    show ip = (Table.get? _ m.extra).getD usualIp
    rw [hrecorded]
    rfl
  · rw [← hdomain]
    show domain = (Table.get? _ m.extra).getD (impliedDomain m.ip)
    rw [hrecorded]
    rfl

/-- A first boot records the VM as it was asked for, or leaves off before that. -/
theorem World.Machine.founded_halfway {settings : Settings} {vm : VmProfile} {port : UInt16}
    {s s' : Standing} (hhalf : (s.connected vm port).Halfway settings vm
      ((World.Machine.fresh vm).connected port) s') :
    ∃ m, s'.machine = some m ∧ m.Founded vm := by
  cases hhalf with
  | untouched => exact ⟨_, rfl, rfl, rfl, rfl, nofun, nofun⟩
  | switchedOn => exact ⟨_, rfl, rfl, rfl, rfl, nofun, nofun⟩
  | keyMade hset => exact ⟨_, rfl, rfl, rfl, rfl, nofun, nofun⟩
  | keyKept hset power hpower => exact ⟨_, rfl, rfl, rfl, rfl, nofun, nofun⟩
  | ipRecorded hset =>
    refine ⟨_, rfl, rfl, rfl, rfl, fun ip hrecorded => ?_, nofun⟩
    exact (Option.some.inj hrecorded).symm

theorem World.Machine.reported_booted {settings : Settings} {vm : VmProfile} (port : UInt16)
    (s : Standing) : ∃ m, ((s.connected vm port).booted settings vm
      ((World.Machine.fresh vm).connected port)).machine = some m ∧
      m.Reported settings.vmName vm.SameIdentity := by
  refine ⟨_, rfl, rfl, ⟨rfl, rfl⟩, ?_, ?_⟩
  · rw [World.Machine.profile_ip, World.Machine.ip_noting_domain, World.Machine.ip_noting_ip]
  · rw [World.Machine.profile_domain, World.Machine.domain_noting_domain]

section

variable {settings : Settings} {opts : StartOptions} {w : World} {first : Attempt}

/-- What a first start leaves behind whose import succeeded. -/
theorem founded_first (hstart : first.command = .start opts)
    (habsent : w.machine? settings.vmName = none)
    (himported : Imported settings.vmName (w.attempt settings first).events) :
    ∃ m, (w.attempt settings first).state.machine? settings.vmName = some m ∧
      m.Founded (Vm.wanted settings opts) := by
  have hlasting := World.Machine.Reported.lasting settings (Vm.wanted settings opts).SameIdentity
  have hends := imported_firstStart hlasting hstart habsent himported fun port =>
    (World.Machine.reported_booted port _).imp fun _ h => ⟨h, trivial⟩
  rcases hends with ⟨m, hm, hreported⟩ | ⟨port, hhalf⟩
  · exact ⟨m, hm, hreported.founded⟩
  · exact World.Machine.founded_halfway hhalf

/-- When the VM that was asked for is the one that is reported ever after. After a first start
whose import succeeded the size is the one asked for as long as the VM is spared. The address
and the domain are so too exactly if they had been recorded by the end of that start, or are the
ones that are reported anyway. -/
theorem identity_lasts_iff (hstart : first.command = .start opts)
    (habsent : w.machine? settings.vmName = none)
    (himported : Imported settings.vmName (w.attempt settings first).events) :
    let vm := Vm.wanted settings opts
    let started := (w.attempt settings first).state
    started.Reports settings vm.SameSize ∧
      (started.Reports settings vm.SameIdentity ↔
        ∃ m, started.machine? settings.vmName = some m ∧
          ((Table.get? Machine.ipKey m.extra).isSome ∨ vm.ip = usualIp) ∧
          ((Table.get? Machine.domainKey m.extra).isSome ∨ vm.domain = impliedDomain vm.ip)) := by
  obtain ⟨m, hm, hfounded⟩ := founded_first hstart habsent himported
  refine ⟨(reports_iff hm hfounded.reachable).mpr ⟨hfounded.memory, hfounded.cpus⟩, ?_⟩
  refine (reports_iff hm hfounded.reachable).trans (hfounded.sameIdentity_iff.trans ?_)
  constructor
  · exact fun h => ⟨m, hm, h⟩
  · intro hrecorded
    obtain ⟨m', hm', h⟩ := hrecorded
    rw [hm] at hm'
    exact Option.some.inj hm' ▸ h

end

/-- What a start asks for that wants an address of its own. -/
def addressedOptions : StartOptions := { ip := "10.0.0.5", noProvision := true }

/-- Such a start. -/
def addressedStart (plan : FaultPlan) : Attempt := { command := .start addressedOptions, plan }

/-- If it gets through, the VM is reported with that address ever after. -/
theorem identity_lasts_once_started :
    (sampleWorld.attempt sampleSettings (addressedStart .none)).state.Reports sampleSettings
      (Vm.wanted sampleSettings addressedOptions).SameIdentity := by
  have himported : Imported sampleSettings.vmName
      (sampleWorld.attempt sampleSettings (addressedStart .none)).events :=
    ⟨4000, List.mem_of_getElem? (i := 8) rfl⟩
  have hm : (sampleWorld.attempt sampleSettings (addressedStart .none)).state.machine?
      sampleSettings.vmName = some {
        name := sampleSettings.vmName
        power := .running
        memory := 4096
        cpus := 2
        forward := [(Machine.forwardingRule, 4000)]
        extra := [(Machine.ipKey, "10.0.0.5"), (Machine.domainKey, "10.0.0.5.xip.io")] } := rfl
  exact (identity_lasts_iff rfl rfl himported).2.mpr ⟨_, hm, .inl rfl, .inl rfl⟩

/-- If the guest that was set up cannot be restarted, the address is lost. -/
theorem identity_lost :
    Imported sampleSettings.vmName
        (sampleWorld.attempt sampleSettings (addressedStart shutDownFails)).events ∧
      ¬(sampleWorld.attempt sampleSettings (addressedStart shutDownFails)).state.Reports
        sampleSettings (Vm.wanted sampleSettings addressedOptions).SameIdentity := by
  refine ⟨⟨4000, List.mem_of_getElem? (i := 8) rfl⟩, fun h => ?_⟩
  obtain ⟨-, hip, -⟩ := h [] FaultPlan.none
    ⟨sampleSettings.vmName, usualDomain, usualIp, some 4000, 4096, 2, hypervisorName⟩ trivial rfl
  exact absurd hip (by decide)

end DevVm
