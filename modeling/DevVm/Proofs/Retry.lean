import DevVm.Proofs.Episodes
import DevVm.Proofs.Lasting

/-!
# Starting again converges

A start can fail at any call and leave the VM imported but not set up, set up but not
provisioned, switched on or off. Starting it again without wishes leads back from all of
these: `retry_converges` says that after a first start whose import succeeded, and any number
of further starts with any calls failing, a start in which no call fails ends well, with the
VM running and provisioned, its address and domain the usual ones, and the key on the host the
one that was made last.

What makes this work is the order in which things are recorded (`Recoverable`): a machine
counts as set up only once the last key made is the one that was kept, and a guest is healthy
only if its machine counts as set up.
-/

namespace DevVm

open DevVm.Task DevVm.World

namespace World.Standing

/-- A VM from which a start without wishes leads to a provisioned one. -/
structure Recoverable (settings : Settings) (s : Standing) (m : Machine) : Prop where
  there : s.machine = some m
  once : s.names.count settings.vmName = 1
  reachable : m.port?.isSome
  room : m.memory ≤ settings.freeMemory
  power : m.power = .running ∨ m.power = .stopped
  ip : m.ip = usualIp
  domain : m.domain = usualDomain
  insecureKey : s.hasInsecureKey settings = true
  /-- The key on the host is the last one made, once the machine counts as set up. -/
  key : m.isSetUp = true → ∃ k, s.keyPairsMade = k + 1 ∧
    Table.get? settings.privateKeyPath s.files = some (s.keyPairs k).privateKey
  setUpFirst : s.healthy = true → m.isSetUp = true

namespace Recoverable

variable {settings : Settings} {s s' : Standing} {m : Machine} {vm : VmProfile}

theorem hasKey (h : s.Recoverable settings m) (hset : m.isSetUp = true) :
    s.hasKey settings = true := by
  obtain ⟨k, -, hkey⟩ := h.key hset
  unfold Standing.hasKey
  rw [hkey]
  rfl

theorem powered {power : Power} (h : s.Recoverable settings m)
    (hpower : power = .running ∨ power = .stopped) :
    (s.withMachine (m.powered power)).Recoverable settings (m.powered power) :=
  { h with there := rfl, power := hpower }

/-- A key pair that is not kept yet does no harm as long as the machine is not set up. -/
theorem keyMade (h : s.Recoverable settings m) (hset : m.isSetUp = false) :
    s.keyMade.Recoverable settings m :=
  { h with key := fun hset' => absurd (hset.symm.trans hset') Bool.false_ne_true }

theorem keyKept (h : s.Recoverable settings m) (hset : m.isSetUp = false) :
    (s.keyKept settings).Recoverable settings m :=
  { h with
    insecureKey := Table.isSome_get?_put h.insecureKey
    key := fun hset' => absurd (hset.symm.trans hset') Bool.false_ne_true }

/-- Once the last key is kept, the machine may count as set up. -/
theorem ipRecorded (h : s.Recoverable settings m) (hset : m.isSetUp = false) (hip : vm.ip = m.ip) :
    ((s.keyKept settings).withMachine ((m.powered .running).noting DevVm.Machine.ipKey
      vm.ip)).Recoverable settings ((m.powered .running).noting DevVm.Machine.ipKey vm.ip) where
  there := rfl
  once := h.once
  reachable := h.reachable
  room := h.room
  power := .inl rfl
  ip := by rw [Machine.ip_noting_ip, hip]; exact h.ip
  domain := (Machine.domain_noting_ip hip).trans h.domain
  insecureKey := (h.keyKept hset).insecureKey
  key := fun _ => by
    refine ⟨s.keyPairsMade, rfl, ?_⟩
    show Table.get? settings.privateKeyPath (Table.put settings.privateKeyPath _ s.files) = _
    rw [Table.get?_put, if_pos rfl]
    rfl
  setUpFirst := fun _ => Machine.isSetUp_noting_ip ..

theorem domainRecorded (h : s.Recoverable settings m) (hdomain : vm.domain = m.domain) :
    (s.withMachine (m.noting DevVm.Machine.domainKey vm.domain)).Recoverable settings
      (m.noting DevVm.Machine.domainKey vm.domain) := by
  have hset : (m.noting DevVm.Machine.domainKey vm.domain).isSetUp = m.isSetUp := by
    unfold Machine.isSetUp Machine.noting
    rw [Table.get?_put, if_neg (by decide)]
  exact {
    there := rfl
    once := h.once
    reachable := h.reachable
    room := h.room
    power := h.power
    ip := (Machine.ip_noting_domain ..).trans h.ip
    domain := (Machine.domain_noting_domain ..).trans (hdomain.trans h.domain)
    insecureKey := h.insecureKey
    key := fun hset' => h.key (hset ▸ hset')
    setUpFirst := fun hhealthy => hset.trans (h.setUpFirst hhealthy) }

/-- All the ways in which a boot can leave off. -/
theorem halfway (h : s.Recoverable settings m) (hip : vm.ip = m.ip)
    (hhalf : s.Halfway settings vm m s') : ∃ m', s'.Recoverable settings m' := by
  cases hhalf with
  | untouched => exact ⟨m, h⟩
  | switchedOn => exact ⟨_, h.powered (.inl rfl)⟩
  | keyMade hset => exact ⟨_, (h.keyMade hset).powered (.inl rfl)⟩
  | keyKept hset power hpower => exact ⟨_, (h.keyKept hset).powered hpower⟩
  | ipRecorded hset => exact ⟨_, h.ipRecorded hset hip⟩

/-- A boot that succeeds makes sure that the machine counts as set up. -/
theorem booted (h : s.Recoverable settings m) (hip : vm.ip = m.ip)
    (hdomain : vm.domain = m.domain) :
    ∃ m', (s.booted settings vm m).Recoverable settings m' ∧ m'.isSetUp = true ∧
      m'.power = .running := by
  unfold Standing.booted
  cases hset : m.isSetUp with
  | true => exact ⟨_, h.powered (.inl rfl), hset, rfl⟩
  | false =>
    have hrecorded := h.ipRecorded hset hip
    have hsame : vm.domain = ((m.powered .running).noting DevVm.Machine.ipKey vm.ip).domain :=
      hdomain.trans (Machine.domain_noting_ip (m := m.powered .running) hip).symm
    refine ⟨_, hrecorded.domainRecorded hsame, ?_, rfl⟩
    unfold Machine.isSetUp Machine.noting
    rw [Table.get?_put, if_neg (by decide)]
    exact Machine.isSetUp_noting_ip ..

/-- A recoverable VM has all that a start without wishes needs. -/
theorem startable (h : s.Recoverable settings m) : s.Startable settings {} where
  accepts := by
    unfold Standing.Accepts
    rw [h.there]
    rfl
  room := by
    unfold Standing.HasRoom
    rw [h.there]
    exact h.room
  ip habsent := by
    rw [h.there] at habsent
    cases habsent
  reachable m' hm' := by
    rw [h.there] at hm'
    exact Option.some.inj hm' ▸ h.reachable
  insecureKey := h.insecureKey
  key m' hm' hneeded := by
    rw [h.there] at hm'
    obtain rfl := Option.some.inj hm'
    rcases hneeded with hset | hsaved | hprovision
    · exact h.hasKey hset
    · -- No start saves the state of a machine.
      rcases h.power with hpower | hpower <;> cases hsaved.symm.trans hpower
    · cases hprovision

/-- Starts keep a VM recoverable, whatever fails in them. -/
theorem lasting : Lasting settings (Recoverable settings) (·.isSetUp = true) where
  there h := h.there
  reachable h := h.reachable
  powered h hpower := h.powered hpower
  halfway h hhalf := h.halfway rfl hhalf
  booted h := (h.booted rfl rfl).imp fun _ h => ⟨h.1, h.2.1⟩
  provisioned h hset := { h with setUpFirst := fun _ => hset }
  forgotten h := { h with setUpFirst := nofun }

end Recoverable

end World.Standing

/-! ## From a first start to a last one -/

variable {settings : Settings} {s : Standing} {m : World.Machine} {opts : StartOptions}

/-- A VM that has just been imported, without wishes about its network, is recoverable. -/
theorem recoverable_connected (hnone : s.names.count settings.vmName = 0)
    (hhealthy : s.healthy = false) (hkey : s.hasInsecureKey settings = true)
    (hmemory : opts.memory.getD settings.defaultMemory ≤ settings.freeMemory) (port : UInt16) :
    (s.connected (Vm.wanted settings opts) port).Recoverable settings
      ((World.Machine.fresh (Vm.wanted settings opts)).connected port) where
  there := rfl
  once := by
    show (s.names ++ [settings.vmName]).count settings.vmName = 1
    rw [List.count_append, hnone, List.count_singleton_self]
  reachable := rfl
  room := hmemory
  power := .inr rfl
  ip := rfl
  domain := by
    show impliedDomain usualIp = usualDomain
    rfl
  insecureKey := hkey
  key := nofun
  setUpFirst := fun h => absurd (hhealthy.symm.trans h) Bool.false_ne_true

/-- What a first start leaves behind whose import succeeded. -/
theorem recoverable_first {w : World} {a : Attempt} (hstart : a.command = .start opts)
    (habsent : w.machine? settings.vmName = none) (hunhealthy : w.guest.healthy = false)
    (hkey : (Table.get? settings.insecureKeyPath w.files).isSome)
    (hip : opts.ip = "") (hdomain : opts.domain = "")
    (hmemory : opts.memory.getD settings.defaultMemory ≤ settings.freeMemory)
    (himported : Imported settings.vmName (w.attempt settings a).events) :
    ∃ m, ((w.attempt settings a).state.standing settings.vmName).Recoverable settings m := by
  have hnone : (w.standing settings.vmName).names.count settings.vmName = 0 := by
    refine List.count_eq_zero.mpr fun hmem => ?_
    obtain ⟨m, hm, hname⟩ := List.mem_map.mp hmem
    have hfind := List.find?_eq_none.mp habsent m hm
    exact hfind (by simp [hname])
  have hconnected := recoverable_connected hnone hunhealthy hkey hmemory
  -- What is asked for without wishes is what is reported before anything has been recorded.
  have hwantedIp : ∀ port, (Vm.wanted settings opts).ip =
      ((World.Machine.fresh (Vm.wanted settings opts)).connected port).ip := by
    intro port
    show (StartOptions.asked? opts.ip).getD usualIp = usualIp
    rw [hip]
    rfl
  have hwantedDomain : ∀ port, (Vm.wanted settings opts).domain =
      ((World.Machine.fresh (Vm.wanted settings opts)).connected port).domain := by
    intro port
    show (StartOptions.asked? opts.domain).getD
      (impliedDomain ((StartOptions.asked? opts.ip).getD usualIp)) = impliedDomain usualIp
    rw [hip, hdomain]
    rfl
  have hbooted := fun port => ((hconnected port).booted (hwantedIp port) (hwantedDomain port)).imp
    fun _ h => And.intro h.1 h.2.1
  rcases imported_firstStart Standing.Recoverable.lasting hstart habsent himported hbooted with
    hrecoverable | ⟨port, hhalf⟩
  · exact hrecoverable
  · exact (hconnected port).halfway (hwantedIp port) hhalf

/-- Further starts that provision nothing of their own accord keep a VM recoverable. -/
theorem recoverable_afterAll {more : List Attempt} {w : World}
    (hmore : ∀ a ∈ more, ∃ opts, a.command = .start opts ∧ opts.provision = false)
    (h : (w.standing settings.vmName).Recoverable settings m) :
    ∃ m', ((w.afterAll settings more).standing settings.vmName).Recoverable settings m' := by
  induction more generalizing w m with
  | nil => exact ⟨m, h⟩
  | cons a more ih =>
    obtain ⟨opts, hstart, hprovision⟩ := hmore a (List.mem_cons_self ..)
    obtain ⟨⟨command, stdin⟩, plan⟩ := a
    obtain rfl : command = .start opts := hstart
    have hkept : Yields settings.vmName False
        (UserCommand.perform settings Invocation.handOffs stdin (.start opts))
        (w.standing settings.vmName) _ _ :=
      Standing.Recoverable.lasting.perform_start h
        (fun hset => absurd (hprovision.symm.trans hset) Bool.false_ne_true) _ stdin
    obtain ⟨m', h'⟩ := hkept.ends (w := { w with plan }) rfl
      (P := fun s' => ∃ m', s'.Recoverable settings m') (fun _ _ h => h) fun _ h => h
    exact ih (fun a ha => hmore a (List.mem_cons_of_mem _ ha)) h'

theorem obliging_afterAll {more : List Attempt} {w : World} (h : w.guest.Obliging) :
    (w.afterAll settings more).guest.Obliging := by
  induction more generalizing w with
  | nil => exact h
  | cons a more ih =>
    have hnext : ({ w with plan := a.plan }).guest.Obliging := h
    exact ih (obliging_run hnext _)

/-- A start without wishes, in which no call fails, leads from any recoverable VM to one that
runs and is provisioned. -/
theorem yields_recover (h : s.Recoverable settings m) (stdin : Bytes) (allowance : Nat) :
    Yields settings.vmName True
      (UserCommand.perform settings (allowance + 3) stdin (.start {})) s
      (fun _ s' => ∃ m', s'.Recoverable settings m' ∧ m'.isSetUp = true ∧
        m'.power = .running ∧ s'.healthy = true) (fun _ => True) := by
  refine UserCommand.yields_start trivial (fun _ _ => trivial) stdin fun vm hseen => ?_
  refine (Vm.yields_start_calm h.startable hseen allowance).mono ?_ fun _ h => h
  intro _ s' hleads
  unfold Standing.StartsTo at hleads
  rw [h.there] at hleads
  have hserved : s' = (s.booted settings (m.profile settings.vmName) m).provisioned →
      ∃ m', s'.Recoverable settings m' ∧ m'.isSetUp = true ∧ m'.power = .running ∧
        s'.healthy = true := by
    intro heq
    subst heq
    obtain ⟨m', hbooted, hset, hpower⟩ :
        ∃ m', (s.booted settings (m.profile settings.vmName) m).Recoverable settings m' ∧
          m'.isSetUp = true ∧ m'.power = .running := h.booted rfl rfl
    exact ⟨m', { hbooted with setUpFirst := fun _ => hset }, hset, hpower, rfl⟩
  cases hp : s.phase settings with
  | notCreated => exact absurd hp (Vm.phase_present h.there)
  | stopped =>
    rw [hp] at hleads
    exact hserved hleads
  | saved =>
    have hsaved := Vm.saved_of_phase h.there hp
    rcases h.power with hpower | hpower <;> cases hsaved.symm.trans hpower
  | unprovisioned =>
    rw [hp] at hleads
    exact hserved hleads
  | running =>
    rw [hp] at hleads
    obtain ⟨hpower, hhealthy, -⟩ := Vm.running_of_phase h.there hp
    obtain rfl : s' = s := hleads
    exact ⟨m, h, h.setUpFirst hhealthy, hpower, hhealthy⟩

/-- A world with one VM of the name, which runs, is provisioned, has the usual address and
domain, and is opened by the key that was made last. -/
structure World.Converged (settings : Settings) (w : World) : Prop where
  running : ∃ m, w.machine? settings.vmName = some m ∧ m.power = .running
  once : (w.machines.map (·.name)).count settings.vmName = 1
  selected : ∃ vm, (w.run (Vm.select settings settings.vmName)).result = some (.ok vm) ∧
    vm.phase = .running
  reported : ∃ vm, (w.run (Machine.describe settings.vmName)).result = some (.ok vm) ∧
    vm.ip = usualIp ∧ vm.domain = usualDomain
  key : ∃ k, w.keyPairsMade = k + 1 ∧
    Table.get? settings.privateKeyPath w.files = some (w.keyPairs k).privateKey

theorem converged_of_recoverable {w : World} (hcalm : w.Calm)
    (h : (w.standing settings.vmName).Recoverable settings m) (hset : m.isSetUp = true)
    (hpower : m.power = .running) (hhealthy : w.guest.healthy = true) : w.Converged settings := by
  refine ⟨⟨m, h.there, hpower⟩, h.once, ?_, ?_, h.key hset⟩
  · obtain ⟨vm, hresult, ⟨-, hseen⟩, -⟩ := Vm.yields_select.succeeds (w := w) rfl hcalm
    refine ⟨vm, hresult, (Vm.seen_sure hseen).trans ?_⟩
    rw [Vm.phase_running h.there hpower, h.hasKey hset,
      show (w.standing settings.vmName).healthy = true from hhealthy]
    rfl
  · obtain ⟨vm, hresult, ⟨-, rfl⟩, -⟩ :=
      (Machine.yields_describe h.there).succeeds (w := w) rfl hcalm
    exact ⟨_, hresult, h.ip, h.domain⟩

/-- Starting again converges. After a first start of a VM that was not there, of which only
this is known that its import succeeded, and any further starts that ask for no provisioning,
with any calls failing in all of them, a start without wishes in which no call fails succeeds,
and the VM runs and is provisioned. -/
theorem retry_converges {w : World} {opts : StartOptions} {first : Attempt} {more : List Attempt}
    {stdin : Bytes} (hstart : first.command = .start opts)
    (habsent : w.machine? settings.vmName = none) (hunhealthy : w.guest.healthy = false)
    (hobliging : w.guest.Obliging)
    (hkey : (Table.get? settings.insecureKeyPath w.files).isSome)
    (hip : opts.ip = "") (hdomain : opts.domain = "")
    (hmemory : opts.memory.getD settings.defaultMemory ≤ settings.freeMemory)
    (himported : Imported settings.vmName (w.attempt settings first).events)
    (hmore : ∀ a ∈ more, ∃ opts, a.command = .start opts ∧ opts.provision = false) :
    let last := (w.afterAll settings (first :: more)).attempt settings
      { command := .start {}, stdin, plan := .none }
    last.result = some (.ok ()) ∧ last.state.Converged settings := by
  obtain ⟨m, hfirst⟩ :=
    recoverable_first hstart habsent hunhealthy hkey hip hdomain hmemory himported
  obtain ⟨m, hall⟩ := recoverable_afterAll hmore hfirst
  -- Whatever failed before, the guest's own rules have stayed obliging.
  have hcalm : ({ w.afterAll settings (first :: more) with plan := .none }).Calm :=
    ⟨rfl, obliging_afterAll hobliging⟩
  obtain ⟨_, hresult, ⟨m', hrecoverable, hset, hpower, hhealthy⟩, hstill⟩ :=
    (yields_recover hall stdin 997).succeeds
      (w := { w.afterAll settings (first :: more) with plan := .none }) rfl hcalm
  exact ⟨hresult, converged_of_recoverable hstill hrecoverable hset hpower hhealthy⟩

/-- Two starts that cannot restart the guest they set up, and a third one that can. -/
theorem retry_converges_after_failed_setUps :
    let failed : Attempt := { command := .start {}, plan := shutDownFails }
    let last := (sampleWorld.afterAll sampleSettings [failed, failed]).attempt sampleSettings
      { command := .start {}, plan := .none }
    last.result = some (.ok ()) ∧ last.state.Converged sampleSettings := by
  have hrules : sampleWorld.guest.Obliging := nofun
  have himported : Imported sampleSettings.vmName (sampleWorld.attempt sampleSettings
      { command := .start {}, plan := shutDownFails }).events :=
    ⟨4000, List.mem_of_getElem? (i := 8) rfl⟩
  have hstart : (⟨⟨.start {}, []⟩, shutDownFails⟩ : Attempt).command = .start {} := rfl
  refine retry_converges hstart rfl rfl hrules rfl rfl rfl (by decide) himported ?_
  intro a ha
  rw [List.mem_singleton.mp ha]
  exact ⟨{}, rfl, rfl⟩

end DevVm
