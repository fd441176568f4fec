import DevVm.Proofs.Conduct
import DevVm.Proofs.Identity

/-!
# How a guest is reached

Every call that logs in to the guest brings a key and addresses with it, and by the time it is
made both have been carried along for a while: the port has been learnt from the forwarding, the
address of the guest from its records or from the request, and the key may have been replaced in
the middle of the same start. Still they are the right ones (`World.logins_current`). A first
boot uses the key built into the appliance and the forwarded port alone, and every other login
the private key and the addresses that are reported at that moment.

The address a guest is given is the only text of a user that no shell quoting protects. It has
been found to be an address before that (`World.addresses_checked`).

Both are parts of one rule for calls (`HostCall.Connects`), which every command heeds
(`UserCommand.connects_perform`).
-/

namespace DevVm

open DevVm.Task DevVm.World

/-! ## Logins -/

/-- The addresses and the key of a login. Neither is needed to make up an endpoint or a pair of
keys. -/
def SshCall.login? : SshCall → Option (List Endpoint × Bytes)
  | .wait addresses key _ | .run _ addresses key _ | .capture _ addresses key _
  | .session addresses key _ _ => some (addresses, key)
  | .freshEndpoint | .freshKeyPair => none

/-- The addresses and the key of a call that logs in to the guest. -/
def Call.login? : Call → Option (List Endpoint × Bytes)
  | .ssh request => request.login?
  | _ => none

/-- Nothing is run in the guest without a login. -/
theorem Call.login?_ne_none {c : Call} {guestCommand : GuestCommand}
    (h : c.command? = some guestCommand) : c.login? ≠ none := by
  cases c with
  | ssh request =>
    cases request with
    | run command addresses key limit => nofun
    | capture command addresses key limit => nofun
    | _ => cases h
  | _ => cases h

/-- The commands by which a guest is set up on its first boot. -/
def GuestCommand.isFirstBoot : GuestCommand → Bool
  | .configureNetwork _ | .authorizeKey _ => true
  | .writeOptions _ | .provision _ | .checkHealth | .forgetHealth | .showCertificate
  | .diagnose _ => false

/-- An address that a guest may be given: the usual one, or the one asked for by the start that
has imported the machine, which has found it to be an address. -/
def CheckedIp (settings : Settings) (command : UserCommand) (es : List (Event hostSignature))
    (ip : String) : Prop :=
  ip = usualIp ∨ ∃ opts, command = .start opts ∧ opts.ip = ip ∧
    (∃ hostIp, Machine.hostAddress ip = .ok hostIp) ∧ ∃ e ∈ es, e.Founds settings.vmName

/-- When a command may make a call, as far as logins are concerned. -/
inductive HostCall.Connects (settings : Settings) (command : UserCommand)
    (es : List (Event hostSignature)) (s : Standing) : HostCall → Prop where
  | apart {c : HostCall} (h : c.call.login? = none) : Connects settings command es s c
  | usual {c : HostCall} {m : World.Machine} {key : Bytes} (hm : s.machine = some m)
      (hkey : Table.get? settings.privateKeyPath s.files = some key)
      (hlogin : c.call.login? = some ((m.profile settings.vmName).endpoints, key))
      (hcommand : c.call.command?.any (·.isFirstBoot) = false) :
      Connects settings command es s c
  | firstBoot {guestCommand : GuestCommand} {m : World.Machine} {port : UInt16} {key : Bytes}
      {limit : Duration} (hm : s.machine = some m) (hport : m.port? = some port)
      (hkey : Table.get? settings.insecureKeyPath s.files = some key)
      (hcommand : guestCommand.isFirstBoot = true)
      (hip : ∀ ip, guestCommand = .configureNetwork ip → CheckedIp settings command es ip) :
      Connects settings command es s
        ⟨.ssh (.capture guestCommand [⟨loopback, port⟩] key limit), false⟩

/-- Every login of the task is made as the rule allows it, for a command. -/
abbrev Task.Connects {ε α : Type} (settings : Settings) (command : UserCommand) (t : Task ε α)
    (es : List (Event hostSignature)) (s : Standing)
    (good : α → List (Event hostSignature) → Standing → Prop) : Prop :=
  Heeds settings.vmName (HostCall.Connects settings command) t es s good fun _ _ _ => True

/-- A task that does not log in to the guest and is not cut off. -/
abbrev Task.Apart {ε α : Type} (t : Task ε α) : Prop :=
  t.Completes (fun c => c.login? = none) fun _ => True

section

variable {settings : Settings} {command : UserCommand} {es es' : List (Event hostSignature)}
  {s : Standing} {m : World.Machine} {ip : String} {ε α : Type}

theorem CheckedIp.more (h : CheckedIp settings command es ip) (hmore : es <+: es') :
    CheckedIp settings command es' ip := by
  refine h.imp_right fun hasked => ?_
  obtain ⟨opts, hcommand, hip, hhost, e, hin, hfounds⟩ := hasked
  exact ⟨opts, hcommand, hip, hhost, e, hmore.subset hin, hfounds⟩

/-- A request to import a machine is only made for what is an address. -/
theorem Machine.ofText?_of_hostAddress {hostIp : String} (h : hostAddress ip = .ok hostIp) :
    (Network.Ipv4.ofText? ip.toList).isSome := by
  unfold hostAddress at h
  split at h
  next address haddress =>
    rw [haddress]
    rfl
  next => cases h

theorem CheckedIp.isSome (h : CheckedIp settings command es ip) :
    (Network.Ipv4.ofText? ip.toList).isSome := by
  rcases h with rfl | ⟨opts, -, -, ⟨hostIp, hhost⟩, -⟩
  · decide
  · exact Machine.ofText?_of_hostAddress hhost

/-- A task that does not log in comes to what it yields. -/
theorem Task.Yields.connects {t : Task ε α} {good : α → Standing → Prop} {bad : Standing → Prop}
    (h : Yields settings.vmName False t s good bad) (ht : t.Apart) :
    t.Connects settings command es s fun a es' s' => good a s' ∧ es <+: es' := by
  refine (h.heeds ht.makes fun _ _ _ hapart => .apart hapart).mono (fun _ _ _ hgood => ?_)
    fun _ _ _ _ => trivial
  obtain ⟨hgood, more, rfl, -⟩ := hgood
  exact ⟨hgood, List.prefix_append _ _⟩

theorem Task.connects_mapError {ε' : Type} {t : Task ε α} {f : ε → ε'}
    {good : α → List (Event hostSignature) → Standing → Prop}
    (h : t.Connects settings command es s good) :
    (t.mapError f).Connects settings command es s good := Heeds.mapError h

/-- A task that does not log in may be carried out at any time. -/
theorem Task.Completes.connects {t : Task ε α} (ht : t.Apart) :
    t.Connects settings command es s fun _ _ _ => True := by
  intro w hw
  refine Program.Makes.heeds ht.makes (fun _ _ _ h => .apart h) ?_
  rcases (Program.run World.host t.program w).result with _ | e | a
  · exact trivial
  · exact trivial
  · exact trivial

end

/-! ## Tasks that do not log in -/

namespace Machine

theorem apart_hypervisor (request : HypervisorCall) : (hypervisor request).Apart :=
  completes_need rfl

theorem apart_status (name : String) : (status name).Apart := by
  refine (apart_hypervisor _).bind fun present _ => ?_
  split
  · exact completes_pure trivial
  · exact (apart_hypervisor _).bind fun running _ => completes_pure trivial

theorem apart_describe (name : String) : (describe name).Apart := by
  refine (apart_hypervisor _).bind fun info _ => ?_
  refine (apart_hypervisor _).bind fun sshPort _ => ?_
  refine (apart_hypervisor _).bind fun recordedIp _ => ?_
  exact (apart_hypervisor _).bind fun recordedDomain _ => completes_pure trivial

theorem apart_ownVms : ownVms.Apart := (apart_hypervisor _).bind fun _ _ => completes_pure trivial

theorem apart_conflicting (name : String) : (conflicting name).Apart :=
  apart_ownVms.bind fun _ _ => completes_pure trivial

theorem apart_interfaceFor (hostIp : String) : (interfaceFor hostIp).Apart := by
  refine (apart_hypervisor _).bind fun listed _ => ?_
  split
  · exact completes_pure trivial
  · exact apart_hypervisor _

theorem apart_destroyOne (name : String) : (destroyOne name).Apart := by
  refine (apart_hypervisor _).bind fun present _ => ?_
  split
  · refine (apart_hypervisor _).bind fun running _ => ?_
    split
    · exact (apart_hypervisor _).bind fun _ _ => apart_hypervisor _
    · exact apart_hypervisor _
  · exact completes_pure trivial

theorem apart_destroy (names : List String) : (destroy names).Apart := by
  induction names with
  | nil => exact completes_pure trivial
  | cons name more ih => exact (apart_destroyOne name).bind fun _ _ => ih

end Machine

namespace Vm

variable {settings : Settings} {vm : Vm} {opts : StartOptions}

theorem apart_tell {ε : Type} (text : String) : (Task.tell text : Task ε Unit).Apart :=
  completes_need rfl

theorem apart_confirmMemory (memory : UInt64) : (confirmMemory settings memory).Apart := by
  unfold confirmMemory
  split
  · refine Completes.bind (completes_need rfl) fun accepted _ => ?_
    split
    · exact completes_throw
    · exact completes_pure trivial
  · exact completes_pure trivial

theorem apart_ofExcept {ε α : Type} (answer : Except ε α) : (Task.ofExcept answer).Apart :=
  completes_ofExcept

theorem apart_verify : (verify settings vm opts).Apart := by
  unfold verify
  split
  · refine Completes.bind (Machine.apart_conflicting _).mapError fun conflicting _ => ?_
    split
    · exact completes_throw
    · dsimp only
      split
      · exact completes_throw
      · exact apart_confirmMemory _
  · exact (apart_ofExcept _).bind fun _ _ => apart_confirmMemory _
  · exact (apart_ofExcept _).bind fun _ _ => apart_confirmMemory _
  · exact apart_ofExcept _
  · exact apart_ofExcept _

theorem apart_switchOff (profile : VmProfile) (stage : Stage) :
    (switchOff profile stage).Apart := by
  refine (apart_tell _).bind fun _ _ => ?_
  exact Completes.bind (Machine.apart_hypervisor _).mapError fun _ _ => apart_tell _

theorem apart_stop : vm.stop.Apart := by
  unfold stop
  split
  all_goals first | exact apart_tell _ | exact apart_switchOff _ _

theorem apart_suspend : vm.suspend.Apart := by
  unfold suspend
  split
  all_goals try exact apart_tell _
  refine (apart_tell _).bind fun _ _ => ?_
  exact Completes.bind (Machine.apart_hypervisor _).mapError fun _ _ => apart_tell _

theorem apart_target (auto : Bool) : (vm.target auto).Apart := by
  unfold target
  split
  all_goals try exact apart_tell _
  refine Completes.bind (completes_need rfl) fun _ _ => ?_
  split
  · exact apart_tell _
  · exact completes_pure trivial

end Vm

theorem UserCommand.apart_destroyAll : destroyAll.Apart := by
  refine Completes.bind Machine.apart_ownVms.mapError fun names _ => ?_
  split
  · exact Vm.apart_tell _
  · refine (Vm.apart_tell _).bind fun _ _ => ?_
    exact (Machine.apart_destroy _).mapError.bind fun _ _ => Vm.apart_tell _

/-! ## Selecting the VM -/

namespace World.Machine

/-- Where to dial a guest depends on its port and its address only. -/
theorem endpoints_eq {n : String} {m : Machine} {vm : VmProfile} (hport : vm.sshPort = m.port?)
    (hip : vm.ip = m.ip) : vm.endpoints = (m.profile n).endpoints := by
  unfold VmProfile.endpoints
  rw [hport, hip]
  rfl

/-- A machine that does not count as set up is reported to have the usual address. -/
theorem ip_of_not_isSetUp {m : Machine} (h : m.isSetUp = false) : m.ip = usualIp := by
  have hnone : Table.get? DevVm.Machine.ipKey m.extra = none :=
    Option.isNone_iff_eq_none.mp (Option.isSome_eq_false_iff.mp h)
  unfold ip
  rw [hnone]
  rfl

end World.Machine

namespace Vm

variable {settings : Settings} {command : UserCommand} {es : List (Event hostSignature)}
  {s : Standing} {m : World.Machine} {vm : Vm} {opts : StartOptions}

theorem connects_answersHealthy (hm : s.machine = some m) :
    (answersHealthy settings (m.profile settings.vmName)).Connects settings command es s
      fun _ _ _ => True := by
  have hread : (Task.attempt (.read settings.privateKeyPath) : Task VmError _).Connects settings
      command es s fun reply _ s' => s' = s ∧
        ∀ key, reply = .ok key → Table.get? settings.privateKeyPath s.files = some key := by
    refine heeds_attempt (.apart rfl) (fun key hkey => ⟨rfl, fun key' heq => ?_⟩)
      fun e => ⟨rfl, fun key heq => ?_⟩
    · rw [← Except.ok.inj heq]
      exact hkey
    · cases heq
  refine hread.bind fun read es' s' hread => ?_
  obtain ⟨rfl, hread⟩ := hread
  cases read with
  | error e => exact heeds_pure trivial
  | ok key =>
    have hlogin : HostCall.Connects settings command es' s' ⟨.ssh (.capture .checkHealth
        (m.profile settings.vmName).endpoints key healthLimit), true⟩ :=
      .usual hm (hread key rfl) rfl rfl
    have hcheck : (Task.attempt _ : Task VmError _).Connects settings command es' s'
        fun _ _ _ => True := heeds_attempt hlogin (fun _ _ => trivial) fun _ => trivial
    exact hcheck.bind fun _ _ _ _ => heeds_pure trivial

/-- Selecting the VM logs in to a guest that runs, to see how it is. -/
theorem connects_select :
    (select settings settings.vmName).Connects settings command es s
      fun vm es' s' => s' = s ∧ s.Seen settings False vm ∧ es <+: es' := by
  have hdescribe : ∀ {es s m}, s.machine = some m →
      ((Machine.describe settings.vmName).mapError VmError.machine).Connects settings command es s
        fun vm _ s' => s' = s ∧ vm = m.profile settings.vmName := fun hm =>
    ((Machine.yields_describe hm).mapError.connects (Machine.apart_describe _).mapError).mono
      (fun _ _ _ h => h.1) fun _ _ _ h => h
  have hwalk : (select settings settings.vmName).Connects settings command es s
      fun _ _ _ => True := by
    refine Heeds.bind (Machine.yields_status.mapError.connects
      (Machine.apart_status settings.vmName).mapError) fun status es' s' hstatus => ?_
    obtain ⟨⟨rfl, rfl⟩, -⟩ := hstatus
    unfold Standing.status
    rcases hm : s'.machine with _ | m
    · exact heeds_pure trivial
    dsimp only
    by_cases hpower : m.power = .running
    · rw [if_pos hpower]
      refine (hdescribe hm).bind fun vm es s hdescribed => ?_
      obtain ⟨rfl, rfl⟩ := hdescribed
      exact (connects_answersHealthy hm).bind fun _ _ _ _ => heeds_pure trivial
    · rw [if_neg hpower]
      refine (hdescribe hm).bind fun vm es s _ => ?_
      exact (Machine.apart_hypervisor _).mapError.connects.bind fun _ _ _ _ => heeds_pure trivial
  exact (hwalk.extends.yielding yields_select).mono
    (fun _ _ _ h => ⟨h.2.1, h.2.2, h.1.2⟩) fun _ _ _ _ => trivial

end Vm

/-! ## Booting -/

namespace Machine

variable {settings : Settings} {command : UserCommand} {es : List (Event hostSignature)}
  {s : Standing} {m : World.Machine} {vm : VmProfile}

/-- A guest is set up through the forwarded port, with the key built into the appliance. -/
theorem connects_setUpGuest {port : UInt16} (hm : s.machine = some m) (hport : m.port? = some port)
    (hip : CheckedIp settings command es vm.ip) :
    (setUpGuest settings vm port).Connects settings command es s fun _ _ s' =>
      s'.machine = some m := by
  refine heeds_call (.apart rfl) (fun _ => trivial) fun insecureKey hkey => ?_
  refine heeds_call ?_ (fun _ => trivial) fun _ _ => ?_
  · refine .firstBoot hm hport hkey rfl fun ip heq => ?_
    rw [← GuestCommand.configureNetwork.inj heq]
    exact hip.more (List.prefix_append _ _)
  refine heeds_call (.apart rfl) (fun _ => trivial) fun pair _ => ?_
  refine heeds_call (.firstBoot hm hport hkey rfl nofun) (fun _ => trivial) fun _ _ => ?_
  exact heeds_need (.apart rfl) (fun _ _ => hm) fun _ => trivial

/-- Starting a machine finds out its port, and leaves it with the address it was started for. -/
theorem connects_start (hname : vm.name = settings.vmName) (hm : s.machine = some m)
    (hset : m.isSetUp = true → vm.ip = m.ip)
    (hbare : m.isSetUp = false → CheckedIp settings command es vm.ip) :
    (start settings vm).Connects settings command es s fun port _ s' =>
      ∃ m', s'.machine = some m' ∧ m'.port? = some port ∧ m'.ip = vm.ip := by
  unfold start
  rw [hname]
  refine heeds_call (.apart rfl) (fun _ => trivial) fun forwarded hforwarded => ?_
  cases forwarded with
  | none => exact heeds_throw trivial
  | some port =>
    have hport : m.port? = some port := by
      obtain ⟨m', hm', hvalue⟩ := hforwarded rfl
      rw [Option.some.inj (hm.symm.trans hm')]
      exact hvalue.symm
    refine heeds_call (.apart rfl) (fun _ => trivial) fun recorded hrecorded => ?_
    obtain ⟨m', hm', hvalue⟩ := hrecorded rfl
    obtain rfl : m = m' := Option.some.inj (hm.symm.trans hm')
    refine heeds_change hm rfl (.apart rfl) fun _ => ?_
    cases recorded with
    | some ip =>
      have hisSetUp : m.isSetUp = true := by
        show (Table.get? ipKey m.extra).isSome = true
        rw [← hvalue]
        rfl
      exact heeds_pure ⟨_, rfl, hport, (hset hisSetUp).symm⟩
    | none =>
      have hunset : m.isSetUp = false := by
        show (Table.get? ipKey m.extra).isSome = false
        rw [← hvalue]
        rfl
      refine (connects_setUpGuest (m := m.powered .running) rfl hport ?_).bind
        fun _ es' s' hmachine => ?_
      · exact (((hbare hunset).more (List.prefix_append _ _)).more (List.prefix_append _ _)).more
          (List.prefix_append _ _)
      refine heeds_change hmachine rfl (.apart rfl) fun _ => ?_
      refine heeds_change rfl rfl (.apart rfl) fun _ => ?_
      refine heeds_change rfl rfl (.apart rfl) fun _ => ?_
      refine heeds_change rfl rfl (.apart rfl) fun _ => ?_
      refine heeds_pure ⟨_, rfl, hport, ?_⟩
      exact (World.Machine.ip_noting_domain _ _).trans (World.Machine.ip_noting_ip _ _)

/-- An import comes to a machine that nothing is recorded of yet, if what it was asked for is an
address. -/
theorem connects_importImage {image : String} (hname : vm.name = settings.vmName)
    (hm : s.machine = none) :
    (importImage image vm).Connects settings command es s fun _ es' s' =>
      (∃ m, s'.machine = some m ∧ m.isSetUp = false) ∧
        (∃ hostIp, hostAddress vm.ip = .ok hostIp) ∧ ∃ e ∈ es', e.Founds settings.vmName := by
  refine Heeds.bind (heeds_ofExcept (fun hostIp hok => ⟨rfl, rfl, hok⟩) fun _ _ => trivial :
    Heeds _ _ _ _ _ (fun hostIp es' s' => es' = es ∧ s' = s ∧ hostAddress vm.ip = .ok hostIp) _)
    fun hostIp es' s' hready => ?_
  obtain ⟨rfl, rfl, hhost⟩ := hready
  rw [hname]
  refine heeds_call (.apart rfl) (fun _ => trivial) fun address _ => ?_
  refine heeds_call (.apart rfl) (fun _ => trivial) fun _ _ => ?_
  have hthere : (s'.effect settings.vmName (.hypervisor (.importImage image settings.vmName
      vm.memory vm.cpus))).machine =
        some { World.Machine.fresh vm with name := settings.vmName } := by
    show s'.machine.or _ = _
    rw [hm]
    exact if_pos rfl
  refine ((yields_interfaceFor hostIp).connects (apart_interfaceFor hostIp)).bind
    fun interface es s hfound => ?_
  obtain ⟨rfl, hmore⟩ := hfound
  refine heeds_call (.apart rfl) (fun _ => trivial) fun _ _ => ?_
  refine heeds_need (.apart rfl) (fun _ _ => ⟨?_, ⟨hostIp, hhost⟩, ?_⟩) fun _ => trivial
  · exact ⟨_, congrArg Standing.machine (Standing.change_eq hthere), rfl⟩
  · have hin := hmore.subset (List.mem_append_right _ (List.mem_singleton.mpr rfl))
    exact ⟨_, List.mem_append_left _ (List.mem_append_left _ hin), _, _, _, rfl⟩

end Machine

namespace Vm

variable {settings : Settings} {command : UserCommand} {es : List (Event hostSignature)}
  {s : Standing} {m : World.Machine} {vm : Vm} {opts : StartOptions}

/-- What is handed on asks for the same address. -/
def SameIp (opts : StartOptions) (handed : Option StartOptions) : Prop :=
  ∀ more, handed = some more → more.ip = opts.ip

/-- The VM that is switched on has the address that its machine has, or is to get. -/
theorem connects_switchOn {profile : VmProfile} (hname : profile.name = settings.vmName)
    (hm : s.machine = some m) (hset : m.isSetUp = true → profile.ip = m.ip)
    (hbare : m.isSetUp = false → CheckedIp settings command es profile.ip) :
    (switchOn settings profile opts).Connects settings command es s
      fun handed _ _ => SameIp opts handed := by
  refine heeds_call (.apart rfl) (fun _ => trivial) fun _ _ => ?_
  refine Heeds.bind (connects_mapError (Machine.connects_start hname hm hset fun h =>
    (hbare h).more (List.prefix_append _ _)))
    fun port es s hbooted => ?_
  obtain ⟨m', hm', hport, hip⟩ := hbooted
  refine heeds_call (.apart rfl) (fun _ => trivial) fun key hkey => ?_
  have hlogin : ({ profile with sshPort := some port } : VmProfile).endpoints =
      (m'.profile settings.vmName).endpoints := World.Machine.endpoints_eq hport.symm hip.symm
  refine heeds_call (.usual hm' hkey ?_ rfl) (fun _ => trivial) fun _ _ => ?_
  · exact congrArg (fun addresses => some (addresses, key)) hlogin
  split
  · exact heeds_call (.apart rfl) (fun _ => trivial) fun _ _ => heeds_pure nofun
  · refine heeds_pure fun more heq => ?_
    rw [← Option.some.inj heq]

/-- A machine that was there before the request is switched on as it is reported. -/
theorem connects_switchOn_present (hm : s.machine = some m) :
    (switchOn settings (m.profile settings.vmName) opts).Connects settings command es s
      fun handed _ _ => SameIp opts handed :=
  connects_switchOn rfl hm (fun _ => rfl) fun h => .inl (World.Machine.ip_of_not_isSetUp h)

theorem connects_restore (hm : s.machine = some m) :
    (restore settings (m.profile settings.vmName)).Connects settings command es s
      fun _ _ _ => True := by
  refine ((yields_confirmMemory False.elim).connects (apart_confirmMemory _)).bind
    fun _ es' s' hasked => ?_
  obtain ⟨rfl, -⟩ := hasked
  refine heeds_call (.apart rfl) (fun _ => trivial) fun _ _ => ?_
  refine Heeds.bind (Yields.connects (Machine.yields_powerOn hm).mapError
    (Machine.apart_hypervisor _).mapError) fun _ es s hon => ?_
  obtain ⟨rfl, -⟩ := hon
  refine heeds_call (.apart rfl) (fun _ => trivial) fun key hkey => ?_
  refine heeds_call (.usual (m := m.powered .running) rfl hkey rfl rfl) (fun _ => trivial)
    fun _ _ => ?_
  exact (apart_tell _).connects

theorem connects_provision (hm : s.machine = some m) :
    (provision settings (m.profile settings.vmName) opts).Connects settings command es s
      fun _ _ _ => True := by
  refine heeds_call (.apart rfl) (fun _ => trivial) fun _ _ => ?_
  refine heeds_call (.apart rfl) (fun _ => trivial) fun key hkey => ?_
  exact heeds_need (.usual hm hkey rfl rfl) (fun _ _ => trivial) fun _ => trivial

/-! ## Starting -/

/-- The address that is asked for with a request. -/
theorem ip_wanted (settings : Settings) (opts : StartOptions) :
    (wanted settings opts).ip = usualIp ∨ (wanted settings opts).ip = opts.ip := by
  show (StartOptions.asked? opts.ip).getD usualIp = usualIp ∨ _ = _
  unfold wanted VmProfile.planned StartOptions.asked?
  split
  · exact .inl rfl
  · exact .inr rfl

/-- A VM that is not there is imported, and gets the address that was asked for on its first
boot. -/
theorem connects_startStep_absent {asked : StartOptions} (hasked : opts.ip = asked.ip)
    (hseen : s.Seen settings False vm) (hm : s.machine = none) :
    (startStep settings vm opts).Connects settings (.start asked) es s
      fun handed _ _ => SameIp opts handed := by
  unfold startStep
  rw [seen_absent hseen hm, requested_eq_wanted hseen]
  refine ((yields_verify hseen False.elim).connects apart_verify).bind fun _ es' s' hverified => ?_
  obtain ⟨⟨rfl, -⟩, -⟩ := hverified
  refine heeds_call (.apart rfl) (fun _ => trivial) fun _ _ => ?_
  refine Heeds.bind (connects_mapError (Machine.connects_importImage rfl hm))
    fun _ es s himported => ?_
  obtain ⟨⟨m, hm', hunset⟩, hhost, e, hin, hfounds⟩ := himported
  refine heeds_call (.apart rfl) (fun _ => trivial) fun _ _ => ?_
  refine connects_switchOn rfl hm' (fun hset => ?_) fun _ => ?_
  · rw [hunset] at hset
    cases hset
  · refine (ip_wanted settings opts).imp_right fun hip => ?_
    refine ⟨asked, rfl, (hip.trans hasked).symm, hhost, e, List.mem_append_left _ hin, hfounds⟩

/-- What the state the VM is seen in contributes to a start. -/
theorem connects_startStep {asked : StartOptions} (hasked : opts.ip = asked.ip)
    (hseen : s.Seen settings False vm) :
    (startStep settings vm opts).Connects settings (.start asked) es s
      fun handed _ _ => SameIp opts handed := by
  rcases hm : s.machine with _ | m
  · exact connects_startStep_absent hasked hseen hm
  have hverify : (verify settings vm opts).Connects settings (.start asked) es s
      fun _ _ s' => s' = s :=
    ((yields_verify hseen False.elim).connects apart_verify).mono (fun _ _ _ h => h.1.1)
      fun _ _ _ h => h
  unfold startStep
  rw [hseen.profile, profile_present hm]
  cases hphase : vm.phase with
  | notCreated => exact absurd hphase (seen_present hseen hm)
  | stopped =>
    refine hverify.bind fun _ es' s' heq => ?_
    subst heq
    exact connects_switchOn_present hm
  | saved =>
    refine ((yields_refuseChange False.elim).connects (apart_ofExcept _)).bind
      fun _ es' s' hrefused => ?_
    obtain ⟨⟨rfl, -⟩, -⟩ := hrefused
    exact (connects_restore hm).bind fun _ _ _ _ => heeds_pure nofun
  | unprovisioned =>
    dsimp only
    split
    · exact (connects_provision hm).bind fun _ _ _ _ => heeds_pure nofun
    · refine hverify.bind fun _ es' s' heq => ?_
      subst heq
      have hoff : Yields settings.vmName False (switchOff (m.profile settings.vmName) .start) s'
          _ _ := yields_switchOff rfl hm
      refine (hoff.connects (apart_switchOff _ _)).bind fun _ es' s hoff => ?_
      obtain ⟨rfl, -⟩ := hoff
      exact connects_switchOn_present (m := m.powered .stopped) rfl
  | running =>
    dsimp only
    split
    · refine heeds_call (.apart rfl) (fun _ => trivial) fun key hkey => ?_
      refine heeds_call (.usual hm hkey rfl rfl) (fun _ => trivial) fun _ _ => ?_
      exact heeds_pure fun more heq => by rw [← Option.some.inj heq]
    · refine hverify.bind fun _ _ _ _ => ?_
      exact heeds_call (.apart rfl) (fun _ => trivial) fun _ _ => heeds_pure nofun

/-- A start, however often it is handed on: what is handed on asks for the same address, and the
VM is selected anew. -/
theorem connects_start {asked : StartOptions} (allowance : Nat) (hasked : opts.ip = asked.ip)
    (hseen : s.Seen settings False vm) :
    (start settings allowance vm opts).Connects settings (.start asked) es s
      fun _ _ _ => True := by
  induction allowance generalizing vm opts es s with
  | zero => exact heeds_cut trivial
  | succ allowance ih =>
    rw [start_succ]
    refine (connects_startStep hasked hseen).bind fun handed es' s' hhanded => ?_
    cases handed with
    | none => exact heeds_pure trivial
    | some more =>
      unfold followUp
      dsimp only
      rw [seen_name hseen]
      refine Heeds.bind (connects_mapError connects_select) fun next es s hselected => ?_
      obtain ⟨rfl, hnext, -⟩ := hselected
      exact ih ((hhanded more rfl).trans hasked) hnext

/-! ## What else is done with the VM -/

theorem connects_resume (hseen : s.Seen settings False vm) :
    (vm.resume settings).Connects settings command es s fun _ _ _ => True := by
  unfold resume
  split
  all_goals try exact (apart_tell _).connects
  next hphase =>
    obtain ⟨m, hm⟩ := seen_machine hseen (by rw [hphase]; nofun)
    rw [hseen.profile, profile_present hm]
    exact connects_restore hm

theorem connects_trust (hseen : s.Seen settings False vm) (print : Bool) :
    (vm.trust settings print).Connects settings command es s fun _ _ _ => True := by
  unfold trust
  split
  all_goals try exact (apart_tell _).connects
  next hphase =>
    obtain ⟨m, hm⟩ := seen_machine hseen (by rw [hphase]; nofun)
    rw [hseen.profile, profile_present hm]
    refine heeds_call (.apart rfl) (fun _ => trivial) fun key hkey => ?_
    refine heeds_call (.usual hm hkey rfl rfl) (fun _ => trivial) fun certificate _ => ?_
    split
    · exact (apart_tell _).connects
    · exact heeds_call (.apart rfl) (fun _ => trivial) fun _ _ => (apart_tell _).connects

theorem connects_shell (hseen : s.Seen settings False vm) (stdin : Bytes) :
    (vm.shell settings stdin).Connects settings command es s fun _ _ _ => True := by
  have hopen : ∀ {m}, s.machine = some m → Task.Connects settings command (do
      let key ← readKey settings .files
      Task.need (.ssh (.session (m.profile settings.vmName).endpoints key sshLimit stdin)) .ssh)
      es s fun _ _ _ => True := by
    intro m hm
    refine heeds_call (.apart rfl) (fun _ => trivial) fun key hkey => ?_
    exact heeds_need (.usual hm hkey rfl rfl) (fun _ _ => trivial) fun _ => trivial
  unfold shell
  split
  all_goals try exact (apart_tell _).connects
  all_goals
    next hphase =>
      obtain ⟨m, hm⟩ := seen_machine hseen (by rw [hphase]; nofun)
      rw [hseen.profile, profile_present hm]
      exact hopen hm

/-- The diagnostics are collected one after the other, with the same key. -/
theorem connects_collect {key : Bytes} (hm : s.machine = some m)
    (hkey : Table.get? settings.privateKeyPath s.files = some key) (whats : List Diagnostic) :
    (collect (m.profile settings.vmName).endpoints key whats).Connects settings command es s
      fun _ _ _ => True := by
  induction whats generalizing es with
  | nil => exact heeds_pure trivial
  | cons what more ih =>
    have hlogin : ∀ {es}, HostCall.Connects settings command es s ⟨.ssh (.capture (.diagnose what)
        (m.profile settings.vmName).endpoints key healthLimit), true⟩ :=
      .usual hm hkey rfl rfl
    have hattempt : (Task.attempt _ : Task VmError _).Connects settings command es s
        fun _ _ s' => s' = s := heeds_attempt hlogin (fun _ _ => rfl) fun _ => rfl
    refine hattempt.bind fun reply es' s' heq => ?_
    subst heq
    exact ih.bind fun _ _ _ _ => heeds_pure trivial

theorem connects_diagnose (hseen : s.Seen settings False vm) :
    (vm.diagnose settings).Connects settings command es s fun _ _ _ => True := by
  have hlogs : ∀ {m}, s.machine = some m →
      (collectLogs settings (m.profile settings.vmName)).Connects settings command es s
        fun _ _ _ => True := by
    intro m hm
    refine heeds_call (.apart rfl) (fun _ => trivial) fun key hkey => ?_
    refine (connects_collect hm hkey _).bind fun logs _ _ _ => ?_
    exact heeds_need (.apart rfl) (fun _ _ => trivial) fun _ => trivial
  unfold diagnose
  split
  all_goals try exact (apart_tell _).connects
  all_goals
    next hphase =>
      obtain ⟨m, hm⟩ := seen_machine hseen (by rw [hphase]; nofun)
      rw [hseen.profile, profile_present hm]
      exact Heeds.bind (connects_mapError (hlogs hm)) fun _ _ _ _ => (apart_tell _).connects

end Vm

/-! ## Commands -/

/-- Every login of every command is made as the rule allows it. -/
theorem UserCommand.connects_perform (settings : Settings) (allowance : Nat) (stdin : Bytes)
    (command : UserCommand) (s : Standing) :
    (command.perform settings allowance stdin).Connects settings command [] s
      fun _ _ _ => True := by
  have hselected : ∀ {es s} {f : Vm → Task VmError Unit},
      (∀ vm es, s.Seen settings False vm →
        (f vm).Connects settings command es s fun _ _ _ => True) →
      (Vm.select settings settings.vmName >>= f).Connects settings command es s
        fun _ _ _ => True := by
    intro es s f hf
    refine Vm.connects_select.bind fun vm es s' hselected => ?_
    obtain ⟨rfl, hseen, -⟩ := hselected
    exact hf vm es hseen
  cases command with
  | start opts =>
    refine hselected fun vm es hseen => ?_
    refine (Vm.connects_start allowance rfl hseen).bind fun _ es s _ => ?_
    split
    · exact hselected fun vm _ _ => (Vm.apart_target true).connects
    · exact heeds_pure trivial
  | stop => exact hselected fun vm _ _ => Vm.apart_stop.connects
  | suspend => exact hselected fun vm _ _ => Vm.apart_suspend.connects
  | resume => exact hselected fun vm _ hseen => Vm.connects_resume hseen
  | status => exact hselected fun vm _ _ => (Vm.apart_tell _).connects
  | trust print => exact hselected fun vm _ hseen => Vm.connects_trust hseen print
  | ssh => exact hselected fun vm _ hseen => Vm.connects_shell hseen stdin
  | target => exact hselected fun vm _ _ => (Vm.apart_target false).connects
  | debug => exact hselected fun vm _ hseen => Vm.connects_diagnose hseen
  | destroy => exact apart_destroyAll.connects

/-! ## The results -/

namespace World

/-- The world in which a task has made so many calls. -/
def amid {ε α : Type} (t : Task ε α) (calls : Nat) (w : World) : World :=
  (Program.run World.host (t.program.upTo calls) w).state

variable {settings : Settings} {command : UserCommand} {allowance : Nat} {stdin : Bytes}
  {w : World} {before after : List (Event hostSignature)} {e : Event hostSignature}

/-- A login was made as the rule allows it, in the world it met. -/
theorem connects_at (h : (w.run (command.perform settings allowance stdin)).events =
    before ++ e :: after) :
    e.call.Connects settings command before
      ((w.amid (command.perform settings allowance stdin) before.length).standing
        settings.vmName) :=
  (UserCommand.connects_perform settings allowance stdin command _ w rfl).at_call h

variable (w)

/-- Every login uses the right key and the right addresses. After any attempts, and whatever calls
fail from now on, a command that is carried out logs in to the guest in two ways only. The two
commands of a first boot are sent with the key built into the appliance, as its file holds it, to
the port of the host that is forwarded to the machine now. All other logins are made with the
private key, as its file holds it now, and to the addresses of the VM as asking for it would report
it now: the forwarded port if there is one, and the guest's own address. -/
theorem logins_current (past : List Attempt) (plan : FaultPlan) {addresses : List Endpoint}
    {key : Bytes}
    (hevents : ({ w.afterAll settings past with plan }.run
      (command.perform settings allowance stdin)).events = before ++ e :: after)
    (hlogin : e.call.call.login? = some (addresses, key)) :
    let now := { w.afterAll settings past with plan }.amid
      (command.perform settings allowance stdin) before.length
    if e.call.call.command?.any (·.isFirstBoot) then
      Table.get? settings.insecureKeyPath now.files = some key ∧
        ∃ port, (now.machine? settings.vmName).bind (·.port?) = some port ∧
          addresses = [⟨loopback, port⟩]
    else
      Table.get? settings.privateKeyPath now.files = some key ∧
        ∃ vm, ({ now with plan := .none }.run (Machine.describe settings.vmName)).result =
            some (.ok vm) ∧ addresses = vm.endpoints := by
  intro now
  have hrule := connects_at hevents
  obtain ⟨c, reply⟩ := e
  cases hrule with
  | apart h => cases h.symm.trans hlogin
  | @usual _ m _ hm hkey hlogin' hcommand =>
    obtain ⟨rfl, rfl⟩ := Prod.mk.inj (Option.some.inj (hlogin.symm.trans hlogin'))
    rw [hcommand, if_neg Bool.false_ne_true]
    have hdescribed := Machine.describe_answered (w := { now with plan := .none })
      (n := settings.vmName) rfl hm
    exact ⟨hkey, _, hdescribed, rfl⟩
  | @firstBoot guestCommand m port key' limit hm hport hkey hcommand hip =>
    obtain ⟨rfl, rfl⟩ := Prod.mk.inj (Option.some.inj hlogin)
    have hcurrent : (now.machine? settings.vmName).bind (·.port?) = some port := by
      rw [show now.machine? settings.vmName = some m from hm]
      exact hport
    exact (if_pos hcommand).mpr ⟨hkey, port, hcurrent, rfl⟩

/-- A first boot with an address of its own: the options are handed over with the key that was made
in the same start, and to the new address. -/
theorem logins_current_addressed :
    let start := UserCommand.perform sampleSettings 1 [] (.start addressedOptions)
    ∃ calls, let now := sampleWorld.amid start calls
      Table.get? sampleSettings.privateKeyPath now.files =
          some (sampleWorld.keyPairs 0).privateKey ∧
        ∃ vm, ({ now with plan := .none }.run (Machine.describe sampleSettings.vmName)).result =
            some (.ok vm) ∧ vm.endpoints = [⟨loopback, 4000⟩, ⟨"10.0.0.5", daemonPort⟩] := by
  intro start
  have hmade : (false, some ([⟨loopback, 4000⟩, ⟨"10.0.0.5", daemonPort⟩],
        (sampleWorld.keyPairs 0).privateKey)) ∈ (sampleWorld.run start).events.map fun e =>
      (e.call.call.command?.any (·.isFirstBoot), e.call.call.login?) := by decide +kernel
  obtain ⟨e, hin, he⟩ := List.mem_map.mp hmade
  obtain ⟨hcommand, hlogin⟩ := Prod.mk.inj he
  obtain ⟨before, after, hevents⟩ := List.append_of_mem hin
  have hcurrent := logins_current sampleWorld [] .none hevents hlogin
  rw [hcommand, if_neg Bool.false_ne_true] at hcurrent
  obtain ⟨hkey, vm, hvm, haddresses⟩ := hcurrent
  exact ⟨before.length, hkey, vm, hvm, haddresses.symm⟩

/-- Only what is an address is made a guest's address. After any attempts, and whatever calls fail
from now on, a text that a command sends to the guest to give it an address holds either the usual
one or the one that this very command was asked for, has found to be an address, and has imported
the machine for by then. -/
theorem addresses_checked (past : List Attempt) (plan : FaultPlan) {ip : String}
    (hevents : ({ w.afterAll settings past with plan }.run
      (command.perform settings allowance stdin)).events = before ++ e :: after)
    (hsent : e.call.call.command?.map (·.text) =
      some (GuestCommand.configureNetwork ip).text) :
    (Network.Ipv4.ofText? ip.toList).isSome ∧
      (ip = usualIp ∨ ∃ opts, command = .start opts ∧ opts.ip = ip ∧
        (∃ hostIp, Machine.hostAddress ip = .ok hostIp) ∧
          ∃ earlier ∈ before, earlier.Founds settings.vmName) := by
  have hrule := connects_at hevents
  obtain ⟨guestCommand, hcommand, htext⟩ := Option.map_eq_some_iff.mp hsent
  obtain rfl := GuestCommand.eq_configureNetwork_of_text htext
  obtain ⟨c, reply⟩ := e
  have hchecked : CheckedIp settings command before ip := by
    cases hrule with
    | apart h => exact absurd h (Call.login?_ne_none hcommand)
    | usual hm hkey hlogin hother =>
      rw [hcommand] at hother
      cases hother
    | firstBoot hm hport hkey hfirst hip => exact hip ip (Option.some.inj hcommand)
  exact ⟨hchecked.isSome, hchecked⟩

/-- The address of such a start is accepted before the machine is imported, and only after that
sent to the guest. -/
theorem addresses_checked_addressed :
    let start := UserCommand.perform sampleSettings 1 [] (.start addressedOptions)
    ∃ before after : List (Event hostSignature), ∃ e : Event hostSignature,
      (sampleWorld.run start).events = before ++ e :: after ∧
        e.call.call.command? = some (.configureNetwork "10.0.0.5") ∧
          ∃ earlier ∈ before, earlier.Founds sampleSettings.vmName := by
  intro start
  have hsent : some (GuestCommand.configureNetwork "10.0.0.5") ∈
      (sampleWorld.run start).events.map (·.call.call.command?) := by decide +kernel
  obtain ⟨e, hin, he⟩ := List.mem_map.mp hsent
  obtain ⟨before, after, hevents⟩ := List.append_of_mem hin
  have hchecked := addresses_checked sampleWorld [] .none hevents
    (congrArg (Option.map GuestCommand.text) he)
  refine ⟨before, after, e, hevents, he, ?_⟩
  rcases hchecked.2 with husual | ⟨opts, -, -, -, himported⟩
  · exact absurd husual (by decide)
  · exact himported

end World

end DevVm
