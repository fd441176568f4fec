import DevVm.Machine.Operations
import DevVm.Proofs.Calm

/-!
# What the operations on machines come to

Each operation on the machine of a name, by standings: what it finds out and what it changes
if it succeeds, and in which standings it can leave off if it does not.

The first boot is the long one. It can fail at a dozen calls, but leaves the machine in one
of five conditions only (`Standing.Halfway`): nothing happened, or it has been switched on,
or besides a key pair was made, or besides the private key was kept, or besides the guest's
address was recorded. Only the last one is a machine that counts as set up.
-/

namespace DevVm

namespace World

/-! ## Machines as they are reported -/

namespace Machine

/-- The host's port that is forwarded to the machine's SSH daemon. -/
def port? (m : Machine) : Option UInt16 := Table.get? DevVm.Machine.forwardingRule m.forward

/-- Whether the machine counts as set up. -/
def isSetUp (m : Machine) : Bool := (Table.get? DevVm.Machine.ipKey m.extra).isSome

/-- The guest's address, as it is reported. -/
def ip (m : Machine) : String := (Table.get? DevVm.Machine.ipKey m.extra).getD usualIp

/-- The guest's domain, as it is reported. -/
def domain (m : Machine) : String :=
  (Table.get? DevVm.Machine.domainKey m.extra).getD (impliedDomain m.ip)

/-- All facts about the machine of a name, as they are reported. -/
def profile (n : String) (m : Machine) : VmProfile where
  name := n
  ip := m.ip
  domain := m.domain
  sshPort := m.port?
  memory := m.memory
  cpus := m.cpus
  provider := hypervisorName

/-- The machine in another state of power. -/
def powered (power : Power) (m : Machine) : Machine := { m with power }

/-- The machine with one more entry of extra data. -/
def noting (key value : String) (m : Machine) : Machine :=
  { m with extra := Table.put key value m.extra }

/-- A machine as it is imported. -/
def fresh (vm : VmProfile) : Machine where
  name := vm.name
  power := .stopped
  memory := vm.memory
  cpus := vm.cpus

/-- The machine with a port of the host forwarded to its SSH daemon. -/
def connected (port : UInt16) (m : Machine) : Machine :=
  { m with forward := Table.put DevVm.Machine.forwardingRule port m.forward }

@[simp] theorem profile_ip (n : String) (m : Machine) : (m.profile n).ip = m.ip := rfl

@[simp] theorem profile_domain (n : String) (m : Machine) : (m.profile n).domain = m.domain := rfl

theorem isSetUp_noting_ip (value : String) (m : Machine) :
    (m.noting DevVm.Machine.ipKey value).isSetUp = true := by
  unfold isSetUp noting
  rw [Table.get?_put, if_pos rfl]
  rfl

theorem ip_noting_ip (value : String) (m : Machine) :
    (m.noting DevVm.Machine.ipKey value).ip = value := by
  unfold ip noting
  rw [Table.get?_put, if_pos rfl]
  rfl

theorem ip_noting_domain (value : String) (m : Machine) :
    (m.noting DevVm.Machine.domainKey value).ip = m.ip := by
  unfold ip noting
  rw [Table.get?_put, if_neg (by decide)]

theorem domain_noting_domain (value : String) (m : Machine) :
    (m.noting DevVm.Machine.domainKey value).domain = value := by
  unfold domain noting
  rw [Table.get?_put, if_pos rfl]
  rfl

/-- Recording the address that is reported anyway changes nothing about the domain. -/
theorem domain_noting_ip {value : String} {m : Machine} (h : value = m.ip) :
    (m.noting DevVm.Machine.ipKey value).domain = m.domain := by
  have hkept : Table.get? DevVm.Machine.domainKey (m.noting DevVm.Machine.ipKey value).extra =
      Table.get? DevVm.Machine.domainKey m.extra := by
    unfold noting
    rw [Table.get?_put, if_neg (by decide)]
  show (Table.get? _ (m.noting DevVm.Machine.ipKey value).extra).getD
    (impliedDomain (m.noting DevVm.Machine.ipKey value).ip) = _
  rw [hkept, ip_noting_ip, h]
  rfl

end Machine

namespace Standing

/-- The standing with another machine of the name. -/
def withMachine (m : Machine) (s : Standing) : Standing := { s with machine := some m }

/-- A change to the machine of the name. -/
theorem change_eq {n : String} {f : Machine → Machine} {m : Machine} {s : Standing}
    (hm : s.machine = some m) : s.change n n f = s.withMachine (f m) := by
  unfold change withMachine
  rw [if_pos rfl, hm]
  rfl

/-- The standing once a key pair was made. -/
def keyMade (s : Standing) : Standing := { s with keyPairsMade := s.keyPairsMade + 1 }

/-- The standing once a key pair was made and its private half was kept. -/
def keyKept (settings : Settings) (s : Standing) : Standing :=
  { s.keyMade with
    files := Table.put settings.privateKeyPath (s.keyPairs s.keyPairsMade).privateKey s.files }

/-- The status of the machine of the name. -/
def status (s : Standing) : DevVm.Machine.Status :=
  match s.machine with
  | none => .notCreated
  | some m => if m.power = .running then .running else .stopped

/-- The standing once a machine was imported, but not connected yet. -/
def imported (vm : VmProfile) (s : Standing) : Standing :=
  { s with names := s.names ++ [vm.name], machine := some (.fresh vm) }

/-- The standing once a machine was imported and connected. -/
def connected (vm : VmProfile) (port : UInt16) (s : Standing) : Standing :=
  (s.imported vm).withMachine ((Machine.fresh vm).connected port)

/-- The machine once it has been started: a machine that counts as set up is only switched
on, any other one is set up and its address and domain are recorded. -/
def booted (settings : Settings) (vm : VmProfile) (m : Machine) (s : Standing) : Standing :=
  if m.isSetUp then s.withMachine (m.powered .running)
  else (s.keyKept settings).withMachine
    (((m.powered .running).noting DevVm.Machine.ipKey vm.ip).noting DevVm.Machine.domainKey
      vm.domain)

/-- Where a start can leave off. -/
inductive Halfway (settings : Settings) (vm : VmProfile) (m : Machine) (s : Standing) :
    Standing → Prop where
  | untouched : Halfway settings vm m s s
  | switchedOn : Halfway settings vm m s (s.withMachine (m.powered .running))
  | keyMade (h : m.isSetUp = false) :
      Halfway settings vm m s (s.keyMade.withMachine (m.powered .running))
  | keyKept (h : m.isSetUp = false) (power : Power) (hpower : power = .running ∨ power = .stopped) :
      Halfway settings vm m s ((s.keyKept settings).withMachine (m.powered power))
  | ipRecorded (h : m.isSetUp = false) :
      Halfway settings vm m s ((s.keyKept settings).withMachine
        ((m.powered .running).noting DevVm.Machine.ipKey vm.ip))

end Standing

end World

namespace Machine

open DevVm.Task DevVm.World

variable {n : String} {sure : Prop} {s : Standing} {m : World.Machine}

/-! ## Single requests -/

/-- A request that changes the machine of the name. -/
theorem yields_change {request : HypervisorCall} {f : World.Machine → World.Machine}
    (hm : s.machine = some m) (hsubject : request.subject? = some n)
    (heffect : s.requestEffect n request = s.change n n f) {good : request.Value → Standing → Prop}
    (hgood : ∀ v, good v (s.withMachine (f m))) :
    Yields n sure (hypervisor request) s good (· = s) := by
  refine yields_need (fun _ name hname => ?_) (fun v _ => ?_) rfl
  · rw [hsubject] at hname
    exact ⟨(Option.some.inj hname).symm, by rw [hm]; rfl⟩
  · show good v (s.requestEffect n request)
    rw [heffect, Standing.change_eq hm]
    exact hgood v

/-- A request that reads something the standing says. -/
theorem yields_request {request : HypervisorCall} {good : request.Value → Standing → Prop}
    (hsubject : ∀ name, request.subject? = some name → name = n ∧ s.machine.isSome)
    (hgood : ∀ v, s.SaysRequest n request v → good v (s.requestEffect n request)) :
    Yields n sure (hypervisor request) s good (· = s) :=
  yields_need (fun _ => hsubject) hgood rfl

theorem yields_powerOn (hm : s.machine = some m) :
    Yields n sure (hypervisor (.powerOn n)) s
      (fun _ s' => s' = s.withMachine (m.powered .running)) (· = s) :=
  yields_change hm rfl rfl fun _ => rfl

theorem yields_shutDown (hm : s.machine = some m) :
    Yields n sure (hypervisor (.shutDown n)) s
      (fun _ s' => s' = s.withMachine (m.powered .stopped)) (· = s) :=
  yields_change hm rfl rfl fun _ => rfl

theorem yields_saveState (hm : s.machine = some m) :
    Yields n sure (hypervisor (.saveState n)) s
      (fun _ s' => s' = s.withMachine (m.powered .saved)) (· = s) :=
  yields_change hm rfl rfl fun _ => rfl

theorem yields_putExtraData (hm : s.machine = some m) (key value : String) :
    Yields n sure (hypervisor (.putExtraData n key value)) s
      (fun _ s' => s' = s.withMachine (m.noting key value)) (· = s) :=
  yields_change hm rfl rfl fun _ => rfl

theorem yields_extraData (hm : s.machine = some m) (key : String) :
    Yields n sure (hypervisor (.extraData n key)) s
      (fun v s' => s' = s ∧ v = Table.get? key m.extra) (· = s) := by
  refine yields_request (fun name hname => ?_) fun v hvalue => ⟨rfl, ?_⟩
  · exact ⟨(Option.some.inj hname).symm, by rw [hm]; rfl⟩
  · obtain ⟨m', hm', hv⟩ := hvalue rfl
    rw [hm] at hm'
    rw [hv, Option.some.inj hm']

theorem yields_forwardedPort (hm : s.machine = some m) :
    Yields n sure (hypervisor (.forwardedPort n forwardingRule)) s
      (fun v s' => s' = s ∧ v = m.port?) (· = s) := by
  refine yields_request (fun name hname => ?_) fun v hvalue => ⟨rfl, ?_⟩
  · exact ⟨(Option.some.inj hname).symm, by rw [hm]; rfl⟩
  · obtain ⟨m', hm', hv⟩ := hvalue rfl
    rw [hm] at hm'
    rw [hv, Option.some.inj hm']
    rfl

/-! ## Finding out about the machine -/

theorem yields_isRegistered :
    Yields n sure (hypervisor (.isRegistered n)) s
      (fun v s' => s' = s ∧ v = s.machine.isSome) (· = s) :=
  yields_request nofun fun _ hvalue => ⟨rfl, hvalue rfl⟩

theorem yields_isRunning :
    Yields n sure (hypervisor (.isRunning n)) s
      (fun v s' => s' = s ∧ v = s.machine.any (·.power = .running)) (· = s) :=
  yields_request nofun fun _ hvalue => ⟨rfl, hvalue rfl⟩

theorem yields_isSuspended :
    Yields n sure (isSuspended n) s
      (fun v s' => s' = s ∧ v = s.machine.any (·.power = .saved)) (· = s) :=
  yields_request nofun fun _ hvalue => ⟨rfl, hvalue rfl⟩

theorem yields_listAll :
    Yields n sure (hypervisor .listAll) s (fun v s' => s' = s ∧ v = s.names) (· = s) :=
  yields_request nofun fun _ hvalue => ⟨rfl, hvalue⟩

theorem yields_ownVms :
    Yields n sure ownVms s (fun v s' => s' = s ∧ v = s.names.filter isOwnName) (· = s) := by
  refine yields_listAll.nextIs ?_
  exact yields_pure ⟨rfl, rfl⟩

/-- Another VM of this program is in the way exactly if there is one. -/
theorem yields_conflicting :
    Yields n sure (conflicting n) s
      (fun v s' => s' = s ∧ (v = false ↔ ∀ name ∈ s.names, isOwnName name → name = n)) (· = s) := by
  refine yields_ownVms.nextIs ?_
  refine yields_pure ⟨rfl, ?_⟩
  simp only [List.any_eq_false, List.mem_filter, decide_eq_true_eq, ne_eq, Decidable.not_not,
    and_imp]

theorem yields_status :
    Yields n sure (Machine.status n) s (fun a s' => s' = s ∧ a = s.status) (· = s) := by
  refine yields_isRegistered.nextIs ?_
  unfold Standing.status
  rcases hm : s.machine with _ | m
  · exact yields_pure ⟨rfl, rfl⟩
  · refine yields_isRunning.nextIs ?_
    refine yields_pure ⟨rfl, ?_⟩
    simp only [hm, Option.any_some, decide_eq_true_eq]

/-- A machine is reported as it is. -/
theorem yields_describe (hm : s.machine = some m) :
    Yields n sure (describe n) s (fun vm s' => s' = s ∧ vm = m.profile n) (· = s) := by
  have hsize : Yields n sure (hypervisor (.size n)) s
      (fun v s' => s' = s ∧ v = ⟨m.memory, m.cpus⟩) (· = s) := by
    refine yields_request (fun name hname => ?_) fun v hvalue => ⟨rfl, ?_⟩
    · exact ⟨(Option.some.inj hname).symm, by rw [hm]; rfl⟩
    · obtain ⟨m', hm', hv⟩ := hvalue rfl
      rw [hm] at hm'
      rw [hv, Option.some.inj hm']
  refine hsize.nextIs ?_
  refine (yields_forwardedPort hm).nextIs ?_
  refine (yields_extraData hm ipKey).nextIs ?_
  refine (yields_extraData hm domainKey).nextIs ?_
  exact yields_pure ⟨rfl, rfl⟩

/-! ## Importing and starting -/

theorem yields_interfaceFor (hostIp : String) :
    Yields n sure (interfaceFor hostIp) s (fun _ s' => s' = s) (· = s) := by
  have hlisted : Yields n sure (hypervisor .interfaces) s (fun _ s' => s' = s) (· = s) :=
    yields_request nofun fun _ _ => rfl
  refine hlisted.next fun listed => ?_
  split
  · exact yields_pure rfl
  · exact yields_request nofun fun _ _ => rfl

theorem yields_hostAddress {ip : String} (hip : sure → (Network.Ipv4.ofText? ip.toList).isSome) :
    Yields n sure (Task.ofExcept (hostAddress ip)) s (fun _ s' => s' = s) (· = s) := by
  refine yields_ofExcept (fun _ _ => rfl) fun e he => ⟨fun hs => ?_, rfl⟩
  obtain ⟨address, haddress⟩ := Option.isSome_iff_exists.mp (hip hs)
  unfold hostAddress at he
  rw [haddress] at he
  cases he

theorem yields_freshEndpoint :
    Yields n sure (ssh .freshEndpoint) s (fun _ s' => s' = s) (· = s) :=
  yields_need (fun _ => trivial) (fun _ _ => rfl) rfl

/-- An import adds a machine and connects it. It can leave off before the one or the other. -/
theorem yields_importImage {vm : VmProfile} {image : String} (hname : vm.name = n)
    (habsent : s.machine = none) (hip : sure → (Network.Ipv4.ofText? vm.ip.toList).isSome) :
    Yields n sure (importImage image vm) s
      (fun _ s' => ∃ port, s' = s.connected vm port)
      (fun s' => s' = s ∨ s' = s.imported vm) := by
  subst hname
  have hadded : Yields vm.name sure
      (hypervisor (.importImage image vm.name vm.memory vm.cpus)) s
      (fun _ s' => s' = s.imported vm) (· = s) := by
    refine yields_request nofun fun _ _ => ?_
    simp only [Standing.requestEffect, habsent, Option.none_or, if_true]
    rfl
  have hattached : ∀ interface, Yields vm.name sure (hypervisor (.attach interface vm.name))
      (s.imported vm) (fun _ s' => s' = s.imported vm) (· = s.imported vm) := fun interface =>
    yields_request (fun _ hname => ⟨(Option.some.inj hname).symm, rfl⟩) fun _ _ => rfl
  refine ((yields_hostAddress hip).leaving fun _ => .inl).next fun hostIp => ?_
  refine (yields_freshEndpoint.leaving fun _ => .inl).next fun address => ?_
  refine (hadded.leaving fun _ => .inl).next fun _ => ?_
  -- Until here nothing has changed. Now the machine is there, but cannot be reached yet.
  refine ((yields_interfaceFor hostIp).leaving fun _ => .inr).next fun interface => ?_
  refine ((hattached interface).leaving fun _ => .inr).next fun _ => ?_
  have hconnected : Yields vm.name sure
      (hypervisor (.forward vm.name forwardingRule address.port daemonPort)) (s.imported vm)
      (fun _ s' => s' = s.connected vm address.port)
      (· = s.imported vm) := yields_change rfl rfl rfl fun _ => rfl
  exact hconnected.mono (fun _ _ h => ⟨address.port, h⟩) fun _ h => .inr h

theorem yields_capture {ε : Type} {command : GuestCommand} (h : command ≠ .checkHealth)
    {addresses : List Endpoint} {key : Bytes} {limit : Duration} {wrap : SshError → ε} :
    Yields n sure (Task.need (.ssh (.capture command addresses key limit)) wrap) s
      (fun _ s' => s' = { s with healthy := command.healthAfter s.healthy }) (· = s) :=
  yields_need (fun _ heq => absurd heq h) (fun _ _ => rfl) rfl

theorem yields_read {ε : Type} {path : String} {wrap : FileError → ε}
    (h : sure → (Table.get? path s.files).isSome) :
    Yields n sure (Task.need (.read path) wrap) s
      (fun v s' => s' = s ∧ Table.get? path s.files = some v) (· = s) :=
  yields_need h (fun _ hvalue => ⟨rfl, hvalue⟩) rfl

/-- Setting up the guest keeps the private half of a new key pair and changes nothing else. -/
theorem yields_setUpGuest {settings : Settings} (vm : VmProfile) (port : UInt16)
    (hkey : sure → (Table.get? settings.insecureKeyPath s.files).isSome) :
    Yields n sure (setUpGuest settings vm port) s (fun _ s' => s' = s.keyKept settings)
      (fun s' => s' = s ∨ s' = s.keyMade) := by
  have hpair : Yields n sure (ssh .freshKeyPair) s
      (fun (v : KeyPair) s' => s' = s.keyMade ∧ v = s.keyPairs s.keyPairsMade) (· = s) :=
    yields_need (fun _ => trivial) (fun _ hvalue => ⟨rfl, hvalue⟩) rfl
  refine ((yields_read hkey).leaving fun _ => .inl).nextWith fun insecureKey _ => ?_
  refine ((yields_capture (by nofun)).leaving fun _ => .inl).next fun _ => ?_
  refine (hpair.leaving fun _ => .inl).nextIs ?_
  -- The pair is made before the guest knows of it, so one may have been made in vain.
  refine ((yields_capture (by nofun)).leaving fun _ => .inr).next fun _ => ?_
  exact yields_need (fun _ => trivial) (fun _ _ => rfl) (.inr rfl)

/-- Starting a machine that can be reached boots it. Whatever fails on the way, the machine is
left in one of five conditions. -/
theorem yields_start {settings : Settings} {vm : VmProfile} (hname : vm.name = n)
    (hm : s.machine = some m) (hport : m.port?.isSome)
    (hkey : sure → m.isSetUp = false → (Table.get? settings.insecureKeyPath s.files).isSome) :
    Yields n sure (start settings vm) s (fun _ s' => s' = s.booted settings vm m)
      (s.Halfway settings vm m) := by
  subst hname
  obtain ⟨port, hport⟩ := Option.isSome_iff_exists.mp hport
  refine ((yields_forwardedPort hm).leavingAt .untouched).nextIs ?_
  rw [hport]
  refine ((yields_extraData hm ipKey).leavingAt .untouched).nextIs ?_
  refine ((yields_powerOn hm).leavingAt .untouched).next fun _ => ?_
  unfold Standing.booted
  -- The machine is asked whether it counts as set up before it is switched on.
  cases hset : m.isSetUp with
  | true =>
    have hnone : (Table.get? ipKey m.extra).isNone = false := by
      rw [← Option.not_isSome, show (Table.get? ipKey m.extra).isSome = true from hset]
      rfl
    rw [hnone]
    exact yields_pure rfl
  | false =>
    have hnone : (Table.get? ipKey m.extra).isNone = true := by
      rw [← Option.not_isSome, show (Table.get? ipKey m.extra).isSome = false from hset]
      rfl
    rw [hnone, if_pos rfl, if_neg Bool.false_ne_true]
    have hsetUp := yields_setUpGuest (n := vm.name) (s := s.withMachine (m.powered .running))
      vm port fun hs => hkey hs hset
    refine (hsetUp.leaving ?_).bind ?_
    · intro _ hends
      rcases hends with rfl | rfl
      · exact .switchedOn
      · exact .keyMade hset
    intro _ _ heq
    subst heq
    -- From here on the machine is what it was, but for its power and its extra data.
    refine ((yields_shutDown rfl).leavingAt (.keyKept hset .running (.inl rfl))).next fun _ => ?_
    refine ((yields_powerOn rfl).leavingAt (.keyKept hset .stopped (.inr rfl))).next fun _ => ?_
    refine ((yields_putExtraData rfl ipKey vm.ip).leavingAt
      (.keyKept hset .running (.inl rfl))).next fun _ => ?_
    refine ((yields_putExtraData rfl domainKey vm.domain).leavingAt
      (.ipRecorded hset)).next fun _ => ?_
    exact yields_pure rfl

end Machine

end DevVm
