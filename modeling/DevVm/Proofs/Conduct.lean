import DevVm.Proofs.Commands
import DevVm.Proofs.Routine

/-!
# When calls are due

Calls that are not routine have a reason. A machine is imported for a request that was accepted,
for which the user has agreed to the memory it takes if the host is short of it. A guest is set
up as long as its machine does not count as set up. The address is recorded right after a first
boot from beginning to end (`FirstBoot.calls`), and the domain after it. Options are handed over
for a request that asks for no change, or for the one the machine was imported for. And the user
is asked once at most. `HostCall.Due` puts this into one rule, about the events of the command so
far, the standing and the call.

Every call of every command is due (`UserCommand.behaves_perform`). In the same walk through the
program it is seen that a request is rejected only as long as nothing has been done for it
(`Excused`).
-/

namespace DevVm

open DevVm.Task DevVm.World

/-! ## What has happened so far -/

/-- Calls that ask the user something. -/
def Call.asks : Call → Bool
  | .confirm _ => true
  | _ => false

/-- All calls so far have only looked. -/
def Looked (es : List (Event hostSignature)) : Prop := ∀ e ∈ es, e.call.call.looks = true

/-- All calls so far have only looked, or asked the user. -/
def Undone (es : List (Event hostSignature)) : Prop :=
  ∀ e ∈ es, e.call.call.looks = true ∨ e.call.call.asks = true

/-- The user has been asked nothing yet. -/
def Unasked (es : List (Event hostSignature)) : Prop := ∀ e ∈ es, e.call.call.asks = false

/-- The host has so much memory free, or the user has agreed to do with less. -/
def Consented (settings : Settings) (memory : UInt64) (es : List (Event hostSignature)) : Prop :=
  memory ≤ settings.freeMemory ∨
    (Call.confirm (Vm.memoryQuestion memory)).answered true ∈ es

/-- A machine of the name was imported. -/
def Event.Founds (n : String) (e : Event hostSignature) : Prop :=
  ∃ image memory cpus, e = (Call.hypervisor (.importImage image n memory cpus)).answered ()

/-- A first boot: the host's port that led to the guest, the key it was opened with, the pair
of keys it got, and what the guest wrote while it was set up. -/
structure FirstBoot where
  port : UInt16
  insecureKey : Bytes
  pair : KeyPair
  networkOutput : String
  keyOutput : String

namespace FirstBoot

variable (settings : Settings) (ip : String) (b : FirstBoot)

/-- The line that was authorised in the guest. -/
def publicKey : String :=
  String.ofList (Text.trim (Text.Utf8.decodeLossy b.pair.publicKey).toList)

/-- The calls that set the guest up. -/
def setUp : List (Event hostSignature) :=
  let addresses : List Endpoint := [⟨loopback, b.port⟩]
  [(Call.read settings.insecureKeyPath).answered b.insecureKey,
   (Call.ssh (.capture (.configureNetwork ip) addresses b.insecureKey
     Machine.firstBootLimit)).answered b.networkOutput,
   (Call.ssh .freshKeyPair).answered b.pair,
   (Call.ssh (.capture (.authorizeKey b.publicKey) addresses b.insecureKey
     Machine.firstBootLimit)).answered b.keyOutput,
   (Call.writePrivate settings.privateKeyPath b.pair.privateKey).answered ()]

/-- All calls of the boot, up to recording it. -/
def calls : List (Event hostSignature) :=
  [(Call.hypervisor (.forwardedPort settings.vmName Machine.forwardingRule)).answered
     (some b.port),
   (Call.hypervisor (.extraData settings.vmName Machine.ipKey)).answered none,
   (Call.hypervisor (.powerOn settings.vmName)).answered ()]
  ++ b.setUp settings ip ++
  [(Call.hypervisor (.shutDown settings.vmName)).answered (),
   (Call.hypervisor (.powerOn settings.vmName)).answered ()]

end FirstBoot

/-! ## The rule -/

namespace World.Standing

/-- There is a machine, and it does not count as set up. -/
def IsBare (s : Standing) : Prop := ∃ m, s.machine = some m ∧ m.isSetUp = false

/-- There is a machine, and it counts as set up. -/
def IsSetUp (s : Standing) : Prop := ∃ m, s.machine = some m ∧ m.isSetUp = true

/-- There is a machine, and it runs. -/
def IsUp (s : Standing) : Prop := ∃ m, s.machine = some m ∧ m.power = .running

end World.Standing

/-- Calls that set a guest up, or replace the key that opens it. -/
inductive Call.SetsUp (settings : Settings) : Call → Prop where
  | network (ip : String) (addresses : List Endpoint) (key : Bytes) (limit : Duration) :
      SetsUp settings (.ssh (.capture (.configureNetwork ip) addresses key limit))
  | key (publicKey : String) (addresses : List Endpoint) (key : Bytes) (limit : Duration) :
      SetsUp settings (.ssh (.capture (.authorizeKey publicKey) addresses key limit))
  | keep (content : Bytes) : SetsUp settings (.writePrivate settings.privateKeyPath content)

/-- When a command may make a call, given the calls it has made so far and the standing. Only
routine calls may be tolerated to fail. -/
inductive HostCall.Due (settings : Settings) (command : UserCommand)
    (es : List (Event hostSignature)) (s : Standing) : HostCall → Prop where
  | routine {c : HostCall} (h : c.call.Routine settings) : Due settings command es s c
  | question {memory : UInt64} (h : Unasked es) :
      Due settings command es s ⟨.confirm (Vm.memoryQuestion memory), false⟩
  | importing {opts : StartOptions} (hcommand : command = .start opts)
      (habsent : s.machine = none) (haccepts : s.Accepts settings opts)
      (hconsent : Consented settings (Vm.wanted settings opts).memory es)
      (hip : (Network.Ipv4.ofText? (Vm.wanted settings opts).ip.toList).isSome) :
      Due settings command es s ⟨.hypervisor (.importImage settings.imagePath settings.vmName
        (Vm.wanted settings opts).memory (Vm.wanted settings opts).cpus), false⟩
  | setUp {c : Call} (hbare : s.IsBare) (h : c.SetsUp settings) :
      Due settings command es s ⟨c, false⟩
  | recordIp {opts : StartOptions} {ip : String} {b : FirstBoot}
      {before : List (Event hostSignature)} (hcommand : command = .start opts) (hbare : s.IsBare)
      (hes : es = before ++ b.calls settings ip)
      (hkey : Table.get? settings.privateKeyPath s.files = some b.pair.privateKey) :
      Due settings command es s
        ⟨.hypervisor (.putExtraData settings.vmName Machine.ipKey ip), false⟩
  | recordDomain {domain : String} (h : s.IsSetUp) :
      Due settings command es s
        ⟨.hypervisor (.putExtraData settings.vmName Machine.domainKey domain), false⟩
  | options {opts : StartOptions} {vm : VmProfile} {addresses : List Endpoint} {key : Bytes}
      {limit : Duration} (hcommand : command = .start opts)
      (h : opts.refuseChange = .ok () ∨ ∃ e ∈ es, e.Founds settings.vmName) :
      Due settings command es s
        ⟨.ssh (.run (.writeOptions (.ofStart vm opts)) addresses key limit), false⟩

/-- A routine call may be made at any time. -/
theorem HostCall.Due.needed {settings : Settings} {command : UserCommand}
    {es : List (Event hostSignature)} {s : Standing} {c : Call} (h : c.Routine settings) :
    HostCall.Due settings command es s ⟨c, false⟩ := .routine h

/-- How a command may fail: a request is rejected only as long as nothing has been done. -/
def Excused (e : Option VmError) (es : List (Event hostSignature)) : Prop :=
  ∀ error, e = some error → error.isRejection = true → Undone es

/-- The task makes only calls that are due, for a command, and fails only as it may. -/
abbrev Task.Behaves {α : Type} (settings : Settings) (command : UserCommand) (t : Task VmError α)
    (es : List (Event hostSignature)) (s : Standing)
    (good : α → List (Event hostSignature) → Standing → Prop) : Prop :=
  Heeds settings.vmName (HostCall.Due settings command) t es s good fun e es _ => Excused e es

section

variable {es es' : List (Event hostSignature)}

theorem looked_nil : Looked [] := fun _ h => absurd h List.not_mem_nil

theorem Looked.undone (h : Looked es) : Undone es := fun e he => .inl (h e he)

theorem Looked.unasked (h : Looked es) : Unasked es := by
  intro e he
  have hlooks := h e he
  cases hcall : e.call.call with
  | confirm question =>
    rw [hcall] at hlooks
    cases hlooks
  | _ => rfl

theorem Looked.more (h : Looked es) (hmore : Task.More (fun c => c.looks = true) es es') :
    Looked es' := by
  obtain ⟨more, rfl, hlook⟩ := hmore
  intro e he
  exact (List.mem_append.mp he).elim (h e) (hlook e)

theorem Undone.snoc {e : Event hostSignature} (h : Undone es)
    (he : e.call.call.looks = true ∨ e.call.call.asks = true) : Undone (es ++ [e]) := by
  intro e' he'
  rcases List.mem_append.mp he' with hbefore | hnow
  · exact h e' hbefore
  · rw [List.mem_singleton.mp hnow]
    exact he

theorem Consented.more {settings : Settings} {memory : UInt64}
    (h : Consented settings memory es) (hmore : es <+: es') : Consented settings memory es' :=
  h.imp_right fun hin => hmore.subset hin

theorem Undone.excused {e : Option VmError} (h : Undone es) : Excused e es :=
  fun _ _ _ => h

/-- An error that is no rejection is excused at any time. -/
theorem excused {e : VmError} (h : e.isRejection = false) : Excused (some e) es := by
  intro error heq hrejection
  rw [← Option.some.inj heq, h] at hrejection
  cases hrejection

theorem excused_cut : Excused none es := nofun

theorem excused_map {ε : Type} {e : Option ε} {f : ε → VmError}
    (h : ∀ e, (f e).isRejection = false) : Excused (e.map f) es := by
  cases e with
  | none => exact excused_cut
  | some e => exact excused (h e)

end

/-! ## Tasks that need no reason -/

namespace Task

variable {settings : Settings} {command : UserCommand} {es : List (Event hostSignature)}
  {s : Standing} {ε α : Type}

/-- A task that only looks comes to what it yields, and nothing has been done by then. -/
theorem Yields.behaves {t : Task VmError α} {good : α → Standing → Prop} {bad : Standing → Prop}
    (h : Yields settings.vmName False t s good bad) (ht : t.Looks) (hes : Looked es) :
    t.Behaves settings command es s fun a es' s' => good a s' ∧ Looked es' := by
  have hrule : ∀ es s (c : HostCall), c.call.looks = true →
      HostCall.Due settings command es s c :=
    fun _ _ _ hlooks => .routine (Call.routine_of_looks hlooks)
  exact (h.heeds ht hrule).mono (fun _ _ _ hgood => ⟨hgood.1, hes.more hgood.2⟩)
    fun _ _ _ hbad => (hes.more hbad.2).undone.excused

/-- A task that makes routine calls, and refuses nothing, may be carried out at any time. -/
theorem behaves_routine {t : Task VmError α} {licence : HostCall → Prop} {removes : Prop}
    {depth : Nat}
    (ht : t.IsRoutine settings)
    (hstops : FailsStop licence removes (VmError.account depth fun _ => False) t) :
    t.Behaves settings command es s fun _ _ _ => True := by
  intro w hw
  refine Program.Makes.heeds ht (fun _ _ _ h => .routine h) ?_
  have hstopped := hstops.run World.host w
  rcases hr : (Program.run World.host t.program w).result with _ | e | a
  · exact excused_cut
  · exact excused (hstopped.not_rejection hr)
  · exact trivial

end Task

/-! ## Machines -/

namespace Machine

variable {settings : Settings} {opts : StartOptions} {es : List (Event hostSignature)}
  {s : Standing} {m : World.Machine} {vm : VmProfile}

/-- Setting up the guest of a machine that does not count as set up. -/
theorem heeds_setUpGuest (port : UInt16) (hbare : s.IsBare) :
    Heeds settings.vmName (HostCall.Due settings (.start opts)) (setUpGuest settings vm port) es s
      (fun _ es' s' => ∃ b : FirstBoot, b.port = port ∧ es' = es ++ b.setUp settings vm.ip ∧
        s'.machine = s.machine ∧
        Table.get? settings.privateKeyPath s'.files = some b.pair.privateKey)
      (fun _ _ _ => True) := by
  refine heeds_call (.needed trivial) (fun _ => trivial) fun insecureKey _ => ?_
  refine heeds_call (.setUp hbare (.network ..)) (fun _ => trivial) fun networkOutput _ => ?_
  refine heeds_call (.needed trivial) (fun _ => trivial) fun pair _ => ?_
  refine heeds_call (.setUp hbare (.key ..)) (fun _ => trivial) fun keyOutput _ => ?_
  refine heeds_need (.setUp hbare (.keep _)) (fun _ _ => ?_) fun _ => trivial
  refine ⟨⟨port, insecureKey, pair, networkOutput, keyOutput⟩, rfl, ?_, rfl, ?_⟩
  · simp only [List.append_assoc, List.cons_append, List.nil_append]
    rfl
  · show Table.get? settings.privateKeyPath (Table.put settings.privateKeyPath _ _) = _
    rw [Table.get?_put, if_pos rfl]

/-- A request that changes the machine of the name, and what follows it. -/
theorem heeds_change {n : String} {rule : List (Event hostSignature) → Standing → HostCall → Prop}
    {α : Type} {request : HypervisorCall} {f : World.Machine → World.Machine}
    {next : request.Value → Task MachineError α}
    {good : α → List (Event hostSignature) → Standing → Prop} (hm : s.machine = some m)
    (heffect : s.requestEffect n request = s.change n n f)
    (hrule : rule es s ⟨.hypervisor request, false⟩)
    (hok : ∀ v, Heeds n rule (next v) (es ++ [(Call.hypervisor request).answered v])
      (s.withMachine (f m)) good fun _ _ _ => True) :
    Heeds n rule (hypervisor request >>= next) es s good fun _ _ _ => True := by
  refine heeds_call hrule (fun _ => trivial) fun v _ => ?_
  show Heeds n rule (next v) _ (s.requestEffect n request) _ _
  rw [heffect, Standing.change_eq hm]
  exact hok v

/-- Starting a machine. A first boot is recorded when it has been seen through. -/
theorem heeds_start (hname : vm.name = settings.vmName) (hm : s.machine = some m) :
    Heeds settings.vmName (HostCall.Due settings (.start opts)) (start settings vm) es s
      (fun _ _ s' => s'.IsUp) (fun _ _ _ => True) := by
  unfold start
  rw [hname]
  refine heeds_call (.needed trivial) (fun _ => trivial) fun forwarded _ => ?_
  cases forwarded with
  | none => exact heeds_throw trivial
  | some port =>
    refine heeds_call (.needed trivial) (fun _ => trivial) fun recorded hrecorded => ?_
    obtain ⟨m', hm', hvalue⟩ := hrecorded rfl
    obtain rfl : m = m' := Option.some.inj (hm.symm.trans hm')
    refine heeds_change hm rfl (.needed trivial) fun _ => ?_
    cases recorded with
    | some ip => exact heeds_pure ⟨_, rfl, rfl⟩
    | none =>
      have hunset : m.isSetUp = false := by
        show (Table.get? ipKey m.extra).isSome = false
        rw [← hvalue]
        rfl
      refine Heeds.bind (heeds_setUpGuest port ⟨_, rfl, hunset⟩) fun _ es' s' hdone => ?_
      obtain ⟨b, rfl, rfl, hmachine, hkey⟩ := hdone
      refine heeds_change hmachine rfl (.needed trivial) fun _ => ?_
      refine heeds_change rfl rfl (.needed trivial) fun _ => ?_
      have hcalls : HostCall.Due settings (.start opts) (es ++ b.calls settings vm.ip)
          (s'.withMachine (m.powered .running))
          ⟨.hypervisor (.putExtraData settings.vmName ipKey vm.ip), false⟩ :=
        .recordIp rfl ⟨_, rfl, hunset⟩ rfl hkey
      unfold FirstBoot.calls at hcalls
      simp only [List.append_assoc, List.cons_append, List.nil_append] at hcalls ⊢
      refine heeds_change rfl rfl hcalls fun _ => ?_
      have hset : ((m.powered .running).noting ipKey vm.ip).isSetUp = true :=
        World.Machine.isSetUp_noting_ip _ _
      refine heeds_change rfl rfl (.recordDomain ⟨_, rfl, hset⟩) fun _ => ?_
      exact heeds_pure ⟨_, rfl, rfl⟩

/-- Finding an interface for a machine that has been imported. -/
theorem heeds_interfaceFor (hostIp : String) :
    Heeds settings.vmName (HostCall.Due settings (.start opts)) (interfaceFor hostIp) es s
      (fun _ _ s' => s' = s)
      (fun e es' _ => Excused (e.map (VmError.ofMachine .importing)) es') := by
  refine heeds_call (.routine (by exact trivial)) (fun _ => excused rfl) fun listed _ => ?_
  split
  · exact heeds_pure rfl
  · exact heeds_need (.routine (by exact trivial)) (fun _ _ => rfl) fun _ => excused rfl

/-- Importing the machine that an accepted request asks for. An address that is none is found
out before anything is done. -/
theorem heeds_importImage (hm : s.machine = none) (haccepts : s.Accepts settings opts)
    (hundone : Undone es) (hconsent : Consented settings (Vm.wanted settings opts).memory es) :
    Heeds settings.vmName (HostCall.Due settings (.start opts))
      (importImage settings.imagePath (Vm.wanted settings opts)) es s
      (fun _ es' s' => (∃ m, s'.machine = some m) ∧ ∃ e ∈ es', e.Founds settings.vmName)
      (fun e es' _ => Excused (e.map (VmError.ofMachine .importing)) es') := by
  have haddress : Heeds settings.vmName (HostCall.Due settings (.start opts))
      (Task.ofExcept (hostAddress (Vm.wanted settings opts).ip)) es s
      (fun _ es' s' => es' = es ∧ s' = s ∧
        (Network.Ipv4.ofText? (Vm.wanted settings opts).ip.toList).isSome)
      (fun e es' _ => Excused (e.map (VmError.ofMachine .importing)) es') := by
    refine heeds_ofExcept (fun hostIp hok => ⟨rfl, rfl, ?_⟩) fun _ _ => hundone.excused
    unfold hostAddress at hok
    split at hok
    next ip hip =>
      rw [hip]
      rfl
    next => cases hok
  refine haddress.bind fun hostIp es' s' hready => ?_
  obtain ⟨rfl, rfl, hip⟩ := hready
  refine heeds_call (.needed trivial) (fun _ => excused rfl) fun address _ => ?_
  refine heeds_call ?_ (fun _ => excused rfl) fun _ _ => ?_
  · exact .importing rfl hm haccepts (hconsent.more (List.prefix_append _ _)) hip
  have hthere : (s'.effect settings.vmName (.hypervisor (.importImage settings.imagePath
      (Vm.wanted settings opts).name (Vm.wanted settings opts).memory
      (Vm.wanted settings opts).cpus))).machine = some (.fresh (Vm.wanted settings opts)) := by
    show s'.machine.or _ = _
    rw [hm]
    exact if_pos rfl
  refine (heeds_interfaceFor hostIp).extends.bind fun interface es s hfound => ?_
  obtain ⟨rfl, hmore⟩ := hfound
  refine heeds_call (.needed trivial) (fun _ => excused rfl) fun _ _ => ?_
  refine heeds_need (.needed trivial) (fun _ _ => ⟨?_, ?_⟩) fun _ => excused rfl
  · exact ⟨_, congrArg Standing.machine (Standing.change_eq hthere)⟩
  · have hin := hmore.subset (List.mem_append_right _ (List.mem_singleton.mpr rfl))
    exact ⟨_, List.mem_append_left _ (List.mem_append_left _ hin), _, _, _, rfl⟩

end Machine

/-! ## Starting and resuming -/

namespace Vm

variable {settings : Settings} {command : UserCommand} {opts : StartOptions}
  {es : List (Event hostSignature)} {s : Standing} {m : World.Machine} {vm : Vm}

/-- The user is asked about memory if the host is short of it, and only then. -/
theorem behaves_confirmMemory {memory : UInt64} (hes : Looked es) :
    (confirmMemory settings memory).Behaves settings command es s fun _ es' s' =>
      s' = s ∧ Undone es' ∧ Consented settings memory es' := by
  unfold confirmMemory
  split
  next hshort =>
    refine heeds_call (.question hes.unasked) (nomatch ·) fun accepted _ => ?_
    have hundone := hes.undone.snoc (.inr rfl) (e := (Call.confirm (memoryQuestion memory)).answered
      accepted)
    cases accepted with
    | false => exact heeds_throw hundone.excused
    | true =>
      exact heeds_pure ⟨rfl, hundone, .inr (List.mem_append_right _ (List.mem_singleton.mpr rfl))⟩
  next hroom => exact heeds_pure ⟨rfl, hes.undone, .inl (UInt64.not_lt.mp hroom)⟩

/-- Checking a request looks around, and asks at most. -/
theorem behaves_verify (hseen : s.Seen settings False vm) (hes : Looked es) :
    (verify settings vm opts).Behaves settings command es s fun _ es' s' =>
      s' = s ∧ Undone es' ∧ s.Accepts settings opts ∧
        (s.machine = none → Consented settings (wanted settings opts).memory es') := by
  unfold Standing.Accepts verify
  rcases hm : s.machine with _ | m
  · rw [seen_absent hseen hm, seen_name hseen]
    refine Heeds.bind (Machine.yields_conflicting.mapError.behaves
      (Machine.looks_conflicting _).mapError hes) fun conflicting es' s' hlooked => ?_
    obtain ⟨⟨rfl, hconflicting⟩, hlooked⟩ := hlooked
    split
    next => exact heeds_throw hlooked.undone.excused
    next hfalse =>
      have hnone := hconflicting.mp (Bool.not_eq_true _ ▸ hfalse)
      dsimp only
      split
      next => exact heeds_throw hlooked.undone.excused
      next hlarge =>
        refine (behaves_confirmMemory hlooked).mono (fun _ es' s' hasked => ?_) fun _ _ _ h => h
        obtain ⟨rfl, hundone, hconsent⟩ := hasked
        exact ⟨rfl, hundone, ⟨hnone, UInt64.not_lt.mp hlarge⟩, fun _ => hconsent⟩
  · have hrefuse : (Task.ofExcept opts.refuseChange).Behaves settings command es s
        fun _ es' s' => es' = es ∧ s' = s ∧ opts.refuseChange = .ok () :=
      heeds_ofExcept (fun _ hok => ⟨rfl, rfl, hok⟩) fun _ _ => hes.undone.excused
    have hasked : Task.Behaves settings command (do
        Task.ofExcept opts.refuseChange
        confirmMemory settings vm.profile.memory) es s
        fun _ es' s' => s' = s ∧ Undone es' ∧ opts.refuseChange = .ok () := by
      refine hrefuse.bind fun _ es' s' hsame => ?_
      obtain ⟨rfl, rfl, hok⟩ := hsame
      exact (behaves_confirmMemory hes).mono (fun _ _ _ h => ⟨h.1, h.2.1, hok⟩) fun _ _ _ h => h
    have hpresent : ∀ {α : Type} {t : Task VmError α},
        (t.Behaves settings command es s fun _ es' s' =>
          s' = s ∧ Undone es' ∧ opts.refuseChange = .ok ()) →
        t.Behaves settings command es s fun _ es' s' =>
          s' = s ∧ Undone es' ∧ opts.refuseChange = .ok () ∧
            (some m = none → Consented settings (wanted settings opts).memory es') :=
      fun h => h.mono (fun _ _ _ hgood => ⟨hgood.1, hgood.2.1, hgood.2.2, nofun⟩) fun _ _ _ h => h
    have hup : (Task.ofExcept opts.refuseChange).Behaves settings command es s
        fun _ es' s' => s' = s ∧ Undone es' ∧ opts.refuseChange = .ok () := by
      refine hrefuse.mono (fun _ es' s' hsame => ?_) fun _ _ _ h => h
      obtain ⟨rfl, rfl, hok⟩ := hsame
      exact ⟨rfl, hes.undone, hok⟩
    split
    next hphase => exact absurd hphase (seen_present hseen hm)
    · exact hpresent hasked
    · exact hpresent hasked
    · exact hpresent hup
    · exact hpresent hup

/-- A routine request to the hypervisor, as part of a stage. -/
theorem behaves_request {request : HypervisorCall} (stage : Stage)
    (h : (Call.hypervisor request).Routine settings) :
    ((Machine.hypervisor request).mapError (VmError.ofMachine stage)).Behaves settings command es s
      fun _ _ s' => s' = s.requestEffect settings.vmName request :=
  Heeds.mapError
    (heeds_need (.routine h) (fun _ _ => rfl) fun _ => excused (by cases stage <;> rfl))

/-- What a step of a start hands on is to be provisioned, and the VM is up by then. -/
def HandsOn (handed : Option StartOptions) (s : Standing) : Prop :=
  ∀ more, handed = some more → more.provision = true ∧ s.IsUp

theorem behaves_boot {profile : VmProfile} (hname : profile.name = settings.vmName)
    (hm : s.machine = some m) :
    ((Machine.start settings profile).mapError (VmError.ofMachine .start)).Behaves settings
      (.start opts) es s fun _ es' s' => s'.IsUp ∧ es <+: es' :=
  Heeds.mapError ((Machine.heeds_start hname hm).extends.mono (fun _ _ _ h => h)
    fun _ _ _ _ => excused_map fun _ => rfl)

/-- Switching on a VM that was imported for the request, or that the request does not change. -/
theorem behaves_switchOn {profile : VmProfile} (hname : profile.name = settings.vmName)
    (hm : s.machine = some m)
    (hreason : opts.refuseChange = .ok () ∨ ∃ e ∈ es, e.Founds settings.vmName) :
    (switchOn settings profile opts).Behaves settings (.start opts) es s
      fun handed _ s' => HandsOn handed s' := by
  refine heeds_call (.routine trivial) (nomatch ·) fun _ _ => ?_
  refine Heeds.bind (behaves_boot hname hm) fun sshPort es' s' hbooted => ?_
  obtain ⟨hup, hmore⟩ := hbooted
  refine heeds_call (.routine trivial) (fun _ => excused rfl) fun key _ => ?_
  refine heeds_call (.options rfl (hreason.imp_right fun hfounded => ?_)) (fun _ => excused rfl)
    fun _ _ => ?_
  · obtain ⟨e, hin, he⟩ := hfounded
    have hbefore := hmore.subset (List.mem_append_left _ hin)
    exact ⟨e, List.mem_append_left _ hbefore, he⟩
  split
  · exact heeds_call (.routine trivial) (nomatch ·) fun _ _ => heeds_pure nofun
  · refine heeds_pure fun more heq => ?_
    obtain rfl := Option.some.inj heq
    exact ⟨rfl, hup⟩

/-- Switching the VM off, as part of a start. -/
theorem behaves_switchOff {profile : VmProfile} {stage : Stage}
    (hname : profile.name = settings.vmName) (hm : s.machine = some m) :
    (switchOff profile stage).Behaves settings command es s fun _ _ s' =>
      ∃ m', s'.machine = some m' := by
  refine heeds_call (.routine trivial) (nomatch ·) fun _ _ => ?_
  refine Heeds.bind (behaves_request stage (by exact trivial)) fun _ es' s' hoff => ?_
  obtain rfl := hoff
  refine heeds_need (.routine trivial) (fun _ _ => ?_) (nomatch ·)
  rw [← hname]
  exact ⟨_, congrArg Standing.machine (Standing.change_eq hm)⟩

/-- Restoring a VM begins with the memory it takes. -/
theorem behaves_restore (profile : VmProfile) (hes : Looked es) :
    (restore settings profile).Behaves settings command es s fun _ _ _ => True := by
  refine (behaves_confirmMemory hes).bind fun _ es' s' _ => ?_
  refine heeds_call (.routine trivial) (nomatch ·) fun _ _ => ?_
  refine Heeds.bind (behaves_request .resume (by exact trivial)) fun _ es' s' _ => ?_
  refine heeds_call (.routine trivial) (fun _ => excused rfl) fun key _ => ?_
  refine heeds_call (.routine trivial) (fun _ => excused rfl) fun _ _ => ?_
  exact heeds_need (.routine trivial) (fun _ _ => trivial) (nomatch ·)

/-- Provisioning a VM that is up is not refused. -/
theorem behaves_startStep_up (hup : s.IsUp) (hphase : vm.phase.isUp = true)
    (hprovision : opts.provision = true) :
    (startStep settings vm opts).Behaves settings command es s
      fun handed _ s' => HandsOn handed s' := by
  unfold startStep
  cases hp : vm.phase with
  | unprovisioned =>
    dsimp only
    rw [if_pos hprovision]
    have hserved : (provision settings vm.profile opts).Behaves settings command es s
        fun _ _ _ => True := by
      refine heeds_call (.routine trivial) (nomatch ·) fun _ _ => ?_
      refine heeds_call (.routine trivial) (fun _ => excused rfl) fun key _ => ?_
      exact heeds_need (.routine (by exact rfl)) (fun _ _ => trivial) fun _ => excused rfl
    exact hserved.bind fun _ _ _ _ => heeds_pure nofun
  | running =>
    dsimp only
    rw [if_pos hprovision]
    refine heeds_call (.routine trivial) (fun _ => excused rfl) fun key _ => ?_
    refine heeds_call (.routine (by exact rfl)) (fun _ => excused rfl) fun _ _ => ?_
    refine heeds_pure fun more heq => ?_
    obtain rfl := Option.some.inj heq
    exact ⟨hprovision, hup⟩
  | _ =>
    rw [hp] at hphase
    cases hphase

/-- A VM that is seen to be up is up. -/
theorem seen_up (hseen : s.Seen settings False vm) (h : vm.phase.isUp = true) : s.IsUp := by
  have hphase : (s.phase settings).isUp = true := by
    rcases hseen.phase with heq | ⟨-, -, hup⟩
    · rw [← heq]
      exact h
    · exact hup
  obtain ⟨m, hm⟩ := seen_machine hseen fun habsent => by
    rw [habsent] at h
    cases h
  refine ⟨m, hm, Decidable.byContradiction fun hpower => ?_⟩
  rw [phase_stopped hm hpower] at hphase
  split at hphase <;> cases hphase

/-- A VM that is not there is imported for the request and switched on. -/
theorem behaves_startStep_absent (hseen : s.Seen settings False vm) (hm : s.machine = none)
    (hes : Looked es) :
    (startStep settings vm opts).Behaves settings (.start opts) es s
      fun handed _ s' => HandsOn handed s' := by
  unfold startStep
  rw [seen_absent hseen hm, requested_eq_wanted hseen]
  refine (behaves_verify hseen hes).bind fun _ es' s' hverified => ?_
  obtain ⟨rfl, hundone, haccepts, hconsent⟩ := hverified
  refine heeds_call (.routine trivial) (nomatch ·) fun _ _ => ?_
  refine Heeds.bind (Heeds.mapError (Machine.heeds_importImage hm haccepts
    (hundone.snoc (.inl rfl)) ((hconsent hm).more (List.prefix_append _ _))))
    fun _ es' s' himported => ?_
  obtain ⟨⟨m, hm'⟩, e, hin, hfounds⟩ := himported
  refine heeds_call (.routine trivial) (nomatch ·) fun _ _ => ?_
  exact behaves_switchOn rfl hm' (.inr ⟨e, List.mem_append_left _ hin, hfounds⟩)

/-- What the state the VM is seen in contributes to a start. -/
theorem behaves_startStep (hseen : s.Seen settings False vm) (hes : Looked es) :
    (startStep settings vm opts).Behaves settings (.start opts) es s
      fun handed _ s' => HandsOn handed s' := by
  rcases hm : s.machine with _ | m
  · exact behaves_startStep_absent hseen hm hes
  by_cases hready : vm.phase.isUp = true ∧ opts.provision = true
  · exact behaves_startStep_up (seen_up hseen hready.1) hready.1 hready.2
  have hname := seen_name hseen
  have hverify : (verify settings vm opts).Behaves settings (.start opts) es s
      fun _ _ s' => s' = s ∧ opts.refuseChange = .ok () := by
    refine (behaves_verify hseen hes).mono (fun _ _ _ hverified => ⟨hverified.1, ?_⟩)
      fun _ _ _ h => h
    have haccepts := hverified.2.2.1
    unfold Standing.Accepts at haccepts
    rw [hm] at haccepts
    exact haccepts
  unfold startStep
  cases hphase : vm.phase with
  | notCreated => exact absurd hphase (seen_present hseen hm)
  | stopped =>
    refine hverify.bind fun _ es' s' hverified => ?_
    obtain ⟨rfl, haccepts⟩ := hverified
    exact behaves_switchOn hname hm (.inl haccepts)
  | saved =>
    have hrefuse : (Task.ofExcept opts.refuseChange).Behaves settings (.start opts) es s
        fun _ es' s' => es' = es ∧ s' = s :=
      heeds_ofExcept (fun _ _ => ⟨rfl, rfl⟩) fun _ _ => hes.undone.excused
    refine hrefuse.bind fun _ es' s' hsame => ?_
    obtain ⟨rfl, rfl⟩ := hsame
    exact (behaves_restore _ hes).bind fun _ _ _ _ => heeds_pure nofun
  | unprovisioned =>
    dsimp only
    rw [if_neg fun hprovision => hready ⟨by rw [hphase]; rfl, hprovision⟩]
    refine hverify.bind fun _ es' s' hverified => ?_
    obtain ⟨rfl, haccepts⟩ := hverified
    refine (behaves_switchOff hname hm).bind fun _ es' s' hoff => ?_
    obtain ⟨m', hm'⟩ := hoff
    exact behaves_switchOn hname hm' (.inl haccepts)
  | running =>
    dsimp only
    rw [if_neg fun hprovision => hready ⟨by rw [hphase]; rfl, hprovision⟩]
    refine hverify.bind fun _ es' s' hverified => ?_
    exact heeds_call (.routine trivial) (nomatch ·) fun _ _ => heeds_pure nofun

/-- What follows a step of a start, from a VM that is up. -/
theorem behaves_followUp {allowance : Nat} {more : StartOptions}
    (hname : vm.profile.name = settings.vmName)
    (hnext : ∀ next es, s.Seen settings False next →
      (start settings allowance next more).Behaves settings command es s fun _ _ _ => True) :
    (followUp settings allowance vm (some more)).Behaves settings command es s
      fun _ _ _ => True := by
  have hselect : ((select settings settings.vmName).mapError (VmError.during .start)).Behaves
      settings command es s fun next _ s' => s' = s ∧ s.Seen settings False next := by
    have hlooked : Heeds settings.vmName (HostCall.Due settings command)
        (select settings settings.vmName) es s _ _ :=
      yields_select.heeds (looks_select settings.vmName) fun _ _ _ hlooks =>
        .routine (Call.routine_of_looks hlooks)
    exact Heeds.mapError (hlooked.mono (fun _ _ _ h => h.1) fun _ _ _ _ => excused_map fun _ => rfl)
  unfold followUp
  dsimp only
  rw [hname]
  refine hselect.bind fun next es' s' hseen => ?_
  obtain ⟨rfl, hseen⟩ := hseen
  exact hnext next es' hseen

/-- A VM that is up is seen to be up. -/
theorem seen_isUp (hseen : s.Seen settings False vm) (hup : s.IsUp) : vm.phase.isUp = true := by
  obtain ⟨m, hm, hpower⟩ := hup
  have hphase : (s.phase settings).isUp = true := by
    rw [phase_running hm hpower]
    split <;> rfl
  rcases hseen.phase with heq | ⟨-, hseenUp, -⟩
  · rw [heq]
    exact hphase
  · exact hseenUp

/-- A start of a VM that is up, to provision it. -/
theorem behaves_start_up (allowance : Nat) (hup : s.IsUp) (hseen : s.Seen settings False vm)
    (hprovision : opts.provision = true) :
    (start settings allowance vm opts).Behaves settings command es s fun _ _ _ => True := by
  induction allowance generalizing vm opts es s with
  | zero => exact heeds_cut excused_cut
  | succ allowance ih =>
    rw [start_succ]
    refine (behaves_startStep_up hup (seen_isUp hseen hup) hprovision).bind
      fun handed es' s' hhanded => ?_
    cases handed with
    | none => exact heeds_pure trivial
    | some more =>
      obtain ⟨hmore, hup'⟩ := hhanded more rfl
      exact behaves_followUp (seen_name hseen) fun next es hnext => ih hup' hnext hmore

/-- A start, however often it is handed on. -/
theorem behaves_start (allowance : Nat) (hseen : s.Seen settings False vm) (hes : Looked es) :
    (start settings allowance vm opts).Behaves settings (.start opts) es s fun _ _ _ => True := by
  cases allowance with
  | zero => exact heeds_cut excused_cut
  | succ allowance =>
    rw [start_succ]
    refine (behaves_startStep hseen hes).bind fun handed es' s' hhanded => ?_
    cases handed with
    | none => exact heeds_pure trivial
    | some more =>
      -- Only now is the VM certain to be up, and nothing is checked again from here on.
      obtain ⟨hmore, hup⟩ := hhanded more rfl
      exact behaves_followUp (seen_name hseen) fun next es hnext =>
        behaves_start_up allowance hup hnext hmore

theorem behaves_resume (hes : Looked es) :
    (vm.resume settings).Behaves settings command es s fun _ _ _ => True := by
  unfold resume
  split
  all_goals try exact heeds_need (.routine trivial) (fun _ _ => trivial) (nomatch ·)
  exact behaves_restore _ hes

end Vm

/-! ## Commands -/

/-- Every call of a command is due, and its requests are rejected only as long as nothing has
been done for them. -/
theorem UserCommand.behaves_perform (settings : Settings) (allowance : Nat) (stdin : Bytes)
    (command : UserCommand) (s : Standing) :
    (command.perform settings allowance stdin).Behaves settings command [] s fun _ _ _ => True := by
  have hselect : (Vm.select settings settings.vmName).Behaves settings command [] s _ :=
    Vm.yields_select.behaves (Vm.looks_select settings.vmName) looked_nil
  cases command with
  | start opts =>
    refine hselect.bind fun vm es s' hselected => ?_
    obtain ⟨⟨rfl, hseen⟩, hlooked⟩ := hselected
    refine (Vm.behaves_start allowance hseen hlooked).bind fun _ es s _ => ?_
    split
    · have hstops : FailsStop (HostCall.Licensed settings) False
          (VmError.account 1 fun _ => False) (do
            let vm ← Vm.select settings settings.vmName
            vm.target true) :=
        (Vm.failsStop_select _).bind fun vm => (Vm.failsStop_target vm true).licensed _
      refine behaves_routine ?_ hstops
      exact Makes.bind (Vm.looks_select _).isRoutine fun vm => Vm.routine_target true
    · exact heeds_pure trivial
  | resume => exact hselect.bind fun vm es s hseen => Vm.behaves_resume hseen.2
  | _ => exact behaves_routine (routine_perform rfl _ _) (failsStop_plain rfl _ _)

end DevVm
