import DevVm.Proofs.Runs
import DevVm.UserCommand

/-!
# The first failed call ends a command

A command of the user makes its calls one after the other. The first one that fails, if its
failure is not tolerated, is the last thing the command does: nothing is told or asked
afterwards, and the command ends with an error whose innermost cause is that call's own
error, attributed to one stage at most. Without such a call a command can only end with a
refusal (`VmError.Refusal`).

Tolerated are the looks at how the guest is, and nothing else: the key and the health check
when the VM is selected, and the diagnostics (`HostCall.Licensed`). Everything else is made of
`HostCall.Strict` calls. Where in a run the tolerated ones may stand is what `TolerantInLooks`
adds to this in `UserCommand.perform_stopsAtFault`.

`FailsStop` says all this of a program as a tree, one case per constructor, so that it goes
through a sequence (`FailsStop.bind`) and a change of errors (`FailsStop.mapError`). Every
operation has one lemma, made of those of its parts. `FailsStop.run` carries the statement
over to any run against any host.
-/

namespace DevVm

/-! ## Refusals and faults -/

/-- The errors of a command that no failed call is behind. -/
inductive VmError.Refusal : VmError → Prop where
  | changed (property : Fixed) : Refusal (.changed property)
  | insufficientMemory (requested minimum : UInt64) :
      Refusal (.insufficientMemory requested minimum)
  | declined : Refusal .declined
  | oldVmPresent : Refusal .oldVmPresent
  | missingForwardPort (name : String) :
      Refusal (.during .start (.machine (.missingForwardPort name)))
  | invalidIp (ip : String) : Refusal (.during .importing (.machine (.invalidIp ip)))

/-- Calls that find out how the guest is: the health check and the diagnostics. -/
def Call.probes : Call → Bool
  | .ssh (.capture .checkHealth _ _ _) | .ssh (.capture (.diagnose _) _ _ _) => true
  | _ => false

/-- Calls whose failure is tolerated where it may be, and nowhere else: finding out how the
guest is never fails for want of the private key, of a healthy guest or of a diagnostic. -/
def HostCall.Licensed (settings : Settings) (c : HostCall) : Prop :=
  match c.call with
  | .read path => c.tolerated = true → path = settings.privateKeyPath
  | call => c.tolerated = call.probes

/-- Calls whose failure is never tolerated. -/
def HostCall.Strict (c : HostCall) : Prop := c.tolerated = false ∧ c.call.probes = false

theorem HostCall.Strict.licensed {settings : Settings} {c : HostCall} (h : c.Strict) :
    c.Licensed settings := by
  obtain ⟨call, tolerated⟩ := c
  obtain ⟨rfl, hprobes⟩ : tolerated = false ∧ call.probes = false := h
  cases call with
  | read path => exact nofun
  | _ => exact hprobes.symm

/-- A call that removes a machine. -/
def HostCall.Removes (c : HostCall) : Prop := ∃ name, c.call = .hypervisor (.remove name)

/-- The error of a call that failed and was not allowed to. -/
def Event.fault? (e : Event hostSignature) : Option Fault :=
  match (e.reply : e.call.call.Reply) with
  | .ok _ => none
  | .error failure => if e.call.tolerated then none else some (e.call.call.fault failure)

/-- How the errors of a task are read: which fault an error `blames`, and which errors
`refuse` without one. -/
structure Account (ε : Type) where
  blames : ε → Fault → Prop
  refuses : ε → Prop

/-- The errors of operations on machines, of which some are refusals. -/
def MachineError.account (refuses : MachineError → Prop) : Account MachineError where
  blames e fault := e.fault? = some fault
  refuses := refuses

/-- The errors of commands, attributed to up to a number of stages. -/
def VmError.account (depth : Nat) (refuses : VmError → Prop) : Account VmError where
  blames e fault := e.fault? = some fault ∧ e.stages.length ≤ depth
  refuses := refuses

/-- An outcome in which the first failed call that is not tolerated came last and is what
the error is about, and in which every other error is a refusal. All calls have the licence. -/
structure Outcome.StopsAtFault {σ ε α : Type} (licence : HostCall → Prop) (account : Account ε)
    (o : Outcome hostSignature σ (Except ε α)) : Prop where
  licensed : ∀ e ∈ o.events, licence e.call
  stops : ∀ before e after fault, o.events = before ++ e :: after →
    (∀ earlier ∈ before, earlier.fault? = none) → e.fault? = some fault →
    after = [] ∧ ∃ error, o.result = some (.error error) ∧ account.blames error fault
  refuses : (∀ e ∈ o.events, e.fault? = none) →
    ∀ error, o.result = some (.error error) → account.refuses error

/-! ## Programs that stop at a failed call -/

namespace Program

variable {ε ε' α β σ : Type} {licence : HostCall → Prop} {removes : Prop} {account : Account ε}

/-- A program that makes licensed calls and removes machines only if it is one that `removes`,
ends on the spot with the right error when a call fails that may not, and otherwise ends with
a refusal at worst. -/
def FailsStop (licence : HostCall → Prop) (removes : Prop) (account : Account ε) :
    Program hostSignature (Except ε α) → Prop
  | .done (.ok _) => True
  | .done (.error e) => account.refuses e
  | .cut => True
  | .call c next =>
    (licence c ∧ (c.Removes → removes)) ∧
      (∀ value, (next (.ok value)).FailsStop licence removes account) ∧
      ∀ failure : c.call.Failure,
        if c.tolerated then (next (.error failure)).FailsStop licence removes account
        else ∃ e, next (.error failure) = .done (.error e) ∧
          account.blames e (c.call.fault failure)

/-- A call that succeeds, or whose failure is tolerated, leaves it to the rest of the run. -/
theorem run_stopsAtFault_of_step {host : Host hostSignature σ} {c : HostCall}
    {next : c.call.Reply → Program hostSignature (Except ε α)} {reply : c.call.Reply} {s s' : σ}
    (hanswer : host.answer c s = (reply, s')) (hlicensed : licence c)
    (hreply : Event.fault? ⟨c, reply⟩ = none)
    (hrest : (Program.run host (next reply) s').StopsAtFault licence account) :
    (Program.run host (.call c next) s).StopsAtFault licence account := by
  have hrun : Program.run host (.call c next) s =
      { Program.run host (next reply) s' with
        events := ⟨c, reply⟩ :: (Program.run host (next reply) s').events } := by
    simp only [Program.run, hanswer]
  rw [hrun]
  refine ⟨fun e he => ?_, fun before e after fault h hbefore hfault => ?_, fun hnone => ?_⟩
  · rcases List.mem_cons.mp he with rfl | hin
    · exact hlicensed
    · exact hrest.licensed e hin
  · -- This call is not the one that failed, so that one is among the rest.
    cases before with
    | nil =>
      obtain ⟨rfl, -⟩ := List.cons.inj h
      rw [hreply] at hfault
      cases hfault
    | cons first before =>
      have htail : (Program.run host (next reply) s').events = before ++ e :: after :=
        (List.cons.inj h).2
      exact hrest.stops before e after fault htail
        (fun earlier hin => hbefore earlier (List.mem_cons_of_mem _ hin)) hfault
  · exact hrest.refuses fun e hin => hnone e (List.mem_cons_of_mem _ hin)

/-- A call that fails and may not ends the run with its own error. -/
theorem run_stopsAtFault_of_fault {host : Host hostSignature σ} {c : HostCall}
    {next : c.call.Reply → Program hostSignature (Except ε α)} {failure : c.call.Failure}
    {s s' : σ} {error : ε} (hanswer : host.answer c s = (.error failure, s'))
    (hlicensed : licence c) (hstrict : ¬c.tolerated = true)
    (hend : next (.error failure) = .done (.error error))
    (hblames : account.blames error (c.call.fault failure)) :
    (Program.run host (.call c next) s).StopsAtFault licence account := by
  have hrun : Program.run host (.call c next) s =
      ⟨some (.error error), [⟨c, .error failure⟩], s'⟩ := by
    simp only [Program.run, hanswer, hend]
  have hthis : Event.fault? ⟨c, .error failure⟩ = some (c.call.fault failure) := if_neg hstrict
  rw [hrun]
  refine ⟨fun e he => ?_, fun before e after fault h _ hfault => ?_, fun hnone => ?_⟩
  · rw [List.mem_singleton.mp he]
    exact hlicensed
  · -- There is only this event, so nothing comes before it or after it.
    cases before with
    | nil =>
      obtain ⟨rfl, rfl⟩ := List.cons.inj h
      obtain rfl := Option.some.inj (hthis.symm.trans hfault)
      exact ⟨rfl, error, rfl, hblames⟩
    | cons first before => exact absurd (List.cons.inj h).2 (by simp)
  · exact absurd (hthis.symm.trans (hnone _ (List.mem_singleton.mpr rfl))) (by simp)

/-- What becomes of a run of such a program, against any host. -/
theorem FailsStop.run {p : Program hostSignature (Except ε α)}
    (hp : p.FailsStop licence removes account) (host : Host hostSignature σ) (s : σ) :
    (Program.run host p s).StopsAtFault licence account := by
  induction p generalizing s with
  | done result =>
    refine ⟨fun e he => (List.not_mem_nil he).elim, fun before e after fault h => ?_, ?_⟩
    · exact absurd h.symm (by simp [Program.run])
    · intro _ error h
      obtain rfl : result = .error error := Option.some.inj h
      exact hp
  | cut =>
    refine ⟨fun e he => (List.not_mem_nil he).elim, fun before e after fault h => ?_, ?_⟩
    · exact absurd h.symm (by simp [Program.run])
    · intro _ error h
      cases h
  | call c next ih =>
    obtain ⟨hlicensed, hok, herror⟩ := hp
    rcases hr : host.answer c s with ⟨failure | value, s'⟩
    · by_cases htol : c.tolerated = true
      · -- Tolerated: the run goes on as after any other answer.
        have hnext := herror failure
        rw [if_pos htol] at hnext
        refine run_stopsAtFault_of_step hr hlicensed.1 ?_ (ih _ hnext s')
        show (if c.tolerated = true then _ else _) = none
        rw [if_pos htol]
      · obtain ⟨e, hend, hblames⟩ := by simpa only [if_neg htol] using herror failure
        exact run_stopsAtFault_of_fault hr hlicensed.1 htol hend hblames
    · exact run_stopsAtFault_of_step hr hlicensed.1 rfl (ih _ (hok value) s')

/-- A sequence stops at a failed call if both parts do. -/
theorem FailsStop.bind {p : Program hostSignature (Except ε α)}
    {f : Except ε α → Program hostSignature (Except ε' β)} {account' : Account ε'}
    (hp : p.FailsStop licence removes account)
    (hok : ∀ a, (f (.ok a)).FailsStop licence removes account')
    (hrefuses : ∀ e, account.refuses e → (f (.error e)).FailsStop licence removes account')
    (hblames : ∀ e fault, account.blames e fault →
      ∃ e', f (.error e) = .done (.error e') ∧ account'.blames e' fault) :
    (p >>= f).FailsStop licence removes account' := by
  induction p with
  | done result =>
    cases result with
    | ok a => exact hok a
    | error e => exact hrefuses e hp
  | cut => exact trivial
  | call c next ih =>
    obtain ⟨hlicensed, hvalue, herror⟩ := hp
    refine ⟨hlicensed, fun value => ih _ (hvalue value), fun failure => ?_⟩
    have hfailed := herror failure
    split
    next htol =>
      rw [if_pos htol] at hfailed
      exact ih _ hfailed
    next hstrict =>
      rw [if_neg hstrict] at hfailed
      obtain ⟨e, hend, hblame⟩ := hfailed
      -- The first part is over, and all the second one gets to see is the error.
      obtain ⟨e', hf, hblame'⟩ := hblames e _ hblame
      refine ⟨e', ?_, hblame'⟩
      show (next (.error failure)).bind f = _
      rw [hend]
      exact hf

/-- A licence may be widened. -/
theorem FailsStop.mono {licence' : HostCall → Prop} {p : Program hostSignature (Except ε α)}
    (hp : p.FailsStop licence removes account) (h : ∀ c, licence c → licence' c) :
    p.FailsStop licence' removes account := by
  induction p with
  | done result =>
    cases result with
    | ok a => exact trivial
    | error e => exact hp
  | cut => exact trivial
  | call c next ih =>
    obtain ⟨⟨hlicensed, hremoves⟩, hvalue, herror⟩ := hp
    refine ⟨⟨h c hlicensed, hremoves⟩, fun value => ih _ (hvalue value), fun failure => ?_⟩
    have hfailed := herror failure
    split at hfailed
    next htol => exact (if_pos htol).symm ▸ ih _ hfailed
    next hstrict => exact (if_neg hstrict).symm ▸ hfailed

/-- Which calls such a program may make. -/
theorem FailsStop.makes {p : Program hostSignature (Except ε α)}
    (hp : p.FailsStop licence removes account) :
    p.Makes fun c : HostCall => licence c ∧ (c.Removes → removes) := by
  induction p with
  | done result => exact trivial
  | cut => exact trivial
  | call c next ih =>
    obtain ⟨hlicensed, hok, herror⟩ := hp
    refine ⟨hlicensed, fun reply => ?_⟩
    cases reply with
    | ok value => exact ih _ (hok value)
    | error failure =>
      have hfailed := herror failure
      split at hfailed
      next => exact ih _ hfailed
      next =>
        obtain ⟨e, hend, -⟩ := hfailed
        rw [hend]
        exact trivial

end Program

namespace Task

variable {ε ε' α β : Type} {licence : HostCall → Prop} {removes : Prop} {account : Account ε}

/-- A task that stops at a failed call. -/
def FailsStop (licence : HostCall → Prop) (removes : Prop) (account : Account ε) (t : Task ε α) :
    Prop :=
  t.program.FailsStop licence removes account

theorem failsStop_pure (a : α) : FailsStop licence removes account (pure a : Task ε α) := trivial

theorem failsStop_throw {e : ε} (h : account.refuses e) :
    FailsStop licence removes account (throw e : Task ε α) := h

theorem failsStop_cut : FailsStop licence removes account (cut : Task ε α) := trivial

theorem failsStop_ofExcept {answer : Except ε α}
    (h : ∀ e, answer = .error e → account.refuses e) :
    FailsStop licence removes account (ofExcept answer) := by
  cases answer with
  | ok a => exact trivial
  | error e => exact h e rfl

theorem failsStop_need {c : Call} {wrap : c.Failure → ε}
    (hlicensed : licence ⟨c, false⟩)
    (hblames : ∀ failure, account.blames (wrap failure) (c.fault failure))
    (hremoves : ∀ name, c = .hypervisor (.remove name) → removes) :
    FailsStop licence removes account (need c wrap) :=
  ⟨⟨hlicensed, fun ⟨name, h⟩ => hremoves name h⟩, fun _ => trivial,
    fun failure => ⟨wrap failure, rfl, hblames failure⟩⟩

theorem failsStop_attempt {c : Call} (hlicensed : licence ⟨c, true⟩)
    (hremoves : ∀ name, c ≠ .hypervisor (.remove name)) :
    FailsStop licence removes account (attempt c : Task ε _) :=
  ⟨⟨hlicensed, fun ⟨name, h⟩ => absurd h (hremoves name)⟩, fun _ => trivial, fun _ => trivial⟩

theorem failsStop_tell (text : String) : FailsStop HostCall.Strict removes account (tell text) :=
  failsStop_need ⟨rfl, rfl⟩ nofun nofun

theorem failsStop_confirm (question : String) :
    FailsStop HostCall.Strict removes account (confirm question) :=
  failsStop_need ⟨rfl, rfl⟩ nofun nofun

/-- A task in which nothing is tolerated makes licensed calls, whatever the settings. -/
theorem FailsStop.licensed {t : Task ε α} (ht : FailsStop HostCall.Strict removes account t)
    (settings : Settings) : FailsStop (HostCall.Licensed settings) removes account t :=
  Program.FailsStop.mono ht fun _ h => h.licensed

theorem FailsStop.bind {t : Task ε α} {f : α → Task ε β} (ht : FailsStop licence removes account t)
    (hf : ∀ a, FailsStop licence removes account (f a)) :
    FailsStop licence removes account (t >>= f) :=
  Program.FailsStop.bind ht hf (fun _ h => h) fun e _ h => ⟨e, rfl, h⟩

/-- Errors may be turned into others that still blame the same fault or refuse. -/
theorem FailsStop.mapError {account' : Account ε'} {t : Task ε α} {g : ε → ε'}
    (ht : FailsStop licence removes account t)
    (hblames : ∀ e fault, account.blames e fault → account'.blames (g e) fault)
    (hrefuses : ∀ e, account.refuses e → account'.refuses (g e)) :
    FailsStop licence removes account' (t.mapError g) :=
  Program.FailsStop.bind ht (fun _ => trivial) hrefuses fun e _ h => ⟨g e, rfl, hblames e _ h⟩

end Task

/-! ## Operations on machines -/

namespace Machine

open DevVm.Task

variable {settings : Settings} {removes : Prop} {refuses : MachineError → Prop}

theorem failsStop_hypervisor {request : HypervisorCall}
    (h : ∀ name, request = .remove name → removes) :
    FailsStop HostCall.Strict removes (MachineError.account refuses) (hypervisor request) :=
  failsStop_need ⟨rfl, rfl⟩ (fun _ => rfl) fun name heq => h name (Call.hypervisor.inj heq)

theorem failsStop_ssh {request : SshCall} (h : HostCall.Strict ⟨.ssh request, false⟩) :
    FailsStop HostCall.Strict removes (MachineError.account refuses) (ssh request) :=
  failsStop_need h (fun _ => rfl) nofun

theorem failsStop_interfaceFor (hostIp : String) :
    FailsStop HostCall.Strict removes (MachineError.account refuses) (interfaceFor hostIp) := by
  refine (failsStop_hypervisor (by nofun)).bind fun listed => ?_
  split
  · exact failsStop_pure _
  · exact failsStop_hypervisor (by nofun)

/-- Importing refuses an address that is none, and does nothing then. -/
theorem failsStop_importImage (image : String) (vm : VmProfile) :
    FailsStop HostCall.Strict removes (MachineError.account (· = .invalidIp vm.ip))
      (importImage image vm) := by
  refine (failsStop_ofExcept fun e he => ?_).bind fun hostIp => ?_
  · unfold hostAddress at he
    split at he
    · cases he
    · exact (Except.error.inj he).symm
  refine (failsStop_ssh ⟨rfl, rfl⟩).bind fun address => ?_
  refine (failsStop_hypervisor (by nofun)).bind fun _ => ?_
  refine (failsStop_interfaceFor _).bind fun interface => ?_
  refine (failsStop_hypervisor (by nofun)).bind fun _ => ?_
  exact failsStop_hypervisor (by nofun)

theorem failsStop_setUpGuest (vm : VmProfile) (sshPort : UInt16) :
    FailsStop HostCall.Strict removes (MachineError.account refuses)
      (setUpGuest settings vm sshPort) := by
  refine (failsStop_need ⟨rfl, rfl⟩ (fun _ => rfl) nofun).bind fun insecureKey => ?_
  refine (failsStop_ssh ⟨rfl, rfl⟩).bind fun _ => ?_
  refine (failsStop_ssh ⟨rfl, rfl⟩).bind fun pair => ?_
  refine (failsStop_ssh ⟨rfl, rfl⟩).bind fun _ => ?_
  exact failsStop_need ⟨rfl, rfl⟩ (fun _ => rfl) nofun

/-- Starting refuses a machine that cannot be reached. -/
theorem failsStop_start (vm : VmProfile) :
    FailsStop HostCall.Strict removes (MachineError.account (· = .missingForwardPort vm.name))
      (start settings vm) := by
  refine (failsStop_hypervisor (by nofun)).bind fun forwarded => ?_
  rcases forwarded with _ | sshPort
  · exact failsStop_throw (by rfl)
  · refine (failsStop_hypervisor (by nofun)).bind fun recorded => ?_
    refine (failsStop_hypervisor (by nofun)).bind fun _ => ?_
    split
    · refine (failsStop_setUpGuest _ _).bind fun _ => ?_
      refine (failsStop_hypervisor (by nofun)).bind fun _ => ?_
      refine (failsStop_hypervisor (by nofun)).bind fun _ => ?_
      refine (failsStop_hypervisor (by nofun)).bind fun _ => ?_
      refine (failsStop_hypervisor (by nofun)).bind fun _ => ?_
      exact failsStop_pure _
    · exact failsStop_pure _

theorem failsStop_destroyOne (hremoves : removes) (name : String) :
    FailsStop HostCall.Strict removes (MachineError.account refuses) (destroyOne name) := by
  refine (failsStop_hypervisor (by nofun)).bind fun present => ?_
  split
  · refine (failsStop_hypervisor (by nofun)).bind fun running => ?_
    split
    · refine (failsStop_hypervisor (by nofun)).bind fun _ => ?_
      exact failsStop_hypervisor fun _ _ => hremoves
    · exact failsStop_hypervisor fun _ _ => hremoves
  · exact failsStop_pure _

theorem failsStop_destroy (hremoves : removes) (names : List String) :
    FailsStop HostCall.Strict removes (MachineError.account refuses) (destroy names) := by
  induction names with
  | nil => exact failsStop_pure _
  | cons name more ih => exact (failsStop_destroyOne hremoves name).bind fun _ => ih

theorem failsStop_status (name : String) :
    FailsStop HostCall.Strict removes (MachineError.account refuses) (status name) := by
  refine (failsStop_hypervisor (by nofun)).bind fun present => ?_
  split
  · exact failsStop_pure _
  · refine (failsStop_hypervisor (by nofun)).bind fun running => ?_
    exact failsStop_pure _

theorem failsStop_isSuspended (name : String) :
    FailsStop HostCall.Strict removes (MachineError.account refuses) (isSuspended name) :=
  failsStop_hypervisor nofun

theorem failsStop_ownVms :
    FailsStop HostCall.Strict removes (MachineError.account refuses) ownVms := by
  refine (failsStop_hypervisor (by nofun)).bind fun names => ?_
  exact failsStop_pure _

theorem failsStop_conflicting (name : String) :
    FailsStop HostCall.Strict removes (MachineError.account refuses) (conflicting name) := by
  refine failsStop_ownVms.bind fun names => ?_
  exact failsStop_pure _

theorem failsStop_describe (name : String) :
    FailsStop HostCall.Strict removes (MachineError.account refuses) (describe name) := by
  refine (failsStop_hypervisor (by nofun)).bind fun info => ?_
  refine (failsStop_hypervisor (by nofun)).bind fun sshPort => ?_
  refine (failsStop_hypervisor (by nofun)).bind fun recordedIp => ?_
  refine (failsStop_hypervisor (by nofun)).bind fun recordedDomain => ?_
  exact failsStop_pure _

end Machine

/-! ## Operations on the VM -/

namespace Vm

open DevVm.Task

variable {settings : Settings} {removes : Prop} {refuses : VmError → Prop} {depth : Nat}

/-- An operation on a machine that never refuses, outside of any stage. -/
theorem failsStop_machine {α : Type} {t : Task MachineError α}
    (ht : FailsStop HostCall.Strict removes (MachineError.account fun _ => False) t) :
    FailsStop HostCall.Strict removes (VmError.account depth refuses) (t.mapError .machine) :=
  ht.mapError (fun _ _ h => ⟨h, Nat.zero_le _⟩) (fun _ h => h.elim)

/-- An operation on a machine as part of a stage, which keeps its refusals. -/
theorem failsStop_ofMachine {α : Type} {t : Task MachineError α} {stage : Stage}
    {refusal : MachineError → Prop}
    (ht : FailsStop HostCall.Strict removes (MachineError.account refusal) t)
    (h : ∀ e, refusal e → refuses (.during stage (.machine e))) :
    FailsStop HostCall.Strict removes (VmError.account (depth + 1) refuses)
      (t.mapError (.ofMachine stage)) :=
  ht.mapError (fun _ _ h => ⟨h, Nat.succ_le_succ (Nat.zero_le _)⟩) h

/-- A single request to the hypervisor as part of a stage. -/
theorem failsStop_request {stage : Stage} {request : HypervisorCall}
    (h : ∀ name, request ≠ .remove name) :
    FailsStop HostCall.Strict removes (VmError.account (depth + 1) refuses)
      ((Machine.hypervisor request).mapError (.ofMachine stage)) :=
  failsStop_ofMachine (Machine.failsStop_hypervisor fun name heq => absurd heq (h name))
    fun _ (h : False) => h.elim

/-- A task that never refuses as part of a stage, one stage deeper. -/
theorem failsStop_during {licence : HostCall → Prop} {α : Type} {t : Task VmError α}
    {stage : Stage} (ht : FailsStop licence removes (VmError.account depth fun _ => False) t) :
    FailsStop licence removes (VmError.account (depth + 1) refuses) (t.mapError (.during stage)) :=
  ht.mapError (fun _ _ h => ⟨h.1, Nat.succ_le_succ h.2⟩) (fun _ h => h.elim)

theorem failsStop_readKey {wrap : FileError → VmError}
    (h : ∀ e, (wrap e).fault? = some (.files e) ∧ (wrap e).stages.length ≤ depth) :
    FailsStop HostCall.Strict removes (VmError.account depth refuses) (readKey settings wrap) :=
  failsStop_need ⟨rfl, rfl⟩ h nofun

theorem failsStop_ssh {request : SshCall} {wrap : SshError → VmError}
    (hlicensed : HostCall.Strict ⟨.ssh request, false⟩)
    (h : ∀ e, (wrap e).fault? = some (.ssh e) ∧ (wrap e).stages.length ≤ depth) :
    FailsStop HostCall.Strict removes (VmError.account depth refuses)
      (Task.need (.ssh request) wrap) :=
  failsStop_need hlicensed h nofun

theorem failsStop_write {path : String} {content : Bytes} {wrap : FileError → VmError}
    (h : ∀ e, (wrap e).fault? = some (.files e) ∧ (wrap e).stages.length ≤ depth) :
    FailsStop HostCall.Strict removes (VmError.account depth refuses)
      (Task.need (.writePrivate path content) wrap) :=
  failsStop_need ⟨rfl, rfl⟩ h nofun

theorem failsStop_answersHealthy (vm : VmProfile) :
    FailsStop (HostCall.Licensed settings) removes (VmError.account depth refuses)
      (answersHealthy settings vm) := by
  refine (failsStop_attempt (by exact fun _ => rfl) (by nofun)).bind fun read => ?_
  rcases read with _ | key
  · exact failsStop_pure _
  · refine (failsStop_attempt (by rfl) (by nofun)).bind fun checked => ?_
    exact failsStop_pure _

theorem failsStop_select (name : String) :
    FailsStop (HostCall.Licensed settings) removes (VmError.account depth refuses)
      (select settings name) := by
  refine ((failsStop_machine (Machine.failsStop_status name)).licensed _).bind fun status => ?_
  cases status with
  | notCreated => exact failsStop_pure _
  | stopped =>
    refine ((failsStop_machine (Machine.failsStop_describe name)).licensed _).bind fun vm => ?_
    refine ((failsStop_machine (Machine.failsStop_isSuspended name)).licensed _).bind
      fun saved => ?_
    exact failsStop_pure _
  | running =>
    refine ((failsStop_machine (Machine.failsStop_describe name)).licensed _).bind fun vm => ?_
    refine (failsStop_answersHealthy vm).bind fun provisioned => ?_
    exact failsStop_pure _

theorem failsStop_refuseChange (opts : StartOptions) :
    FailsStop HostCall.Strict removes (VmError.account depth VmError.Refusal)
      (Task.ofExcept opts.refuseChange) := by
  refine failsStop_ofExcept fun e he => ?_
  unfold StartOptions.refuseChange at he
  split at he
  · obtain rfl := Except.error.inj he
    exact .changed _
  · cases he

theorem failsStop_confirmMemory (memory : UInt64) :
    FailsStop HostCall.Strict removes (VmError.account depth VmError.Refusal)
      (confirmMemory settings memory) := by
  unfold confirmMemory
  split
  · refine (failsStop_confirm _).bind fun accepted => ?_
    split
    · exact failsStop_throw .declined
    · exact failsStop_pure _
  · exact failsStop_pure _

theorem failsStop_verify (vm : Vm) (opts : StartOptions) :
    FailsStop HostCall.Strict removes (VmError.account depth VmError.Refusal)
      (verify settings vm opts) := by
  unfold verify
  split
  · refine (failsStop_machine (Machine.failsStop_conflicting _)).bind fun conflicting => ?_
    split
    · exact failsStop_throw .oldVmPresent
    · dsimp only
      split
      · exact failsStop_throw (.insufficientMemory _ _)
      · exact failsStop_confirmMemory _
  · exact (failsStop_refuseChange opts).bind fun _ => failsStop_confirmMemory _
  · exact (failsStop_refuseChange opts).bind fun _ => failsStop_confirmMemory _
  · exact failsStop_refuseChange opts
  · exact failsStop_refuseChange opts

/-! ## Starting -/

theorem failsStop_switchOn (vm : VmProfile) (opts : StartOptions) :
    FailsStop HostCall.Strict removes (VmError.account 1 VmError.Refusal)
      (switchOn settings vm opts) := by
  refine (failsStop_tell _).bind fun _ => ?_
  refine (failsStop_ofMachine (Machine.failsStop_start vm) ?_).bind fun sshPort => ?_
  · intro _ heq
    subst heq
    exact .missingForwardPort vm.name
  refine (failsStop_readKey fun _ => ⟨rfl, Nat.le_refl 1⟩).bind fun key => ?_
  refine (failsStop_ssh ⟨rfl, rfl⟩ fun _ => ⟨rfl, Nat.le_refl 1⟩).bind fun _ => ?_
  split
  · refine (failsStop_tell _).bind fun _ => ?_
    exact failsStop_pure _
  · exact failsStop_pure _

theorem failsStop_restore (vm : VmProfile) :
    FailsStop HostCall.Strict removes (VmError.account 1 VmError.Refusal)
      (restore settings vm) := by
  refine (failsStop_confirmMemory _).bind fun _ => ?_
  refine (failsStop_tell _).bind fun _ => ?_
  refine (failsStop_request (by nofun)).bind fun _ => ?_
  refine (failsStop_readKey fun _ => ⟨rfl, Nat.le_refl 1⟩).bind fun key => ?_
  refine (failsStop_ssh ⟨rfl, rfl⟩ fun _ => ⟨rfl, Nat.le_refl 1⟩).bind fun _ => ?_
  exact failsStop_tell _

theorem failsStop_switchOff (vm : VmProfile) (stage : Stage) :
    FailsStop HostCall.Strict removes (VmError.account 1 refuses) (switchOff vm stage) := by
  refine (failsStop_tell _).bind fun _ => ?_
  refine (failsStop_request (by nofun)).bind fun _ => ?_
  exact failsStop_tell _

theorem failsStop_provision (vm : VmProfile) (opts : StartOptions) :
    FailsStop HostCall.Strict removes (VmError.account 1 refuses) (provision settings vm opts) := by
  refine (failsStop_tell _).bind fun _ => ?_
  refine (failsStop_readKey fun _ => ⟨rfl, Nat.le_refl 1⟩).bind fun key => ?_
  exact failsStop_ssh ⟨rfl, rfl⟩ fun _ => ⟨rfl, Nat.le_refl 1⟩

/-- What each state contributes to a start stops at a failed call. -/
theorem failsStop_startStep (vm : Vm) (opts : StartOptions) :
    FailsStop HostCall.Strict removes (VmError.account 1 VmError.Refusal)
      (startStep settings vm opts) := by
  unfold startStep
  split
  · refine (failsStop_verify vm opts).bind fun _ => ?_
    refine (failsStop_tell _).bind fun _ => ?_
    refine (failsStop_ofMachine (Machine.failsStop_importImage _ _) ?_).bind fun _ => ?_
    · intro _ heq
      subst heq
      exact .invalidIp _
    refine (failsStop_tell _).bind fun _ => ?_
    exact failsStop_switchOn _ opts
  · exact (failsStop_verify vm opts).bind fun _ => failsStop_switchOn _ opts
  · refine (failsStop_refuseChange opts).bind fun _ => ?_
    exact (failsStop_restore _).bind fun _ => failsStop_pure _
  · split
    · exact (failsStop_provision _ opts).bind fun _ => failsStop_pure _
    · refine (failsStop_verify vm opts).bind fun _ => ?_
      exact (failsStop_switchOff _ _).bind fun _ => failsStop_switchOn _ opts
  · split
    · refine (failsStop_readKey fun _ => ⟨rfl, Nat.le_refl 1⟩).bind fun key => ?_
      refine (failsStop_ssh ⟨rfl, rfl⟩ fun _ => ⟨rfl, Nat.le_refl 1⟩).bind fun _ => ?_
      exact failsStop_pure _
    · refine (failsStop_verify vm opts).bind fun _ => ?_
      exact (failsStop_tell _).bind fun _ => failsStop_pure _

/-- A start stops at a failed call however often it is handed on: a step's own stage is never
wrapped into another one. -/
theorem failsStop_start (allowance : Nat) (vm : Vm) (opts : StartOptions) :
    FailsStop (HostCall.Licensed settings) removes (VmError.account 1 VmError.Refusal)
      (start settings allowance vm opts) := by
  induction allowance generalizing vm opts with
  | zero => exact failsStop_cut
  | succ allowance ih =>
    refine ((failsStop_startStep vm opts).licensed _).bind fun handed => ?_
    cases handed with
    | none => exact failsStop_pure _
    | some opts =>
      exact (failsStop_during (failsStop_select _)).bind fun next => ih next opts

/-! ## The other operations -/

theorem failsStop_stop (vm : Vm) :
    FailsStop HostCall.Strict removes (VmError.account 1 refuses) vm.stop := by
  unfold stop
  split
  all_goals first | exact failsStop_tell _ | exact failsStop_switchOff _ _

theorem failsStop_suspend (vm : Vm) :
    FailsStop HostCall.Strict removes (VmError.account 1 refuses) vm.suspend := by
  unfold suspend
  split
  all_goals try exact failsStop_tell _
  refine (failsStop_tell _).bind fun _ => ?_
  exact (failsStop_request (by nofun)).bind fun _ => failsStop_tell _

theorem failsStop_resume (vm : Vm) :
    FailsStop HostCall.Strict removes (VmError.account 1 VmError.Refusal) (vm.resume settings) := by
  unfold resume
  split
  all_goals first | exact failsStop_tell _ | exact failsStop_restore _

theorem failsStop_trust (vm : Vm) (print : Bool) :
    FailsStop HostCall.Strict removes (VmError.account 1 refuses) (vm.trust settings print) := by
  unfold trust
  split
  all_goals try exact failsStop_tell _
  refine (failsStop_readKey fun _ => ⟨rfl, Nat.le_refl 1⟩).bind fun key => ?_
  refine (failsStop_ssh ⟨rfl, rfl⟩ fun _ => ⟨rfl, Nat.le_refl 1⟩).bind fun certificate => ?_
  split
  · exact failsStop_tell _
  · exact (failsStop_write fun _ => ⟨rfl, Nat.le_refl 1⟩).bind fun _ => failsStop_tell _

theorem failsStop_shell (vm : Vm) (stdin : Bytes) :
    FailsStop HostCall.Strict removes (VmError.account 1 refuses) (vm.shell settings stdin) := by
  unfold shell
  split
  all_goals try exact failsStop_tell _
  all_goals
    refine (failsStop_readKey fun _ => ⟨rfl, Nat.zero_le 1⟩).bind fun key => ?_
    exact failsStop_ssh ⟨rfl, rfl⟩ fun _ => ⟨rfl, Nat.zero_le 1⟩

theorem failsStop_target (vm : Vm) (auto : Bool) :
    FailsStop HostCall.Strict removes (VmError.account 1 refuses) (vm.target auto) := by
  unfold target
  split
  all_goals try exact failsStop_tell _
  refine (failsStop_need ⟨rfl, rfl⟩ (fun _ => ?_) (by nofun)).bind fun _ => ?_
  · exact ⟨rfl, Nat.le_refl 1⟩
  · split
    · exact failsStop_tell _
    · exact failsStop_pure _

theorem failsStop_collect (addresses : List Endpoint) (key : Bytes) (whats : List Diagnostic) :
    FailsStop (HostCall.Licensed settings) removes (VmError.account depth refuses)
      (collect addresses key whats) := by
  induction whats with
  | nil => exact failsStop_pure _
  | cons what more ih =>
    refine (failsStop_attempt (by rfl) (by nofun)).bind fun reply => ?_
    exact ih.bind fun rest => failsStop_pure _

theorem failsStop_diagnose (vm : Vm) :
    FailsStop (HostCall.Licensed settings) removes (VmError.account 1 refuses)
      (vm.diagnose settings) := by
  have hcollect : FailsStop (HostCall.Licensed settings) removes (VmError.account 0 fun _ => False)
      (collectLogs settings vm.profile) := by
    refine ((failsStop_readKey fun _ => ⟨rfl, Nat.le_refl 0⟩).licensed _).bind fun key => ?_
    refine (failsStop_collect _ key _).bind fun logs => ?_
    exact (failsStop_write fun _ => ⟨rfl, Nat.le_refl 0⟩).licensed _
  unfold diagnose
  split
  all_goals try exact (failsStop_tell _).licensed _
  all_goals exact (failsStop_during hcollect).bind fun _ => (failsStop_tell _).licensed _

end Vm

/-! ## Commands -/

namespace UserCommand

open DevVm.Task

variable {settings : Settings} {removes : Prop}

theorem failsStop_destroyAll {refuses : VmError → Prop} (hremoves : removes) :
    FailsStop HostCall.Strict removes (VmError.account 1 refuses) destroyAll := by
  refine (Vm.failsStop_machine Machine.failsStop_ownVms).bind fun names => ?_
  split
  · exact failsStop_tell _
  · refine (failsStop_tell _).bind fun _ => ?_
    refine (Vm.failsStop_machine (Machine.failsStop_destroy hremoves _)).bind fun _ => ?_
    exact failsStop_tell _

/-- Commands that neither start the VM nor resume it, and so never refuse. -/
def isPlain : UserCommand → Bool
  | .start _ | .resume => false
  | .stop | .suspend | .status | .trust _ | .ssh | .target | .debug | .destroy => true

theorem failsStop_plain {refuses : VmError → Prop} {command : UserCommand}
    (h : command.isPlain = true) (allowance : Nat) (stdin : Bytes) :
    FailsStop (HostCall.Licensed settings) (command = .destroy) (VmError.account 1 refuses)
      (command.perform settings allowance stdin) := by
  cases command with
  | start opts => cases h
  | resume => cases h
  | stop => exact (Vm.failsStop_select _).bind fun vm => (Vm.failsStop_stop vm).licensed _
  | suspend => exact (Vm.failsStop_select _).bind fun vm => (Vm.failsStop_suspend vm).licensed _
  | status => exact (Vm.failsStop_select _).bind fun _ => (failsStop_tell _).licensed _
  | trust print =>
    exact (Vm.failsStop_select _).bind fun vm => (Vm.failsStop_trust vm print).licensed _
  | ssh => exact (Vm.failsStop_select _).bind fun vm => (Vm.failsStop_shell vm stdin).licensed _
  | target => exact (Vm.failsStop_select _).bind fun vm => (Vm.failsStop_target vm false).licensed _
  | debug => exact (Vm.failsStop_select _).bind fun vm => Vm.failsStop_diagnose vm
  | destroy => exact (failsStop_destroyAll rfl).licensed _

/-- Every command stops at a failed call, and only destroying removes machines. -/
theorem failsStop_perform (settings : Settings) (allowance : Nat) (stdin : Bytes)
    (command : UserCommand) :
    FailsStop (HostCall.Licensed settings) (command = .destroy)
      (VmError.account 1 VmError.Refusal) (command.perform settings allowance stdin) := by
  cases command with
  | start opts =>
    refine (Vm.failsStop_select _).bind fun vm => ?_
    refine (Vm.failsStop_start allowance vm opts).bind fun _ => ?_
    split
    · exact (Vm.failsStop_select _).bind fun vm => (Vm.failsStop_target vm true).licensed _
    · exact failsStop_pure _
  | resume => exact (Vm.failsStop_select _).bind fun vm => (Vm.failsStop_resume vm).licensed _
  | _ => exact failsStop_plain rfl allowance stdin

end UserCommand

end DevVm
