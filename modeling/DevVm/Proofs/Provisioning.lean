import DevVm.Proofs.Connections
import Mathlib.Logic.Relation

/-!
# How often a start provisions

A start hands itself on: a VM that was booted is selected again, to be provisioned as whatever it
turns out to be, and a guest that counts as provisioned is made to forget that and selected once
more. What ends this is the guest, which is found unwell once it has forgotten its health
(`Guest.Forgetful`). So a start takes three steps at most, provisions at most once, and if it
succeeds has done so exactly if that was wanted (`Vm.start_provisions_once`).

All steps but the one that provisions are looked at as programs, whose calls neither provision nor
open a shell, and which are never cut off (`Task.Idle`). Such a task leaves an unwell guest unwell.
-/

namespace DevVm

open DevVm.Task DevVm.World

/-! ## Guests that forget their health -/

/-- Commands that provision the guest. -/
def GuestCommand.provisions : GuestCommand → Bool
  | .provision _ => true
  | .configureNetwork _ | .authorizeKey _ | .writeOptions _ | .checkHealth | .forgetHealth
  | .showCertificate | .diagnose _ => false

namespace World.Guest

/-- A command is run in the guest. -/
def Steps (guest guest' : Guest) : Prop :=
  ∃ command : GuestCommand, guest' = (guest.answer command.text).2

/-- A command is run in the guest, and it does not provision the guest or fails to. -/
def Idles (guest guest' : Guest) : Prop :=
  ∃ command : GuestCommand, guest' = (guest.answer command.text).2 ∧
    (command.provisions = true → (guest.answer command.text).1.status ≠ some 0)

/-- The health check of the guest fails, and will fail until a command has provisioned the
guest. -/
def Unwell (guest : Guest) : Prop :=
  ∀ guest', Relation.ReflTransGen Idles guest guest' →
    (guest'.answer GuestCommand.checkHealth.text).1.status ≠ some 0

/-- Whenever it is told to forget its health and that succeeds, the guest is unwell. -/
def Forgetful (guest : Guest) : Prop :=
  ∀ guest', Relation.ReflTransGen Steps guest guest' →
    (guest'.answer GuestCommand.forgetHealth.text).1.status = some 0 →
      (guest'.answer GuestCommand.forgetHealth.text).2.Unwell

variable {guest guest' : Guest}

theorem Unwell.idles (h : guest.Unwell) (hstep : guest.Idles guest') : guest'.Unwell :=
  fun last hlast => h last (hlast.head hstep)

theorem Forgetful.steps (h : guest.Forgetful) (hstep : guest.Steps guest') : guest'.Forgetful :=
  fun last hlast => h last (hlast.head hstep)

/-- What an obliging guest is, and not healthy, it stays until it is provisioned. -/
theorem Obliging.idles (h : guest.Obliging) (hhealth : guest.healthy = false)
    (hstep : guest.Idles guest') : guest'.Obliging ∧ guest'.healthy = false := by
  obtain ⟨command, rfl, hfails⟩ := hstep
  refine ⟨h.answer, ?_⟩
  rw [answer_healthy, hhealth]
  split
  next hstatus =>
    rw [GuestCommand.healthAfter_text]
    cases command with
    | provision password => exact absurd hstatus (hfails rfl)
    | _ => rfl
  next => rfl

/-- Obliging guests are forgetful. -/
theorem Obliging.forgetful (h : guest.Obliging) : guest.Forgetful := by
  intro here hsteps hforgot there hidles
  have hhere : here.Obliging := by
    clear hforgot hidles
    induction hsteps with
    | refl => exact h
    | tail _ hstep ih =>
      obtain ⟨command, rfl⟩ := hstep
      exact ih.answer
  have hunhealthy : (here.answer GuestCommand.forgetHealth.text).2.healthy = false := by
    rw [answer_healthy, if_pos hforgot]
    exact GuestCommand.healthAfter_text _ .forgetHealth
  have hthere : there.Obliging ∧ there.healthy = false := by
    induction hidles with
    | refl => exact ⟨hhere.answer, hunhealthy⟩
    | tail _ hstep ih => exact ih.1.idles ih.2 hstep
  intro hstatus
  have hhealthy := hthere.1.status.mp hstatus rfl
  rw [hthere.2] at hhealthy
  cases hhealthy

end World.Guest

/-! ## Calls that leave a guest as well as it is -/

/-- Calls that are made to provision the guest, whether it comes to that or not. -/
def Call.provisions (c : Call) : Bool := c.command?.any (·.provisions)

/-- Calls that neither provision the guest nor open a shell in it. -/
def Call.isIdle : Call → Bool
  | .ssh (.session _ _ _ _) => false
  | c => !c.provisions

/-- How often the guest was to be provisioned. -/
def provisionings (es : List (Event hostSignature)) : Nat :=
  es.countP (·.call.call.provisions)

theorem provisionings_append (es more : List (Event hostSignature)) :
    provisionings (es ++ more) = provisionings es + provisionings more := List.countP_append

/-- Without a login nothing is done to the guest. -/
theorem Call.isIdle_of_login? {c : Call} (h : c.login? = none) : c.isIdle = true := by
  cases c with
  | ssh request =>
    cases request with
    | freshEndpoint => rfl
    | freshKeyPair => rfl
    | _ => cases h
  | _ => rfl

theorem Call.provisions_eq_false {c : Call} (h : c.isIdle = true) : c.provisions = false := by
  unfold isIdle at h
  split at h
  · cases h
  · exact Bool.not_eq_true' _ ▸ h

namespace World

variable {w w' : World} {c : HostCall}

/-- A call either fails without anything being done, or is carried out. -/
theorem answer_cases (c : HostCall) (w : World) :
    (∃ failure, w.answer c = (.error failure, w.counted (w.names.call c.call))) ∨
      w.answer c = (w.counted (w.names.call c.call)).perform c.call := by
  unfold World.answer
  dsimp only
  split
  next failure _ => exact .inl ⟨failure, rfl⟩
  next => exact .inr rfl

/-- A command that was answered has been run in the guest, and has succeeded. -/
theorem answered_command {command : GuestCommand} {v : c.call.Value}
    (hcommand : c.call.command? = some command) (h : w.answer c = (.ok v, w')) :
    (w.guest.answer command.text).1.status = some 0 ∧
      w'.guest = (w.guest.answer command.text).2 := by
  rcases answer_cases c w with ⟨failure, hfailed⟩ | hdone
  · cases (Prod.mk.inj (h.symm.trans hfailed)).1
  rw [hdone] at h
  obtain ⟨call, tolerated⟩ := c
  have hok : Except.isOk (World.perform call (w.counted (w.names.call call))).1 = true := by
    rw [show World.perform call _ = _ from h]
    rfl
  have hguest := congrArg (fun answer => answer.2.guest) h
  cases call with
  | ssh request =>
    cases request with
    | run command' addresses key limit =>
      obtain rfl := Option.some.inj hcommand
      have hanswered : (w.sshAnswer (.run command' addresses key limit)).1.isOk = true := hok
      exact ⟨run_isOk.mp hanswered, hguest.symm⟩
    | capture command' addresses key limit =>
      obtain rfl := Option.some.inj hcommand
      have hanswered : (w.sshAnswer (.capture command' addresses key limit)).1.isOk = true := hok
      exact ⟨capture_isOk.mp hanswered, hguest.symm⟩
    | _ => cases hcommand
  | _ => cases hcommand

/-- A call runs at most one command in the guest, unless it opens a shell. -/
theorem guest_answer (h : c.call.isIdle = true) :
    (w.answer c).2.guest = w.guest ∨ ∃ command, c.call.command? = some command ∧
      (w.answer c).2.guest = (w.guest.answer command.text).2 := by
  rcases answer_cases c w with ⟨failure, hfailed⟩ | hdone
  · rw [hfailed]
    exact .inl rfl
  rw [hdone]
  obtain ⟨call, tolerated⟩ := c
  cases call with
  | hypervisor request => exact .inl (request_keeps (w := w.counted _)).2
  | ssh request =>
    cases request with
    | run command addresses key limit => exact .inr ⟨command, rfl, rfl⟩
    | capture command addresses key limit => exact .inr ⟨command, rfl, rfl⟩
    | session addresses key limit stdin => cases h
    | _ => exact .inl rfl
  | read path =>
    left
    unfold World.perform
    dsimp only
    split <;> rfl
  | _ => exact .inl rfl

/-- An unwell guest stays so through a call that does not provision it. -/
theorem unwell_answer (hguest : w.guest.Unwell) (h : c.call.isIdle = true) :
    (w.answer c).2.guest.Unwell := by
  rcases guest_answer (w := w) h with hsame | ⟨command, hcommand, hrun⟩
  · rw [hsame]
    exact hguest
  · refine hguest.idles ⟨command, hrun, fun hprovisions => ?_⟩
    have hspared := Call.provisions_eq_false h
    unfold Call.provisions at hspared
    rw [hcommand] at hspared
    cases hprovisions.symm.trans hspared

theorem forgetful_answer (hguest : w.guest.Forgetful) (h : c.call.isIdle = true) :
    (w.answer c).2.guest.Forgetful := by
  rcases guest_answer (w := w) h with hsame | ⟨command, -, hrun⟩
  · rw [hsame]
    exact hguest
  · exact hguest.steps ⟨command, hrun⟩

end World

/-! ## Tasks that are idle -/

namespace Task

variable {ε α β : Type} {good : α → Prop}

/-- The task is never cut off, its calls are idle, and its value, if it has one, is good. -/
abbrev Idle (t : Task ε α) (good : α → Prop) : Prop :=
  t.Completes (fun c => c.isIdle = true) good

/-- A task that does not log in to the guest is idle. -/
theorem Completes.idle {t : Task ε α} (ht : t.Apart) : t.Idle fun _ => True :=
  ht.mono fun _ => Call.isIdle_of_login?

/-- What an idle task does not change about the guest. -/
structure Spared (w w' : World) : Prop where
  unwell : w.guest.Unwell → w'.guest.Unwell
  forgetful : w.guest.Forgetful → w'.guest.Forgetful

/-- A run of an idle task is not cut off and does not provision. -/
theorem Completes.ensures {t : Task ε α} (ht : t.Idle good) (w : World) :
    Ensures World.host t w (fun a es w' => good a ∧ Spared w w' ∧ provisionings es = 0)
      (fun e es _ => e ≠ none ∧ provisionings es = 0) := by
  have hmakes := Program.Completes.makes ht
  have hcount : provisionings (w.run t).events = 0 := by
    refine List.countP_eq_zero.mpr fun e he => ?_
    rw [Call.provisions_eq_false (Program.Makes.events hmakes e he)]
    exact Bool.false_ne_true
  have hspared : Spared w (w.run t).state := by
    refine ⟨fun h => ?_, fun h => ?_⟩
    · exact Program.Makes.run_keeps (R := fun _ (w : World) => w.guest.Unwell)
        (fun _ _ _ hidle h => unwell_answer h hidle) hmakes [] h
    · exact Program.Makes.run_keeps (R := fun _ (w : World) => w.guest.Forgetful)
        (fun _ _ _ hidle h => forgetful_answer h hidle) hmakes [] h
  obtain ⟨result, hresult, hgood⟩ := Program.Completes.result ht World.host w
  unfold Ensures Ends
  rw [hresult]
  cases result with
  | ok a => exact ⟨hgood a rfl, hspared, hcount⟩
  | error e => exact ⟨nofun, hcount⟩

/-- An unwell guest is still unwell after an idle task. -/
theorem Completes.ensures_unwell {t : Task ε α} (ht : t.Idle good) {w : World}
    (hguest : w.guest.Unwell) :
    Ensures World.host t w (fun _ _ w' => w'.guest.Unwell) (fun _ _ _ => True) :=
  (ht.ensures w).mono (fun _ _ _ h => h.2.1.unwell hguest) fun _ _ _ _ => trivial

/-- Unless the task is cut off, the other one runs in the same way. -/
def Prolongs (t t' : Task ε α) : Prop :=
  ∀ w : World, (w.run t).result ≠ none → w.run t' = w.run t

theorem prolongs_refl (t : Task ε α) : t.Prolongs t := fun _ _ => rfl

theorem Prolongs.bind {f g : α → Task ε β} (t : Task ε α) (h : ∀ a, (f a).Prolongs (g a)) :
    (t >>= f).Prolongs (t >>= g) := by
  intro w huncut
  have hrun : ∀ f : α → Task ε β, w.run (t >>= f) = _ := fun f =>
    Program.run_bind World.host t.program (ExceptT.bindCont f) w
  rw [hrun] at huncut
  rw [hrun, hrun]
  -- The tasks differ only where the first part has succeeded.
  rcases hresult : (Program.run World.host t.program w).result with _ | e | a
  · rfl
  · rfl
  · rw [hresult] at huncut
    have hsame : Program.run World.host (g a).program _ = Program.run World.host (f a).program _ :=
      h a (Program.run World.host t.program w).state huncut
    show Outcome.mk _ _ _ = Outcome.mk _ _ _
    rw [show Program.run World.host (ExceptT.bindCont g (.ok a)) _ = _ from hsame]
    rfl

end Task

/-! ## Operations that are idle -/

namespace Machine

theorem idle_hypervisor (request : HypervisorCall) :
    (hypervisor request).Idle fun _ => True := (apart_hypervisor request).idle

theorem idle_importImage (image : String) (vm : VmProfile) :
    (importImage image vm).Idle fun _ => True := by
  refine completes_ofExcept.bind fun hostIp _ => ?_
  refine Completes.bind (completes_need rfl) fun address _ => ?_
  refine (idle_hypervisor _).bind fun _ _ => ?_
  refine (apart_interfaceFor _).idle.bind fun interface _ => ?_
  exact (idle_hypervisor _).bind fun _ _ => idle_hypervisor _

theorem idle_setUpGuest (settings : Settings) (vm : VmProfile) (sshPort : UInt16) :
    (setUpGuest settings vm sshPort).Idle fun _ => True := by
  refine Completes.bind (completes_need rfl) fun insecureKey _ => ?_
  refine Completes.bind (completes_need rfl) fun _ _ => ?_
  refine Completes.bind (completes_need rfl) fun pair _ => ?_
  exact Completes.bind (completes_need rfl) fun _ _ => completes_need rfl

theorem idle_start (settings : Settings) (vm : VmProfile) :
    (start settings vm).Idle fun _ => True := by
  refine (idle_hypervisor _).bind fun forwarded _ => ?_
  rcases forwarded with _ | sshPort
  · exact completes_throw
  refine (idle_hypervisor _).bind fun recorded _ => ?_
  refine (idle_hypervisor _).bind fun _ _ => ?_
  split
  · refine (idle_setUpGuest _ _ _).bind fun _ _ => ?_
    refine (idle_hypervisor _).bind fun _ _ => ?_
    refine (idle_hypervisor _).bind fun _ _ => ?_
    refine (idle_hypervisor _).bind fun _ _ => ?_
    exact (idle_hypervisor _).bind fun _ _ => completes_pure trivial
  · exact completes_pure trivial

end Machine

namespace Vm

variable {settings : Settings} {vm : Vm} {opts : StartOptions}

theorem idle_tell {ε : Type} (text : String) : (Task.tell text : Task ε Unit).Idle fun _ => True :=
  completes_need rfl

theorem idle_readKey (wrap : FileError → VmError) : (readKey settings wrap).Idle fun _ => True :=
  completes_need rfl

theorem idle_answersHealthy (profile : VmProfile) :
    (answersHealthy settings profile).Idle fun _ => True := by
  refine Completes.bind (completes_attempt rfl) fun read _ => ?_
  cases read with
  | error e => exact completes_pure trivial
  | ok key => exact Completes.bind (completes_attempt rfl) fun checked _ => completes_pure trivial

theorem idle_select (name : String) : (select settings name).Idle fun _ => True := by
  refine (Machine.apart_status name).idle.mapError.bind fun status _ => ?_
  cases status with
  | notCreated => exact completes_pure trivial
  | stopped =>
    refine (Machine.apart_describe name).idle.mapError.bind fun vm _ => ?_
    exact (Machine.idle_hypervisor _).mapError.bind fun saved _ => completes_pure trivial
  | running =>
    refine (Machine.apart_describe name).idle.mapError.bind fun vm _ => ?_
    exact (idle_answersHealthy vm).bind fun provisioned _ => completes_pure trivial

theorem idle_switchOn (profile : VmProfile) :
    (switchOn settings profile opts).Idle fun handed => handed = handedOn opts := by
  refine (idle_tell _).bind fun _ _ => ?_
  refine (Machine.idle_start _ _).mapError.bind fun sshPort _ => ?_
  refine (idle_readKey _).bind fun key _ => ?_
  refine Completes.bind (completes_need rfl) fun _ _ => ?_
  unfold handedOn
  split
  · exact (idle_tell _).bind fun _ _ => completes_pure rfl
  · exact completes_pure rfl

theorem idle_restore (profile : VmProfile) : (restore settings profile).Idle fun _ => True := by
  refine (apart_confirmMemory _).idle.bind fun _ _ => ?_
  refine (idle_tell _).bind fun _ _ => ?_
  refine (Machine.idle_hypervisor _).mapError.bind fun _ _ => ?_
  refine (idle_readKey _).bind fun key _ => ?_
  exact Completes.bind (completes_need rfl) fun _ _ => idle_tell _

/-- What a step hands on that does not provision the guest itself. -/
def passedOn (phase : Phase) (opts : StartOptions) : Option StartOptions :=
  match phase with
  | .notCreated | .stopped | .unprovisioned => handedOn opts
  | .saved => none
  | .running => if opts.provision then some opts else none

/-- Unless it provisions the guest right away, the step of a state is idle. -/
theorem idle_startStep (h : ¬(vm.phase = .unprovisioned ∧ opts.provision = true)) :
    (startStep settings vm opts).Idle fun handed => handed = passedOn vm.phase opts := by
  unfold startStep passedOn
  cases hphase : vm.phase with
  | notCreated =>
    refine apart_verify.idle.bind fun _ _ => ?_
    refine (idle_tell _).bind fun _ _ => ?_
    refine (Machine.idle_importImage _ _).mapError.bind fun _ _ => ?_
    exact (idle_tell _).bind fun _ _ => idle_switchOn _
  | stopped => exact apart_verify.idle.bind fun _ _ => idle_switchOn _
  | saved =>
    refine completes_ofExcept.bind fun _ _ => ?_
    exact (idle_restore _).bind fun _ _ => completes_pure rfl
  | unprovisioned =>
    dsimp only
    rw [if_neg fun hprovision => h ⟨hphase, hprovision⟩]
    refine apart_verify.idle.bind fun _ _ => ?_
    exact (apart_switchOff _ _).idle.bind fun _ _ => idle_switchOn _
  | running =>
    dsimp only
    split
    · refine (idle_readKey _).bind fun key _ => ?_
      exact Completes.bind (completes_need rfl) fun _ _ => completes_pure rfl
    · refine apart_verify.idle.bind fun _ _ => ?_
      exact (idle_tell _).bind fun _ _ => completes_pure rfl

/-! ## What is found of an unwell guest -/

section

variable {w : World}

theorem ensures_answersHealthy (hguest : w.guest.Unwell) (profile : VmProfile) :
    Ensures World.host (answersHealthy settings profile) w (fun answer _ _ => answer = false)
      (fun _ _ _ => True) := by
  have hidle : (Task.attempt (.read settings.privateKeyPath) : Task VmError _).Idle
      fun _ => True := completes_attempt rfl
  refine (hidle.ensures_unwell hguest).bind fun read es w' hunwell => ?_
  cases read with
  | error e => exact ensures_pure rfl
  | ok key =>
    have hcheck : Ensures World.host (Task.attempt
        (.ssh (.capture .checkHealth profile.endpoints key healthLimit)) : Task VmError _) w'
        (fun reply _ _ => Except.isOk reply = false) (fun _ _ _ => True) := by
      refine ensures_attempt fun reply w'' hreply => ?_
      cases reply with
      | error e => rfl
      | ok output => exact absurd (answered_command rfl hreply).1 (hunwell w'.guest .refl)
    exact hcheck.bind fun reply _ _ hfailed => ensures_pure hfailed

/-- A VM whose guest is unwell is not seen to be provisioned. -/
theorem ensures_select_unwell (hguest : w.guest.Unwell) (name : String) :
    Ensures World.host (select settings name) w (fun vm _ _ => vm.phase ≠ .running)
      (fun _ _ _ => True) := by
  refine ((Machine.apart_status name).idle.mapError.ensures_unwell hguest).bind
    fun status _ w' hguest => ?_
  cases status with
  | notCreated => exact ensures_pure nofun
  | stopped =>
    refine ((Machine.apart_describe name).idle.mapError.ensures_unwell hguest).bind
      fun vm _ w' hguest => ?_
    refine ((Machine.idle_hypervisor _).mapError.ensures_unwell hguest).bind fun saved _ _ _ => ?_
    refine ensures_pure ?_
    cases saved <;> nofun
  | running =>
    refine ((Machine.apart_describe name).idle.mapError.ensures_unwell hguest).bind
      fun vm _ w' hguest => ?_
    refine (ensures_answersHealthy hguest vm).bind fun provisioned _ _ hfalse => ?_
    refine ensures_pure ?_
    rw [hfalse]
    nofun

/-- A guest that forgets its health when it is told to is unwell after that. -/
theorem ensures_startStep_forget (hguest : w.guest.Forgetful) (hphase : vm.phase = .running)
    (hprovision : opts.provision = true) :
    Ensures World.host (startStep settings vm opts) w (fun _ _ w' => w'.guest.Unwell)
      (fun _ _ _ => True) := by
  unfold startStep
  rw [hphase]
  dsimp only
  rw [if_pos hprovision]
  have hread : Ensures World.host (readKey settings (.during .start ∘ .files)) w
      (fun _ _ w' => w'.guest.Forgetful) (fun _ _ _ => True) :=
    ((idle_readKey _).ensures w).mono (fun _ _ _ h => h.2.1.forgetful hguest)
      fun _ _ _ _ => trivial
  refine hread.bind fun key es w' hforgetful => ?_
  have hforget : Ensures World.host (Task.need
      (.ssh (.capture .forgetHealth vm.profile.endpoints key healthLimit))
      (VmError.during .start ∘ VmError.ssh)) w' (fun _ _ w'' => w''.guest.Unwell)
      (fun _ _ _ => True) := by
    refine ensures_need (fun v w'' hanswer => ?_) fun _ _ _ => trivial
    obtain ⟨hstatus, hforgot⟩ := answered_command rfl hanswer
    rw [hforgot]
    exact hforgetful w'.guest .refl hstatus
  exact hforget.bind fun _ _ _ hunwell => ensures_pure hunwell

/-! ## From step to step -/

/-- The task is not cut off, and provisions so often if it succeeds and never more often. -/
def Served (count : Nat) (t : Task VmError Unit) (w : World) : Prop :=
  Ensures World.host t w (fun _ es _ => provisionings es = count)
    (fun e es _ => e ≠ none ∧ provisionings es ≤ count)

theorem Served.outcome {count : Nat} {t : Task VmError Unit} (h : Served count t w) :
    (w.run t).result ≠ none ∧ provisionings (w.run t).events ≤ count ∧
      ((w.run t).result = some (.ok ()) → provisionings (w.run t).events = count) := by
  unfold Served Ensures Ends at h
  rw [show w.run t = Program.run World.host t.program w from rfl]
  rcases hresult : (Program.run World.host t.program w).result with _ | e | a
  · rw [hresult] at h
    exact absurd rfl h.1
  · rw [hresult] at h
    exact ⟨nofun, h.2, nofun⟩
  · rw [hresult] at h
    exact ⟨nofun, Nat.le_of_eq h, fun _ => h⟩

/-- What does not provision may come first. -/
theorem Served.after {count : Nat} {α : Type} {t : Task VmError α} {f : α → Task VmError Unit}
    {good : α → World → Prop}
    (ht : Ensures World.host t w (fun a es w' => good a w' ∧ provisionings es = 0)
      (fun e es _ => e ≠ none ∧ provisionings es = 0))
    (hf : ∀ a w', good a w' → Served count (f a) w') : Served count (t >>= f) w := by
  have hleft := ht.mono (fun _ _ _ h => h)
    (fun e es _ h => (⟨h.1, h.2 ▸ Nat.zero_le count⟩ : e ≠ none ∧ provisionings es ≤ count))
  refine hleft.bind fun a es w' h => (hf a w' h.1).mono (fun _ more _ hmore => ?_)
    fun e more _ hmore => ?_
  · rw [provisionings_append, h.2, Nat.zero_add]
    exact hmore
  · rw [provisionings_append, h.2, Nat.zero_add]
    exact hmore

theorem served_pure : Served 0 (pure ()) w := ensures_pure rfl

/-- What follows a step that hands the start on. -/
theorem served_followUp {count allowance : Nat} {more : StartOptions}
    (hname : vm.profile.name = settings.vmName)
    (hnext : ∀ next w', w'.standing settings.vmName = w.standing settings.vmName →
      (w'.standing settings.vmName).Seen settings False next → Spared w w' →
      (w.guest.Unwell → next.phase ≠ .running) →
      Served count (start settings allowance next more) w') :
    Served count (followUp settings allowance vm (some more)) w := by
  have hselected : Ensures World.host (select settings settings.vmName) w
      (fun next es w' => (w'.standing settings.vmName = w.standing settings.vmName ∧
        (w'.standing settings.vmName).Seen settings False next ∧ Spared w w' ∧
        (w.guest.Unwell → next.phase ≠ .running)) ∧ provisionings es = 0)
      (fun e es _ => e ≠ none ∧ provisionings es = 0) := by
    have hidle : Ensures World.host (select settings settings.vmName) w _ _ :=
      (idle_select settings.vmName).ensures w
    have hseen : Ensures World.host (select settings settings.vmName) w _ _ :=
      yields_select w rfl False.elim
    have hunwell : Ensures World.host (select settings settings.vmName) w
        (fun next _ _ => w.guest.Unwell → next.phase ≠ .running) (fun _ _ _ => True) := by
      by_cases hguest : w.guest.Unwell
      · exact (ensures_select_unwell hguest _).mono (fun _ _ _ h _ => h) fun _ _ _ h => h
      · exact hidle.mono (fun _ _ _ _ h => absurd h hguest) fun _ _ _ _ => trivial
    refine ((hidle.and hseen).and hunwell).mono (fun next es w' h => ?_) fun e es _ h => h.1.1
    obtain ⟨⟨⟨-, hspared, hcount⟩, ⟨hstanding, hvm⟩, -⟩, hnot⟩ := h
    exact ⟨⟨hstanding, hstanding ▸ hvm, hspared, hnot⟩, hcount⟩
  unfold followUp
  dsimp only
  rw [hname]
  refine Served.after (Ensures.mapError (hselected.mono (fun _ _ _ h => h) fun e es _ h => ?_))
    fun next w' h => hnext next w' h.1 h.2.1 h.2.2.1 h.2.2.2
  refine ⟨fun hnone => h.1 ?_, h.2⟩
  cases e with
  | none => rfl
  | some e => cases hnone

/-- Provisioning a guest that is seen not to be provisioned is the end of a start. -/
theorem served_unprovisioned (hphase : vm.phase = .unprovisioned)
    (hprovision : opts.provision = true) (allowance : Nat) (w : World) :
    Served 1 (start settings (allowance + 1) vm opts) w := by
  have hidle : ∀ {α : Type} {t : Task VmError α} {w : World}, t.Idle (fun _ => True) →
      Ensures World.host t w (fun _ es _ => True ∧ provisionings es = 0)
        (fun e es _ => e ≠ none ∧ provisionings es = 0) :=
    fun ht => (ht.ensures _).mono (fun _ _ _ h => ⟨trivial, h.2.2⟩) fun _ _ _ h => h
  have hserved : Served 1 (provision settings vm.profile opts) w := by
    refine Served.after (hidle (idle_tell _)) fun _ w' _ => ?_
    refine Served.after (hidle (idle_readKey _)) fun key w'' _ => ?_
    exact ensures_need (fun _ _ _ => rfl) fun _ _ _ => ⟨nofun, Nat.le_refl 1⟩
  rw [start_succ]
  unfold startStep
  rw [hphase]
  dsimp only
  rw [if_pos hprovision]
  have hended : Ensures World.host
      (provision settings vm.profile opts >>= fun _ => pure (none : Option StartOptions)) w
      (fun handed es _ => handed = none ∧ provisionings es = 1)
      (fun e es _ => e ≠ none ∧ provisionings es ≤ 1) :=
    hserved.bind fun _ es _ hcount => ensures_pure ⟨rfl, by rw [List.append_nil]; exact hcount⟩
  refine hended.bind fun handed es w' h => ?_
  rw [h.1]
  exact ensures_pure (by rw [List.append_nil]; exact h.2)

/-- A step of a start that does not provision the guest itself. -/
theorem ensures_startStep (hseen : (w.standing settings.vmName).Seen settings False vm)
    (h : ¬(vm.phase = .unprovisioned ∧ opts.provision = true)) :
    Ensures World.host (startStep settings vm opts) w
      (fun handed es w' => (handed = passedOn vm.phase opts ∧ Spared w w' ∧
        HandsOn handed (w'.standing settings.vmName)) ∧ provisionings es = 0)
      (fun e es _ => e ≠ none ∧ provisionings es = 0) := by
  have hidle : Ensures World.host (startStep settings vm opts) w _ _ :=
    (idle_startStep h).ensures w
  have hbehaves : Ensures World.host (startStep settings vm opts) w _ _ :=
    (behaves_startStep hseen looked_nil).ensures rfl
  refine (hidle.and hbehaves).mono (fun handed es w' hboth => ?_) fun e es _ hboth => hboth.1
  obtain ⟨⟨hhanded, hspared, hcount⟩, hon⟩ := hboth
  exact ⟨⟨hhanded, hspared, hon⟩, hcount⟩

/-- A VM that is up is provisioned within two steps: at the latest when its guest has forgotten
that it was before. -/
theorem served_up (hup : (w.standing settings.vmName).IsUp)
    (hseen : (w.standing settings.vmName).Seen settings False vm) (hguest : w.guest.Forgetful)
    (hprovision : opts.provision = true) (allowance : Nat) :
    Served 1 (start settings (allowance + 2) vm opts) w := by
  have hisUp := seen_isUp hseen hup
  cases hphase : vm.phase with
  | unprovisioned => exact served_unprovisioned hphase hprovision (allowance + 1) w
  | running =>
    rw [start_succ]
    have hstep : Ensures World.host (startStep settings vm opts) w _ _ :=
      ensures_startStep hseen fun h => by
        rw [hphase] at h
        cases h.1
    have hforget : Ensures World.host (startStep settings vm opts) w _ _ :=
      ensures_startStep_forget hguest hphase hprovision
    have hboth : Ensures World.host (startStep settings vm opts) w
        (fun handed es w' => ((handed = passedOn vm.phase opts ∧
          HandsOn handed (w'.standing settings.vmName)) ∧ w'.guest.Unwell) ∧ provisionings es = 0)
        (fun e es _ => e ≠ none ∧ provisionings es = 0) :=
      (hstep.and hforget).mono (fun _ _ _ h => ⟨⟨⟨h.1.1.1, h.1.1.2.2⟩, h.2⟩, h.1.2⟩)
        fun _ _ _ h => h.1
    refine Served.after hboth fun handed w' h => ?_
    obtain ⟨⟨hhanded, hon⟩, hunwell⟩ := h
    have hopts : passedOn vm.phase opts = some opts := by
      rw [hphase]
      exact if_pos hprovision
    rw [hhanded, hopts] at hon ⊢
    refine served_followUp (seen_name hseen) fun next w'' hstanding hnext _ hnot => ?_
    have hnextUp := seen_isUp hnext (hstanding ▸ (hon opts rfl).2)
    have hnextPhase : next.phase = .unprovisioned := by
      cases hp : next.phase with
      | unprovisioned => rfl
      | running => exact absurd hp (hnot hunwell)
      | _ =>
        rw [hp] at hnextUp
        cases hnextUp
    exact served_unprovisioned hnextPhase hprovision allowance w''
  | _ =>
    rw [hphase] at hisUp
    cases hisUp

end

/-! ## Whole starts -/

/-- Whether a start is to provision the guest, from the state the VM is in when it begins. -/
def wantsProvisioning (phase : Phase) (opts : StartOptions) : Bool :=
  match phase with
  | .notCreated | .stopped => !opts.noProvision
  | .unprovisioned => opts.provision || !opts.noProvision
  | .saved => false
  | .running => opts.provision

/-- A step that does not provision the guest hands the start on exactly if that is still to be
done. -/
theorem passedOn_isSome (h : ¬(vm.phase = .unprovisioned ∧ opts.provision = true)) :
    (passedOn vm.phase opts).isSome = wantsProvisioning vm.phase opts := by
  have hbooted : (handedOn opts).isSome = !opts.noProvision := by
    unfold handedOn
    cases opts.noProvision <;> rfl
  unfold passedOn wantsProvisioning
  cases hphase : vm.phase with
  | notCreated => exact hbooted
  | stopped => exact hbooted
  | saved => rfl
  | unprovisioned =>
    have hnot : opts.provision = false := Bool.eq_false_iff.mpr fun hprovision =>
      h ⟨hphase, hprovision⟩
    dsimp only
    rw [hnot, Bool.false_or]
    exact hbooted
  | running => cases opts.provision <;> rfl

/-- A start takes three steps at most and provisions as often as it is to. -/
theorem served_start {w : World} (hseen : (w.standing settings.vmName).Seen settings False vm)
    (hguest : w.guest.Forgetful) (allowance : Nat) :
    Served (if wantsProvisioning vm.phase opts then 1 else 0)
      (start settings (allowance + 3) vm opts) w := by
  by_cases hready : vm.phase = .unprovisioned ∧ opts.provision = true
  · have hwanted : wantsProvisioning vm.phase opts = true := by
      unfold wantsProvisioning
      rw [hready.1, hready.2]
      rfl
    rw [if_pos hwanted]
    exact served_unprovisioned hready.1 hready.2 (allowance + 2) w
  · rw [start_succ, ← passedOn_isSome hready]
    refine Served.after (ensures_startStep hseen hready) fun handed w' h => ?_
    obtain ⟨hhanded, hspared, hon⟩ := h
    rw [hhanded] at hon ⊢
    cases hpassed : passedOn vm.phase opts with
    | none => exact served_pure
    | some more =>
      obtain ⟨hprovision, hup⟩ := hon more hpassed
      refine served_followUp (seen_name hseen) fun next w'' hstanding hnext hspared' _ => ?_
      have hforgetful := hspared'.forgetful (hspared.forgetful hguest)
      exact served_up (hstanding ▸ hup) hnext hforgetful hprovision allowance

/-- A start that is not cut off is the same with more allowance. -/
theorem prolongs_start (allowance spare : Nat) (vm : Vm) (opts : StartOptions) :
    (start settings allowance vm opts).Prolongs (start settings (allowance + spare) vm opts) := by
  induction allowance generalizing vm opts with
  | zero => exact fun _ huncut => absurd rfl huncut
  | succ allowance ih =>
    rw [Nat.add_right_comm, start_succ, start_succ]
    refine Prolongs.bind _ fun handed => ?_
    cases handed with
    | none => exact prolongs_refl _
    | some more => exact Prolongs.bind _ fun next => ih next more

/-- Provided that its guest stays unwell from when it was made to forget its health until it is
provisioned, a VM that was just selected is started in three steps at most, whatever calls fail:
more allowance makes no difference. In these the guest is provisioned at most once, and not at all
unless this is wanted in the state the VM was in. If the start succeeds, it was provisioned then.
That a machine which was powered on runs until it is powered off is how a `World` answers. -/
theorem start_provisions_once {w : World} (hguest : w.guest.Forgetful)
    (hselected : (w.run (select settings settings.vmName)).result = some (.ok vm))
    (opts : StartOptions) (spare : Nat) :
    let w' := (w.run (select settings settings.vmName)).state
    let run := w'.run (start settings 3 vm opts)
    let wanted := if wantsProvisioning vm.phase opts then 1 else 0
    w'.run (start settings (3 + spare) vm opts) = run ∧ run.result ≠ none ∧
      provisionings run.events ≤ wanted ∧
        (run.result = some (.ok ()) → provisionings run.events = wanted) := by
  intro w' run wanted
  have hidle : Ensures World.host (select settings settings.vmName) w _ _ :=
    (idle_select settings.vmName).ensures w
  have hseen : (w'.standing settings.vmName).Seen settings False vm := by
    obtain ⟨hstanding, hvm⟩ := yields_select.of_ok rfl hselected
    rw [hstanding]
    exact hvm
  have hforgetful : w'.guest.Forgetful := (hidle.of_ok hselected).2.1.forgetful hguest
  have hserved : Served wanted (start settings 3 vm opts) w' := served_start hseen hforgetful 0
  obtain ⟨huncut, hcount⟩ := hserved.outcome
  exact ⟨prolongs_start 3 spare vm opts w' huncut, huncut, hcount⟩

/-- A host with a VM that was provisioned and then stopped. -/
def stoppedWorld : World := { sampleWorld with
  machines := [{
    name := sampleSettings.vmName
    power := .stopped
    memory := 4096
    cpus := 2
    forward := [(Machine.forwardingRule, 4000)]
    extra := [(Machine.ipKey, usualIp)] }]
  guest := { healthy := true } }

/-- What is seen of it. -/
def stoppedVm : Vm := ⟨.stopped, {
  name := sampleSettings.vmName
  domain := usualDomain
  ip := usualIp
  sshPort := some 4000
  memory := 4096
  cpus := 2
  provider := hypervisorName }⟩

/-- What comes of starting it again, in so many steps at most. -/
def restarted (allowance : Nat) : Outcome hostSignature World (Except VmError Unit) :=
  (stoppedWorld.run (select sampleSettings sampleSettings.vmName)).state.run
    (start sampleSettings allowance stoppedVm {})

/-- It takes all three steps: the VM is booted, its guest forgets its health, and is
provisioned. -/
theorem start_provisions_once_stopped :
    (stoppedWorld.run (select sampleSettings sampleSettings.vmName)).result =
        some (.ok stoppedVm) ∧
      (restarted 2).result = none ∧ (restarted 3).result = some (.ok ()) ∧
        provisionings (restarted 3).events = 1 := by
  have hguest : stoppedWorld.guest.Forgetful := Guest.Obliging.forgetful nofun
  have hselected : (stoppedWorld.run (select sampleSettings sampleSettings.vmName)).result =
      some (.ok stoppedVm) := rfl
  obtain ⟨-, -, -, hcount⟩ := start_provisions_once hguest hselected {} 0
  have hdone : (restarted 3).result.map Except.isOk = some true := by decide +kernel
  have hsucceeds : (restarted 3).result = some (.ok ()) := by
    obtain ⟨result, hresult, hok⟩ := Option.map_eq_some_iff.mp hdone
    cases result with
    | ok a => exact hresult
    | error e => cases hok
  exact ⟨hselected, by decide +kernel, hsucceeds, (hcount hsucceeds).trans (if_pos rfl)⟩

end Vm

end DevVm
