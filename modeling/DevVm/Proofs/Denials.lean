import DevVm.Proofs.Conduct
import DevVm.Proofs.Episodes

/-!
# Denied starts

A start is denied if it would change a VM that has been created, takes too little memory, meets
an older VM of this program, or if the user declines. `Vm.verify` tells beforehand whether a start
is going to be denied: a start ends in one of these errors exactly if the check, made from the
same state, ends in the same one (`start_denied_iff_verify_denied`).

A start is not literally the check followed by something else. It may go on in several steps that
check on their own, and restoring a saved VM asks about the memory by itself. `Gated` is how a
task relates to the checks it stands for: it is denied as they are, and `Gated.followed` adds
what cannot be denied. That the later steps cannot rests on the VM being seen to run once it has
been powered on, so the host has to attest to that (`Attests`).
-/

namespace DevVm

/-- The errors by which a start is denied. -/
def VmError.isDenial : VmError → Bool
  | .changed _ | .insufficientMemory _ _ | .declined | .oldVmPresent => true
  | _ => false

/-- Requests after which the machine of a name need not run any more. -/
def HypervisorCall.halts (name : String) : HypervisorCall → Bool
  | .shutDown halted | .switchOff halted | .saveState halted | .remove halted => halted = name
  | _ => false

/-- Calls after which the machine of a name need not run any more. -/
def Call.halts (name : String) : Call → Bool
  | .hypervisor request => request.halts name
  | _ => false

/-- A machine that was powered on runs until it is stopped, switched off, saved or removed, and as
long as it runs it is reported as running, if there is a report at all. -/
structure Attests {σ : Type} (host : Host hostSignature σ) (runs : String → σ → Prop) : Prop where
  powered : ∀ {name tolerated s v s'},
    host.answer ⟨.hypervisor (.powerOn name), tolerated⟩ s = (.ok v, s') → runs name s'
  kept : ∀ {name c s}, c.call.halts name = false → runs name s → runs name (host.answer c s).2
  registered : ∀ {name tolerated s s'} {v : Bool}, runs name s →
    host.answer ⟨.hypervisor (.isRegistered name), tolerated⟩ s = (.ok v, s') → v = true
  running : ∀ {name tolerated s s'} {v : Bool}, runs name s →
    host.answer ⟨.hypervisor (.isRunning name), tolerated⟩ s = (.ok v, s') → v = true

/-! ## What a request would change -/

/-- The settled properties, in the order in which a request is looked at. -/
def Fixed.inOrder : List Fixed := [.memory, .cores, .services, .domain, .ip, .registries]

/-- Whether a request has a wish about a settled property. -/
def StartOptions.asksFor (opts : StartOptions) : Fixed → Bool
  | .memory => opts.memory.isSome
  | .cores => opts.cpus.isSome
  | .services => opts.services ≠ ""
  | .domain => opts.domain ≠ ""
  | .ip => opts.ip ≠ ""
  | .registries => opts.registries ≠ ""

/-- A request is taken to change the first property it has a wish about. -/
theorem StartOptions.change?_eq_find? (opts : StartOptions) :
    opts.change? = Fixed.inOrder.find? opts.asksFor := by
  have hcons (property : Fixed) (more : List Fixed) : (property :: more).find? opts.asksFor =
      if opts.asksFor property = true then some property else more.find? opts.asksFor := by
    rw [List.find?_cons]
    cases opts.asksFor property <;> rfl
  unfold change? Fixed.inOrder
  simp only [hcons, asksFor, decide_eq_true_iff]
  rfl

namespace Task

variable {ε ε' α β σ : Type} {host : Host hostSignature σ} {s : σ}

/-! ## Tasks that begin with checks -/

/-- The run of a task ends in an error. -/
def FailsWith (host : Host hostSignature σ) (t : Task ε α) (s : σ) (error : ε) : Prop :=
  (Program.run host t.program s).result = some (.error error)

/-- A sequence fails in its first part or, once that has succeeded, in its second one. -/
theorem failsWith_bind {t : Task ε α} {f : α → Task ε β} {error : ε} :
    FailsWith host (t >>= f) s error ↔
      FailsWith host t s error ∨
        ∃ a, (Program.run host t.program s).result = some (.ok a) ∧
          FailsWith host (f a) (Program.run host t.program s).state error := by
  unfold FailsWith
  rcases hr : (Program.run host t.program s).result with _ | e | a
  · have hrun : Program.run host (t >>= f).program s = _ :=
      Program.run_bind host t.program (ExceptT.bindCont f) s
    rw [hrun, hr]
    simp
  · rw [run_bind_of_error hr]
    simp
  · rw [run_bind_of_ok hr]
    simp

/-- The run of a task is not denied, and what is asked of its value and of the state it leaves
holds if it succeeds. -/
def Grants (host : Host hostSignature σ) (t : Task VmError α) (s : σ) (good : α → σ → Prop) :
    Prop :=
  t.Ensures host s (fun a _ s' => good a s') fun e _ _ => ∀ error ∈ e, error.isDenial = false

section Grants

variable {good good' : α → σ → Prop}

theorem grants_pure {a : α} (h : good a s) : Grants host (pure a) s good := ensures_pure h

theorem grants_need {c : Call} {wrap : c.Failure → VmError} {good : c.Value → σ → Prop}
    (hwrap : ∀ e, (wrap e).isDenial = false)
    (hok : ∀ v s', host.answer ⟨c, false⟩ s = (.ok v, s') → good v s') :
    Grants host (need c wrap) s good := by
  refine ensures_need hok fun e _ _ error herror => ?_
  obtain rfl := Option.some.inj herror
  exact hwrap e

theorem Grants.mono {t : Task VmError α} (h : Grants host t s good)
    (hgood : ∀ a s', good a s' → good' a s') : Grants host t s good' :=
  Ensures.mono h (fun a _ s' => hgood a s') fun _ _ _ => id

theorem Grants.bind {t : Task VmError α} {f : α → Task VmError β} {there : β → σ → Prop}
    (ht : Grants host t s good) (hf : ∀ a s', good a s' → Grants host (f a) s' there) :
    Grants host (t >>= f) s there :=
  Ensures.bind ht fun a _ s' ha => hf a s' ha

/-- An error that is attributed to a stage is not a denial. -/
theorem grants_during {t : Task ε α} {wrap : ε → VmError} (hwrap : ∀ e, (wrap e).isDenial = false)
    (h : t.Ensures host s (fun a _ s' => good a s') fun _ _ _ => True) :
    Grants host (t.mapError wrap) s good := by
  refine Ensures.mapError (h.mono (fun _ _ _ => id) fun e _ _ _ error herror => ?_)
  obtain ⟨cause, -, rfl⟩ := Option.map_eq_some_iff.mp herror
  exact hwrap cause

/-- A run that is not denied does not end in a denial. -/
theorem Grants.not_failsWith {t : Task VmError α} {error : VmError} (h : Grants host t s good)
    (hdenial : error.isDenial = true) : ¬FailsWith host t s error := by
  intro hfails
  have hends : t.Ensures host s (fun a _ s' => good a s')
      fun e _ _ => ∀ error ∈ e, error.isDenial = false := h
  have hnot := Ends.of_error hends hfails error rfl
  rw [hdenial] at hnot
  cases hnot

/-- A task that is denied exactly as its checks are, having made the same calls by then, and whose
value and last state are as asked if it succeeds. -/
structure Gated (host : Host hostSignature σ) (checks : Task VmError Unit) (t : Task VmError α)
    (s : σ) (good : α → σ → Prop) : Prop where
  denied : ∀ error, error.isDenial = true →
    (FailsWith host t s error ↔ FailsWith host checks s error)
  alike : ∀ error, error.isDenial = true → FailsWith host checks s error →
    (Program.run host t.program s).events = (Program.run host checks.program s).events ∧
      (Program.run host t.program s).state = (Program.run host checks.program s).state
  ends : t.Ensures host s (fun a _ s' => good a s') fun _ _ _ => True

/-- The checks stand for themselves. -/
theorem Gated.refl (checks : Task VmError Unit) : Gated host checks checks s fun _ _ => True :=
  ⟨fun _ _ => Iff.rfl, fun _ _ _ => ⟨rfl, rfl⟩, ensures_any checks⟩

/-- What cannot be denied may follow. -/
theorem Gated.followed {checks : Task VmError Unit} {t : Task VmError α} {f : α → Task VmError β}
    {there : β → σ → Prop} (ht : Gated host checks t s good)
    (hf : ∀ a s', good a s' → Grants host (f a) s' there) :
    Gated host checks (t >>= f) s there where
  denied error hdenial := by
    refine failsWith_bind.trans (Iff.trans (or_iff_left ?_) (ht.denied error hdenial))
    rintro ⟨a, hok, hfails⟩
    exact (hf a _ (Ends.of_ok ht.ends hok)).not_failsWith hdenial hfails
  alike error hdenial hfails := by
    rw [run_bind_of_error ((ht.denied error hdenial).mpr hfails)]
    exact ht.alike error hdenial hfails
  ends := ht.ends.bind fun a _ s' ha =>
    Ensures.mono (hf a s' ha) (fun _ _ _ => id) fun _ _ _ _ => trivial

/-- An answer that is already there may precede both. -/
theorem Gated.preceded {answer : Except VmError Unit} {checks : Task VmError Unit}
    {t : Task VmError α} (ht : Gated host checks t s good) :
    Gated host (ofExcept answer >>= fun _ => checks) (ofExcept answer >>= fun _ => t) s good := by
  cases answer with
  | ok _ => exact ht
  | error e =>
    have hrefused : ∀ {β : Type} (f : Unit → Task VmError β) (error : VmError),
        FailsWith host (ofExcept (.error e) >>= f) s error ↔ e = error := by
      intro β f error
      show some (Except.error e : Except VmError β) = some (.error error) ↔ e = error
      simp
    refine ⟨fun error _ => ?_, fun _ _ _ => ⟨rfl, rfl⟩, trivial⟩
    rw [hrefused, hrefused]

end Grants

end Task

open DevVm.Task

/-! ## Machines that run -/

section Attests

variable {σ ε α : Type} {host : Host hostSignature σ} {runs : String → σ → Prop} {s : σ}
  {name : String}

/-- A machine keeps running while a task makes no call that halts it. -/
theorem Attests.keeps (hattests : Attests host runs) {t : Task ε α}
    (ht : t.Makes fun c => c.halts name = false) (hruns : runs name s) :
    t.Ensures host s (fun _ _ s' => runs name s') fun _ _ s' => runs name s' :=
  ensures_state (Program.Makes.run_keeps (R := fun _ s => runs name s)
    (fun _ _ _ hc h => hattests.kept hc h) ht [] hruns)

/-- Looking halts nothing. -/
theorem Call.not_halts_of_looks {c : Call} (h : c.looks = true) : c.halts name = false := by
  cases c with
  | hypervisor request => cases request <;> first | rfl | cases h
  | _ => rfl

theorem Attests.keeps_looking (hattests : Attests host runs) {t : Task ε α} (ht : t.Looks)
    (hruns : runs name s) :
    t.Ensures host s (fun _ _ s' => runs name s') fun _ _ s' => runs name s' :=
  hattests.keeps (ht.mono fun _ => Call.not_halts_of_looks) hruns

/-- A call that halts nothing leaves a machine running, and its failure is no denial. -/
theorem Attests.grants_need (hattests : Attests host runs) {c : Call} {wrap : c.Failure → VmError}
    (hc : c.halts name = false) (hwrap : ∀ e, (wrap e).isDenial = false) (hruns : runs name s) :
    Grants host (need c wrap) s fun _ s' => runs name s' := by
  refine Task.grants_need hwrap fun v s' h => ?_
  have hkept := hattests.kept (c := ⟨c, false⟩) hc hruns
  rwa [h] at hkept

/-- A machine that was started runs. -/
theorem Attests.ensures_start (hattests : Attests host runs) (settings : Settings)
    (vm : VmProfile) :
    (Machine.start settings vm).Ensures host s (fun _ _ s' => runs vm.name s')
      fun _ _ _ => True := by
  have hpowered : ∀ s, (Machine.hypervisor (.powerOn vm.name)).Ensures host s
      (fun _ _ s' => runs vm.name s') fun _ _ _ => True :=
    fun s => ensures_need (fun v s' h => hattests.powered h) fun _ _ _ => trivial
  have hrecorded : ∀ s key value, runs vm.name s →
      (Machine.hypervisor (.putExtraData vm.name key value)).Ensures host s
        (fun _ _ s' => runs vm.name s') fun _ _ _ => True :=
    fun s key value hruns =>
      (hattests.keeps (makes_need rfl) hruns).mono (fun _ _ _ => id) fun _ _ _ _ => trivial
  unfold Machine.start
  refine (ensures_any _).bind fun forwarded _ s _ => ?_
  cases forwarded with
  | none => exact ensures_throw trivial
  | some sshPort =>
    refine (ensures_any _).bind fun recorded _ s _ => ?_
    refine (hpowered s).bind fun _ _ s hruns => ?_
    split
    · refine (ensures_any _).bind fun _ _ s _ => ?_
      refine (ensures_any _).bind fun _ _ s _ => ?_
      refine (hpowered s).bind fun _ _ s hruns => ?_
      refine (hrecorded s _ _ hruns).bind fun _ _ s hruns => ?_
      exact (hrecorded s _ _ hruns).bind fun _ _ s hruns => ensures_pure hruns
    · exact ensures_pure hruns

/-- A machine that runs is seen to be up. -/
theorem Attests.ensures_select (hattests : Attests host runs) (settings : Settings)
    (hruns : runs name s) :
    (Vm.select settings name).Ensures host s
      (fun vm _ s' => (vm.phase.isUp = true ∧ vm.profile.name = name) ∧ runs name s')
      fun _ _ _ => True := by
  have hstatus : ((Machine.status name).mapError VmError.machine).Ensures host s
      (fun status _ _ => status = .running) fun _ _ _ => True := by
    refine Ensures.mapError ?_
    have hregistered : (Machine.hypervisor (.isRegistered name)).Ensures host s
        (fun present _ s' => present = true ∧ runs name s') fun _ _ _ => True := by
      refine ensures_need (fun v s' h => ⟨hattests.registered hruns h, ?_⟩) fun _ _ _ => trivial
      have hkept := hattests.kept (c := ⟨.hypervisor (.isRegistered name), false⟩) rfl hruns
      rwa [h] at hkept
    refine hregistered.bind fun present _ s hpresent => ?_
    obtain ⟨rfl, hruns⟩ := hpresent
    have hreported : (Machine.hypervisor (.isRunning name)).Ensures host s
        (fun running _ _ => running = true) fun _ _ _ => True :=
      ensures_need (fun v s' h => hattests.running hruns h) fun _ _ _ => trivial
    exact hreported.bind fun running _ s hrunning => ensures_pure (if_pos hrunning)
  have hnamed : ∀ s, ((Machine.describe name).mapError VmError.machine).Ensures host s
      (fun vm _ _ => vm.name = name) fun _ _ _ => True := by
    intro s
    refine Ensures.mapError ?_
    refine (ensures_any _).bind fun _ _ s _ => (ensures_any _).bind fun _ _ s _ => ?_
    refine (ensures_any _).bind fun _ _ s _ => (ensures_any _).bind fun _ _ s _ => ?_
    exact ensures_pure rfl
  have hup : (Vm.select settings name).Ensures host s
      (fun vm _ _ => vm.phase.isUp = true ∧ vm.profile.name = name) fun _ _ _ => True := by
    refine hstatus.bind fun status _ s hrunning => ?_
    subst hrunning
    refine (hnamed s).bind fun vm _ s hname => (ensures_any _).bind fun provisioned _ s _ => ?_
    refine ensures_pure ⟨?_, hname⟩
    cases provisioned <;> rfl
  refine (hup.and (hattests.keeps_looking (Vm.looks_select name) hruns)).mono (fun _ _ _ h => h)
    fun _ _ _ _ => trivial

end Attests

/-! ## A world as a host -/

namespace World

namespace Standing

variable {s : Standing} {name : String}

/-- A change that leaves a machine running, or is one to another machine. -/
theorem IsUp.change {changed : String} {f : Machine → Machine} (hup : s.IsUp)
    (hf : changed = name → ∀ m, m.power = .running → (f m).power = .running) :
    (s.change name changed f).IsUp := by
  obtain ⟨m, hm, hpower⟩ := hup
  unfold Standing.change
  split
  next heq => exact ⟨f m, by rw [hm]; rfl, hf heq m hpower⟩
  next => exact ⟨m, hm, hpower⟩

/-- A machine runs on after every call that does not halt it. -/
theorem IsUp.effect {c : Call} (hup : s.IsUp) (hc : c.halts name = false) :
    (s.effect name c).IsUp := by
  cases c with
  | hypervisor request =>
    cases request with
    | importImage image imported memory cpus =>
      obtain ⟨m, hm, hpower⟩ := hup
      refine ⟨m, ?_, hpower⟩
      show s.machine.or _ = some m
      rw [hm, Option.some_or]
    | powerOn => exact hup.change fun _ _ _ => rfl
    | forward => exact hup.change fun _ _ => id
    | putExtraData => exact hup.change fun _ _ => id
    | shutDown halted => exact hup.change fun heq => absurd heq (of_decide_eq_false hc)
    | switchOff halted => exact hup.change fun heq => absurd heq (of_decide_eq_false hc)
    | saveState halted => exact hup.change fun heq => absurd heq (of_decide_eq_false hc)
    | remove halted =>
      obtain ⟨m, hm, hpower⟩ := hup
      refine ⟨m, ?_, hpower⟩
      show (if halted = name then none else s.machine) = some m
      rw [if_neg (of_decide_eq_false hc), hm]
    | _ => exact hup
  | ssh request => cases request <;> exact hup
  | _ => exact hup

end Standing

/-- Only a machine that is there is powered on. -/
theorem powerOn_found {name : String} {tolerated : Bool} {w w' : World} {v : Unit}
    (h : World.host.answer ⟨.hypervisor (.powerOn name), tolerated⟩ w = (.ok v, w')) :
    (w.machine? name).isSome := by
  replace h : w.answer ⟨.hypervisor (.powerOn name), tolerated⟩ = (.ok v, w') := h
  unfold World.answer at h
  dsimp only at h
  split at h
  next => cases (Prod.mk.inj h).1
  next => exact modify_found (w := w.counted _) h

/-- A world attests to what runs in it, whatever calls fail. -/
theorem attests : Attests World.host fun name w => (w.standing name).IsUp where
  powered {name tolerated w v w'} h := by
    obtain ⟨m, hm⟩ := Option.isSome_iff_exists.mp (powerOn_found h)
    rw [(standing_of_ok h).1]
    refine ⟨{ m with power := .running }, ?_, rfl⟩
    exact congrArg Standing.machine (Standing.change_eq (s := w.standing name) hm)
  kept {name c w} hc hup := by
    rcases hr : World.host.answer c w with ⟨e | v, w'⟩
    · rw [standing_of_error hr]
      exact hup
    · rw [(standing_of_ok hr).1]
      exact hup.effect hc
  registered {name tolerated w w' v} hup h := by
    obtain ⟨m, hm, -⟩ := hup
    refine ((standing_of_ok h).2 rfl).trans ?_
    rw [hm]
    rfl
  running {name tolerated w w' v} hup h := by
    obtain ⟨m, hm, hpower⟩ := hup
    refine ((standing_of_ok h).2 rfl).trans ?_
    rw [hm]
    exact decide_eq_true hpower

end World

namespace Vm

section

variable {σ : Type} {host : Host hostSignature σ} {runs : String → σ → Prop} {s : σ}
  {settings : Settings} {vm : Vm} {opts : StartOptions}

/-- What a step hands on is to be provisioned, and the machine runs by then. -/
def HandsOnUp (runs : String → σ → Prop) (name : String) (handed : Option StartOptions) (s : σ) :
    Prop := ∀ more ∈ handed, more.provision = true ∧ runs name s

/-! ## What cannot be denied -/

theorem grants_tell (text : String) : Grants host (Task.tell text) s fun _ _ => True :=
  grants_need (nomatch ·) fun _ _ _ => trivial

theorem grants_machine {α : Type} {t : Task MachineError α} {good : α → σ → Prop} (stage : Stage)
    (h : t.Ensures host s (fun a _ s' => good a s') fun _ _ _ => True) :
    Grants host (t.mapError (.ofMachine stage)) s good := grants_during (fun _ => rfl) h

/-- Switching a machine on is not denied, and it runs when the start is handed on. -/
theorem grants_switchOn (hattests : Attests host runs) {profile : VmProfile} :
    Grants host (switchOn settings profile opts) s (HandsOnUp runs profile.name) := by
  refine (grants_tell _).bind fun _ s _ => ?_
  refine (grants_machine .start (hattests.ensures_start settings profile)).bind
    fun sshPort s hruns => ?_
  refine (hattests.grants_need rfl (fun _ => rfl) hruns).bind fun key s hruns => ?_
  refine (hattests.grants_need rfl (fun _ => rfl) hruns).bind fun _ s hruns => ?_
  split
  · exact (grants_tell _).bind fun _ s _ => grants_pure nofun
  · refine grants_pure fun more hmore => ?_
    obtain rfl := Option.some.inj hmore
    exact ⟨rfl, hruns⟩

theorem grants_switchOff (profile : VmProfile) (stage : Stage) :
    Grants host (switchOff profile stage) s fun _ _ => True := by
  refine (grants_tell _).bind fun _ s _ => ?_
  exact (grants_machine stage (ensures_any _)).bind fun _ s _ => grants_tell _

theorem grants_provision (profile : VmProfile) :
    Grants host (provision settings profile opts) s fun _ _ => True := by
  refine (grants_tell _).bind fun _ s _ => ?_
  refine (grants_need (fun _ => rfl) fun _ _ _ => trivial).bind fun key s _ => ?_
  exact grants_need (fun _ => rfl) fun _ _ _ => trivial

/-- The step of a VM that is up and to be provisioned is not denied. -/
theorem grants_startStep_up (hattests : Attests host runs) (hup : vm.phase.isUp = true)
    (hprovision : opts.provision = true) (hruns : runs vm.profile.name s) :
    Grants host (startStep settings vm opts) s (HandsOnUp runs vm.profile.name) := by
  unfold startStep
  cases hphase : vm.phase with
  | unprovisioned =>
    dsimp only
    rw [if_pos hprovision]
    exact (grants_provision vm.profile).bind fun _ s _ => grants_pure nofun
  | running =>
    dsimp only
    rw [if_pos hprovision]
    refine (hattests.grants_need rfl (fun _ => rfl) hruns).bind fun key s hruns => ?_
    refine (hattests.grants_need rfl (fun _ => rfl) hruns).bind fun _ s hruns => ?_
    refine grants_pure fun more hmore => ?_
    obtain rfl := Option.some.inj hmore
    exact ⟨hprovision, hruns⟩
  | _ =>
    rw [hphase] at hup
    cases hup

/-- What follows a step is not denied, if a start is not that provisions a VM which is up. -/
theorem grants_followUp (hattests : Attests host runs) {allowance : Nat}
    (hnext : ∀ next s more, next.phase.isUp = true → more.provision = true →
      runs next.profile.name s → Grants host (start settings allowance next more) s fun _ _ => True)
    {handed : Option StartOptions} (hhanded : HandsOnUp runs vm.profile.name handed s) :
    Grants host (followUp settings allowance vm handed) s fun _ _ => True := by
  cases handed with
  | none => exact grants_pure trivial
  | some more =>
    obtain ⟨hprovision, hruns⟩ := hhanded more rfl
    refine (grants_during (fun _ => rfl) (hattests.ensures_select settings hruns)).bind
      fun next s hseen => ?_
    obtain ⟨⟨hup, hname⟩, hruns⟩ := hseen
    exact hnext next s more hup hprovision (hname ▸ hruns)

/-- A start that provisions a VM which is up is not denied, however often it is handed on. -/
theorem grants_start_up (hattests : Attests host runs) (allowance : Nat)
    (hup : vm.phase.isUp = true) (hprovision : opts.provision = true)
    (hruns : runs vm.profile.name s) :
    Grants host (start settings allowance vm opts) s fun _ _ => True := by
  induction allowance generalizing vm opts s with
  | zero => exact ensures_cut nofun
  | succ allowance ih =>
    rw [start_succ]
    exact (grants_startStep_up hattests hup hprovision hruns).bind fun handed s hhanded =>
      grants_followUp hattests (fun _ _ _ => ih) hhanded

/-! ## Starts and their check -/

/-- A step of a start is denied exactly as the check is. -/
theorem gated_startStep (hattests : Attests host runs)
    (hplain : vm.phase.isUp = true → opts.provision = false) :
    Gated host (verify settings vm opts) (startStep settings vm opts) s
      (HandsOnUp runs vm.profile.name) := by
  unfold startStep
  cases hphase : vm.phase with
  | notCreated =>
    refine (Gated.refl _).followed fun _ s _ => ?_
    refine (grants_tell _).bind fun _ s _ => ?_
    refine (grants_machine .importing (ensures_any _)).bind fun _ s _ => ?_
    exact (grants_tell _).bind fun _ s _ => grants_switchOn hattests
  | stopped => exact (Gated.refl _).followed fun _ s _ => grants_switchOn hattests
  | saved =>
    have hverify : verify settings vm opts = (do
        Task.ofExcept opts.refuseChange
        confirmMemory settings vm.profile.memory) := by
      unfold verify
      rw [hphase]
    rw [hverify]
    refine Gated.preceded ?_
    have hrestored : Gated host (confirmMemory settings vm.profile.memory)
        (restore settings vm.profile) s fun _ _ => True := by
      refine (Gated.refl _).followed fun _ s _ => (grants_tell _).bind fun _ s _ => ?_
      refine (grants_machine .resume (ensures_any _)).bind fun _ s _ => ?_
      refine (grants_need (fun _ => rfl) fun _ _ _ => trivial).bind fun key s _ => ?_
      refine (grants_need (fun _ => rfl) fun _ _ _ => trivial).bind fun _ s _ => ?_
      exact grants_tell _
    exact hrestored.followed fun _ s _ => grants_pure nofun
  | unprovisioned =>
    dsimp only
    rw [if_neg (Bool.eq_false_iff.mp (hplain (hphase ▸ rfl)))]
    refine (Gated.refl _).followed fun _ s _ => ?_
    exact (grants_switchOff vm.profile .start).bind fun _ s _ => grants_switchOn hattests
  | running =>
    dsimp only
    rw [if_neg (Bool.eq_false_iff.mp (hplain (hphase ▸ rfl)))]
    exact (Gated.refl _).followed fun _ s _ => (grants_tell _).bind fun _ s _ => grants_pure nofun

theorem gated_start (hattests : Attests host runs)
    (hplain : vm.phase.isUp = true → opts.provision = false) (allowance : Nat) :
    Gated host (verify settings vm opts) (start settings (allowance + 1) vm opts) s
      fun _ _ => True := by
  rw [start_succ]
  exact (gated_startStep hattests hplain).followed fun handed s hhanded =>
    grants_followUp hattests (fun _ _ _ => grants_start_up hattests allowance) hhanded

/-! ## How a request about a VM that is there is denied -/

/-- How a task denies a request about a VM that is there. The first property that it has a wish
about decides, before any call is made, and without such a wish only a user who is asked about
the memory can decline. -/
def Settles (host : Host hostSignature σ) (settings : Settings) (vm : Vm) (opts : StartOptions)
    (s : σ) (t : Task VmError Unit) : Prop :=
  match Fixed.inOrder.find? opts.asksFor with
  | some property => Program.run host t.program s = ⟨some (.error (.changed property)), [], s⟩
  | none =>
    let question : HostCall := ⟨.confirm (memoryQuestion vm.profile.memory), false⟩
    ∀ error, error.isDenial = true →
      (FailsWith host t s error ↔
        error = .declined ∧ (vm.phase = .stopped ∨ vm.phase = .saved) ∧
          settings.freeMemory < vm.profile.memory ∧
          (host.answer question s).1 = .ok false) ∧
      (FailsWith host t s error →
        (Program.run host t.program s).events = [⟨question, .ok false⟩])

/-- The user is asked only if the host is short of memory, and then only a user who agrees is not
declined. -/
theorem run_confirmMemory (host : Host hostSignature σ) (memory : UInt64) (s : σ) :
    let question : HostCall := ⟨.confirm (memoryQuestion memory), false⟩
    Program.run host (confirmMemory settings memory).program s =
      if settings.freeMemory < memory then
        match host.answer question s with
        | (.ok true, s') => ⟨some (.ok ()), [⟨question, .ok true⟩], s'⟩
        | (.ok false, s') => ⟨some (.error .declined), [⟨question, .ok false⟩], s'⟩
      else ⟨some (.ok ()), [], s⟩ := by
  dsimp only
  unfold confirmMemory
  split
  · rcases hr : host.answer ⟨.confirm (memoryQuestion memory), false⟩ s with ⟨e | accepted, s'⟩
    · cases e
    · have hasked : Program.run host (confirm (memoryQuestion memory) : Task VmError Bool).program s
          = ⟨some (.ok accepted), [⟨⟨.confirm (memoryQuestion memory), false⟩, .ok accepted⟩], s'⟩ := by
        refine (run_need _ _).trans ?_
        rw [hr]
        rfl
      rw [run_bind_of_ok (congrArg Outcome.result hasked), hasked]
      cases accepted <;> rfl
  · rfl

/-- Asking about the memory fails exactly if the host is short of it and the user, who is asked
once, does not agree. -/
theorem failsWith_confirmMemory (host : Host hostSignature σ) (settings : Settings)
    (memory : UInt64) (s : σ) (error : VmError) :
    let question : HostCall := ⟨.confirm (memoryQuestion memory), false⟩
    (FailsWith host (confirmMemory settings memory) s error ↔
      error = .declined ∧ settings.freeMemory < memory ∧
        (host.answer question s).1 = .ok false) ∧
    (FailsWith host (confirmMemory settings memory) s error →
      (Program.run host (confirmMemory settings memory).program s).events =
        [⟨question, .ok false⟩]) := by
  intro question
  unfold FailsWith
  rw [run_confirmMemory]
  split
  next hshort =>
    rcases hr : host.answer question s with ⟨e | accepted, s'⟩
    · cases e
    · cases accepted with
      | true => exact ⟨⟨nofun, fun h => by cases h.2.2⟩, nofun⟩
      | false => exact ⟨⟨fun h => ⟨by cases h; rfl, hshort, rfl⟩, fun h => by rw [h.1]⟩, fun _ => rfl⟩
  next hroom => exact ⟨⟨nofun, fun h => absurd h.2.1 hroom⟩, nofun⟩

/-- The check denies a request about a VM that is there by its first wish, or by the user. -/
theorem settles_verify (hphase : vm.phase ≠ .notCreated) :
    Settles host settings vm opts s (verify settings vm opts) := by
  unfold Settles verify
  split
  next property hwish =>
    rw [StartOptions.refuseChange, opts.change?_eq_find?, hwish]
    cases hp : vm.phase with
    | notCreated => exact absurd hp hphase
    | _ => rfl
  next hwish =>
    rw [StartOptions.refuseChange, opts.change?_eq_find?, hwish]
    intro question error hdenial
    have hasked := failsWith_confirmMemory host settings vm.profile.memory s error
    cases hp : vm.phase with
    | notCreated => exact absurd hp hphase
    | stopped =>
      simp only [reduceCtorEq, or_false, true_and]
      exact hasked
    | saved =>
      simp only [reduceCtorEq, false_or, true_and]
      exact hasked
    | _ => exact ⟨⟨nofun, nofun⟩, nofun⟩

/-- What is denied exactly as its checks are denies by what they deny by. -/
theorem Settles.of_gated {checks t : Task VmError Unit} {good : Unit → σ → Prop}
    (hchecks : Settles host settings vm opts s checks) (h : Gated host checks t s good) :
    Settles host settings vm opts s t := by
  unfold Settles at hchecks ⊢
  split at hchecks
  next property hwish =>
    have hfails : FailsWith host checks s (.changed property) := congrArg Outcome.result hchecks
    have hresult := (h.denied _ rfl).mpr hfails
    obtain ⟨hevents, hstate⟩ := h.alike _ rfl hfails
    rw [hchecks] at hevents hstate
    exact Outcome.ext hresult hevents hstate
  next hwish =>
    intro question error hdenial
    obtain ⟨hiff, hevents⟩ := hchecks error hdenial
    rw [h.denied error hdenial]
    refine ⟨hiff, fun hfails => ?_⟩
    rw [(h.alike error hdenial hfails).1]
    exact hevents hfails

/-- A start is denied exactly as the check says, whatever the host answers to the calls in between
and however the start goes on. A request about a VM that is there is denied by its first wish
before any call, or by the user who does not agree to the memory it takes. -/
theorem start_denied_iff_verify_denied (hattests : Attests host runs) (settings : Settings)
    (vm : Vm) (opts : StartOptions) (hplain : vm.phase.isUp = true → opts.provision = false)
    (allowance : Nat) (s : σ) :
    (∀ error, error.isDenial = true →
      (FailsWith host (start settings (allowance + 1) vm opts) s error ↔
        FailsWith host (verify settings vm opts) s error)) ∧
      (vm.phase ≠ .notCreated →
        Settles host settings vm opts s (start settings (allowance + 1) vm opts) ∧
          Settles host settings vm opts s (verify settings vm opts)) := by
  have hgated : Gated host (verify settings vm opts) (start settings (allowance + 1) vm opts) s
      fun _ _ => True := gated_start hattests hplain allowance
  refine ⟨hgated.denied, fun hphase => ?_⟩
  exact ⟨(settles_verify hphase).of_gated hgated, settles_verify hphase⟩

end

/-- A suspended VM that takes more memory than is free, and a user who gives no answer. -/
theorem start_denied_iff_verify_denied_declined :
    let vm : Vm := ⟨.saved, VmProfile.planned sampleSettings (some 16384) none none none⟩
    (vm.phase.isUp = true → ({} : StartOptions).provision = false) ∧
      FailsWith World.host (verify sampleSettings vm {}) sampleWorld .declined ∧
      FailsWith World.host (start sampleSettings 1 vm {}) sampleWorld .declined := by
  intro vm
  have hverify : FailsWith World.host (verify sampleSettings vm {}) sampleWorld .declined := rfl
  have hdenied := start_denied_iff_verify_denied World.attests sampleSettings vm {} nofun 0
    sampleWorld
  exact ⟨nofun, hverify, (hdenied.1 .declined rfl).mpr hverify⟩

end Vm

end DevVm
