import DevVm.Proofs.Commands
import DevVm.Proofs.Episodes

/-!
# The life of a VM

Seen from outside a VM is absent, stopped, saved or running, and its guest is healthy or not.
`Life.step` says what each command makes of that, as a small automaton. Its one twist is that
the guest's health outlives everything but provisioning: a guest that was healthy when its
machine was stopped, or even removed, is taken for healthy on the next boot, which is why a boot
that is to provision the guest makes it forget its health first.

`lifecycle_refines` says that the program follows the automaton: if nothing fails, every command
succeeds, and what can be seen of the VM after each is what the automaton says. What the commands
rely on, and keep, is that the world is tidy (`Standing.Tidy`).
-/

namespace DevVm

open DevVm.Task DevVm.World

/-! ## The automaton -/

/-- What can be seen of a machine. -/
inductive Condition where
  | absent
  | stopped
  | saved
  | running
deriving DecidableEq, Repr

/-- What can be seen of a VM. -/
structure Life where
  condition : Condition
  healthy : Bool
deriving DecidableEq, Repr

namespace Life

/-- What a start makes of a life. A saved VM is only restored. -/
def start (opts : StartOptions) : Life → Life
  | ⟨.saved, healthy⟩ => ⟨.running, healthy⟩
  | ⟨_, healthy⟩ => ⟨.running, if opts.noProvision then healthy else true⟩

/-- What a command makes of a life. -/
def step (l : Life) : UserCommand → Life
  | .start opts => l.start opts
  | .stop => if l.condition = .running then { l with condition := .stopped } else l
  | .suspend => if l = ⟨.running, true⟩ then { l with condition := .saved } else l
  | .resume => if l.condition = .saved then { l with condition := .running } else l
  | .destroy => { l with condition := .absent }
  | .status | .trust _ | .ssh | .target | .debug => l

/-- The state the VM is in, by its life. -/
def phase : Life → Phase
  | ⟨.absent, _⟩ => .notCreated
  | ⟨.stopped, _⟩ => .stopped
  | ⟨.saved, _⟩ => .saved
  | ⟨.running, false⟩ => .unprovisioned
  | ⟨.running, true⟩ => .running

end Life

namespace World

/-- What can be seen of a machine by its power. -/
def Power.condition : Power → Condition
  | .running => .running
  | .saved => .saved
  | .stopped | .other _ => .stopped

/-- A machine that is there is not seen to be absent. -/
theorem Power.condition_ne_absent (power : Power) : power.condition ≠ .absent := by
  cases power <;> nofun

/-- What can be seen of the VM. -/
def Standing.life (s : Standing) : Life where
  condition := match s.machine with
    | none => .absent
    | some m => m.power.condition
  healthy := s.healthy

/-- What can be seen of the VM of the configured name. -/
def life (settings : Settings) (w : World) : Life := (w.standing settings.vmName).life

namespace Standing

variable {settings : Settings} {s s' : Standing} {m m' : Machine} {vm : VmProfile}
  {opts : StartOptions}

/-! ## Tidy worlds -/

/-- The VM is the only one of this program, both keys are in place, and the machine, if there is
one, can be reached and fits into the host's memory. -/
structure Tidy (settings : Settings) (s : Standing) : Prop where
  own : DevVm.Machine.isOwnName settings.vmName = true
  alone : s.names.filter DevVm.Machine.isOwnName =
    if s.machine.isSome then [settings.vmName] else []
  key : s.hasKey settings = true
  insecureKey : s.hasInsecureKey settings = true
  reachable : s.MachineIs (·.port?.isSome)
  room : s.MachineIs (·.memory ≤ settings.freeMemory)

namespace Tidy

theorem withMachine (h : s.Tidy settings) (hm : s.machine = some m) (hport : m'.port? = m.port?)
    (hmemory : m'.memory = m.memory) : (s.withMachine m').Tidy settings where
  own := h.own
  alone := by
    have halone := h.alone
    rw [hm] at halone
    exact halone
  key := h.key
  insecureKey := h.insecureKey
  reachable := machineIs_of_some rfl (hport ▸ h.reachable m hm)
  room := machineIs_of_some rfl (hmemory ▸ h.room m hm)

theorem repowered (h : s.Tidy settings) (power : Power) : (s.repowered power).Tidy settings := by
  rcases hm : s.machine with _ | m
  · have hsame : s.repowered power = s := by
      unfold Standing.repowered
      rw [hm]
      exact congrArg (fun machine => { s with machine }) hm.symm
    rw [hsame]
    exact h
  · rw [repowered_eq hm]
    exact h.withMachine hm rfl rfl

theorem keyKept (h : s.Tidy settings) : (s.keyKept settings).Tidy settings :=
  { h with
    key := Table.isSome_get?_put h.key
    insecureKey := Table.isSome_get?_put h.insecureKey }

theorem booted (h : s.Tidy settings) (hm : s.machine = some m) :
    (s.booted settings vm m).Tidy settings := by
  unfold Standing.booted
  split
  · exact h.withMachine hm rfl rfl
  · exact h.keyKept.withMachine hm rfl rfl

theorem served (h : s.Tidy settings) : (s.served opts).Tidy settings := by
  unfold Standing.served
  split
  · exact h
  · exact { h with }

theorem connected (h : s.Tidy settings) (hm : s.machine = none) (hname : vm.name = settings.vmName)
    (hroom : vm.memory ≤ settings.freeMemory) (port : UInt16) :
    (s.connected vm port).Tidy settings where
  own := h.own
  alone := by
    have halone := h.alone
    rw [hm] at halone
    show (s.names ++ [vm.name]).filter _ = [settings.vmName]
    rw [List.filter_append, halone, hname, List.filter_cons_of_pos h.own]
    rfl
  key := h.key
  insecureKey := h.insecureKey
  reachable := machineIs_of_some rfl rfl
  room := machineIs_of_some rfl hroom

theorem wrote (h : s.Tidy settings) (hwrote : s.WroteAtMost s') : s'.Tidy settings := by
  rcases hwrote with rfl | ⟨path, content, rfl⟩
  · exact h
  · exact { h with
      key := Table.isSome_get?_put h.key
      insecureKey := Table.isSome_get?_put h.insecureKey }

theorem removed (h : s.Tidy settings) : (s.removed settings.vmName).Tidy settings where
  own := h.own
  alone := by
    refine List.filter_eq_nil_iff.mpr fun name hname hown => ?_
    obtain ⟨hmem, hother⟩ := List.mem_filter.mp hname
    have hmem : name ∈ s.names.filter DevVm.Machine.isOwnName := List.mem_filter.mpr ⟨hmem, hown⟩
    rw [h.alone] at hmem
    split at hmem
    · exact of_decide_eq_true hother (List.mem_singleton.mp hmem)
    · cases hmem
  key := h.key
  insecureKey := h.insecureKey
  reachable := nofun
  room := nofun

/-- In a tidy world the state the VM is in can be seen. -/
theorem phase_eq (h : s.Tidy settings) : s.phase settings = s.life.phase := by
  unfold Standing.phase Standing.life
  rw [h.key, Bool.and_true]
  rcases s.machine with _ | m
  · rfl
  · dsimp only
    cases m.power with
    | running => cases s.healthy <;> rfl
    | _ => rfl

end Tidy

/-! ## Lives from step to step -/

theorem life_repowered (power : Power) : (s.repowered power).life =
    { s.life with condition :=
        if s.life.condition = .absent then .absent else power.condition } := by
  unfold Standing.life Standing.repowered
  rcases s.machine with _ | m
  · rfl
  · dsimp only
    rw [if_neg m.power.condition_ne_absent]
    rfl

/-- A machine that has been booted runs, and its guest is provisioned unless this is not
wanted. -/
theorem life_booted : ((s.booted settings vm m).served opts).life =
    ⟨.running, if opts.noProvision then s.healthy else true⟩ := by
  unfold Standing.served Standing.booted
  split <;> split <;> rfl

/-- A start that succeeds leaves a tidy world behind, and the VM as the automaton says. -/
theorem StartsTo.step (h : s.Tidy settings) (hstart : s.Startable settings opts)
    (hflags : ¬(opts.provision = true ∧ opts.noProvision = true))
    (hs : s.StartsTo settings opts s') :
    s'.Tidy settings ∧ s'.life = s.life.step (.start opts) := by
  -- All boots come to the same life, whichever state they set out from.
  have hboot : ∀ {b : Standing} {vm : VmProfile} {m : Machine},
      (b.booted settings vm m).Tidy settings → b.healthy = s.healthy →
      s.life.condition ≠ .saved → s' = (b.booted settings vm m).served opts →
      s'.Tidy settings ∧ s'.life = s.life.step (.start opts) := by
    intro b vm m htidy hhealthy hcondition heq
    subst heq
    refine ⟨htidy.served, ?_⟩
    rw [life_booted, hhealthy]
    show _ = Life.start opts ⟨s.life.condition, s.healthy⟩
    unfold Life.start
    cases hc : s.life.condition with
    | saved => exact absurd hc hcondition
    | _ => rfl
  have hroom := hstart.room
  unfold StartsTo at hs
  unfold HasRoom at hroom
  rcases hm : s.machine with _ | m
  · rw [hm] at hs hroom
    obtain ⟨port, hs⟩ := hs
    refine hboot ((h.connected hm rfl hroom port).booted rfl) rfl ?_ hs
    unfold Standing.life
    rw [hm]
    nofun
  · have hlife : s.life = ⟨m.power.condition, s.healthy⟩ := by
      unfold Standing.life
      rw [hm]
    rw [hm] at hs
    dsimp only at hs
    rw [h.phase_eq, hlife] at hs
    cases hc : m.power.condition with
    | absent => exact absurd hc m.power.condition_ne_absent
    | stopped =>
      rw [hc] at hs
      exact hboot (h.booted hm) rfl (by rw [hlife, hc]; nofun) hs
    | saved =>
      rw [hc] at hs
      obtain rfl : s' = s.withMachine (m.powered .running) := hs
      refine ⟨h.withMachine hm rfl rfl, ?_⟩
      rw [hlife, hc]
      rfl
    | running =>
      rw [hc] at hs
      cases hhealthy : s.healthy with
      | true =>
        rw [hhealthy] at hs
        obtain rfl : s' = s := hs
        refine ⟨h, ?_⟩
        rw [hlife, hc, hhealthy]
        show _ = Life.mk .running (if opts.noProvision then true else true)
        rw [ite_self]
      | false =>
        rw [hhealthy] at hs
        dsimp only [Life.phase] at hs
        split at hs
        next hprovision =>
          obtain rfl : s' = s.provisioned := hs
          have hwanted : opts.noProvision = false :=
            Bool.eq_false_iff.mpr fun hno => hflags ⟨hprovision, hno⟩
          have hlife' : s.provisioned.life = ⟨.running, true⟩ := by
            show Life.mk s.life.condition true = _
            rw [hlife, hc]
          refine ⟨{ h with }, ?_⟩
          rw [hlife', hlife, hc]
          show _ = Life.mk .running (if opts.noProvision then s.healthy else true)
          rw [hwanted]
          rfl
        next hprovision => exact hboot (h.booted hm) rfl (by rw [hlife, hc]; nofun) hs

/-- Nothing that can be seen of the VM is in a file. -/
theorem WroteAtMost.life (h : s.WroteAtMost s') : s'.life = s.life := by
  rcases h with rfl | ⟨path, content, rfl⟩ <;> rfl

end Standing

end World

/-- In a calm and tidy world a command succeeds, leaves a tidy world behind, and the VM as the
automaton says. -/
theorem UserCommand.yields_step {settings : Settings} {s : Standing} (h : s.Tidy settings)
    {command : UserCommand} (hstart : ∀ opts, command = .start opts →
      s.Startable settings opts ∧ ¬(opts.provision = true ∧ opts.noProvision = true))
    (allowance : Nat) (stdin : Bytes) :
    Yields settings.vmName True (command.perform settings (allowance + 3) stdin) s
      (fun _ s' => s'.Tidy settings ∧ s'.life = s.life.step command) (fun _ => True) := by
  have hphase : ∀ {vm : Vm}, s.Seen settings True vm → vm.phase = s.life.phase :=
    fun hseen => (Vm.seen_sure hseen).trans h.phase_eq
  -- The commands that look only, those that write a file, and those that change the power.
  have hlooked : ∀ {t : Task VmError Unit}, s.life.step command = s.life →
      Yields settings.vmName True t s (fun _ s' => s' = s) (fun s' => s' = s) →
      Yields settings.vmName True t s
        (fun _ s' => s'.Tidy settings ∧ s'.life = s.life.step command) (fun _ => True) := by
    intro t hstep ht
    exact (ht.comingTo fun _ => ⟨h, hstep.symm⟩).leaving fun _ _ => trivial
  have hwrote : ∀ {t : Task VmError Unit}, s.life.step command = s.life →
      Yields settings.vmName True t s (fun _ s' => s.WroteAtMost s') s.WroteAtMost →
      Yields settings.vmName True t s
        (fun _ s' => s'.Tidy settings ∧ s'.life = s.life.step command) (fun _ => True) := by
    intro t hstep ht
    exact ht.mono (fun _ _ hwrote => ⟨h.wrote hwrote, hwrote.life.trans hstep.symm⟩)
      fun _ _ => trivial
  have hpower : ∀ {t : Task VmError Unit} {p : Prop} [Decidable p] (power : Power)
      {bad : Standing → Prop},
      Yields settings.vmName True t s (fun _ s' => s' = if p then s.repowered power else s) bad →
      (if p then (s.repowered power).life else s.life) = s.life.step command →
      Yields settings.vmName True t s
        (fun _ s' => s'.Tidy settings ∧ s'.life = s.life.step command) (fun _ => True) := by
    intro t p _ power bad ht hstep
    refine (ht.comingTo fun _ => ⟨?_, ?_⟩).leaving fun _ _ => trivial
    · split
      · exact h.repowered power
      · exact h
    · rw [apply_ite Standing.life, hstep]
  cases command with
  | start opts =>
    obtain ⟨hstartable, hflags⟩ := hstart opts rfl
    refine yields_start trivial (fun _ _ => trivial) stdin fun vm hseen => ?_
    exact (Vm.yields_start_calm hstartable hseen allowance).mono
      (fun _ _ hs => Standing.StartsTo.step h hstartable hflags hs) fun _ h => h
  | stop =>
    refine Vm.yields_selected trivial fun vm hseen => hpower .stopped (Vm.yields_stop hseen) ?_
    rw [Standing.life_repowered, hphase hseen]
    obtain ⟨condition, healthy⟩ := s.life
    cases condition <;> cases healthy <;> rfl
  | suspend =>
    refine Vm.yields_selected trivial fun vm hseen => hpower .saved (Vm.yields_suspend hseen) ?_
    rw [Standing.life_repowered, hphase hseen]
    obtain ⟨condition, healthy⟩ := s.life
    cases condition <;> cases healthy <;> rfl
  | resume =>
    refine Vm.yields_selected trivial fun vm hseen =>
      hpower .running (Vm.yields_resume hseen fun _ => ⟨h.key, h.room⟩) ?_
    rw [Standing.life_repowered, hphase hseen]
    obtain ⟨condition, healthy⟩ := s.life
    cases condition <;> cases healthy <;> rfl
  | status => exact Vm.yields_selected trivial fun vm _ => hlooked rfl (Vm.yields_tell _)
  | trust print =>
    exact Vm.yields_selected trivial fun vm _ => hwrote rfl (Vm.yields_trust print fun _ => h.key)
  | ssh =>
    exact Vm.yields_selected trivial fun vm _ => hlooked rfl (Vm.yields_shell stdin fun _ => h.key)
  | target => exact Vm.yields_selected trivial fun vm _ => hlooked rfl (Vm.yields_target false)
  | debug =>
    exact Vm.yields_selected trivial fun vm _ => hwrote rfl (Vm.yields_diagnose fun _ => h.key)
  | destroy =>
    refine (yields_destroyAll h.alone).comingTo fun _ => ?_
    split
    · exact ⟨h.removed, rfl⟩
    next hnone =>
      refine ⟨h, ?_⟩
      show Life.mk _ _ = Life.mk _ _
      rw [Option.not_isSome_iff_eq_none.mp hnone]
      rfl

/-! ## Orders in a world -/

namespace World

/-- A world in which nothing fails, with no other VM of this program, both keys in place, and
a VM that can be reached and fits into the host's memory, if there is one. -/
structure Suited (settings : Settings) (w : World) : Prop where
  own : DevVm.Machine.isOwnName settings.vmName = true
  distinct : (w.machines.map (·.name)).Nodup
  alone : ∀ m ∈ w.machines, DevVm.Machine.isOwnName m.name = true → m.name = settings.vmName
  key : (Table.get? settings.privateKeyPath w.files).isSome
  insecureKey : (Table.get? settings.insecureKeyPath w.files).isSome
  reachable : ∀ m, w.machine? settings.vmName = some m → m.port?.isSome
  room : ∀ m, w.machine? settings.vmName = some m → m.memory ≤ settings.freeMemory
  calm : w.Calm

/-- What is asked for passes the check that a start makes first. -/
def Accepts (settings : Settings) (opts : StartOptions) (w : World) : Prop :=
  (w.run (Vm.select settings settings.vmName >>= fun vm => vm.verify settings opts)).result =
    some (.ok ())

/-- A request for a start that makes sense: it is accepted, does not ask for provisioning and
for none at once, asks for an address if for any, and for a new VM that fits into the host's
memory. -/
structure Welcomes (settings : Settings) (opts : StartOptions) (w : World) : Prop where
  accepts : w.Accepts settings opts
  flags : ¬(opts.provision = true ∧ opts.noProvision = true)
  ip : opts.ip = "" ∨ (Network.Ipv4.ofText? opts.ip.toList).isSome
  room : w.machine? settings.vmName = none →
    opts.memory.getD settings.defaultMemory ≤ settings.freeMemory

/-- The requests among the orders make sense in the worlds they meet. -/
def Admits (settings : Settings) : List Order → World → Prop
  | [], _ => True
  | o :: more, w => (∀ opts, o.command = .start opts → w.Welcomes settings opts) ∧
      Admits settings more (w.run (o.task settings)).state

/-- What the orders come to one after the other, and what can be seen of the VM after each. -/
def trace (settings : Settings) : List Order → World → List (Option (Except VmError Unit) × Life)
  | [], _ => []
  | o :: more, w =>
    let outcome := w.run (o.task settings)
    (outcome.result, outcome.state.life settings) :: trace settings more outcome.state

variable {settings : Settings} {w : World}

/-- A list without repetitions of nothing but one thing holds it once or not at all. -/
theorem eq_of_nodup_of_forall_eq {names : List String} {n : String} (hdistinct : names.Nodup)
    (h : ∀ name ∈ names, name = n) : names = if n ∈ names then [n] else [] := by
  rcases names with _ | ⟨first, rest⟩
  · rfl
  obtain rfl := h first (List.mem_cons_self ..)
  rw [if_pos (List.mem_cons_self ..)]
  rcases rest with _ | ⟨second, rest⟩
  · rfl
  obtain rfl := h second (List.mem_cons_of_mem _ (List.mem_cons_self ..))
  exact absurd (List.mem_cons_self ..) (List.nodup_cons.mp hdistinct).1

theorem Suited.tidy (h : w.Suited settings) : (w.standing settings.vmName).Tidy settings where
  own := h.own
  alone := by
    -- The own names are all the configured one, and that one is there once at most.
    have honly : ∀ name ∈ (w.machines.map (·.name)).filter DevVm.Machine.isOwnName,
        name = settings.vmName := by
      intro name hname
      obtain ⟨hmem, hown⟩ := List.mem_filter.mp hname
      obtain ⟨m, hm, rfl⟩ := List.mem_map.mp hmem
      exact h.alone m hm hown
    have hthere : settings.vmName ∈ (w.machines.map (·.name)).filter DevVm.Machine.isOwnName ↔
        (w.machine? settings.vmName).isSome = true := by
      unfold World.machine?
      rw [List.mem_filter, List.find?_isSome, List.mem_map]
      simp only [h.own, and_true, decide_eq_true_eq]
    refine (eq_of_nodup_of_forall_eq (h.distinct.filter _) honly).trans ?_
    exact ite_congr (propext hthere) (fun _ => rfl) fun _ => rfl
  key := h.key
  insecureKey := h.insecureKey
  reachable := h.reachable
  room := h.room

/-- What passes the check is acceptable. -/
theorem Accepts.standing {opts : StartOptions} (h : w.Accepts settings opts) :
    (w.standing settings.vmName).Accepts settings opts := by
  have hverified : Yields settings.vmName False
      (Vm.select settings settings.vmName >>= fun vm => vm.verify settings opts)
      (w.standing settings.vmName)
      (fun _ _ => (w.standing settings.vmName).Accepts settings opts) (fun _ => True) := by
    refine Vm.yields_selected trivial fun vm hseen => ?_
    exact (Vm.yields_verify hseen False.elim).mono (fun _ _ h => h.2) fun _ _ => trivial
  exact hverified.of_ok rfl h

/-- A request that makes sense has all that a start needs. -/
theorem Welcomes.startable {opts : StartOptions}
    (htidy : (w.standing settings.vmName).Tidy settings) (h : w.Welcomes settings opts) :
    (w.standing settings.vmName).Startable settings opts where
  accepts := h.accepts.standing
  room := by
    unfold Standing.HasRoom
    rcases hm : (w.standing settings.vmName).machine with _ | m
    · exact h.room hm
    · exact htidy.room m hm
  ip := fun _ => by
    show (Network.Ipv4.ofText? ((StartOptions.asked? opts.ip).getD usualIp).toList).isSome = true
    unfold StartOptions.asked?
    split
    · rfl
    next hasked => exact h.ip.resolve_left hasked
  reachable := htidy.reachable
  insecureKey := htidy.insecureKey
  key := fun _ _ _ => htidy.key

end World

/-- The trace of the automaton, with every order succeeding. -/
def Life.trace : List Order → Life → List (Option (Except VmError Unit) × Life)
  | [], _ => []
  | o :: more, l => (some (.ok ()), l.step o.command) :: Life.trace more (l.step o.command)

variable {settings : Settings}

/-- One order in a tidy and calm world. -/
theorem Order.run_step {o : Order} {w : World} (hcalm : w.Calm)
    (htidy : (w.standing settings.vmName).Tidy settings)
    (hstart : ∀ opts, o.command = .start opts → w.Welcomes settings opts) :
    (w.run (o.task settings)).result = some (.ok ()) ∧
      (w.run (o.task settings)).state.life settings = (w.life settings).step o.command ∧
      ((w.run (o.task settings)).state.standing settings.vmName).Tidy settings ∧
      (w.run (o.task settings)).state.Calm := by
  obtain ⟨_, hresult, ⟨htidy', hlife⟩, hcalm'⟩ :=
    (UserCommand.yields_step htidy (fun opts heq =>
      ⟨(hstart opts heq).startable htidy, (hstart opts heq).flags⟩) 997 o.stdin).succeeds
      (w := w) rfl hcalm
  exact ⟨hresult, hlife, htidy', hcalm'⟩

theorem trace_eq {orders : List Order} {w : World} (hcalm : w.Calm)
    (htidy : (w.standing settings.vmName).Tidy settings) (hadmits : w.Admits settings orders) :
    w.trace settings orders = (w.life settings).trace orders := by
  -- Each order leaves a calm and tidy world to the next one.
  induction orders generalizing w with
  | nil => rfl
  | cons o more ih =>
    obtain ⟨hstart, hmore⟩ := hadmits
    obtain ⟨hresult, hlife, htidy', hcalm'⟩ := Order.run_step hcalm htidy hstart
    unfold World.trace Life.trace
    dsimp only
    rw [hresult, hlife, ih hcalm' htidy' hmore, hlife]

/-- The program follows the automaton: in a world in which nothing fails, and which suits the
program, every order succeeds, and what can be seen of the VM after each is what the automaton
says. -/
theorem lifecycle_refines {w : World} {orders : List Order} (hw : w.Suited settings)
    (hadmits : w.Admits settings orders) :
    w.trace settings orders = (w.life settings).trace orders :=
  trace_eq hw.calm hw.tidy hadmits

/-- The orders of a short life. -/
def sampleOrders : List Order :=
  [⟨.start {}, []⟩, ⟨.suspend, []⟩, ⟨.stop, []⟩, ⟨.resume, []⟩, ⟨.stop, []⟩, ⟨.destroy, []⟩]

/-- Once it was provisioned the guest is healthy for good. -/
theorem lifecycle_refines_sample :
    sampleWorld.trace sampleSettings sampleOrders =
      [(some (.ok ()), ⟨.running, true⟩), (some (.ok ()), ⟨.saved, true⟩),
        (some (.ok ()), ⟨.saved, true⟩), (some (.ok ()), ⟨.running, true⟩),
        (some (.ok ()), ⟨.stopped, true⟩), (some (.ok ()), ⟨.absent, true⟩)] := by
  have hsuited : sampleWorld.Suited sampleSettings :=
    ⟨by decide, List.nodup_nil, nofun, rfl, rfl, nofun, nofun, rfl, nofun⟩
  have hadmits : sampleWorld.Admits sampleSettings sampleOrders := by
    refine ⟨?_, nofun, nofun, nofun, nofun, nofun, trivial⟩
    intro opts heq
    obtain rfl := (UserCommand.start.inj heq).symm
    exact ⟨rfl, by decide, .inl rfl, fun _ => by decide⟩
  exact lifecycle_refines hsuited hadmits

end DevVm
