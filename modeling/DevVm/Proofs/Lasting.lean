import DevVm.Proofs.Commands
import DevVm.Proofs.Episodes

/-!
# What starts keep although calls fail

Whatever calls fail in a start, and wherever it leaves off, what its single steps keep it
keeps (`Lasting.start`). An invariant is about the standing and the machine of the name; it
is `Lasting` if the elementary steps of a start keep it, the half-done boots included.

A guest may only be provisioned once its machine is `Ready` for that. A boot that succeeded
makes it so, and a start hands nothing on to be provisioned before that.

The first start of all, which finds no machine, comes to a machine that has been booted, or
else leaves no machine, one that is not connected, or a half-done first boot
(`yields_firstStart`).
-/

namespace DevVm

open DevVm.Task DevVm.World

variable {settings : Settings} {I : Standing → World.Machine → Prop}
  {Ready : World.Machine → Prop} {s : Standing} {m : World.Machine} {vm : Vm} {opts : StartOptions}

/-- An invariant that the elementary steps of a start keep. -/
structure Lasting (settings : Settings) (I : Standing → World.Machine → Prop)
    (Ready : World.Machine → Prop) : Prop where
  there : ∀ {s m}, I s m → s.machine = some m
  reachable : ∀ {s m}, I s m → m.port?.isSome
  powered : ∀ {s m power}, I s m → power = .running ∨ power = .stopped →
    I (s.withMachine (m.powered power)) (m.powered power)
  halfway : ∀ {s s' m}, I s m → s.Halfway settings (m.profile settings.vmName) m s' →
    ∃ m', I s' m'
  booted : ∀ {s m}, I s m →
    ∃ m', I (s.booted settings (m.profile settings.vmName) m) m' ∧ Ready m'
  provisioned : ∀ {s m}, I s m → Ready m → I { s with healthy := true } m
  forgotten : ∀ {s m}, I s m → I { s with healthy := false } m

namespace Lasting

/-- What a step of a start keeps, and what it hands on if it does: provisioning only to a
machine that is ready for it. -/
theorem startStep (h : Lasting settings I Ready) (hI : I s m)
    (hseen : s.Seen settings False vm) (hready : opts.provision = true → Ready m) :
    Yields settings.vmName False (Vm.startStep settings vm opts) s
      (fun handed s' => ∃ m', I s' m' ∧
        ∀ more, handed = some more → more.provision = true → Ready m')
      (fun s' => ∃ m', I s' m') := by
  have hm := h.there hI
  -- Switching on: the machine ends up booted or half-way there.
  have hbooted : ∃ m', I (s.booted settings (m.profile settings.vmName) m) m' ∧ Ready m' :=
    h.booted hI
  cases hphase : vm.phase with
  | notCreated => exact absurd hphase (Vm.seen_present hseen hm)
  | stopped =>
    refine (Vm.yields_startStep_stopped hseen hm hphase (h.reachable hI) False.elim).mono ?_ ?_
    · intro handed s' hstep
      obtain ⟨rfl, -⟩ := hstep
      obtain ⟨m', hI', hready'⟩ := hbooted
      exact ⟨m', hI', fun _ _ _ => hready'⟩
    · intro s' hleft
      rcases hleft with hhalf | rfl
      · exact h.halfway hI hhalf
      · exact hbooted.imp fun _ h => h.1
  | saved =>
    refine (Vm.yields_startStep_saved hseen hm hphase False.elim).mono ?_ ?_
    · intro handed s' hstep
      obtain ⟨rfl, rfl⟩ := hstep
      exact ⟨_, h.powered hI (.inl rfl), nofun⟩
    · intro s' hleft
      rcases hleft with rfl | rfl
      · exact ⟨m, hI⟩
      · exact ⟨_, h.powered hI (.inl rfl)⟩
  | unprovisioned =>
    cases hprovision : opts.provision with
    | true =>
      refine (Vm.yields_startStep_provision hphase hprovision False.elim).mono ?_ ?_
      · intro handed s' hstep
        obtain ⟨rfl, rfl⟩ := hstep
        exact ⟨m, h.provisioned hI (hready hprovision), nofun⟩
      · intro s' heq
        subst heq
        exact ⟨m, hI⟩
    | false =>
      refine (Vm.yields_startStep_reboot hseen hm hphase hprovision (h.reachable hI)
        False.elim).mono ?_ ?_
      · intro handed s' hstep
        obtain ⟨rfl, -⟩ := hstep
        obtain ⟨m', hI', hready'⟩ := hbooted
        exact ⟨m', hI', fun _ _ _ => hready'⟩
      · intro s' hleft
        rcases hleft with rfl | hhalf | rfl
        · exact ⟨m, hI⟩
        · exact h.halfway (h.powered hI (.inr rfl)) hhalf
        · exact hbooted.imp fun _ h => h.1
  | running =>
    cases hprovision : opts.provision with
    | true =>
      refine (Vm.yields_startStep_forget hphase hprovision False.elim).mono ?_ ?_
      · intro handed s' hstep
        obtain ⟨rfl, rfl⟩ := hstep
        exact ⟨m, h.forgotten hI, fun _ _ _ => hready hprovision⟩
      · intro s' heq
        subst heq
        exact ⟨m, hI⟩
    | false =>
      refine (Vm.yields_startStep_running hseen hphase hprovision False.elim).mono ?_ ?_
      · intro handed s' hstep
        obtain ⟨rfl, rfl⟩ := hstep
        exact ⟨m, hI, nofun⟩
      · intro s' heq
        subst heq
        exact ⟨m, hI⟩

/-- What a start keeps, however often it is handed on and wherever it leaves off. -/
theorem start (h : Lasting settings I Ready) (allowance : Nat) {vm : Vm} {opts : StartOptions}
    {s : Standing} {m : World.Machine} (hI : I s m) (hseen : s.Seen settings False vm)
    (hready : opts.provision = true → Ready m) :
    Yields settings.vmName False (Vm.start settings allowance vm opts) s
      (fun _ s' => ∃ m', I s' m') (fun s' => ∃ m', I s' m') := by
  -- By induction on the steps that are left. Each may change the machine, and with it what the
  -- invariant is about.
  induction allowance generalizing vm opts s m with
  | zero => exact yields_cut nofun ⟨m, hI⟩
  | succ allowance ih =>
    rw [Vm.start_succ]
    refine (h.startStep hI hseen hready).bind ?_
    intro handed s' hstep
    obtain ⟨m', hI', hmore⟩ := hstep
    rcases handed with _ | more
    · exact yields_pure ⟨m', hI'⟩
    · exact Vm.yields_followUp (Vm.seen_name hseen) ⟨m', hI'⟩ fun next hnext =>
        ih hI' hnext (hmore more rfl)

end Lasting

/-! ## Commands that start the VM -/

/-- What a command to start a VM that is there keeps. -/
theorem Lasting.perform_start (h : Lasting settings I Ready) (hI : I s m)
    (hready : opts.provision = true → Ready m) (allowance : Nat) (stdin : Bytes) :
    Yields settings.vmName False (UserCommand.perform settings allowance stdin (.start opts)) s
      (fun _ s' => ∃ m', I s' m') (fun s' => ∃ m', I s' m') :=
  UserCommand.yields_start ⟨m, hI⟩ (fun _ h => h) stdin fun _ hseen =>
    h.start allowance hI hseen hready

/-- What a command to start a VM that is not there comes to: it is booted, and from then on
what lasts is kept, or else the command leaves off before that. -/
theorem yields_firstStart (h : Lasting settings I Ready) (hm : s.machine = none)
    (hbooted : ∀ port, ∃ m', I ((s.connected (Vm.wanted settings opts) port).booted settings
      (Vm.wanted settings opts)
      ((World.Machine.fresh (Vm.wanted settings opts)).connected port)) m' ∧ Ready m')
    (allowance : Nat) (stdin : Bytes) :
    Yields settings.vmName False (UserCommand.perform settings allowance stdin (.start opts)) s
      (fun _ s' => ∃ m', I s' m')
      (fun s' => (∃ m', I s' m') ∨ s' = s ∨ s' = s.imported (Vm.wanted settings opts) ∨
        ∃ port, (s.connected (Vm.wanted settings opts) port).Halfway settings
          (Vm.wanted settings opts)
          ((World.Machine.fresh (Vm.wanted settings opts)).connected port) s') := by
  refine UserCommand.yields_start (.inr (.inl rfl)) (fun _ => .inl) stdin fun vm hseen => ?_
  cases allowance with
  | zero => exact yields_cut nofun (.inr (.inl rfl))
  | succ allowance =>
    rw [Vm.start_succ]
    refine ((Vm.yields_startStep_absent hseen hm False.elim).leaving ?_).bind ?_
    · intro s' hleft
      rcases hleft with rfl | rfl | ⟨port, hhalf | rfl⟩
      · exact .inr (.inl rfl)
      · exact .inr (.inr (.inl rfl))
      · exact .inr (.inr (.inr ⟨port, hhalf⟩))
      · exact .inl ((hbooted port).imp fun _ h => h.1)
    intro handed _ hstep
    obtain ⟨⟨port, rfl⟩, rfl⟩ := hstep
    -- All further steps find a machine, to which the invariant applies.
    obtain ⟨m', hI', hready⟩ := hbooted port
    cases Vm.handedOn opts with
    | none => exact yields_pure ⟨m', hI'⟩
    | some more =>
      exact Vm.yields_followUp (Vm.seen_name hseen) (.inl ⟨m', hI'⟩) fun next hnext =>
        (h.start allowance hI' hnext fun _ => hready).leaving fun _ => .inl

/-- What a first start leaves behind whose import succeeded: what lasts, or a first boot that
was left off half-way. -/
theorem imported_firstStart {w : World} {a : Attempt} (h : Lasting settings I Ready)
    (hstart : a.command = .start opts) (habsent : w.machine? settings.vmName = none)
    (himported : Imported settings.vmName (w.attempt settings a).events)
    (hbooted : ∀ port, ∃ m', I (((w.standing settings.vmName).connected (Vm.wanted settings opts)
      port).booted settings (Vm.wanted settings opts)
        ((World.Machine.fresh (Vm.wanted settings opts)).connected port)) m' ∧ Ready m') :
    (∃ m', I ((w.attempt settings a).state.standing settings.vmName) m') ∨
      ∃ port, ((w.standing settings.vmName).connected (Vm.wanted settings opts) port).Halfway
        settings (Vm.wanted settings opts)
        ((World.Machine.fresh (Vm.wanted settings opts)).connected port)
        ((w.attempt settings a).state.standing settings.vmName) := by
  obtain ⟨⟨command, stdin⟩, plan⟩ := a
  obtain rfl : command = .start opts := hstart
  have hstops := UserCommand.failsStop_perform settings Invocation.handOffs stdin (.start opts)
  have hreachable := reachable_of_imported (n := settings.vmName) hstops nofun himported
  have hfirst := yields_firstStart h habsent hbooted Invocation.handOffs stdin
  refine hfirst.ends (w := { w with plan }) rfl (P := fun s' => s'.Reachable → (∃ m', I s' m') ∨
    ∃ port, ((w.standing settings.vmName).connected (Vm.wanted settings opts) port).Halfway
      settings (Vm.wanted settings opts)
      ((World.Machine.fresh (Vm.wanted settings opts)).connected port) s')
    (fun _ _ hI' _ => .inl hI') ?_ hreachable
  -- With the machine reachable only a boot can have failed.
  intro s' hleft hreached
  obtain ⟨m, hm, hport⟩ := hreached
  rcases hleft with hI' | rfl | rfl | hhalf
  · exact .inl hI'
  · rw [show (w.standing settings.vmName).machine = none from habsent] at hm
    cases hm
  · obtain rfl := Option.some.inj hm
    cases hport
  · exact .inr hhalf

end DevVm
