import DevVm.Proofs.Inventory
import DevVm.Proofs.Stories
import Mathlib.Data.List.Forall2

/-!
# What a command leaves alone

A command other than `destroy` concerns the VM of the configured name, and that VM's own part of
the host. Which of its calls touch the host at all, and what has led up to them, is one rule
(`HostCall.Touches`): the VM is powered on and off; it is imported where there is none, and then
it is connected, for which an interface may have to be made; a first boot keeps the private key
and records itself on the machine; and two commands have a file of their own.

What such a call keeps is the frame of the whole command (`Framed`): the machines that were there
are all there, in their order, and of the one that is switched on and off nothing changes but its
power, and its records when it is set up; the interfaces that were there stay; and only three files
can have another content.

The rule is followed from call to call in a walk through the commands (`touches_perform`), in which
tasks that leave the host alone need no attention (`Task.Makes.touches`).
-/

namespace DevVm

open DevVm.Task DevVm.World

/-! ## Calls -/

/-- A look leaves everything as it was. -/
theorem Call.leaves_of_looks {c : Call} (h : c.looks = true) : c.leaves = true := by
  cases c with
  | hypervisor request => cases request <;> first | rfl | cases h
  | writePrivate path content => cases h
  | _ => rfl

/-- A call that is to make an interface. -/
def Event.Networks (e : Event hostSignature) : Prop :=
  ∃ ip, e.call.call = .hypervisor (.createInterface ip)

/-- All calls so far leave the host alone. -/
def Left (es : List (Event hostSignature)) : Prop := ∀ e ∈ es, e.call.call.leaves = true

/-- The calls of a first boot up to the one that keeps the private key. -/
def FirstBoot.untilKept (settings : Settings) (ip : String) (b : FirstBoot) :
    List (Event hostSignature) := (b.calls settings ip).take 8

/-- When a command may make a call, given the calls it has made so far and the standing, as far as
the host is touched. Files other than the private key are stored where it is right to. -/
inductive HostCall.Touches (settings : Settings) (command : UserCommand) (stores : String → Prop)
    (es : List (Event hostSignature)) (s : Standing) : HostCall → Prop where
  | leaving {c : HostCall} (h : c.call.leaves = true) : Touches settings command stores es s c
  | powering {request : HypervisorCall} (h : request ∈ [.powerOn settings.vmName,
      .shutDown settings.vmName, .saveState settings.vmName]) :
      Touches settings command stores es s ⟨.hypervisor request, false⟩
  | importing {image : String} {memory : UInt64} {cpus : UInt32}
      (hcommand : ∃ opts, command = .start opts) (habsent : s.machine = none) :
      Touches settings command stores es s
        ⟨.hypervisor (.importImage image settings.vmName memory cpus), false⟩
  | connecting {rule : String} {hostPort guestPort : UInt16}
      (hfounded : ∃ e ∈ es, e.Founds settings.vmName) :
      Touches settings command stores es s
        ⟨.hypervisor (.forward settings.vmName rule hostPort guestPort), false⟩
  | networking {ip : String} (hfounded : ∃ e ∈ es, e.Founds settings.vmName)
      (hfirst : ∀ e ∈ es, ¬e.Networks) :
      Touches settings command stores es s ⟨.hypervisor (.createInterface ip), false⟩
  | keeping {b : FirstBoot} {ip : String} (h : (b.calls settings ip).take 7 <:+ es) :
      Touches settings command stores es s
        ⟨.writePrivate settings.privateKeyPath b.pair.privateKey, false⟩
  | recording {b : FirstBoot} {ip key value : String} (h : b.calls settings ip <:+: es) :
      Touches settings command stores es s
        ⟨.hypervisor (.putExtraData settings.vmName key value), false⟩
  | storing {path : String} {content : Bytes} (h : stores path) :
      Touches settings command stores es s ⟨.writePrivate path content, false⟩

/-! ## The frame -/

/-- What is left of a machine: everything if it bears another name, and otherwise its size and its
forwarding, and its records unless there was a first boot. -/
structure World.Machine.KeptAs (settings : Settings) (es : List (Event hostSignature))
    (m m' : Machine) : Prop where
  name : m'.name = m.name
  memory : m'.memory = m.memory
  cpus : m'.cpus = m.cpus
  forward : m'.forward = m.forward
  other : m.name ≠ settings.vmName → m' = m
  extra : m'.extra = m.extra ∨ ∃ (b : FirstBoot) (ip : String), b.calls settings ip <:+: es

/-- The command is to make the VM: it is a start, and there was no VM. -/
def World.Inventory.Makes (settings : Settings) (command : UserCommand) (i : Inventory) : Prop :=
  (∃ opts, command = .start opts) ∧ i.machines.find? (·.name = settings.vmName) = none

/-- What a command has left of the host it found. -/
structure Framed (settings : Settings) (command : UserCommand) (stores : String → Prop)
    (before : Inventory) (es : List (Event hostSignature)) (i : Inventory) : Prop where
  machines : ∃ (kept : List World.Machine) (added : Option World.Machine),
    i.machines = kept ++ added.toList ∧
    List.Forall₂ (World.Machine.KeptAs settings es) before.machines kept ∧
    ∀ m ∈ added, m.name = settings.vmName ∧ before.Makes settings command
  interfaces : ∃ added : Option HostInterface, i.interfaces = before.interfaces ++ added.toList ∧
    (added.isSome → before.Makes settings command ∧ ∃ e ∈ es, e.Networks)
  files : ∀ path, Table.get? path i.files ≠ Table.get? path before.files →
    (path = settings.privateKeyPath ∧
      ∃ (b : FirstBoot) (ip : String), b.untilKept settings ip <:+: es) ∨ stores path
  founded : (∃ e ∈ es, e.Founds settings.vmName) → before.Makes settings command

section

variable {settings : Settings} {command : UserCommand} {stores : String → Prop}
  {before i : Inventory} {es es' : List (Event hostSignature)}

theorem World.Machine.KeptAs.refl (m : Machine) : m.KeptAs settings es m :=
  ⟨rfl, rfl, rfl, rfl, fun _ => rfl, .inl rfl⟩

theorem World.Machine.KeptAs.more {m m' : Machine} (h : m.KeptAs settings es m')
    (hmore : es <:+: es') : m.KeptAs settings es' m' :=
  { h with extra := h.extra.imp_right fun ⟨b, ip, hin⟩ => ⟨b, ip, hin.trans hmore⟩ }

theorem World.Machine.KeptAs.powered {m m' : Machine} {power : Power}
    (h : m.KeptAs settings es m') (hname : m'.name = settings.vmName) :
    m.KeptAs settings es (m'.powered power) :=
  { h with other := fun hother => absurd (h.name.symm.trans hname) hother }

theorem World.Machine.KeptAs.noting {m m' : Machine} {key value ip : String} {b : FirstBoot}
    (h : m.KeptAs settings es m') (hname : m'.name = settings.vmName)
    (hboot : b.calls settings ip <:+: es) : m.KeptAs settings es (m'.noting key value) :=
  { h with
    other := fun hother => absurd (h.name.symm.trans hname) hother
    extra := .inr ⟨b, ip, hboot⟩ }

theorem framed_refl (settings : Settings) (command : UserCommand) (stores : String → Prop)
    (i : Inventory) : Framed settings command stores i [] i where
  machines := ⟨i.machines, none, (List.append_nil _).symm,
    List.forall₂_same.mpr fun m _ => .refl m, nofun⟩
  interfaces := ⟨none, (List.append_nil _).symm, nofun⟩
  files := fun _ h => absurd rfl h
  founded := fun ⟨_, h, _⟩ => absurd h List.not_mem_nil

namespace World

theorem updateFirst_cons (name : String) (f : Machine → Machine) (m : Machine)
    (more : List Machine) : updateFirst name f (m :: more) =
      if m.name = name then f m :: more else m :: updateFirst name f more := rfl

/-- A change to the first machine of a name, in one part of the list or in the other. -/
theorem updateFirst_append (name : String) (f : Machine → Machine) (front back : List Machine) :
    updateFirst name f (front ++ back) =
      if front.any (·.name = name) then updateFirst name f front ++ back
      else front ++ updateFirst name f back := by
  induction front with
  | nil => rfl
  | cons m more ih =>
    rw [List.cons_append, updateFirst_cons, updateFirst_cons, List.any_cons]
    by_cases hm : m.name = name
    · simp [hm]
    · rw [if_neg hm, if_neg hm, ih, decide_eq_false hm, Bool.false_or]
      split <;> rfl

/-- What is left of machines is left of them after a change that keeps it. -/
theorem forall₂_updateFirst {R : Machine → Machine → Prop} {name : String} {f : Machine → Machine}
    (hf : ∀ m m', m'.name = name → R m m' → R m (f m')) {before after : List Machine}
    (h : List.Forall₂ R before after) : List.Forall₂ R before (updateFirst name f after) := by
  induction h with
  | nil => exact .nil
  | cons hm hmore ih =>
    unfold updateFirst
    split
    next hname => exact .cons (hf _ _ hname hm) hmore
    next => exact .cons hm ih

end World

namespace Framed

/-- What the frame says holds of later events as well, which may be said to have founded nothing
new. -/
theorem more (h : Framed settings command stores before es i) {e : Event hostSignature}
    (hfounds : e.Founds settings.vmName → before.Makes settings command) :
    Framed settings command stores before (es ++ [e]) i where
  machines := by
    obtain ⟨kept, added, hmachines, hkept, hadded⟩ := h.machines
    exact ⟨kept, added, hmachines,
      hkept.imp fun _ _ hm => hm.more (List.prefix_append es [e]).isInfix, hadded⟩
  interfaces := by
    obtain ⟨added, hinterfaces, hadded⟩ := h.interfaces
    refine ⟨added, hinterfaces, fun hsome => ?_⟩
    obtain ⟨hmakes, e', hin, hnetworks⟩ := hadded hsome
    exact ⟨hmakes, e', List.mem_append_left _ hin, hnetworks⟩
  files := by
    intro path hpath
    refine (h.files path hpath).imp_left fun hkey => ?_
    obtain ⟨heq, b, ip, hboot⟩ := hkey
    exact ⟨heq, b, ip, hboot.trans (List.prefix_append es [e]).isInfix⟩
  founded := by
    intro hfounded
    obtain ⟨e', hin, he'⟩ := hfounded
    rcases List.mem_append.mp hin with hin | hin
    · exact h.founded ⟨e', hin, he'⟩
    · exact hfounds (List.mem_singleton.mp hin ▸ he')

/-- A call that founds nothing. -/
theorem after (h : Framed settings command stores before es i) {c : HostCall}
    {reply : c.call.Reply} (hc : ∀ image memory cpus,
      c.call ≠ .hypervisor (.importImage image settings.vmName memory cpus)) :
    Framed settings command stores before (es ++ [⟨c, reply⟩]) i := by
  refine h.more fun hfounds => ?_
  obtain ⟨image, memory, cpus, heq⟩ := hfounds
  exact absurd (congrArg (fun e => e.call.call) heq) (hc image memory cpus)

/-- The names of machines are left, so whether there is one of a name is. -/
theorem names_kept {front kept : List World.Machine}
    (hkept : List.Forall₂ (World.Machine.KeptAs settings es) front kept) :
    kept.map (·.name) = front.map (·.name) := by
  induction hkept with
  | nil => rfl
  | cons hm hmore ih => rw [List.map_cons, List.map_cons, hm.name, ih]

theorem not_kept {front kept : List World.Machine}
    (hkept : List.Forall₂ (World.Machine.KeptAs settings es) front kept) {name : String}
    (habsent : front.find? (·.name = name) = none) : kept.any (·.name = name) = false := by
  rw [List.any_eq_false]
  intro m hm
  have hin : m.name ∈ front.map (·.name) := names_kept hkept ▸ List.mem_map_of_mem hm
  obtain ⟨m', hm', hname⟩ := List.mem_map.mp hin
  rw [← hname]
  exact List.find?_eq_none.mp habsent m' hm'

/-- A change to the machine of the name, which was not there or is left what it should. -/
theorem change (h : Framed settings command stores before es i) {f : World.Machine → World.Machine}
    (hname : ∀ m, (f m).name = m.name)
    (hf : before.Makes settings command ∨ ∀ m m' : World.Machine, m'.name = settings.vmName →
      m.KeptAs settings es m' → m.KeptAs settings es (f m')) :
    Framed settings command stores before es (i.change settings.vmName f) where
  machines := by
    obtain ⟨kept, added, hmachines, hkept, hadded⟩ := h.machines
    have hchanged : (i.change settings.vmName f).machines =
      updateFirst settings.vmName f (kept ++ added.toList) := congrArg _ hmachines
    rw [hchanged, updateFirst_append]
    split
    next hthere =>
      refine ⟨_, added, rfl, forall₂_updateFirst (fun m m' hname hleft => ?_) hkept, hadded⟩
      rcases hf with hmakes | hf
      · -- There was no such machine to be left.
        rw [not_kept hkept hmakes.2] at hthere
        cases hthere
      · exact hf m m' hname hleft
    next habsent =>
      refine ⟨kept, added.map f, ?_, hkept, fun m hm => ?_⟩
      · cases added with
        | none => rfl
        | some m =>
          show _ = kept ++ [f m]
          rw [Option.toList_some, updateFirst_cons, if_pos (hadded m rfl).1]
      · obtain ⟨m', hm', rfl⟩ := Option.map_eq_some_iff.mp hm
        exact ⟨(hname m').trans (hadded m' hm').1, (hadded m' hm').2⟩
  interfaces := h.interfaces
  files := h.files
  founded := h.founded

/-- An import is one where there was no machine of the name from the beginning. -/
theorem makes_of_absent (h : Framed settings command stores before es i)
    (hcommand : ∃ opts, command = .start opts)
    (habsent : i.machines.find? (·.name = settings.vmName) = none) :
    before.Makes settings command := by
  obtain ⟨kept, added, hmachines, hkept, -⟩ := h.machines
  refine ⟨hcommand, List.find?_eq_none.mpr fun m hm => ?_⟩
  have hin : m.name ∈ kept.map (·.name) := (names_kept hkept).symm ▸ List.mem_map_of_mem hm
  obtain ⟨m', hm', hname⟩ := List.mem_map.mp hin
  rw [← hname]
  refine List.find?_eq_none.mp habsent m' ?_
  rw [hmachines]
  exact List.mem_append_left _ hm'

theorem imported (h : Framed settings command stores before es i)
    (hcommand : ∃ opts, command = .start opts)
    (habsent : i.machines.find? (·.name = settings.vmName) = none) {m : World.Machine}
    (hname : m.name = settings.vmName) :
    Framed settings command stores before es { i with machines := i.machines ++ [m] } where
  machines := by
    have hmakes := h.makes_of_absent hcommand habsent
    obtain ⟨kept, added, hmachines, hkept, hadded⟩ := h.machines
    -- None has been added yet, since that would bear the name.
    have hnone : added = none := by
      rw [Option.eq_none_iff_forall_ne_some]
      intro m' hm'
      refine absurd (hadded m' hm').1 ?_
      have hin : m' ∈ i.machines := by simp [hmachines, hm']
      simpa using List.find?_eq_none.mp habsent m' hin
    subst hnone
    refine ⟨kept, some m, ?_, hkept, fun m' hm' => ?_⟩
    · rw [hmachines]
      simp
    · rw [← Option.some.inj hm']
      exact ⟨hname, hmakes⟩
  interfaces := h.interfaces
  files := h.files
  founded := h.founded

theorem stored (h : Framed settings command stores before es i) {path : String} {content : Bytes}
    (hpath : (path = settings.privateKeyPath ∧
      ∃ (b : FirstBoot) (ip : String), b.untilKept settings ip <:+: es) ∨ stores path) :
    Framed settings command stores before es
      { i with files := Table.put path content i.files } where
  machines := h.machines
  interfaces := h.interfaces
  files := by
    intro other hother
    rw [Table.get?_put] at hother
    split at hother
    next heq => exact heq ▸ hpath
    next => exact h.files other hother
  founded := h.founded

theorem networked (h : Framed settings command stores before es i)
    (hfounded : ∃ e ∈ es, e.Founds settings.vmName) (hfirst : ∀ e ∈ es, ¬e.Networks)
    {e : Event hostSignature} (he : e.Networks) {interface : HostInterface} :
    Framed settings command stores before (es ++ [e])
      { i with interfaces := i.interfaces ++ [interface] } := by
  have hlater := h.more (e := e) fun _ => h.founded hfounded
  refine { hlater with interfaces := ?_ }
  obtain ⟨added, hinterfaces, hadded⟩ := h.interfaces
  have hnone : added = none := by
    rw [← Option.not_isSome_iff_eq_none]
    intro hsome
    obtain ⟨-, e', hin, he'⟩ := hadded hsome
    exact hfirst e' hin he'
  subst hnone
  refine ⟨some interface, ?_, fun _ => ⟨h.founded hfounded, e, by simp, he⟩⟩
  rw [hinterfaces]
  simp

/-- A call that fails founds nothing. -/
theorem after_failure (h : Framed settings command stores before es i) {c : HostCall}
    (failure : c.call.Failure) :
    Framed settings command stores before (es ++ [⟨c, .error failure⟩]) i := by
  refine h.more fun hfounds => ?_
  obtain ⟨image, memory, cpus, heq⟩ := hfounds
  obtain ⟨call, tolerated⟩ := c
  obtain ⟨hcall, hreply⟩ := Event.mk.inj heq
  cases hcall
  cases eq_of_heq hreply

/-- Every call that the rule allows keeps the frame. -/
theorem step (h : Framed settings command stores before es i) {w : World} (hw : w.inventory = i)
    {c : HostCall} (hc : c.Touches settings command stores es (w.standing settings.vmName)) :
    Framed settings command stores before (es ++ [⟨c, (World.host.answer c w).1⟩])
      (World.host.answer c w).2.inventory := by
  subst hw
  refine inventory_cases (P := fun reply i => Framed settings command stores before
    (es ++ [⟨c, reply⟩]) i) (fun v => ?_) h.after_failure
  cases hc with
  | leaving hleaves =>
    rw [Inventory.effect_of_leaves hleaves]
    exact h.after fun image memory cpus heq => by rw [heq] at hleaves; cases hleaves
  | @powering request hrequest =>
    have hpowered : ∀ power : Power, Framed settings command stores before es
        (w.inventory.change settings.vmName (·.powered power)) := fun power =>
      h.change (fun _ => rfl) (.inr fun _ _ hname hleft => hleft.powered hname)
    simp only [List.mem_cons, List.not_mem_nil, or_false] at hrequest
    rcases hrequest with rfl | rfl | rfl
    · exact (hpowered .running).after nofun
    · exact (hpowered .stopped).after nofun
    · exact (hpowered .saved).after nofun
  | importing hcommand habsent =>
    exact (h.imported hcommand habsent rfl).more fun _ => h.makes_of_absent hcommand habsent
  | @connecting rule hostPort guestPort hfounded =>
    have hconnected : Framed settings command stores before es
        (w.inventory.change settings.vmName fun m =>
          { m with forward := Table.put rule hostPort m.forward }) :=
      h.change (fun _ => rfl) (.inl (h.founded hfounded))
    exact hconnected.after nofun
  | networking hfounded hfirst => exact h.networked hfounded hfirst ⟨_, rfl⟩
  | @keeping b ip hboot =>
    -- With this call the boot has come to where the key is kept.
    have hkept : b.untilKept settings ip <:+ es ++
        [(Call.writePrivate settings.privateKeyPath b.pair.privateKey).answered v] := by
      obtain ⟨front, rfl⟩ := hboot
      exact ⟨front, (List.append_assoc front ((b.calls settings ip).take 7) [_]).symm⟩
    have hlater : Framed settings command stores before (es ++
        [(Call.writePrivate settings.privateKeyPath b.pair.privateKey).answered v]) w.inventory :=
      h.after nofun
    exact hlater.stored (.inl ⟨rfl, b, ip, hkept.isInfix⟩)
  | @recording b ip key value hboot =>
    have hrecorded : Framed settings command stores before es
        (w.inventory.change settings.vmName (·.noting key value)) :=
      h.change (fun _ => rfl) (.inr fun _ _ hname hleft => hleft.noting hname hboot)
    exact hrecorded.after nofun
  | @storing path content hstores =>
    have hlater : Framed settings command stores before
        (es ++ [(Call.writePrivate path content).answered v]) w.inventory := h.after nofun
    exact hlater.stored (.inr hstores)

end Framed

end

/-! ## Tasks -/

/-- A task that leaves the host alone. -/
abbrev Task.Leaves {ε α : Type} (t : Task ε α) : Prop := t.Makes fun c => c.leaves = true

/-- The task touches the host as the rule allows it, for a command. -/
abbrev Task.Touches {ε α : Type} (settings : Settings) (command : UserCommand)
    (stores : String → Prop) (t : Task ε α) (es : List (Event hostSignature)) (s : Standing)
    (good : α → List (Event hostSignature) → Standing → Prop) : Prop :=
  Heeds settings.vmName (HostCall.Touches settings command stores) t es s good fun _ _ _ => True

section

variable {settings : Settings} {command : UserCommand} {stores : String → Prop}
  {es : List (Event hostSignature)} {s : Standing} {ε α : Type}

theorem left_nil : Left [] := fun _ h => absurd h List.not_mem_nil

theorem Left.append {more : List (Event hostSignature)} (h : Left es) (hmore : Left more) :
    Left (es ++ more) := fun e he => (List.mem_append.mp he).elim (h e) (hmore e)

theorem Left.snoc {e : Event hostSignature} (h : Left es) (he : e.call.call.leaves = true) :
    Left (es ++ [e]) := h.append fun _ he' => List.mem_singleton.mp he' ▸ he

theorem Left.not_networks (h : Left es) : ∀ e ∈ es, ¬e.Networks := by
  intro e he hnetworks
  obtain ⟨ip, hcall⟩ := hnetworks
  have hleaves := h e he
  rw [hcall] at hleaves
  cases hleaves

theorem Task.Looks.leaves {t : Task ε α} (ht : t.Looks) : t.Leaves :=
  Makes.mono ht fun _ => Call.leaves_of_looks

/-- A task that leaves the host alone leaves the machine of the name alone. -/
theorem Task.Makes.touches {t : Task ε α} (ht : t.Leaves) :
    t.Touches settings command stores es s fun _ es' s' =>
      s'.machine = s.machine ∧ (Left es → Left es') := by
  intro w hw
  have hmachine : ((w.run t).state.standing settings.vmName).machine = s.machine := by
    rw [← hw]
    exact congrArg (fun i : Inventory => i.machines.find? (·.name = settings.vmName))
      (inventory_of_leaves ht w)
  have hleft : Left es → Left (es ++ (w.run t).events) := fun h =>
    h.append (Program.Makes.events ht)
  refine Program.Makes.heeds ht (fun _ _ _ h => .leaving h) ?_
  rcases (Program.run World.host t.program w).result with _ | e | a
  · exact trivial
  · exact trivial
  · exact ⟨hmachine, hleft⟩

theorem HostCall.Touches.spares {c : HostCall} (h : c.Touches settings command stores es s) :
    ∀ name, c.call ≠ .hypervisor (.remove name) := by
  intro name heq
  cases h with
  | leaving hleaves =>
    rw [heq] at hleaves
    cases hleaves
  | powering hrequest =>
    obtain rfl := Call.hypervisor.inj heq
    simp at hrequest
  | _ => cases heq

/-- A machine that is there stays there, unless it is removed. -/
theorem World.Standing.isSome_effect {n : String} {c : Call} (hc : c ≠ .hypervisor (.remove n))
    (h : s.machine.isSome) : (s.effect n c).machine.isSome := by
  have heffected := s.effected n c
  generalize s.effect n c = s' at heffected
  have hchange : ∀ (name : String) (f : Machine → Machine), (s.change n name f).machine.isSome := by
    intro name f
    unfold change
    split
    · rw [Option.isSome_map]
      exact h
    · exact h
  cases heffected with
  | imported image name memory cpus =>
    obtain ⟨m, hm⟩ := Option.isSome_iff_exists.mp h
    rw [hm]
    rfl
  | removed name =>
    have hname : name ≠ n := fun heq => hc (heq ▸ rfl)
    dsimp only
    rw [if_neg hname]
    exact h
  | recorded name key value => exact hchange _ _
  | changed name f hf => exact hchange _ _
  | _ => exact h

/-- A machine that is there is there at the end. -/
theorem Task.Heeds.staying {t : Task ε α}
    (h : t.Touches settings command stores es s fun _ _ _ => True) (hs : s.machine.isSome) :
    t.Touches settings command stores es s fun _ _ s' => s'.machine.isSome := by
  intro w hw
  subst hw
  have hstays := (h w rfl).keeps
    (I := fun _ (w : World) => (w.standing settings.vmName).machine.isSome)
    (fun es w c hc h => reply_cases (P := fun _ (s : Standing) => s.machine.isSome)
      (fun _ _ => Standing.isSome_effect (hc.spares _) h) fun _ => h) hs
  refine ((h w rfl).knowing (fun _ _ (w : World) =>
    (w.standing settings.vmName).machine.isSome) hstays).mono fun result es' w' hends => ?_
  rcases result with _ | e | a
  · exact trivial
  · exact trivial
  · exact hends.2

end

/-! ## Tasks that leave the host alone -/

namespace Vm

variable {settings : Settings} {vm : Vm} {opts : StartOptions}

theorem leaves_need {ε : Type} {c : Call} {wrap : c.Failure → ε} (h : c.leaves = true) :
    (Task.need c wrap).Leaves := makes_need h

theorem leaves_confirmMemory (memory : UInt64) : (confirmMemory settings memory).Leaves := by
  unfold confirmMemory
  split
  · refine (leaves_need rfl).bind fun accepted => ?_
    split
    · exact trivial
    · exact makes_pure _
  · exact makes_pure _

theorem leaves_ofExcept {ε α : Type} (answer : Except ε α) : (Task.ofExcept answer).Leaves :=
  trivial

theorem leaves_verify : (verify settings vm opts).Leaves := by
  unfold verify
  split
  · refine (Machine.looks_conflicting _).leaves.mapError.bind fun conflicting => ?_
    split
    · exact trivial
    · dsimp only
      split
      · exact trivial
      · exact leaves_confirmMemory _
  · exact (leaves_ofExcept _).bind fun _ => leaves_confirmMemory _
  · exact (leaves_ofExcept _).bind fun _ => leaves_confirmMemory _
  · exact leaves_ofExcept _
  · exact leaves_ofExcept _

theorem leaves_provision (profile : VmProfile) : (provision settings profile opts).Leaves := by
  refine (leaves_need rfl).bind fun _ => ?_
  refine (leaves_need rfl).bind fun key => ?_
  exact leaves_need rfl

theorem leaves_shell (stdin : Bytes) : (vm.shell settings stdin).Leaves := by
  unfold shell
  split
  all_goals try exact leaves_need rfl
  all_goals exact (leaves_need rfl).bind fun key => leaves_need rfl

theorem leaves_target (auto : Bool) : (vm.target auto).Leaves := by
  unfold target
  split
  all_goals try exact leaves_need rfl
  refine (leaves_need rfl).bind fun _ => ?_
  split
  · exact leaves_need rfl
  · exact makes_pure _

theorem leaves_collect (addresses : List Endpoint) (key : Bytes) (whats : List Diagnostic) :
    (collect addresses key whats).Leaves := by
  induction whats with
  | nil => exact makes_pure _
  | cons what more ih =>
    refine Makes.bind (makes_attempt rfl) fun reply => ?_
    exact ih.bind fun sections => makes_pure _

end Vm

/-! ## The walk: machines -/

namespace Machine

variable {settings : Settings} {command : UserCommand} {stores : String → Prop}
  {es : List (Event hostSignature)} {s : Standing} {vm : VmProfile}

theorem touches_power {ε : Type} {request : HypervisorCall} {wrap : HypervisorError → ε}
    (h : request ∈ [.powerOn settings.vmName, .shutDown settings.vmName,
      .saveState settings.vmName]) :
    (Task.need (.hypervisor request) wrap).Touches settings command stores es s
      fun v es' _ => es' = es ++ [(Call.hypervisor request).answered v] :=
  heeds_need (.powering h) (fun _ _ => rfl) fun _ => trivial

/-- The key is kept as part of the boot that has begun. -/
theorem touches_setUpGuest {front : List (Event hostSignature)} {port : UInt16}
    (hes : es = front ++
      [(Call.hypervisor (.forwardedPort settings.vmName forwardingRule)).answered (some port),
       (Call.hypervisor (.extraData settings.vmName ipKey)).answered none,
       (Call.hypervisor (.powerOn settings.vmName)).answered ()]) :
    (setUpGuest settings vm port).Touches settings command stores es s fun _ es' _ =>
      ∃ b : FirstBoot, b.port = port ∧ es' = es ++ b.setUp settings vm.ip := by
  subst hes
  refine heeds_call (.leaving rfl) (fun _ => trivial) fun insecureKey _ => ?_
  refine heeds_call (.leaving rfl) (fun _ => trivial) fun networkOutput _ => ?_
  refine heeds_call (.leaving rfl) (fun _ => trivial) fun pair _ => ?_
  refine heeds_call (.leaving rfl) (fun _ => trivial) fun keyOutput _ => ?_
  let b : FirstBoot := ⟨port, insecureKey, pair, networkOutput, keyOutput⟩
  have hkeep : (b.calls settings vm.ip).take 7 <:+ _ := ⟨front, rfl⟩
  simp only [List.append_assoc, List.cons_append, List.nil_append]
  refine heeds_need (.keeping hkeep) (fun _ _ => ⟨b, rfl, ?_⟩) fun _ => trivial
  simp only [List.append_assoc, List.cons_append, List.nil_append]
  rfl

/-- Starting a machine. What a first boot records it records when it has been seen through. -/
theorem touches_start (hname : vm.name = settings.vmName) :
    (start settings vm).Touches settings command stores es s fun _ _ _ => True := by
  unfold start
  rw [hname]
  refine heeds_call (.leaving rfl) (fun _ => trivial) fun forwarded _ => ?_
  cases forwarded with
  | none => exact heeds_throw trivial
  | some port =>
    refine heeds_call (.leaving rfl) (fun _ => trivial) fun recorded _ => ?_
    refine (touches_power (by simp)).bind fun _ es' s' hup => ?_
    subst hup
    cases recorded with
    | some ip => exact heeds_pure trivial
    | none =>
      simp only [List.append_assoc, List.cons_append, List.nil_append]
      refine Heeds.bind (touches_setUpGuest rfl) fun _ es' s' hdone => ?_
      obtain ⟨b, rfl, rfl⟩ := hdone
      refine (touches_power (by simp)).bind fun _ es' s' hoff => ?_
      subst hoff
      refine (touches_power (by simp)).bind fun _ es' s' hup => ?_
      subst hup
      have hcalls : b.calls settings vm.ip <:+ _ := ⟨es, rfl⟩
      unfold FirstBoot.calls at hcalls
      simp only [List.append_assoc, List.cons_append, List.nil_append] at hcalls ⊢
      have hboot : b.calls settings vm.ip <:+: _ := hcalls.isInfix
      refine heeds_call (.recording hboot) (fun _ => trivial) fun _ _ => ?_
      refine heeds_call (.recording (hboot.trans (List.prefix_append _ _).isInfix))
        (fun _ => trivial) fun _ _ => ?_
      exact heeds_pure trivial

/-- Finding an interface for a machine that has been imported. -/
theorem touches_interfaceFor (hostIp : String) (hfounded : ∃ e ∈ es, e.Founds settings.vmName)
    (hfirst : ∀ e ∈ es, ¬e.Networks) :
    (interfaceFor hostIp).Touches settings command stores es s fun _ es' _ => es <+: es' := by
  have hmore : ∀ {e e' : Event hostSignature}, es <+: es ++ [e] ++ [e'] := fun {e e'} =>
    (List.prefix_append es [e]).trans (List.prefix_append _ [e'])
  refine heeds_call (.leaving rfl) (fun _ => trivial) fun listed _ => ?_
  split
  · exact heeds_pure (List.prefix_append _ _)
  · refine heeds_need (.networking ?_ ?_) (fun _ _ => hmore) fun _ => trivial
    · obtain ⟨e, hin, he⟩ := hfounded
      exact ⟨e, List.mem_append_left _ hin, he⟩
    · intro e hin
      rcases List.mem_append.mp hin with hin | hin
      · exact hfirst e hin
      · rw [List.mem_singleton.mp hin]
        exact fun ⟨ip, hcall⟩ => nomatch hcall

/-- Importing a machine where there is none, as the first thing that is done to the host. -/
theorem touches_importImage {image : String} (hcommand : ∃ opts, command = .start opts)
    (hname : vm.name = settings.vmName) (habsent : s.machine = none) (hleft : Left es) :
    (importImage image vm).Touches settings command stores es s
      fun _ _ s' => s'.machine.isSome := by
  have haddress : (Task.ofExcept (hostAddress vm.ip)).Touches settings command stores es s
      fun _ es' s' => es' = es ∧ s' = s := heeds_ofExcept (fun _ _ => ⟨rfl, rfl⟩) fun _ _ => trivial
  refine haddress.bind fun hostIp es' s' hsame => ?_
  obtain ⟨rfl, rfl⟩ := hsame
  refine heeds_call (.leaving rfl) (fun _ => trivial) fun address _ => ?_
  rw [hname]
  refine heeds_call (.importing hcommand habsent) (fun _ => trivial) fun _ _ => ?_
  -- From here on the machine is there, and no interface has been made for it.
  have hthere : (s'.effect settings.vmName (.hypervisor (.importImage image settings.vmName
      vm.memory vm.cpus))).machine.isSome := by
    show (s'.machine.or _).isSome
    rw [habsent, if_pos rfl]
    rfl
  have hfounded : ∃ e ∈ es' ++ [(Call.ssh .freshEndpoint).answered address] ++
      [(Call.hypervisor (.importImage image settings.vmName vm.memory vm.cpus)).answered ()],
      e.Founds settings.vmName :=
    ⟨_, List.mem_append_right _ (List.mem_singleton.mpr rfl), _, _, _, rfl⟩
  have hfirst : ∀ e ∈ es' ++ [(Call.ssh .freshEndpoint).answered address] ++
      [(Call.hypervisor (.importImage image settings.vmName vm.memory vm.cpus)).answered ()],
      ¬e.Networks := by
    intro e hin
    rcases List.mem_append.mp hin with hin | hin
    · exact (hleft.snoc rfl).not_networks e hin
    · rw [List.mem_singleton.mp hin]
      exact fun ⟨ip, hcall⟩ => nomatch hcall
  refine Heeds.staying ?_ hthere
  refine (touches_interfaceFor hostIp hfounded hfirst).bind fun interface es'' s'' hmore => ?_
  refine heeds_call (.leaving rfl) (fun _ => trivial) fun _ _ => ?_
  refine heeds_need (.connecting ?_) (fun _ _ => trivial) fun _ => trivial
  obtain ⟨e, hin, he⟩ := hfounded
  exact ⟨e, List.mem_append_left _ (hmore.subset hin), he⟩

end Machine

/-! ## The walk: the VM -/

namespace Vm

variable {settings : Settings} {command : UserCommand} {stores : String → Prop}
  {es : List (Event hostSignature)} {s : Standing} {vm : Vm} {opts : StartOptions}

theorem touches_leaving {ε α : Type} {t : Task ε α} (ht : t.Leaves) :
    t.Touches settings command stores es s fun _ _ _ => True :=
  ht.touches.mono (fun _ _ _ _ => trivial) fun _ _ _ h => h

theorem touches_select :
    (select settings settings.vmName).Touches settings command stores es s fun vm es' s' =>
      s' = s ∧ s.Seen settings False vm ∧ (Left es → Left es') := by
  refine (yields_select.heeds (looks_select settings.vmName) fun _ _ _ h =>
    .leaving (Call.leaves_of_looks h)).mono (fun _ _ _ h => ?_) fun _ _ _ _ => trivial
  obtain ⟨⟨hsame, hseen⟩, more, rfl, hmore⟩ := h
  exact ⟨hsame, hseen, fun hleft => hleft.append fun e he => Call.leaves_of_looks (hmore e he)⟩

theorem touches_switchOn {profile : VmProfile} (hname : profile.name = settings.vmName) :
    (switchOn settings profile opts).Touches settings command stores es s fun _ _ _ => True := by
  refine heeds_call (.leaving rfl) (nomatch ·) fun _ _ => ?_
  refine Heeds.bind (Heeds.mapError (Machine.touches_start hname)) fun sshPort es' s' _ => ?_
  refine heeds_call (.leaving rfl) (fun _ => trivial) fun key _ => ?_
  refine heeds_call (.leaving rfl) (fun _ => trivial) fun _ _ => ?_
  split
  · exact heeds_call (.leaving rfl) (nomatch ·) fun _ _ => heeds_pure trivial
  · exact heeds_pure trivial

theorem touches_switchOff {profile : VmProfile} {stage : Stage}
    (hname : profile.name = settings.vmName) :
    (switchOff profile stage).Touches settings command stores es s fun _ _ _ => True := by
  refine heeds_call (.leaving rfl) (nomatch ·) fun _ _ => ?_
  refine Heeds.bind (Heeds.mapError (Machine.touches_power (by simp [hname]))) fun _ _ _ _ => ?_
  exact heeds_need (.leaving rfl) (fun _ _ => trivial) (nomatch ·)

theorem touches_restore {profile : VmProfile} (hname : profile.name = settings.vmName) :
    (restore settings profile).Touches settings command stores es s fun _ _ _ => True := by
  refine (touches_leaving (leaves_confirmMemory _)).bind fun _ es' s' _ => ?_
  refine heeds_call (.leaving rfl) (nomatch ·) fun _ _ => ?_
  refine Heeds.bind (Heeds.mapError (Machine.touches_power (by simp [hname]))) fun _ _ _ _ => ?_
  refine heeds_call (.leaving rfl) (fun _ => trivial) fun key _ => ?_
  refine heeds_call (.leaving rfl) (fun _ => trivial) fun _ _ => ?_
  exact heeds_need (.leaving rfl) (fun _ _ => trivial) (nomatch ·)

/-- A VM that is not there is imported and switched on. -/
theorem touches_startStep_absent (hcommand : ∃ opts, command = .start opts)
    (hseen : s.Seen settings False vm) (hm : s.machine = none) (hleft : Left es) :
    (startStep settings vm opts).Touches settings command stores es s
      fun _ _ s' => s'.machine.isSome := by
  have hname : (requested settings vm opts).name = settings.vmName := seen_name hseen
  unfold startStep
  rw [seen_absent hseen hm]
  refine leaves_verify.touches.bind fun _ es' s' hverified => ?_
  obtain ⟨hmachine, hleft'⟩ := hverified
  refine heeds_call (.leaving rfl) (nomatch ·) fun _ _ => ?_
  refine Heeds.bind (Heeds.mapError (Machine.touches_importImage hcommand hname
    (hmachine.trans hm) ((hleft' hleft).snoc rfl))) fun _ es'' s'' hthere => ?_
  refine heeds_call (.leaving rfl) (nomatch ·) fun _ _ => ?_
  exact (touches_switchOn hname).staying hthere

/-- The host is touched as it may be by what the state the VM is seen in contributes to a start.
After that there is a machine. -/
theorem touches_startStep (hcommand : ∃ opts, command = .start opts)
    (hseen : s.Seen settings False vm) (hleft : s.machine = none → Left es) :
    (startStep settings vm opts).Touches settings command stores es s
      fun _ _ s' => s'.machine.isSome := by
  rcases hm : s.machine with _ | m
  · exact touches_startStep_absent hcommand hseen hm (hleft hm)
  have hname := seen_name hseen
  refine Heeds.staying ?_ (by rw [hm]; rfl)
  unfold startStep
  cases hphase : vm.phase with
  | notCreated => exact absurd hphase (seen_present hseen hm)
  | stopped => exact (touches_leaving leaves_verify).bind fun _ _ _ _ => touches_switchOn hname
  | saved =>
    refine (touches_leaving (leaves_ofExcept _)).bind fun _ _ _ _ => ?_
    exact (touches_restore hname).bind fun _ _ _ _ => heeds_pure trivial
  | unprovisioned =>
    dsimp only
    split
    · exact (touches_leaving (leaves_provision _)).bind fun _ _ _ _ => heeds_pure trivial
    · refine (touches_leaving leaves_verify).bind fun _ _ _ _ => ?_
      exact (touches_switchOff hname).bind fun _ _ _ _ => touches_switchOn hname
  | running =>
    dsimp only
    split
    · refine heeds_call (.leaving rfl) (fun _ => trivial) fun key _ => ?_
      exact heeds_call (.leaving rfl) (fun _ => trivial) fun _ _ => heeds_pure trivial
    · refine (touches_leaving leaves_verify).bind fun _ _ _ _ => ?_
      exact heeds_call (.leaving rfl) (nomatch ·) fun _ _ => heeds_pure trivial

/-- A start, however often it is handed on. -/
theorem touches_start (allowance : Nat) (hcommand : ∃ opts, command = .start opts)
    (hseen : s.Seen settings False vm) (hleft : s.machine = none → Left es) :
    (start settings allowance vm opts).Touches settings command stores es s
      fun _ _ _ => True := by
  induction allowance generalizing vm opts es s with
  | zero => exact heeds_cut trivial
  | succ allowance ih =>
    refine (touches_startStep hcommand hseen hleft).bind fun handed es' s' hthere => ?_
    cases handed with
    | none => exact heeds_pure trivial
    | some more =>
      rw [seen_name hseen]
      refine Heeds.bind (Heeds.mapError touches_select) fun next es'' s'' hselected => ?_
      obtain ⟨rfl, hnext, -⟩ := hselected
      exact ih hnext fun habsent => by rw [habsent] at hthere; cases hthere

theorem touches_stop (hname : vm.profile.name = settings.vmName) :
    vm.stop.Touches settings command stores es s fun _ _ _ => True := by
  unfold stop
  split
  all_goals try exact heeds_need (.leaving rfl) (fun _ _ => trivial) (nomatch ·)
  all_goals exact touches_switchOff hname

theorem touches_suspend (hname : vm.profile.name = settings.vmName) :
    vm.suspend.Touches settings command stores es s fun _ _ _ => True := by
  unfold suspend
  split
  all_goals try exact heeds_need (.leaving rfl) (fun _ _ => trivial) (nomatch ·)
  refine heeds_call (.leaving rfl) (nomatch ·) fun _ _ => ?_
  refine Heeds.bind (Heeds.mapError (Machine.touches_power (by simp [hname]))) fun _ _ _ _ => ?_
  exact heeds_need (.leaving rfl) (fun _ _ => trivial) (nomatch ·)

theorem touches_resume (hname : vm.profile.name = settings.vmName) :
    (vm.resume settings).Touches settings command stores es s fun _ _ _ => True := by
  unfold resume
  split
  all_goals try exact heeds_need (.leaving rfl) (fun _ _ => trivial) (nomatch ·)
  exact touches_restore hname

/-- The certificate is stored if the VM runs, and it is not printed instead. -/
theorem touches_trust {print : Bool}
    (hstores : print = false → vm.phase = .running → stores settings.certificatePath) :
    (vm.trust settings print).Touches settings command stores es s fun _ _ _ => True := by
  unfold trust
  split
  case h_5 hphase =>
    refine heeds_call (.leaving rfl) (fun _ => trivial) fun key _ => ?_
    refine heeds_call (.leaving rfl) (fun _ => trivial) fun certificate _ => ?_
    split
    next => exact heeds_need (.leaving rfl) (fun _ _ => trivial) (nomatch ·)
    next hprint =>
      refine heeds_call (.storing (hstores (Bool.eq_false_iff.mpr hprint) hphase))
        (fun _ => trivial) fun _ _ => ?_
      exact heeds_need (.leaving rfl) (fun _ _ => trivial) (nomatch ·)
  all_goals exact heeds_need (.leaving rfl) (fun _ _ => trivial) (nomatch ·)

/-- The logs are stored if the VM is up. -/
theorem touches_diagnose (hstores : vm.phase.isUp = true → stores settings.logsPath) :
    (vm.diagnose settings).Touches settings command stores es s fun _ _ _ => True := by
  have hcollect : vm.phase.isUp = true →
      (collectLogs settings vm.profile).Touches settings command stores es s fun _ _ _ => True := by
    intro hup
    refine heeds_call (.leaving rfl) (fun _ => trivial) fun key _ => ?_
    refine (touches_leaving (leaves_collect _ _ _)).bind fun logs _ _ _ => ?_
    exact heeds_need (.storing (hstores hup)) (fun _ _ => trivial) fun _ => trivial
  unfold diagnose
  split
  case h_4 hphase =>
    exact (hcollect (by rw [hphase]; rfl)).mapError.bind fun _ _ _ _ =>
      heeds_need (.leaving rfl) (fun _ _ => trivial) (nomatch ·)
  case h_5 hphase =>
    exact (hcollect (by rw [hphase]; rfl)).mapError.bind fun _ _ _ _ =>
      heeds_need (.leaving rfl) (fun _ _ => trivial) (nomatch ·)
  all_goals exact heeds_need (.leaving rfl) (fun _ _ => trivial) (nomatch ·)

end Vm

/-! ## The walk: commands -/

/-- What the first part comes to in a world is known to the second part. -/
theorem Task.Heeds.bindKnowing {n : String} {ε α β : Type} {t : Task ε α} {f : α → Task ε β}
    {rule : List (Event hostSignature) → Standing → HostCall → Prop}
    {mid : α → List (Event hostSignature) → Standing → Prop}
    {good : β → List (Event hostSignature) → Standing → Prop}
    {bad : Option ε → List (Event hostSignature) → Standing → Prop}
    {es : List (Event hostSignature)} {w : World} (ht : Heeds n rule t es (w.standing n) mid bad)
    (hf : ∀ a es s, (w.run t).result = some (.ok a) → mid a es s →
      Heeds n rule (f a) es s good bad) :
    (t >>= f).program.Heeds World.host (fun es w c => rule es (w.standing n) c)
      (fun result es w => Ended good bad result es (w.standing n)) es w := by
  refine Program.Heeds.bind ((ht w rfl).knowing (fun result _ _ => result = (w.run t).result) rfl)
    ?_ fun _ _ hcut => hcut.1
  intro result es w' hmid
  obtain ⟨hmid, hresult⟩ := hmid
  cases result with
  | ok a => exact hf a es _ hresult.symm hmid w' rfl
  | error e => exact hmid

/-- Where a command stores what it has found out: the certificate of a VM that runs, unless it is
printed, and the diagnostics of one that is up. -/
def World.Stores (settings : Settings) (command : UserCommand) (w : World) (path : String) : Prop :=
  ∃ vm, (w.run (Vm.select settings settings.vmName)).result = some (.ok vm) ∧
    ((path = settings.certificatePath ∧ command = .trust false ∧ vm.phase = .running) ∨
      (path = settings.logsPath ∧ command = .debug ∧ vm.phase.isUp = true))

/-- Every command but one touches the host as the rule allows it. -/
theorem UserCommand.touches_perform (settings : Settings) (allowance : Nat) (stdin : Bytes)
    {command : UserCommand} (hcommand : command ≠ .destroy) (w : World) :
    (command.perform settings allowance stdin).program.Heeds World.host
      (fun es w' c => c.Touches settings command (w.Stores settings command) es
        (w'.standing settings.vmName))
      (fun result es w' => Ended (fun _ _ _ => True) (fun _ _ _ => True) result es
        (w'.standing settings.vmName)) [] w := by
  have hselect : (Vm.select settings settings.vmName).Touches settings command
      (w.Stores settings command) [] (w.standing settings.vmName) _ := Vm.touches_select
  cases command with
  | start opts =>
    refine hselect.bindKnowing fun vm es s _ hselected => ?_
    obtain ⟨rfl, hseen, hleft⟩ := hselected
    refine (Vm.touches_start allowance ⟨opts, rfl⟩ hseen fun _ => hleft left_nil).bind
      fun _ es' s' _ => ?_
    split
    · exact Vm.touches_leaving
        ((Vm.looks_select settings.vmName).leaves.bind fun vm => Vm.leaves_target true)
    · exact heeds_pure trivial
  | stop =>
    exact hselect.bindKnowing fun vm _ _ _ h => Vm.touches_stop (Vm.seen_name h.2.1)
  | suspend =>
    exact hselect.bindKnowing fun vm _ _ _ h => Vm.touches_suspend (Vm.seen_name h.2.1)
  | resume =>
    exact hselect.bindKnowing fun vm _ _ _ h => Vm.touches_resume (Vm.seen_name h.2.1)
  | status =>
    exact hselect.bindKnowing fun vm _ _ _ _ => Vm.touches_leaving (Vm.leaves_need rfl)
  | trust print =>
    refine hselect.bindKnowing fun vm _ _ hresult _ => Vm.touches_trust fun hprint hphase => ?_
    exact ⟨vm, hresult, .inl ⟨rfl, by rw [hprint], hphase⟩⟩
  | ssh =>
    exact hselect.bindKnowing fun vm _ _ _ _ => Vm.touches_leaving (Vm.leaves_shell stdin)
  | target =>
    exact hselect.bindKnowing fun vm _ _ _ _ => Vm.touches_leaving (Vm.leaves_target false)
  | debug =>
    refine hselect.bindKnowing fun vm _ _ hresult _ => Vm.touches_diagnose fun hup => ?_
    exact ⟨vm, hresult, .inr ⟨rfl, rfl, hup⟩⟩
  | destroy => exact absurd rfl hcommand

/-- What every command but one leaves of the host. -/
theorem UserCommand.framed_perform (settings : Settings) (allowance : Nat) (stdin : Bytes)
    {command : UserCommand} (hcommand : command ≠ .destroy) (w : World) :
    Framed settings command (w.Stores settings command) w.inventory
      (w.run (command.perform settings allowance stdin)).events
      (w.run (command.perform settings allowance stdin)).state.inventory :=
  (touches_perform settings allowance stdin hcommand w).keeps
    (I := fun es (w' : World) => Framed settings command (w.Stores settings command) w.inventory es
      w'.inventory) (fun _ _ _ hc h => h.step rfl hc) (framed_refl ..)

/-! ## The result -/

/-- Every command but `destroy` leaves alone what it is not about, whatever calls fail. All machines
stay, in their order; one of another name than the configured one stays as it is, and one of that
name keeps its memory, its processors and its forwarding, and its records unless it was set up by a
first boot. At most one machine is added, of the configured name. The interfaces stay, and at most
one is added; either is only done by a start that has found no machine of the name. And only three
files can have another content: the private key, if a first boot has come to keeping it; the
certificate, if it was to be trusted and the VM was running; and the file of logs, if they were
asked for and the VM was up. -/
theorem effects_framed (settings : Settings) (allowance : Nat) (stdin : Bytes)
    (command : UserCommand) (hcommand : command ≠ .destroy) (w : World) :
    let run := w.run (command.perform settings allowance stdin)
    let makes := (∃ opts, command = .start opts) ∧ w.machine? settings.vmName = none
    let found := fun phases : Phase → Prop =>
      ∃ vm, (w.run (Vm.select settings settings.vmName)).result = some (.ok vm) ∧ phases vm.phase
    (∃ (kept : List World.Machine) (added : Option World.Machine),
      run.state.machines = kept ++ added.toList ∧
      List.Forall₂ (fun m m' => m'.name = m.name ∧ m'.memory = m.memory ∧ m'.cpus = m.cpus ∧
        m'.forward = m.forward ∧ (m.name ≠ settings.vmName → m' = m) ∧
        (m'.extra ≠ m.extra → ∃ (b : FirstBoot) (ip : String), b.calls settings ip <:+: run.events))
        w.machines kept ∧
      ∀ m ∈ added, m.name = settings.vmName ∧ makes) ∧
    (∃ added : Option HostInterface,
      run.state.interfaces = w.interfaces ++ added.toList ∧ (added.isSome → makes)) ∧
    (∀ path, Table.get? path run.state.files ≠ Table.get? path w.files →
      (path = settings.privateKeyPath ∧
        ∃ (b : FirstBoot) (ip : String), b.untilKept settings ip <:+: run.events) ∨
      (path = settings.certificatePath ∧ command = .trust false ∧ found (· = .running)) ∨
      (path = settings.logsPath ∧ command = .debug ∧
        found fun phase => phase = .running ∨ phase = .unprovisioned)) := by
  intro run makes found
  have hframed := UserCommand.framed_perform settings allowance stdin hcommand w
  obtain ⟨kept, added, hmachines, hkept, hadded⟩ := hframed.machines
  obtain ⟨interface, hinterfaces, hinterface⟩ := hframed.interfaces
  refine ⟨⟨kept, added, hmachines, hkept.imp fun m m' hleft => ?_, hadded⟩,
    ⟨interface, hinterfaces, fun hsome => (hinterface hsome).1⟩, fun path hpath => ?_⟩
  · exact ⟨hleft.name, hleft.memory, hleft.cpus, hleft.forward, hleft.other,
      hleft.extra.resolve_left⟩
  · refine (hframed.files path hpath).imp_right fun hstores => ?_
    obtain ⟨vm, hvm, hstores⟩ := hstores
    rcases hstores with ⟨hpath, hcommand, hphase⟩ | ⟨hpath, hcommand, hup⟩
    · exact .inl ⟨hpath, hcommand, vm, hvm, hphase⟩
    · refine .inr ⟨hpath, hcommand, vm, hvm, ?_⟩
      cases hphase : vm.phase with
      | running => exact .inl rfl
      | unprovisioned => exact .inr rfl
      | _ =>
        rw [hphase] at hup
        cases hup

/-- A start that imports a VM and cannot restart the guest it has set up leaves the machine of
another program and the key the import came with. -/
theorem effects_framed_interrupted :
    let other : World.Machine := ⟨"default", .running, 1024, 1, [], []⟩
    let w := { sampleWorld with machines := [other], plan := shutDownFails }
    let after := (w.run (UserCommand.perform sampleSettings 1000 [] (.start {}))).state
    UserCommand.start {} ≠ .destroy ∧ after.machines.head? = some other ∧
      Table.get? sampleSettings.insecureKeyPath after.files = some [1] := by
  intro other w after
  have hcommand : UserCommand.start {} ≠ .destroy := nofun
  obtain ⟨⟨kept, added, hmachines, hkept, -⟩, -, hfiles⟩ :=
    effects_framed sampleSettings 1000 [] (.start {}) hcommand w
  refine ⟨hcommand, ?_, ?_⟩
  · obtain ⟨m, more, hleft, -, rfl⟩ := List.forall₂_cons_left_iff.mp hkept
    obtain ⟨-, -, -, -, hother, -⟩ := hleft
    show after.machines.head? = some other
    rw [show after.machines = _ from hmachines, hother (by decide)]
    rfl
  · show _ = Table.get? sampleSettings.insecureKeyPath w.files
    by_contra hchanged
    rcases hfiles _ hchanged with ⟨hpath, -⟩ | ⟨-, hstart, -⟩ | ⟨-, hstart, -⟩
    · exact absurd hpath (by decide)
    · cases hstart
    · cases hstart

end DevVm
