import DevVm.Proofs.Destroying
import DevVm.Proofs.Frame

/-!
# Whether destroying undoes a start

A start is about the machine of the configured name, and destroying is about the machines whose
names are this program's. Nothing ties the two together but the configured name, which the file of
settings may replace by any other, and so it decides whether a machine that was imported is ever
removed again (`World.there_of_founded`, `World.absent_of_destroyed`).
-/

namespace DevVm

open DevVm.Task DevVm.World

/-! ## What is never removed -/

/-- Only machines of this program are removed. -/
def Call.RemovesOwn (c : Call) : Prop :=
  ∀ name, c = .hypervisor (.remove name) → Machine.isOwnName name = true

namespace Machine

theorem removesOwn_request {request : HypervisorCall} (h : ∀ name, request ≠ .remove name) :
    Completes Call.RemovesOwn (hypervisor request) fun _ => True :=
  completes_need fun name heq => absurd (Call.hypervisor.inj heq) (h name)

theorem removesOwn_destroyOne {name : String} (h : isOwnName name = true) :
    Completes Call.RemovesOwn (destroyOne name) fun _ => True := by
  have hremove : Completes Call.RemovesOwn (hypervisor (.remove name)) fun _ => True := by
    refine completes_need fun name' heq => ?_
    obtain rfl := HypervisorCall.remove.inj (Call.hypervisor.inj heq)
    exact h
  refine (removesOwn_request (by nofun)).bind fun present _ => ?_
  split
  · refine (removesOwn_request (by nofun)).bind fun running _ => ?_
    split
    · exact (removesOwn_request (by nofun)).bind fun _ _ => hremove
    · exact hremove
  · exact completes_pure trivial

theorem removesOwn_destroy {names : List String} (h : ∀ name ∈ names, isOwnName name = true) :
    Completes Call.RemovesOwn (destroy names) fun _ => True := by
  induction names with
  | nil => exact completes_pure trivial
  | cons name more ih =>
    refine (removesOwn_destroyOne (h name List.mem_cons_self)).bind fun _ _ => ?_
    exact ih fun other hin => h other (List.mem_cons_of_mem _ hin)

/-- Whatever is listed, what is made of it are names of this program's machines. -/
theorem removesOwn_ownVms :
    Completes Call.RemovesOwn ownVms fun names => ∀ name ∈ names, isOwnName name = true :=
  (removesOwn_request (by nofun)).bind fun _ _ =>
    completes_pure fun _ hin => (List.mem_filter.mp hin).2

end Machine

namespace UserCommand

theorem removesOwn_destroyAll : Completes Call.RemovesOwn destroyAll fun _ => True := by
  have htell : ∀ text, Completes Call.RemovesOwn (Task.tell text : Task VmError Unit)
      fun _ => True := fun _ => completes_need fun _ heq => nomatch heq
  refine Machine.removesOwn_ownVms.mapError.bind fun names hown => ?_
  split
  · exact htell _
  · refine (htell _).bind fun _ _ => ?_
    exact (Machine.removesOwn_destroy hown).mapError.bind fun _ _ => htell _

/-- No command removes a machine of another program. -/
theorem removesOwn_perform (settings : Settings) (allowance : Nat) (stdin : Bytes)
    (command : UserCommand) : (command.perform settings allowance stdin).Makes Call.RemovesOwn := by
  by_cases hdestroy : command = .destroy
  · subst hdestroy
    exact removesOwn_destroyAll.makes
  · refine Program.Makes.mono (failsStop_perform settings allowance stdin command).makes ?_
    exact fun c hc name hremove => absurd (hc.2 ⟨name, hremove⟩) hdestroy

end UserCommand

namespace World

variable {settings : Settings} {n : String} {w : World}

theorem founds_snoc {es : List (Event hostSignature)} {e : Event hostSignature}
    (h : ∃ e' ∈ es ++ [e], e'.Founds n) : (∃ e' ∈ es, e'.Founds n) ∨ e.Founds n := by
  obtain ⟨e', hin, hfounds⟩ := h
  rcases List.mem_append.mp hin with hin | hin
  · exact .inl ⟨e', hin, hfounds⟩
  · exact .inr (List.mem_singleton.mp hin ▸ hfounds)

/-- A call that does not remove the machine leaves it there, and one that imports it puts it
there. -/
theorem there_of_spared {c : HostCall} (hspares : c.call ≠ .hypervisor (.remove n))
    (h : (w.machine? n).isSome ∨ Event.Founds n ⟨c, (World.host.answer c w).1⟩) :
    ((World.host.answer c w).2.machine? n).isSome := by
  revert h
  refine reply_cases (P := fun reply s =>
    (w.machine? n).isSome ∨ Event.Founds n ⟨c, reply⟩ → s.machine.isSome) ?_ ?_
  · intro v _ h
    rcases h with hthere | ⟨image, memory, cpus, heq⟩
    · exact Standing.isSome_effect hspares hthere
    · obtain rfl : c = _ := congrArg Event.call heq
      show ((w.standing n).machine.or (if n = n then _ else none)).isSome
      rw [if_pos rfl, Option.isSome_or, Option.isSome_some, Bool.or_true]
  · intro failure h
    rcases h with hthere | ⟨image, memory, cpus, heq⟩
    · exact hthere
    · cases heq

/-- A machine that does not bear a name of this program stays, if it is there or is imported. -/
theorem there_of_founded (hother : Machine.isOwnName n = false) (a : Attempt)
    (h : (w.machine? n).isSome ∨ ∃ e ∈ (w.attempt settings a).events, e.Founds n) :
    ((w.attempt settings a).state.machine? n).isSome := by
  -- The invariant is about the calls made so far and the world they have led to.
  have step : ∀ (es : List (Event hostSignature)) (w' : World) (c : HostCall), c.call.RemovesOwn →
      ((w.machine? n).isSome ∨ (∃ e ∈ es, e.Founds n) → (w'.machine? n).isSome) →
      (w.machine? n).isSome ∨ (∃ e ∈ es ++ [⟨c, (World.host.answer c w').1⟩], e.Founds n) →
        ((World.host.answer c w').2.machine? n).isSome := by
    intro es w' c hc hbefore hthere
    have hspares : c.call ≠ .hypervisor (.remove n) := fun heq => by
      rw [hc n heq] at hother
      cases hother
    refine there_of_spared hspares ?_
    rcases hthere with hthere | hfounded
    · exact .inl (hbefore (.inl hthere))
    · exact (founds_snoc hfounded).imp_left fun h => hbefore (.inr h)
  have hmakes := UserCommand.removesOwn_perform settings Invocation.handOffs a.stdin a.command
  have hend : (w.machine? n).isSome ∨ (∃ e ∈ [] ++ (w.attempt settings a).events, e.Founds n) →
      ((w.attempt settings a).state.machine? n).isSome :=
    Program.Makes.run_keeps (S := hostSignature) step hmakes [] fun hthere =>
      hthere.elim id fun ⟨_, hin, _⟩ => absurd hin List.not_mem_nil
  exact hend h

/-- Nor does it go away later. -/
theorem there_afterAll (hother : Machine.isOwnName n = false) {attempts : List Attempt}
    (h : (w.machine? n).isSome) : ((w.afterAll settings attempts).machine? n).isSome := by
  induction attempts generalizing w with
  | nil => exact h
  | cons a more ih => exact ih (there_of_founded hother a (.inl h))

theorem attempt_destroy {a : Attempt} (hdestroy : a.command = .destroy) :
    w.attempt settings a = { w with plan := a.plan }.run UserCommand.destroyAll := by
  unfold attempt Order.task
  rw [hdestroy]
  rfl

/-- Without failures they can be destroyed. -/
theorem destroyed_of_unplanned {a : Attempt} (hdestroy : a.command = .destroy)
    (hplan : a.plan = FaultPlan.none) : (w.attempt settings a).result = some (.ok ()) := by
  rw [attempt_destroy hdestroy]
  exact UserCommand.result_of_faultless (UserCommand.destroyAll_of_unplanned hplan)

/-- Once this program's machines have been destroyed, none bears one of its names. -/
theorem absent_of_destroyed {a : Attempt} (hdestroy : a.command = .destroy)
    (hresult : (w.attempt settings a).result = some (.ok ())) (hown : Machine.isOwnName n = true) :
    (w.attempt settings a).state.machine? n = none := by
  rw [attempt_destroy hdestroy] at hresult ⊢
  have hmachines := (UserCommand.machines_of_destroyAll hresult).trans besides_ownNames
  refine List.find?_eq_none.mpr fun m hm => ?_
  rw [hmachines] at hm
  have hname : Machine.isOwnName m.name = false := by simpa using (List.mem_filter.mp hm).2
  rw [decide_eq_true_eq]
  rintro rfl
  rw [hown] at hname
  cases hname

end World

/-! ## What is selected -/

/-- There is no VM: no machine bears its name, and it is not taken for one that was created,
whatever calls fail while it is selected; if none does, it is selected. -/
structure World.Vacant (settings : Settings) (w : World) : Prop where
  absent : w.machine? settings.vmName = none
  notCreated : ∀ plan vm,
    ({ w with plan }.run (Vm.select settings settings.vmName)).result = some (.ok vm) →
      vm.phase = .notCreated
  selected : ∃ vm,
    ({ w with plan := .none }.run (Vm.select settings settings.vmName)).result = some (.ok vm)

/-- Where there is no machine of its name, the VM can be selected. -/
theorem Vm.ensures_select_absent {settings : Settings} {name : String} {w : World}
    (habsent : w.machine? name = none) :
    Ensures World.host (Vm.select settings name) w (fun _ _ _ => True)
      (fun _ _ _ => w.plan ≠ FaultPlan.none) := by
  have hlook : Ensures World.host (Machine.status name) w (fun status _ _ => status = .notCreated)
      (fun _ _ _ => w.plan ≠ FaultPlan.none) := by
    have hregistered : Ensures World.host (Machine.hypervisor (.isRegistered name)) w
        (fun present _ _ => present = (w.machine? name).isSome)
        (fun _ _ _ => w.plan ≠ FaultPlan.none) :=
      (Machine.ensures_look name rfl rfl).mono (fun _ _ _ h => h.2.2 name rfl) fun _ _ _ h => h.1
    refine Ensures.bind hregistered fun present es w' hpresent => ?_
    rw [habsent] at hpresent
    subst hpresent
    exact ensures_pure rfl
  refine Ensures.bind (Ensures.mapError hlook) fun status es w' hstatus => ?_
  subst hstatus
  exact ensures_pure trivial

theorem World.vacant_iff {settings : Settings} {w : World} :
    w.Vacant settings ↔ w.machine? settings.vmName = none := by
  refine ⟨Vacant.absent, fun habsent => ⟨habsent, fun plan vm hvm => ?_, ?_⟩⟩
  · have hselect : Yields settings.vmName False (Vm.select settings settings.vmName)
        (({ w with plan } : World).standing settings.vmName) _ _ := Vm.yields_select
    exact Vm.seen_absent (hselect.of_ok rfl hvm).2 habsent
  · have hselect : Ensures World.host (Vm.select settings settings.vmName)
        { w with plan := .none } (fun _ _ _ => True) (fun _ _ _ => False) :=
      (Vm.ensures_select_absent (w := { w with plan := .none }) habsent).mono
        (fun _ _ _ h => h) fun _ _ _ h => h rfl
    obtain ⟨vm, hvm, -⟩ := hselect.succeeds
    exact ⟨vm, hvm⟩

/-! ## The result -/

/-- Destroying undoes a start exactly if the configured name is one of this program's. After an
attempt that has imported the VM, in whatever world and whatever else failed in it, and after any
attempts that follow, let destroying succeed: then there is no VM any more if its name starts as
this program's names do, and otherwise its machine is still there. -/
theorem destroy_undoes_start_iff {settings : Settings} {w : World} {first last : Attempt}
    {between : List Attempt}
    (hfounded : ∃ e ∈ (w.attempt settings first).events, e.Founds settings.vmName)
    (hlast : last.command = .destroy)
    (hresult : ((w.afterAll settings (first :: between)).attempt settings last).result =
      some (.ok ())) :
    ((w.afterAll settings (first :: between)).attempt settings last).state.Vacant settings ↔
      Machine.isOwnName settings.vmName = true := by
  rw [World.vacant_iff]
  refine ⟨fun habsent => ?_, World.absent_of_destroyed hlast hresult⟩
  by_contra hown
  have hother : Machine.isOwnName settings.vmName = false := Bool.eq_false_iff.mpr hown
  have himported := World.there_of_founded hother first (.inr hfounded)
  have hthere : (((w.attempt settings first).state.afterAll settings between).machine?
      settings.vmName).isSome := World.there_afterAll hother himported
  have hstays : (((w.afterAll settings (first :: between)).attempt settings last).state.machine?
      settings.vmName).isSome := World.there_of_founded hother last (.inl hthere)
  rw [habsent] at hstays
  cases hstays

/-- With the default settings a VM that was started is gone once it was destroyed. -/
theorem destroy_undoes_start_usual :
    let first : Attempt := { command := .start {}, plan := .none }
    let last : Attempt := { command := .destroy, plan := .none }
    (∃ e ∈ (sampleWorld.attempt sampleSettings first).events, e.Founds sampleSettings.vmName) ∧
      ((sampleWorld.afterAll sampleSettings [first]).attempt sampleSettings last).state.Vacant
        sampleSettings := by
  intro first last
  have hfounded : ∃ e ∈ (sampleWorld.attempt sampleSettings first).events,
      e.Founds sampleSettings.vmName :=
    ⟨(Call.hypervisor (.importImage sampleSettings.imagePath sampleSettings.vmName 4096 2)).answered
      (), List.mem_of_getElem? (i := 4) rfl, _, _, _, rfl⟩
  have hresult : ((sampleWorld.afterAll sampleSettings [first]).attempt sampleSettings
      last).result = some (.ok ()) := destroyed_of_unplanned rfl rfl
  exact ⟨hfounded, (destroy_undoes_start_iff hfounded rfl hresult).mpr (by decide)⟩

/-- A file of settings that gives the VM another name. -/
def renamingFile : String := "vm_name = \"dev\"\n"

/-- The settings with that file. -/
def renamedSettings : Settings := { sampleSettings with vmName := "dev" }

theorem entries_renamingFile : Toml.entries? renamingFile = some [("vm_name", .text "dev")] := by
  have hkey : Toml.key? renamingFile.toList = some ("vm_name", " = \"dev\"\n".toList) := by
    decide +kernel
  have hvalue : Toml.value? ['"', 'd', 'e', 'v', '"', '\n'] = some (.text "dev", ['\n']) := by
    simp [Toml.value?, Toml.text?, Toml.basicText?, Toml.push, Toml.isContent]
  have hentry : Toml.entry? renamingFile.toList = some (("vm_name", .text "dev"), []) := by
    unfold Toml.entry?
    rw [hkey]
    show (Toml.value? ['"', 'd', 'e', 'v', '"', '\n']).bind _ = _
    rw [hvalue]
    rfl
  -- There is no line break in front of the entry, and nothing after it.
  show Option.bind (Option.bind (Toml.entry? renamingFile.toList) _) _ = _
  rw [hentry]
  rfl

theorem gather_renamed :
    Settings.gather ⟨some "/home/user", none, none⟩ 8192
      (fun _ => .content (Text.Utf8.encode renamingFile)) = .ok renamedSettings := by
  have hbase : Environment.baseDir ⟨some "/home/user", none, none⟩ =
      .ok "/home/user/.pcfdev" := rfl
  have hdecoded : Text.Utf8.decode? (Text.Utf8.encode renamingFile) = some renamingFile := by
    decide +kernel
  have hoverridden : sampleSettings.override? renamingFile = some renamedSettings := by
    unfold Settings.override?
    rw [entries_renamingFile]
    rfl
  unfold Settings.gather
  rw [hbase]
  dsimp only [bind, Except.bind]
  rw [hdecoded]
  dsimp only
  rw [show (Settings.default "/home/user/.pcfdev" 8192).override? _ = _ from hoverridden]
  rfl

/-- With a file of settings that gives it another name, the VM outlives the command, which
succeeds. -/
theorem renamed_outlives_destroy :
    let first : Attempt := { command := .start {}, plan := .none }
    let last : Attempt := { command := .destroy, plan := .none }
    let destroyed := (sampleWorld.attempt renamedSettings first).state.attempt renamedSettings last
    Settings.gather ⟨some "/home/user", none, none⟩ 8192
        (fun _ => .content (Text.Utf8.encode renamingFile)) = .ok renamedSettings ∧
      sampleWorld.machine? renamedSettings.vmName = none ∧
      (∃ e ∈ (sampleWorld.attempt renamedSettings first).events,
        e.Founds renamedSettings.vmName) ∧
      destroyed.result = some (.ok ()) ∧
      (destroyed.state.machine? renamedSettings.vmName).isSome ∧
      ¬destroyed.state.Vacant renamedSettings := by
  intro first last destroyed
  have hfounded : ∃ e ∈ (sampleWorld.attempt renamedSettings first).events,
      e.Founds renamedSettings.vmName :=
    ⟨(Call.hypervisor (.importImage renamedSettings.imagePath renamedSettings.vmName 4096
      2)).answered (), List.mem_of_getElem? (i := 4) rfl, _, _, _, rfl⟩
  have hother : Machine.isOwnName renamedSettings.vmName = false := by decide
  have hthere : (destroyed.state.machine? renamedSettings.vmName).isSome :=
    there_of_founded hother last (.inl (there_of_founded hother first (.inr hfounded)))
  refine ⟨gather_renamed, rfl, hfounded, destroyed_of_unplanned rfl rfl, hthere, fun hvacant => ?_⟩
  rw [hvacant.absent] at hthere
  cases hthere

end DevVm
