import DevVm.Proofs.Stories

/-!
# What a recorded address stands for

That a machine counts as set up is recorded on the machine itself, as the guest's address. A first
boot may fail at any of its calls and be done again with other keys any number of times, and what
is recorded is all that later commands go by. So the record has to be true at every moment: at
some time since the machine was imported a first boot was seen through, with the address that is
recorded and the key that is kept (`FirstBoot.Told`), and nothing was set up after it.

The invariant is `Chronicled`, of the story so far and the standing, and `recorded_told` is the
result.
-/

namespace DevVm

open DevVm.Task DevVm.World

/-- The story tells of the first boot from beginning to end: once the machine of the name was
imported, a start made all the calls of the boot and recorded the address. Since then no machine
of the name was imported, and nothing was set up. -/
def FirstBoot.Told (settings : Settings) (ip : String) (b : FirstBoot) (story : List Entry) :
    Prop :=
  ∃ earlier opts es later,
    story = earlier ++ episode (.start opts) (es ++ b.calls settings ip ++
      [(Call.hypervisor (.putExtraData settings.vmName Machine.ipKey ip)).answered ()]) ++ later ∧
    (∃ e, .made e ∈ earlier ++ episode (.start opts) es ∧ e.Founds settings.vmName) ∧
    ∀ e, .made e ∈ later → ¬e.Founds settings.vmName ∧ ¬e.call.call.SetsUp settings

/-- Nothing is lost of what is told by telling more. -/
theorem FirstBoot.Told.more {settings : Settings} {story : List Entry} {ip : String}
    {b : FirstBoot} {entry : Entry} (h : b.Told settings ip story)
    (hentry : ∀ e, entry = .made e → ¬e.Founds settings.vmName ∧ ¬e.call.call.SetsUp settings) :
    b.Told settings ip (story ++ [entry]) := by
  obtain ⟨earlier, opts, es, later, rfl, hfounded, hlater⟩ := h
  refine ⟨earlier, opts, es, later ++ [entry], by rw [List.append_assoc], hfounded, ?_⟩
  intro e he
  rcases List.mem_append.mp he with hbefore | hlast
  · exact hlater e hbefore
  · exact hentry e (List.mem_singleton.mp hlast).symm

/-- What is recorded on the machine of the name is true to the story. -/
structure Chronicled (settings : Settings) (story : List Entry) (s : Standing) : Prop where
  founded : s.machine.isSome → ∃ e, .made e ∈ story ∧ e.Founds settings.vmName
  told : ∀ m ip, s.machine = some m → Table.get? Machine.ipKey m.extra = some ip →
    ∃ b : FirstBoot, b.Told settings ip story ∧
      Table.get? settings.privateKeyPath s.files = some b.pair.privateKey
  ordered : ∀ m, s.machine = some m → (Table.get? Machine.domainKey m.extra).isSome → m.isSetUp

namespace Chronicled

variable {settings : Settings} {story : List Entry} {s s' : Standing}

/-- What leaves the extra data alone, and the key of a machine that counts as set up, keeps the
record true. -/
theorem more {entry : Entry} (h : Chronicled settings story s)
    (hmachine : ∀ m', s'.machine = some m' → ∃ m, s.machine = some m ∧ m'.extra = m.extra)
    (hkey : s.IsSetUp → Table.get? settings.privateKeyPath s'.files =
      Table.get? settings.privateKeyPath s.files)
    (hentry : s.IsSetUp → ∀ e, entry = .made e →
      ¬e.Founds settings.vmName ∧ ¬e.call.call.SetsUp settings) :
    Chronicled settings (story ++ [entry]) s' where
  founded hsome := by
    obtain ⟨m', hm'⟩ := Option.isSome_iff_exists.mp hsome
    obtain ⟨m, hm, -⟩ := hmachine m' hm'
    obtain ⟨e, hin, he⟩ := h.founded (by rw [hm]; rfl)
    exact ⟨e, List.mem_append_left _ hin, he⟩
  told m' ip hm' hip := by
    obtain ⟨m, hm, hextra⟩ := hmachine m' hm'
    rw [hextra] at hip
    have hset : s.IsSetUp := ⟨m, hm, by unfold World.Machine.isSetUp; rw [hip]; rfl⟩
    obtain ⟨b, htold, hkept⟩ := h.told m ip hm hip
    exact ⟨b, htold.more (hentry hset), (hkey hset).trans hkept⟩
  ordered m' hm' hdomain := by
    obtain ⟨m, hm, hextra⟩ := hmachine m' hm'
    rw [hextra] at hdomain
    have hset := h.ordered m hm hdomain
    unfold World.Machine.isSetUp at hset ⊢
    rw [hextra]
    exact hset

end Chronicled

/-! ## What calls leave alone -/

namespace World.Standing

variable {n : String} {s : Standing} {m' : Machine}

/-- Only an import and recording something make a difference to the extra data. -/
theorem extra_effect {c : Call}
    (himport : ∀ image name memory cpus, c ≠ .hypervisor (.importImage image name memory cpus))
    (hput : ∀ name key value, c ≠ .hypervisor (.putExtraData name key value))
    (h : (s.effect n c).machine = some m') : ∃ m, s.machine = some m ∧ m'.extra = m.extra := by
  have heffected := s.effected n c
  generalize s.effect n c = s' at h heffected
  cases heffected with
  | imported image name memory cpus => exact absurd rfl (himport image name memory cpus)
  | recorded name key value => exact absurd rfl (hput name key value)
  | removed name =>
    have hleft : (if name = n then none else s.machine) = some m' := h
    split at hleft
    · cases hleft
    · exact ⟨m', hleft, rfl⟩
  | changed name f hf =>
    unfold change at h
    split at h
    · obtain ⟨m, hm, rfl⟩ := Option.map_eq_some_iff.mp h
      exact ⟨m, hm, hf m⟩
    · exact ⟨m', h, rfl⟩
  | wrote path content => exact ⟨m', h, rfl⟩
  | other healthy keyPairsMade => exact ⟨m', h, rfl⟩

/-- Only writing to it makes a difference to a file. -/
theorem file_effect {c : Call} {path : String}
    (hwrite : ∀ content, c ≠ .writePrivate path content) :
    Table.get? path (s.effect n c).files = Table.get? path s.files := by
  have heffected := s.effected n c
  generalize s.effect n c = s' at heffected
  cases heffected with
  | wrote other content =>
    show Table.get? path (Table.put other content s.files) = _
    rw [Table.get?_put, if_neg fun heq => hwrite content (by rw [heq])]
  | recorded name key value => rw [files_change]
  | changed name f hf => rw [files_change]
  | _ => rfl

end World.Standing

/-! ## What is due -/

namespace HostCall.Due

variable {settings : Settings} {command : UserCommand} {es : List (Event hostSignature)}
  {s : Standing} {c : HostCall}

/-- Only a guest that was not set up is. -/
theorem bare_of_setsUp (h : c.Due settings command es s) (hc : c.call.SetsUp settings) :
    s.IsBare := by
  cases h with
  | setUp hbare _ => exact hbare
  | routine hroutine =>
    generalize c.call = call at *
    cases hc with
    | network => cases hroutine
    | key => cases hroutine
    | keep => exact absurd rfl hroutine
  | _ => cases hc

/-- A machine is imported only if there is none. -/
theorem absent_of_founds {reply : c.call.Reply} (h : c.Due settings command es s)
    (he : Event.Founds settings.vmName ⟨c, reply⟩) : s.machine = none := by
  obtain ⟨image, memory, cpus, heq⟩ := he
  obtain rfl : c = _ := congrArg Event.call heq
  cases h with
  | importing _ habsent _ _ _ => exact habsent
  | routine hroutine => cases hroutine
  | setUp _ hc => cases hc

/-- Once a machine counts as set up, no machine is imported and nothing is set up. -/
theorem spares (h : c.Due settings command es s) (hset : s.IsSetUp) (reply : c.call.Reply) :
    ¬Event.Founds settings.vmName ⟨c, reply⟩ ∧ ¬c.call.SetsUp settings := by
  obtain ⟨m, hm, hset⟩ := hset
  constructor
  · intro hfounds
    cases hm.symm.trans (h.absent_of_founds hfounds)
  · intro hsetsUp
    obtain ⟨m', hm', hunset⟩ := h.bare_of_setsUp hsetsUp
    obtain rfl : m = m' := Option.some.inj (hm.symm.trans hm')
    cases hset.symm.trans hunset

end HostCall.Due

namespace Chronicled

variable {settings : Settings} {command : UserCommand} {es : List (Event hostSignature)}
  {story : List Entry} {s : Standing} {c : HostCall}

/-- A call that fails keeps the record true. -/
theorem failed (h : Chronicled settings story s) (hdue : c.Due settings command es s)
    (failure : c.call.Failure) :
    Chronicled settings (story ++ [.made ⟨c, .error failure⟩]) s := by
  refine h.more (fun m' hm' => ⟨m', hm', rfl⟩) (fun _ => rfl) fun hset e he => ?_
  obtain rfl := Entry.made.inj he
  exact hdue.spares hset _

/-- So does a call that is answered, unless it imports a machine or records something. -/
theorem answered (h : Chronicled settings story s) (hdue : c.Due settings command es s)
    (himport : ∀ image name memory cpus,
      c.call ≠ .hypervisor (.importImage image name memory cpus))
    (hput : ∀ name key value, c.call ≠ .hypervisor (.putExtraData name key value))
    (value : c.call.Value) :
    Chronicled settings (story ++ [.made ⟨c, .ok value⟩]) (s.effect settings.vmName c.call) := by
  refine h.more (fun _ => Standing.extra_effect himport hput) (fun hset => ?_) fun hset e he => ?_
  · refine Standing.file_effect fun content heq => (hdue.spares hset (.ok value)).2 ?_
    rw [heq]
    exact .keep content
  · obtain rfl := Entry.made.inj he
    exact hdue.spares hset _

/-- A machine that has just been imported has no record. -/
theorem imported {image : String} {memory : UInt64} {cpus : UInt32} (habsent : s.machine = none) :
    Chronicled settings
      (story ++ [.made ((Call.hypervisor (.importImage image settings.vmName memory cpus)).answered
        ())])
      (s.effect settings.vmName
        (.hypervisor (.importImage image settings.vmName memory cpus))) := by
  have hfresh : ∀ m, (s.effect settings.vmName (.hypervisor
      (.importImage image settings.vmName memory cpus))).machine = some m → m.extra = [] := by
    intro m hm
    have hm : s.machine.or (if settings.vmName = settings.vmName then
      some { name := settings.vmName, power := .stopped, memory, cpus } else none) = some m := hm
    rw [habsent, if_pos rfl] at hm
    rw [← Option.some.inj hm]
  refine ⟨fun _ => ⟨_, List.mem_append_right _ (List.mem_singleton.mpr rfl), _, _, _, rfl⟩, ?_, ?_⟩
  · intro m ip hm hip
    rw [hfresh m hm] at hip
    cases hip
  · intro m hm hdomain
    rw [hfresh m hm] at hdomain
    cases hdomain

end Chronicled

/-- No machine is imported in a first boot. -/
theorem FirstBoot.not_founds {settings : Settings} {ip n : String} {b : FirstBoot}
    {e : Event hostSignature} (h : e ∈ b.calls settings ip) : ¬e.Founds n := by
  rintro ⟨image, memory, cpus, rfl⟩
  have hcall : Call.hypervisor (.importImage image n memory cpus) ∈
      (b.calls settings ip).map (·.call.call) := List.mem_map_of_mem h
  simp [FirstBoot.calls, FirstBoot.setUp, Call.answered] at hcall

namespace Chronicled

variable {settings : Settings} {es : List (Event hostSignature)}
  {story : List Entry} {s : Standing} {m : World.Machine}

/-- The address is recorded when the first boot has just been seen through. -/
theorem recordedIp {opts : StartOptions} {ip : String} {b : FirstBoot} (hm : s.machine = some m)
    (hkey : Table.get? settings.privateKeyPath s.files = some b.pair.privateKey)
    (h : Chronicled settings (story ++ episode (.start opts) (es ++ b.calls settings ip)) s) :
    Chronicled settings (story ++ episode (.start opts) (es ++ b.calls settings ip) ++
      [.made ((Call.hypervisor (.putExtraData settings.vmName Machine.ipKey ip)).answered ())])
      (s.withMachine (m.noting Machine.ipKey ip)) := by
  obtain ⟨e, hin, hfounds⟩ := h.founded (by rw [hm]; rfl)
  have hset := World.Machine.isSetUp_noting_ip ip m
  refine ⟨fun _ => ⟨e, List.mem_append_left _ hin, hfounds⟩, ?_, ?_⟩
  · intro m' recorded hm' hrecorded
    obtain rfl := Option.some.inj hm'
    obtain rfl : ip = recorded := by
      unfold World.Machine.noting at hrecorded
      rw [Table.get?_put, if_pos rfl] at hrecorded
      exact Option.some.inj hrecorded
    have hlater : ∀ e, Entry.made e ∈ [] → ¬e.Founds settings.vmName ∧
        ¬e.call.call.SetsUp settings := fun _ h => absurd h List.not_mem_nil
    refine ⟨b, ⟨story, opts, es, [], ?_, ⟨e, ?_, hfounds⟩, hlater⟩, hkey⟩
    · rw [episode_append _ (es ++ b.calls settings ip), List.append_nil, ← List.append_assoc]
      rfl
    · -- The machine was imported before the boot, in which none is.
      rw [episode_append, ← List.append_assoc] at hin
      rcases List.mem_append.mp hin with hbefore | hboot
      · exact hbefore
      · obtain ⟨e', he', heq⟩ := List.mem_map.mp hboot
        rw [Entry.made.inj heq] at he'
        exact absurd hfounds (FirstBoot.not_founds he')
  · intro m' hm' _
    obtain rfl := Option.some.inj hm'
    exact hset

/-- The domain is recorded after it. -/
theorem recordedDomain (domain : String) (hm : s.machine = some m) (hset : m.isSetUp = true)
    (h : Chronicled settings story s) :
    Chronicled settings (story ++
      [.made ((Call.hypervisor
        (.putExtraData settings.vmName Machine.domainKey domain)).answered ())])
      (s.withMachine (m.noting Machine.domainKey domain)) := by
  have hsame : Table.get? Machine.ipKey (m.noting Machine.domainKey domain).extra =
      Table.get? Machine.ipKey m.extra := by
    unfold World.Machine.noting
    rw [Table.get?_put, if_neg (by decide)]
  refine ⟨fun _ => ?_, ?_, ?_⟩
  · obtain ⟨e, hin, hfounds⟩ := h.founded (by rw [hm]; rfl)
    exact ⟨e, List.mem_append_left _ hin, hfounds⟩
  · intro m' ip hm' hip
    obtain rfl := Option.some.inj hm'
    rw [hsame] at hip
    obtain ⟨b, htold, hkey⟩ := h.told m ip hm hip
    refine ⟨b, htold.more fun e he => ?_, hkey⟩
    obtain rfl := Entry.made.inj he
    exact ⟨nofun, nofun⟩
  · intro m' hm' _
    obtain rfl := Option.some.inj hm'
    show (Table.get? Machine.ipKey (m.noting Machine.domainKey domain).extra).isSome = true
    rw [hsame]
    exact hset

end Chronicled

theorem chronicled_invariable (settings : Settings) :
    Invariable settings (Chronicled settings) where
  given command h := h.more (fun m' hm' => ⟨m', hm', rfl⟩) (fun _ => rfl) fun _ _ he => by cases he
  made {story command es c w} hdue h := by
    refine reply_cases (P := fun reply s' => Chronicled settings
      (story ++ episode command es ++ [.made ⟨c, reply⟩]) s') (fun v _ => ?_) (h.failed hdue)
    have hdue' := hdue
    cases hdue with
    | importing _ habsent _ _ _ => exact .imported habsent
    | recordIp hcommand hbare hes hkey =>
      obtain ⟨m, hm, -⟩ := hbare
      subst hcommand
      subst hes
      have hrecorded := h.recordedIp hm hkey
      rw [← Standing.change_eq hm] at hrecorded
      exact hrecorded
    | @recordDomain domain hset =>
      obtain ⟨m, hm, hset⟩ := hset
      have hrecorded := h.recordedDomain domain hm hset
      rw [← Standing.change_eq hm] at hrecorded
      exact hrecorded
    | routine hroutine =>
      refine h.answered hdue' (fun _ _ _ _ heq => ?_) (fun _ _ _ heq => ?_) v
      · rw [heq] at hroutine
        cases hroutine
      · rw [heq] at hroutine
        cases hroutine
    | question => exact h.answered hdue' nofun nofun v
    | setUp _ hc => exact h.answered hdue' (by cases hc <;> nofun) (by cases hc <;> nofun) v
    | options => exact h.answered hdue' nofun nofun v

/-- What is recorded is true at every moment. From a world without the VM, after any attempts and
in the middle of any other, whatever calls fail: if the guest's address is recorded, a first boot
with that address has been seen through since the machine was imported, nothing has been set up
since, and the key that was made in that boot is the one that is kept. A domain is only recorded
beside an address. -/
theorem recorded_told {settings : Settings} {w : World}
    (habsent : w.machine? settings.vmName = none) (t : Moment) :
    ∀ m, (w.worldAt settings t).machine? settings.vmName = some m →
      (∀ ip, Table.get? Machine.ipKey m.extra = some ip →
        ∃ b : FirstBoot, b.Told settings ip (w.storyAt settings t) ∧
          Table.get? settings.privateKeyPath (w.worldAt settings t).files =
            some b.pair.privateKey) ∧
      ((Table.get? Machine.domainKey m.extra).isSome →
        (Table.get? Machine.ipKey m.extra).isSome) := by
  have hbegin : Chronicled settings [] (w.standing settings.vmName) := by
    have hnone : ∀ m, (w.standing settings.vmName).machine ≠ some m := by
      intro m hm
      cases habsent.symm.trans hm
    refine ⟨fun hsome => ?_, fun m _ hm => absurd hm (hnone m), fun m hm => absurd hm (hnone m)⟩
    obtain ⟨m, hm⟩ := Option.isSome_iff_exists.mp hsome
    exact absurd hm (hnone m)
  have h := (chronicled_invariable settings).at_moment hbegin t
  intro m hm
  exact ⟨fun ip hip => h.told m ip hm hip, h.ordered m hm⟩

/-- A start that cannot restart the guest, and a second one that has just recorded the address:
the key that is kept is the one that was made second. -/
theorem recorded_told_after_failure :
    let failed : Attempt := { command := .start {}, plan := shutDownFails }
    let t : Moment := ⟨[failed], { command := .start {}, plan := .none }, 23⟩
    ∃ b : FirstBoot, b.Told sampleSettings usualIp (sampleWorld.storyAt sampleSettings t) ∧
      b.pair.privateKey = (sampleWorld.keyPairs 1).privateKey := by
  intro failed t
  have hnow : ((sampleWorld.worldAt sampleSettings t).machine? sampleSettings.vmName).map (·.extra)
        = some [(Machine.ipKey, usualIp)] ∧
      Table.get? sampleSettings.privateKeyPath (sampleWorld.worldAt sampleSettings t).files =
        some (sampleWorld.keyPairs 1).privateKey := by decide +kernel
  obtain ⟨m, hm, hextra⟩ := Option.map_eq_some_iff.mp hnow.1
  have hip : Table.get? Machine.ipKey m.extra = some usualIp := by
    rw [hextra]
    rfl
  obtain ⟨b, htold, hkey⟩ := (recorded_told rfl t m hm).1 usualIp hip
  exact ⟨b, htold, Option.some.inj (hkey.symm.trans hnow.2)⟩

end DevVm
