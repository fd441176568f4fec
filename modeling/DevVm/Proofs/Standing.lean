import DevVm.Proofs.Guest
import DevVm.Proofs.Runs
import DevVm.World.Host

/-!
# What the operations on one VM see of a world

A `World` holds more than the operations on one VM can tell apart: other machines' sizes,
what was written to the terminal, how often each call was made. Its *standing* with respect
to a name is what is left: the names of all machines, the first machine of that name, the
files, whether the guest is healthy, and the key pairs made so far.

A call that is answered changes the standing by `Standing.effect`, whatever else it does, and
its value is one that the standing `Says` (`standing_of_ok`). A call that fails leaves the
standing alone, whether its failure was planned or not (`standing_of_error`).
-/

namespace DevVm

/-- A value in a table stays there when something is stored. -/
theorem Table.isSome_get?_put {α β : Type} [DecidableEq α] {key other : α} {value : β}
    {table : List (α × β)} (h : (Table.get? key table).isSome) :
    (Table.get? key (Table.put other value table)).isSome := by
  rw [Table.get?_put]
  split
  · rfl
  · exact h

namespace World

/-- What the operations on the VM of one name see of a world. -/
structure Standing where
  names : List String
  machine : Option Machine
  files : List (String × Bytes)
  healthy : Bool
  keyPairs : Nat → KeyPair
  keyPairsMade : Nat

/-- The standing of a world with respect to a name. -/
def standing (n : String) (w : World) : Standing where
  names := w.machines.map (·.name)
  machine := w.machine? n
  files := w.files
  healthy := w.guest.healthy
  keyPairs := w.keyPairs
  keyPairsMade := w.keyPairsMade

namespace Standing

/-- A change to the machine of a name. -/
def change (n name : String) (f : Machine → Machine) (s : Standing) : Standing :=
  if name = n then { s with machine := s.machine.map f } else s

/-- What a request to the hypervisor does to a standing. -/
def requestEffect (n : String) : HypervisorCall → Standing → Standing
  | .importImage _ name memory cpus, s =>
    { s with
      names := s.names ++ [name]
      machine := s.machine.or
        (if name = n then some { name, power := .stopped, memory, cpus } else none) }
  | .powerOn name, s => s.change n name ({ · with power := .running })
  | .shutDown name, s | .switchOff name, s => s.change n name ({ · with power := .stopped })
  | .saveState name, s => s.change n name ({ · with power := .saved })
  | .remove name, s =>
    { s with
      names := s.names.filter (· ≠ name)
      machine := if name = n then none else s.machine }
  | .forward name rule hostPort _, s =>
    s.change n name fun m => { m with forward := Table.put rule hostPort m.forward }
  | .putExtraData name key value, s =>
    s.change n name fun m => { m with extra := Table.put key value m.extra }
  | _, s => s

/-- What an answered call does to a standing. -/
def effect (n : String) : Call → Standing → Standing
  | .hypervisor request, s => s.requestEffect n request
  | .ssh .freshKeyPair, s => { s with keyPairsMade := s.keyPairsMade + 1 }
  | .ssh (.run command _ _ _), s | .ssh (.capture command _ _ _), s =>
    { s with healthy := command.healthAfter s.healthy }
  | .writePrivate path content, s => { s with files := Table.put path content s.files }
  | _, s => s

/-- What an answered call can do to a standing, by its kind. -/
inductive Effected (n : String) (s : Standing) : Call → Standing → Prop where
  | imported (image name : String) (memory : UInt64) (cpus : UInt32) :
      Effected n s (.hypervisor (.importImage image name memory cpus))
        { s with
          names := s.names ++ [name]
          machine := s.machine.or
            (if name = n then some { name, power := .stopped, memory, cpus } else none) }
  | removed (name : String) :
      Effected n s (.hypervisor (.remove name))
        { s with
          names := s.names.filter (· ≠ name)
          machine := if name = n then none else s.machine }
  | recorded (name key value : String) :
      Effected n s (.hypervisor (.putExtraData name key value))
        (s.change n name fun m => { m with extra := Table.put key value m.extra })
  | changed {c : Call} (name : String) (f : Machine → Machine)
      (hf : ∀ m, (f m).extra = m.extra) : Effected n s c (s.change n name f)
  | wrote (path : String) (content : Bytes) :
      Effected n s (.writePrivate path content)
        { s with files := Table.put path content s.files }
  | other {c : Call} (healthy : Bool) (keyPairsMade : Nat) :
      Effected n s c { s with healthy, keyPairsMade }

/-- What an answered call does is one of these. -/
theorem effected (n : String) (s : Standing) (c : Call) : Effected n s c (s.effect n c) := by
  cases c with
  | hypervisor request =>
    cases request with
    | importImage image name memory cpus => exact .imported image name memory cpus
    | remove name => exact .removed name
    | putExtraData name key value => exact .recorded name key value
    | powerOn name => exact .changed name _ fun _ => rfl
    | shutDown name => exact .changed name _ fun _ => rfl
    | saveState name => exact .changed name _ fun _ => rfl
    | switchOff name => exact .changed name _ fun _ => rfl
    | forward name rule hostPort guestPort => exact .changed name _ fun _ => rfl
    | _ => exact .other s.healthy s.keyPairsMade
  | writePrivate path content => exact .wrote path content
  | ssh request => cases request <;> exact .other _ _
  | _ => exact .other s.healthy s.keyPairsMade

/-- A change to a machine is one to nothing else. -/
theorem names_change {n name : String} {f : Machine → Machine} {s : Standing} :
    (s.change n name f).names = s.names := by
  unfold change
  split <;> rfl

theorem files_change {n name : String} {f : Machine → Machine} {s : Standing} :
    (s.change n name f).files = s.files := by
  unfold change
  split <;> rfl

/-- Which values of a request a standing admits. -/
def SaysRequest (n : String) (s : Standing) : (c : HypervisorCall) → c.Value → Prop
  | .isRegistered name, (v : Bool) => name = n → v = s.machine.isSome
  | .isRunning name, (v : Bool) => name = n → v = s.machine.any (·.power = .running)
  | .isSaved name, (v : Bool) => name = n → v = s.machine.any (·.power = .saved)
  | .listAll, (v : List String) => v = s.names
  | .size name, (v : MachineSize) => name = n → ∃ m, s.machine = some m ∧ v = ⟨m.memory, m.cpus⟩
  | .forwardedPort name rule, (v : Option UInt16) =>
    name = n → ∃ m, s.machine = some m ∧ v = Table.get? rule m.forward
  | .extraData name key, (v : Option String) =>
    name = n → ∃ m, s.machine = some m ∧ v = Table.get? key m.extra
  | .forward name _ _ _, _ => name = n → s.machine.isSome
  | _, _ => True

/-- Which values of a call a standing admits. -/
def Says (n : String) (s : Standing) : (c : Call) → c.Value → Prop
  | .hypervisor request, v => s.SaysRequest n request v
  | .ssh .freshKeyPair, (v : KeyPair) => v = s.keyPairs s.keyPairsMade
  | .read path, (v : Bytes) => Table.get? path s.files = some v
  | _, _ => True

end Standing

/-! ## Machines -/

theorem find?_updateFirst {f : Machine → Machine} (hf : ∀ m, (f m).name = m.name)
    (name n : String) (machines : List Machine) :
    (updateFirst name f machines).find? (·.name = n) =
      if name = n then (machines.find? (·.name = n)).map f else machines.find? (·.name = n) := by
  induction machines with
  | nil => split <;> rfl
  | cons m more ih =>
    unfold updateFirst
    -- Is this the machine that is changed, and is it the one that is looked for?
    by_cases hm : m.name = name
    · rw [if_pos hm]
      by_cases hn : name = n
      · rw [if_pos hn, List.find?_cons_of_pos (by simp [hf, hm, hn]),
          List.find?_cons_of_pos (by simp [hm, hn])]
        rfl
      · rw [if_neg hn, List.find?_cons_of_neg (by simp [hf, hm, hn]),
          List.find?_cons_of_neg (by simp [hm, hn])]
    · rw [if_neg hm]
      by_cases hmn : m.name = n
      · have hn : ¬name = n := fun h => hm (hmn.trans h.symm)
        rw [if_neg hn, List.find?_cons_of_pos (by simp [hmn]),
          List.find?_cons_of_pos (by simp [hmn])]
      · rw [List.find?_cons_of_neg (by simp [hmn]), ih, List.find?_cons_of_neg (by simp [hmn])]

theorem names_updateFirst {f : Machine → Machine} (hf : ∀ m, (f m).name = m.name)
    (name : String) (machines : List Machine) :
    (updateFirst name f machines).map (·.name) = machines.map (·.name) := by
  induction machines with
  | nil => rfl
  | cons m more ih =>
    unfold updateFirst
    split
    · simp only [List.map_cons, hf]
    · simp only [List.map_cons, ih]

variable {n name : String} {w w' : World}

/-- A request that reads from a machine changes nothing. -/
theorem inspect_ok {α : Type} {request : HypervisorCall} {read : Machine → α} {v : α}
    (h : w.inspect request name read = (.ok v, w')) :
    w' = w ∧ ∃ m, w.machine? name = some m ∧ v = read m := by
  unfold inspect at h
  split at h
  next m hm =>
    obtain ⟨hv, hw⟩ := Prod.mk.inj h
    exact ⟨hw.symm, m, hm, (Except.ok.inj hv).symm⟩
  next => cases (Prod.mk.inj h).1

theorem inspect_error {α : Type} {request : HypervisorCall} {read : Machine → α}
    {e : HypervisorError} (h : w.inspect request name read = (.error e, w')) : w' = w := by
  unfold inspect at h
  split at h
  next => cases (Prod.mk.inj h).1
  next => exact (Prod.mk.inj h).2.symm

/-- A request that changes a machine changes the first one of its name. -/
theorem modify_ok {request : HypervisorCall} {f : Machine → Machine} {v : Unit}
    (hf : ∀ m, (f m).name = m.name) (h : w.modify request name f = (.ok v, w')) :
    w'.standing n = (w.standing n).change n name f := by
  unfold modify at h
  split at h
  next m hm =>
    obtain ⟨-, rfl⟩ := Prod.mk.inj h
    unfold Standing.change
    by_cases hn : name = n
    · rw [if_pos hn]
      simp only [standing, machine?, names_updateFirst hf, find?_updateFirst hf, if_pos hn]
    · rw [if_neg hn]
      simp only [standing, machine?, names_updateFirst hf, find?_updateFirst hf, if_neg hn]
  next => cases (Prod.mk.inj h).1

theorem modify_found {request : HypervisorCall} {f : Machine → Machine} {v : Unit}
    (h : w.modify request name f = (.ok v, w')) : (w.machine? name).isSome := by
  unfold modify at h
  split at h
  next m hm => rw [hm]; rfl
  next => cases (Prod.mk.inj h).1

theorem modify_error {request : HypervisorCall} {f : Machine → Machine} {e : HypervisorError}
    (h : w.modify request name f = (.error e, w')) : w' = w := by
  unfold modify at h
  split at h
  next => cases (Prod.mk.inj h).1
  next => exact (Prod.mk.inj h).2.symm

/-- The machine of a name once all machines of another name, or of that name, are gone. -/
theorem find?_removed (machines : List Machine) :
    (machines.filter (·.name ≠ name)).find? (·.name = n) =
      if name = n then none else machines.find? (·.name = n) := by
  induction machines with
  | nil => split <;> rfl
  | cons m more ih =>
    by_cases hm : m.name = name
    · rw [List.filter_cons_of_neg (by simp [hm]), ih]
      split
      next => rfl
      next hn => rw [List.find?_cons_of_neg (by simp [hm, hn])]
    · rw [List.filter_cons_of_pos (by simp [hm])]
      by_cases hmn : m.name = n
      · have hn : ¬name = n := fun h => hm (hmn.trans h.symm)
        rw [List.find?_cons_of_pos (by simp [hmn]), if_neg hn,
          List.find?_cons_of_pos (by simp [hmn])]
      · rw [List.find?_cons_of_neg (by simp [hmn]), ih, List.find?_cons_of_neg (by simp [hmn])]

/-! ## Answers -/

/-- What an answered request to the hypervisor does and says. -/
theorem request_ok {request : HypervisorCall} {v : request.Value}
    (h : w.hypervisorAnswer request = (.ok v, w')) :
    w'.standing n = (w.standing n).requestEffect n request ∧
      (w.standing n).SaysRequest n request v := by
  cases request with
  | isRegistered name =>
    obtain ⟨hv, rfl⟩ := Prod.mk.inj h
    exact ⟨rfl, fun hn => by rw [← Except.ok.inj hv, hn]; rfl⟩
  | isRunning name =>
    obtain ⟨hv, rfl⟩ := Prod.mk.inj h
    exact ⟨rfl, fun hn => by rw [← Except.ok.inj hv, hn]; rfl⟩
  | isSaved name =>
    obtain ⟨hv, rfl⟩ := Prod.mk.inj h
    exact ⟨rfl, fun hn => by rw [← Except.ok.inj hv, hn]; rfl⟩
  | listRunning =>
    obtain ⟨-, rfl⟩ := Prod.mk.inj h
    exact ⟨rfl, trivial⟩
  | listAll =>
    obtain ⟨hv, rfl⟩ := Prod.mk.inj h
    exact ⟨rfl, (Except.ok.inj hv).symm⟩
  | importImage image name memory cpus =>
    obtain ⟨-, rfl⟩ := Prod.mk.inj h
    refine ⟨?_, trivial⟩
    simp only [standing, machine?, Standing.requestEffect, List.map_append, List.map_cons,
      List.map_nil, List.find?_append, List.find?_singleton, decide_eq_true_eq]
  | powerOn name => exact ⟨modify_ok (fun _ => rfl) h, trivial⟩
  | shutDown name => exact ⟨modify_ok (fun _ => rfl) h, trivial⟩
  | saveState name => exact ⟨modify_ok (fun _ => rfl) h, trivial⟩
  | switchOff name => exact ⟨modify_ok (fun _ => rfl) h, trivial⟩
  | remove name =>
    refine ⟨?_, trivial⟩
    unfold hypervisorAnswer at h
    dsimp only at h
    split at h
    next m hm =>
      obtain ⟨-, rfl⟩ := Prod.mk.inj h
      simp only [standing, machine?, Standing.requestEffect, find?_removed, List.filter_map]
      rfl
    next => cases (Prod.mk.inj h).1
  | size name =>
    obtain ⟨rfl, m, hm, hv⟩ := inspect_ok h
    exact ⟨rfl, fun hn => ⟨m, hn ▸ hm, hv⟩⟩
  | interfaces =>
    obtain ⟨-, rfl⟩ := Prod.mk.inj h
    exact ⟨rfl, trivial⟩
  | createInterface ip =>
    obtain ⟨-, rfl⟩ := Prod.mk.inj h
    exact ⟨rfl, trivial⟩
  | attach interface name =>
    obtain ⟨rfl, -⟩ := inspect_ok h
    exact ⟨rfl, trivial⟩
  | forward name rule hostPort guestPort =>
    exact ⟨modify_ok (fun _ => rfl) h, fun hn => hn ▸ modify_found h⟩
  | forwardedPort name rule =>
    obtain ⟨rfl, m, hm, hv⟩ := inspect_ok h
    exact ⟨rfl, fun hn => ⟨m, hn ▸ hm, hv⟩⟩
  | extraData name key =>
    obtain ⟨rfl, m, hm, hv⟩ := inspect_ok h
    exact ⟨rfl, fun hn => ⟨m, hn ▸ hm, hv⟩⟩
  | putExtraData name key value => exact ⟨modify_ok (fun _ => rfl) h, trivial⟩

/-- A refused request to the hypervisor does nothing. -/
theorem request_error {request : HypervisorCall} {e : HypervisorError}
    (h : w.hypervisorAnswer request = (.error e, w')) : w' = w := by
  cases request with
  | isRegistered name => cases (Prod.mk.inj h).1
  | isRunning name => cases (Prod.mk.inj h).1
  | isSaved name => cases (Prod.mk.inj h).1
  | listRunning => cases (Prod.mk.inj h).1
  | listAll => cases (Prod.mk.inj h).1
  | importImage image name memory cpus => cases (Prod.mk.inj h).1
  | powerOn name => exact modify_error h
  | shutDown name => exact modify_error h
  | saveState name => exact modify_error h
  | switchOff name => exact modify_error h
  | remove name =>
    unfold hypervisorAnswer at h
    dsimp only at h
    split at h
    next => cases (Prod.mk.inj h).1
    next => exact (Prod.mk.inj h).2.symm
  | size name => exact inspect_error h
  | interfaces => cases (Prod.mk.inj h).1
  | createInterface ip => cases (Prod.mk.inj h).1
  | attach interface name => exact inspect_error h
  | forward name rule hostPort guestPort => exact modify_error h
  | forwardedPort name rule => exact inspect_error h
  | extraData name key => exact inspect_error h
  | putExtraData name key value => exact modify_error h

/-- A command succeeds exactly if its status is zero. -/
theorem exitResult_isOk {status : Option UInt32} {output : String} :
    (Ssh.exitResult status output).isOk = true ↔ status = some 0 := by
  unfold Ssh.exitResult
  split
  · simp [Except.isOk, Except.toBool]
  · simp_all [Except.isOk, Except.toBool]
  · simp [Except.isOk, Except.toBool]

theorem isOk_map {ε α β : Type} (f : α → β) (answer : Except ε α) :
    (answer.map f).isOk = answer.isOk := by cases answer <;> rfl

/-- A command is answered exactly if the guest lets it succeed. -/
theorem run_isOk {command : GuestCommand} {addresses : List Endpoint} {key : Bytes}
    {limit : Duration} :
    (w.sshAnswer (.run command addresses key limit)).1.isOk = true ↔
      (w.guest.answer command.text).1.status = some 0 := by
  show ((Ssh.exitResult (w.guest.answer command.text).1.status "").map fun _ => ()).isOk = true ↔ _
  rw [isOk_map, exitResult_isOk]

theorem capture_isOk {command : GuestCommand} {addresses : List Endpoint} {key : Bytes}
    {limit : Duration} :
    (w.sshAnswer (.capture command addresses key limit)).1.isOk = true ↔
      (w.guest.answer command.text).1.status = some 0 := exitResult_isOk

/-- The guest's health after a command, by its status. -/
theorem healthy_of_status {command : GuestCommand} {guest : Guest}
    (h : (guest.answer command.text).1.status = some 0) :
    (guest.answer command.text).2.healthy = command.healthAfter guest.healthy := by
  rw [Guest.answer_healthy, if_pos h, GuestCommand.healthAfter_text]

theorem healthy_of_failure {text : String} {guest : Guest}
    (h : (guest.answer text).1.status ≠ some 0) :
    (guest.answer text).2.healthy = guest.healthy := by
  rw [Guest.answer_healthy, if_neg h]

/-- A session does nothing to the guest's health, however it ends. -/
theorem healthy_of_session {guest : Guest} : (guest.answer "").2.healthy = guest.healthy := by
  rw [Guest.answer_healthy]
  split <;> rfl

/-- What an answered request to the SSH client does and says. -/
theorem ssh_ok {request : SshCall} {v : request.Value} (h : w.sshAnswer request = (.ok v, w')) :
    w'.standing n = (w.standing n).effect n (.ssh request) ∧
      (w.standing n).Says n (.ssh request) v := by
  have hw : (w.sshAnswer request).2.standing n = w'.standing n := congrArg (·.2.standing n) h
  have hv : (w.sshAnswer request).1 = .ok v := congrArg (·.1) h
  rw [← hw]
  cases request with
  | freshEndpoint => exact ⟨rfl, trivial⟩
  | freshKeyPair => exact ⟨rfl, (Except.ok.inj hv).symm⟩
  | wait addresses key limit => exact ⟨rfl, trivial⟩
  -- The guest has answered in either case, and its status says whether the command counts.
  | run command addresses key limit =>
    have hstatus : (w.guest.answer command.text).1.status = some 0 := by
      rw [← run_isOk, hv]
      rfl
    refine ⟨?_, trivial⟩
    show { w.standing n with healthy := (w.guest.answer command.text).2.healthy } = _
    rw [healthy_of_status hstatus]
    rfl
  | capture command addresses key limit =>
    have hstatus : (w.guest.answer command.text).1.status = some 0 := by
      rw [← capture_isOk, hv]
      rfl
    refine ⟨?_, trivial⟩
    show { w.standing n with healthy := (w.guest.answer command.text).2.healthy } = _
    rw [healthy_of_status hstatus]
    rfl
  | session addresses key limit stdin =>
    refine ⟨?_, trivial⟩
    show { w.standing n with healthy := (w.guest.answer "").2.healthy } = _
    rw [healthy_of_session]
    rfl

/-- A failed request to the SSH client does nothing that a standing shows. -/
theorem ssh_error {request : SshCall} {e : SshError} (h : w.sshAnswer request = (.error e, w')) :
    w'.standing n = w.standing n := by
  have hw : (w.sshAnswer request).2.standing n = w'.standing n := congrArg (·.2.standing n) h
  have hv : (w.sshAnswer request).1 = .error e := congrArg (·.1) h
  rw [← hw]
  cases request with
  | freshEndpoint => cases hv
  | freshKeyPair => cases hv
  | wait addresses key limit => cases hv
  | run command addresses key limit =>
    have hstatus : (w.guest.answer command.text).1.status ≠ some 0 := by
      rw [Ne, ← run_isOk, hv]
      exact Bool.false_ne_true
    show { w.standing n with healthy := (w.guest.answer command.text).2.healthy } = _
    rw [healthy_of_failure hstatus]
    rfl
  | capture command addresses key limit =>
    have hstatus : (w.guest.answer command.text).1.status ≠ some 0 := by
      rw [Ne, ← capture_isOk, hv]
      exact Bool.false_ne_true
    show { w.standing n with healthy := (w.guest.answer command.text).2.healthy } = _
    rw [healthy_of_failure hstatus]
    rfl
  | session addresses key limit stdin =>
    show { w.standing n with healthy := (w.guest.answer "").2.healthy } = _
    rw [healthy_of_session]
    rfl

/-- What a call does and says when the host does what it is named for. -/
theorem perform_ok {c : Call} {v : c.Value} (h : w.perform c = (.ok v, w')) :
    w'.standing n = (w.standing n).effect n c ∧ (w.standing n).Says n c v := by
  cases c with
  | hypervisor request => exact request_ok h
  | ssh request => exact ssh_ok h
  | read path =>
    unfold perform at h
    dsimp only at h
    split at h
    next content hcontent =>
      obtain ⟨hv, rfl⟩ := Prod.mk.inj h
      exact ⟨rfl, hcontent.trans (congrArg some (Except.ok.inj hv))⟩
    next => cases (Prod.mk.inj h).1
  | writePrivate path content =>
    obtain ⟨-, rfl⟩ := Prod.mk.inj h
    exact ⟨rfl, trivial⟩
  | runProgram program args =>
    obtain ⟨-, rfl⟩ := Prod.mk.inj h
    exact ⟨rfl, trivial⟩
  | tell text =>
    obtain ⟨-, rfl⟩ := Prod.mk.inj h
    exact ⟨rfl, trivial⟩
  | confirm question =>
    obtain ⟨-, rfl⟩ := Prod.mk.inj h
    exact ⟨rfl, trivial⟩

theorem perform_error {c : Call} {e : c.Failure} (h : w.perform c = (.error e, w')) :
    w'.standing n = w.standing n := by
  cases c with
  | hypervisor request => rw [request_error h]
  | ssh request => exact ssh_error h
  | read path =>
    unfold perform at h
    dsimp only at h
    split at h
    next => cases (Prod.mk.inj h).1
    next => rw [← (Prod.mk.inj h).2]
  | writePrivate path content => cases (Prod.mk.inj h).1
  | runProgram program args => cases (Prod.mk.inj h).1
  | tell text => cases (Prod.mk.inj h).1
  | confirm question => cases (Prod.mk.inj h).1

/-- An answered call has its effect on the standing, and its value is one the standing says. -/
theorem standing_of_ok {c : HostCall} {v : c.call.Value} (h : w.answer c = (.ok v, w')) :
    w'.standing n = (w.standing n).effect n c.call ∧ (w.standing n).Says n c.call v := by
  unfold World.answer at h
  dsimp only at h
  split at h
  next => cases (Prod.mk.inj h).1
  next =>
    have hperformed := perform_ok (n := n) h
    exact hperformed

/-- A call that fails leaves the standing alone, whether its failure was planned or not. -/
theorem standing_of_error {c : HostCall} {e : c.call.Failure} (h : w.answer c = (.error e, w')) :
    w'.standing n = w.standing n := by
  unfold World.answer at h
  dsimp only at h
  split at h
  next => rw [← (Prod.mk.inj h).2]; rfl
  next =>
    have hperformed := perform_error (n := n) h
    exact hperformed

end World

end DevVm
