import DevVm.Proofs.Refusals

/-!
# What selecting the VM finds out

Selecting the VM of a name asks the hypervisor about the machine of that name and, if the machine
runs, the guest about its health. A query that fails ends the selection; a key that cannot be read
or a health check that fails does not, but makes the VM one that is not provisioned.

`Selects` lists the courses a selection can take, and each selection takes one of them
(`select_selects`). `SelectsExactly` is what can be said of all of them: which calls are made, when
the selection fails, and which of the five variants it comes to. With it `select_exact` says what a
selection does in a world, whatever the machines there are and whichever calls fail.
-/

namespace DevVm

open DevVm.Task DevVm.World

variable {settings : Settings} {name : String}

/-! ## Queries -/

/-- The requests by which the state of the machine of a name is found out. -/
def queries (name : String) : List HypervisorCall :=
  [.isRegistered name, .isRunning name, .size name, .forwardedPort name Machine.forwardingRule,
    .extraData name Machine.ipKey, .extraData name Machine.domainKey, .isSaved name]

/-- A query that was answered. -/
def Answered (name : String) (e : Event hostSignature) : Prop :=
  ∃ request ∈ queries name, ∃ v : request.Value, e = (Call.hypervisor request).answered v

/-- A query that was refused is the last of some calls, and the others were answered. -/
def Refused (name : String) (es : List (Event hostSignature)) (failure : HypervisorError) : Prop :=
  ∃ before, ∃ request ∈ queries name, (∀ e ∈ before, Answered name e) ∧
    es = before ++ [⟨⟨.hypervisor request, false⟩, .error failure⟩]

/-- A task leaves off where a query is refused, with an error made of that. -/
def LeavesOff {ε : Type} (name : String) (wrap : HypervisorError → ε) (error : Option ε)
    (es : List (Event hostSignature)) (_ : Standing) : Prop :=
  ∃ failure, error = some (wrap failure) ∧ Refused name es failure

theorem effect_query {s : Standing} {n : String} {request : HypervisorCall}
    (h : request ∈ queries name) : s.effect n (.hypervisor request) = s := by
  simp only [queries, List.mem_cons, List.not_mem_nil, or_false] at h
  rcases h with rfl | rfl | rfl | rfl | rfl | rfl | rfl <;> rfl

section Tasks

variable {α : Type} {s : Standing} {es : List (Event hostSignature)}
  {good : α → List (Event hostSignature) → Standing → Prop}

/-- A rule that allows everything. -/
abbrev anyRule (_ : List (Event hostSignature)) (_ : Standing) (_ : HostCall) : Prop := True

/-- A query, and what follows it if it is answered. -/
theorem heeds_query {request : HypervisorCall} {f : request.Value → Task MachineError α}
    (hquery : request ∈ queries name) (hes : ∀ e ∈ es, Answered name e)
    (hnext : ∀ v, s.SaysRequest name request v →
      (∀ e ∈ es ++ [(Call.hypervisor request).answered v], Answered name e) →
      Heeds name anyRule (f v) (es ++ [(Call.hypervisor request).answered v]) s good
        (LeavesOff name .hypervisor)) :
    Heeds name anyRule (Machine.hypervisor request >>= f) es s good
      (LeavesOff name .hypervisor) := by
  refine heeds_call trivial (fun failure => ⟨failure, rfl, es, request, hquery, hes, rfl⟩)
    fun v hv => ?_
  rw [effect_query hquery]
  refine hnext v hv (List.forall_mem_append.mpr ⟨hes, List.forall_mem_singleton.mpr ?_⟩)
  exact ⟨request, hquery, v, rfl⟩

/-- What is asked about the status of a machine, or of none. -/
def statusQueries (name : String) : Option World.Machine → List (Event hostSignature)
  | none => [(Call.hypervisor (.isRegistered name)).answered false]
  | some m => [(Call.hypervisor (.isRegistered name)).answered true,
      (Call.hypervisor (.isRunning name)).answered (decide (m.power = .running) : Bool)]

/-- What is asked about the properties of a machine. -/
def profileQueries (name : String) (m : World.Machine) : List (Event hostSignature) :=
  [(Call.hypervisor (.size name)).answered (⟨m.memory, m.cpus⟩ : MachineSize),
    (Call.hypervisor (.forwardedPort name Machine.forwardingRule)).answered m.port?,
    (Call.hypervisor (.extraData name Machine.ipKey)).answered
      (Table.get? Machine.ipKey m.extra),
    (Call.hypervisor (.extraData name Machine.domainKey)).answered
      (Table.get? Machine.domainKey m.extra)]

theorem answered_statusQueries (machine : Option World.Machine) :
    ∀ e ∈ statusQueries name machine, Answered name e := by
  have hregistered (v : Bool) : Answered name ((Call.hypervisor (.isRegistered name)).answered v) :=
    ⟨.isRegistered name, by simp [queries], v, rfl⟩
  cases machine with
  | none => exact List.forall_mem_singleton.mpr (hregistered false)
  | some m =>
    refine List.forall_mem_cons.mpr ⟨hregistered true, List.forall_mem_singleton.mpr ?_⟩
    exact ⟨.isRunning name, by simp [queries], _, rfl⟩

theorem answered_profileQueries (m : World.Machine) :
    ∀ e ∈ profileQueries name m, Answered name e := by
  unfold profileQueries
  refine List.forall_mem_cons.mpr ⟨⟨.size name, by simp [queries], _, rfl⟩, ?_⟩
  refine List.forall_mem_cons.mpr ⟨⟨.forwardedPort name _, by simp [queries], _, rfl⟩, ?_⟩
  refine List.forall_mem_cons.mpr ⟨⟨.extraData name _, by simp [queries], _, rfl⟩, ?_⟩
  exact List.forall_mem_singleton.mpr ⟨.extraData name _, by simp [queries], _, rfl⟩

theorem heeds_status (hes : ∀ e ∈ es, Answered name e) :
    Heeds name anyRule (Machine.status name) es s
      (fun status es' s' => s' = s ∧ status = s.status ∧ es' = es ++ statusQueries name s.machine)
      (LeavesOff name .hypervisor) := by
  refine heeds_query (by simp [queries]) hes fun present hpresent hes => ?_
  obtain rfl : present = s.machine.isSome := hpresent rfl
  unfold Standing.status
  rcases hm : s.machine with _ | m
  · exact heeds_pure ⟨rfl, rfl, rfl⟩
  · rw [hm] at hes
    refine heeds_query (by simp [queries]) hes fun running hrunning hes => ?_
    have hvalue : running = s.machine.any (·.power = .running) := hrunning rfl
    rw [hm] at hvalue
    subst hvalue
    refine heeds_pure ⟨rfl, ?_, List.append_assoc es [_] [_]⟩
    simp only [Option.any_some, decide_eq_true_eq]

theorem heeds_describe {m : World.Machine} (hm : s.machine = some m)
    (hes : ∀ e ∈ es, Answered name e) :
    Heeds name anyRule (Machine.describe name) es s
      (fun vm es' s' => s' = s ∧ vm = m.profile name ∧ es' = es ++ profileQueries name m)
      (LeavesOff name .hypervisor) := by
  have hmachine : ∀ {m'}, s.machine = some m' → m' = m := fun h => Option.some.inj (h.symm.trans hm)
  refine heeds_query (by simp [queries]) hes fun size hsize hes => ?_
  obtain ⟨m', hm', rfl⟩ := hsize rfl
  obtain rfl := hmachine hm'
  refine heeds_query (by simp [queries]) hes fun port hport hes => ?_
  obtain ⟨m', hm', rfl⟩ := hport rfl
  obtain rfl := hmachine hm'
  refine heeds_query (by simp [queries]) hes fun ip hip hes => ?_
  obtain ⟨m', hm', rfl⟩ := hip rfl
  obtain rfl := hmachine hm'
  refine heeds_query (by simp [queries]) hes fun domain hdomain hes => ?_
  obtain ⟨m', hm', rfl⟩ := hdomain rfl
  obtain rfl := hmachine hm'
  refine heeds_pure ⟨rfl, rfl, ?_⟩
  simp only [List.append_assoc, List.cons_append, List.nil_append]
  rfl

theorem heeds_isSuspended (hes : ∀ e ∈ es, Answered name e) :
    Heeds name anyRule (Machine.isSuspended name) es s
      (fun saved es' s' => s' = s ∧ saved = s.machine.any (·.power = .saved) ∧
        es' = es ++ [(Call.hypervisor (.isSaved name)).answered saved])
      (LeavesOff name .hypervisor) := by
  refine heeds_need trivial (fun saved hsaved => ⟨rfl, hsaved rfl, rfl⟩) fun failure => ?_
  exact ⟨failure, rfl, es, _, by simp [queries], hes, rfl⟩

/-- The guest's key was read, and its health was checked with that key. -/
def probe (settings : Settings) (vm : VmProfile) (key : Bytes) (reply : Except SshError String) :
    List (Event hostSignature) :=
  [⟨⟨.read settings.privateKeyPath, true⟩, .ok key⟩,
    ⟨⟨.ssh (.capture .checkHealth vm.endpoints key healthLimit), true⟩, reply⟩]

/-- Asking a guest for its health never fails. -/
theorem heeds_answersHealthy {vm : VmProfile} {s : Standing}
    {bad : Option VmError → List (Event hostSignature) → Standing → Prop} :
    Heeds name anyRule (Vm.answersHealthy settings vm) es s
      (fun healthy es' _ =>
        (∃ failure, healthy = false ∧
          es' = es ++ [⟨⟨.read settings.privateKeyPath, true⟩, .error failure⟩]) ∨
        ∃ key reply, healthy = reply.isOk ∧ es' = es ++ probe settings vm key reply) bad := by
  have hread : Heeds (ε := VmError) name anyRule (attempt (.read settings.privateKeyPath)) es s
      (fun reply es' _ => es' = es ++ [⟨⟨.read settings.privateKeyPath, true⟩, reply⟩]) bad :=
    heeds_attempt trivial (fun _ _ => rfl) fun _ => rfl
  refine hread.bind fun reply es' s' heq => ?_
  subst heq
  rcases reply with failure | key
  · exact heeds_pure (.inl ⟨failure, rfl, rfl⟩)
  have hprobe : Heeds (ε := VmError) name anyRule
      (attempt (.ssh (.capture .checkHealth vm.endpoints key healthLimit)))
      (es ++ [⟨⟨.read settings.privateKeyPath, true⟩, .ok key⟩]) s'
      (fun reply es' _ => es' = es ++ probe settings vm key reply) bad :=
    heeds_attempt trivial (fun _ _ => List.append_assoc es [_] [_])
      fun _ => List.append_assoc es [_] [_]
  refine hprobe.bind fun reply es' s'' heq => ?_
  subst heq
  exact heeds_pure (.inr ⟨key, reply, rfl, rfl⟩)

end Tasks

/-! ## The course of a selection -/

/-- How a selection can go, by what there is of the name. -/
inductive Selects (settings : Settings) (name : String) :
    Option World.Machine → List (Event hostSignature) → Except VmError Vm → Prop where
  | refused {machine : Option World.Machine} {es : List (Event hostSignature)}
      {failure : HypervisorError} (refused : Refused name es failure) :
      Selects settings name machine es (.error (.machine (.hypervisor failure)))
  | absent :
      Selects settings name none (statusQueries name none)
        (.ok ⟨.notCreated, { VmProfile.planned settings none none none none with name }⟩)
  | off {m : World.Machine} (off : m.power ≠ .running) :
      Selects settings name (some m)
        (statusQueries name (some m) ++ profileQueries name m ++
          [(Call.hypervisor (.isSaved name)).answered (decide (m.power = .saved) : Bool)])
        (.ok ⟨if m.power = .saved then .saved else .stopped, m.profile name⟩)
  | keyless {m : World.Machine} {failure : FileError} (running : m.power = .running) :
      Selects settings name (some m)
        (statusQueries name (some m) ++ profileQueries name m ++
          [⟨⟨.read settings.privateKeyPath, true⟩, .error failure⟩])
        (.ok ⟨.unprovisioned, m.profile name⟩)
  | probed {m : World.Machine} {key : Bytes} {reply : Except SshError String}
      (running : m.power = .running) :
      Selects settings name (some m)
        (statusQueries name (some m) ++ profileQueries name m ++
          probe settings (m.profile name) key reply)
        (.ok ⟨if reply.isOk then .running else .unprovisioned, m.profile name⟩)

/-- What a selection comes to in a world of a standing. -/
theorem heeds_select (settings : Settings) (name : String) (s : Standing) :
    Heeds name anyRule (Vm.select settings name) [] s
      (fun vm es _ => Selects settings name s.machine es (.ok vm))
      (fun error es _ => ∃ e, error = some e ∧ Selects settings name s.machine es (.error e)) := by
  -- Wherever a query is refused, the selection ends in the same way.
  have hleaves : ∀ {α : Type} {t : Task MachineError α} {es : List (Event hostSignature)}
      {good : α → List (Event hostSignature) → Standing → Prop},
      Heeds name anyRule t es s good (LeavesOff name .hypervisor) →
      Heeds name anyRule (t.mapError VmError.machine) es s good (fun error es _ =>
        ∃ e, error = some e ∧ Selects settings name s.machine es (.error e)) := by
    intro α t es good h
    refine Heeds.mapError (h.mono (fun _ _ _ hgood => hgood) fun error es' _ hleaves => ?_)
    obtain ⟨failure, rfl, hrefused⟩ := hleaves
    exact ⟨_, rfl, .refused hrefused⟩
  have hnil : ∀ e ∈ ([] : List (Event hostSignature)), Answered name e :=
    fun _ he => absurd he List.not_mem_nil
  refine (hleaves (heeds_status hnil)).bind fun status es s' hstatus => ?_
  obtain ⟨rfl, rfl, rfl⟩ := hstatus
  rw [List.nil_append]
  have hasked : ∀ e ∈ statusQueries name s'.machine, Answered name e :=
    answered_statusQueries s'.machine
  unfold Standing.status
  rcases hm : s'.machine with _ | m
  · exact heeds_pure .absent
  rw [hm] at hasked hleaves
  have hdescribed : ∀ e ∈ statusQueries name (some m) ++ profileQueries name m, Answered name e :=
    List.forall_mem_append.mpr ⟨hasked, answered_profileQueries m⟩
  -- Either way the machine is described first, and then it depends on whether it runs.
  by_cases hrunning : m.power = .running
  · simp only [hrunning, if_true]
    refine (hleaves (heeds_describe hm hasked)).bind fun vm es s'' hvm => ?_
    obtain ⟨rfl, rfl, rfl⟩ := hvm
    refine heeds_answersHealthy.bind fun healthy es s'' hhealthy => ?_
    rcases hhealthy with ⟨failure, rfl, rfl⟩ | ⟨key, reply, rfl, rfl⟩
    · exact heeds_pure (.keyless hrunning)
    · exact heeds_pure (.probed hrunning)
  · simp only [if_neg hrunning]
    refine (hleaves (heeds_describe hm hasked)).bind fun vm es s'' hvm => ?_
    obtain ⟨rfl, rfl, rfl⟩ := hvm
    refine (hleaves (heeds_isSuspended hdescribed)).bind fun saved es s'' hsaved => ?_
    obtain ⟨rfl, rfl, rfl⟩ := hsaved
    simp only [hm, Option.any_some, decide_eq_true_eq]
    exact heeds_pure (.off hrunning)

/-- Every selection takes one of the courses, and comes to an end. -/
theorem select_selects (settings : Settings) (name : String) (w : World) :
    ∃ result, (w.run (Vm.select settings name)).result = some result ∧
      Selects settings name (w.machine? name) (w.run (Vm.select settings name)).events result := by
  have hends := (heeds_select settings name (w.standing name) w rfl).ends_run
  change ∃ result, (Program.run World.host (Vm.select settings name).program w).result = some result
    ∧ Selects settings name (w.machine? name)
      (Program.run World.host (Vm.select settings name).program w).events result
  generalize Program.run World.host (Vm.select settings name).program w = run at hends ⊢
  rcases run with ⟨_ | error | vm, es, w'⟩
  · obtain ⟨e, he, -⟩ := hends
    cases he
  · obtain ⟨e, he, hselects⟩ := hends
    cases he
    exact ⟨_, rfl, hselects⟩
  · exact ⟨_, rfl, hends⟩

/-! ## What a course says -/

/-- The failure of a request to the hypervisor, if that is what a call came to. -/
def queryFailure? : Event hostSignature → Option HypervisorError
  | ⟨⟨.hypervisor _, _⟩, .error failure⟩ => some failure
  | _ => none

/-- What reading files came to. -/
def keyReads (es : List (Event hostSignature)) : List (Except FileError Bytes) :=
  es.filterMap fun
    | ⟨⟨.read _, _⟩, reply⟩ => some reply
    | _ => none

/-- A health check that was made, and what it came to. -/
structure Probe where
  addresses : List Endpoint
  key : Bytes
  limit : Duration
  reply : Except SshError String

/-- The health checks among some calls. -/
def probes (es : List (Event hostSignature)) : List Probe :=
  es.filterMap fun
    | ⟨⟨.ssh (.capture .checkHealth addresses key limit), _⟩, reply⟩ =>
      some ⟨addresses, key, limit, reply⟩
    | _ => none

/-- What calls for each of the five variants: the machine of the name, if there is one, and if that
runs, what reading the key and checking the guest's health came to. -/
def CallsFor (machine : Option World.Machine) (reads : List (Except FileError Bytes))
    (probes : List Probe) : Phase → Prop
  | .notCreated => machine = none
  | .saved => ∃ m, machine = some m ∧ m.power ≠ .running ∧ m.power = .saved
  | .stopped => ∃ m, machine = some m ∧ m.power ≠ .running ∧ m.power ≠ .saved
  | .running => (∃ m, machine = some m ∧ m.power = .running) ∧
      (∃ key, .ok key ∈ reads) ∧ ∃ probe ∈ probes, probe.reply.isOk = true
  | .unprovisioned => (∃ m, machine = some m ∧ m.power = .running) ∧
      ((∃ failure, .error failure ∈ reads) ∨ ∃ probe ∈ probes, probe.reply.isOk = false)

/-- The variant that was selected is the only one that is called for, and it tells of the machine
what the hypervisor knows of it. -/
structure Classifies (settings : Settings) (name : String) (machine : Option World.Machine)
    (reads : List (Except FileError Bytes)) (probes : List Probe) (vm : Vm) : Prop where
  phase_iff : ∀ phase, vm.phase = phase ↔ CallsFor machine reads probes phase
  profile : vm.profile = match machine with
    | none => { VmProfile.planned settings none none none none with name }
    | some m => m.profile name
  named : vm.profile.name = name

section Variants

variable {m : World.Machine}

theorem classifies_absent : Classifies settings name none [] []
    ⟨.notCreated, { VmProfile.planned settings none none none none with name }⟩ where
  phase_iff phase := by cases phase <;> simp [CallsFor]
  profile := rfl
  named := rfl

theorem classifies_off (hoff : m.power ≠ .running) : Classifies settings name (some m) [] []
    ⟨if m.power = .saved then .saved else .stopped, m.profile name⟩ where
  phase_iff phase := by
    by_cases hsaved : m.power = .saved <;> cases phase <;> simp [CallsFor, hoff, hsaved]
  profile := rfl
  named := rfl

theorem classifies_keyless (hon : m.power = .running) (failure : FileError) :
    Classifies settings name (some m) [.error failure] [] ⟨.unprovisioned, m.profile name⟩ where
  phase_iff phase := by cases phase <;> simp [CallsFor, hon]
  profile := rfl
  named := rfl

theorem classifies_probed (hon : m.power = .running) (key : Bytes) (probe : Probe) :
    Classifies settings name (some m) [.ok key] [probe]
      ⟨if probe.reply.isOk then .running else .unprovisioned, m.profile name⟩ where
  phase_iff phase := by
    cases hok : probe.reply.isOk <;> cases phase <;> simp [CallsFor, hon, hok]
  profile := rfl
  named := rfl

end Variants

/-- What selecting the VM of a name does and what it comes to, by the machine of that name. -/
structure SelectsExactly (settings : Settings) (name : String) (machine : Option World.Machine)
    (es : List (Event hostSignature)) (result : Except VmError Vm) : Prop where
  /-- Nothing but queries is made, and besides them the key may be read and the guest asked. -/
  calls : ∀ e ∈ es, (∃ request ∈ queries name, e.call = ⟨.hypervisor request, false⟩) ∨
    e.call = ⟨.read settings.privateKeyPath, true⟩ ∨
    ∃ addresses key, e.call = ⟨.ssh (.capture .checkHealth addresses key healthLimit), true⟩
  once : (keyReads es).length ≤ 1 ∧ (probes es).length ≤ 1
  /-- The guest is asked with the key that was read, where the machine is reached. -/
  probed : ∀ probe ∈ probes es, .ok probe.key ∈ keyReads es ∧
    ∃ m, machine = some m ∧ probe.addresses = (m.profile name).endpoints
  /-- It fails just if a query fails, and with the failure of that query. -/
  error_iff : ∀ error, result = .error error ↔
    ∃ failure, error = .machine (.hypervisor failure) ∧ es.filterMap queryFailure? = [failure]
  ok_iff : (∃ vm, result = .ok vm) ↔ es.filterMap queryFailure? = []
  /-- Otherwise it selects one of the five variants. -/
  classifies : ∀ vm, result = .ok vm →
    Classifies settings name machine (keyReads es) (probes es) vm

section Exactness

variable {machine : Option World.Machine} {es : List (Event hostSignature)}

theorem Answered.call {e : Event hostSignature} (h : Answered name e) :
    ∃ request ∈ queries name, e.call = ⟨.hypervisor request, false⟩ := by
  obtain ⟨request, hquery, v, rfl⟩ := h
  exact ⟨request, hquery, rfl⟩

theorem Answered.queryFailure? {e : Event hostSignature} (h : Answered name e) :
    DevVm.queryFailure? e = none := by
  obtain ⟨request, hquery, v, rfl⟩ := h
  rfl

/-- No query that was answered failed. -/
theorem filterMap_queryFailure? (h : ∀ e ∈ es, Answered name e) :
    es.filterMap queryFailure? = [] :=
  List.filterMap_eq_nil_iff.mpr fun e he => (h e he).queryFailure?

/-- A reading of calls that passes over requests to the hypervisor finds nothing in queries. -/
theorem filterMap_of_queries {β : Type} {f : Event hostSignature → Option β}
    (hf : ∀ request tolerant reply, f ⟨⟨.hypervisor request, tolerant⟩, reply⟩ = none)
    (h : ∀ e ∈ es, ∃ request ∈ queries name, e.call = ⟨.hypervisor request, false⟩) :
    es.filterMap f = [] := by
  refine List.filterMap_eq_nil_iff.mpr fun e he => ?_
  obtain ⟨request, -, hcall⟩ := h e he
  rcases e with ⟨c, reply⟩
  subst hcall
  exact hf request false reply

/-- Queries neither read the key nor ask the guest. -/
theorem quiet_of_queries
    (h : ∀ e ∈ es, ∃ request ∈ queries name, e.call = ⟨.hypervisor request, false⟩) :
    keyReads es = [] ∧ probes es = [] :=
  ⟨filterMap_of_queries (fun _ _ _ => rfl) h, filterMap_of_queries (fun _ _ _ => rfl) h⟩

/-- A selection that is refused a query. -/
theorem selectsExactly_refused {failure : HypervisorError} (h : Refused name es failure) :
    SelectsExactly settings name machine es (.error (.machine (.hypervisor failure))) := by
  obtain ⟨before, request, hquery, hbefore, rfl⟩ := h
  let last : Event hostSignature := ⟨⟨.hypervisor request, false⟩, .error failure⟩
  have hcalls : ∀ e ∈ before ++ [last],
      ∃ request ∈ queries name, e.call = ⟨.hypervisor request, false⟩ :=
    List.forall_mem_append.mpr ⟨fun e he => (hbefore e he).call,
      List.forall_mem_singleton.mpr ⟨request, hquery, rfl⟩⟩
  have hfailures : (before ++ [last]).filterMap queryFailure? = [failure] := by
    rw [List.filterMap_append, filterMap_queryFailure? hbefore]
    rfl
  obtain ⟨hreads, hprobes⟩ := quiet_of_queries hcalls
  constructor
  · exact fun e he => .inl (hcalls e he)
  · rw [hreads, hprobes]
    exact ⟨Nat.zero_le 1, Nat.zero_le 1⟩
  · rw [hprobes]
    exact fun probe hprobe => absurd hprobe List.not_mem_nil
  · rw [hfailures]
    intro error
    constructor
    · rintro ⟨⟩
      exact ⟨failure, rfl, rfl⟩
    · rintro ⟨_, rfl, ⟨⟩⟩
      rfl
  · rw [hfailures]
    exact ⟨nofun, nofun⟩
  · exact nofun

/-- A selection whose queries are all answered. -/
theorem selectsExactly_of_answered {vm : Vm} {asked tail : List (Event hostSignature)}
    (hasked : ∀ e ∈ asked, Answered name e)
    (htail : ∀ e ∈ tail, e.call = ⟨.read settings.privateKeyPath, true⟩ ∨
      ∃ addresses key, e.call = ⟨.ssh (.capture .checkHealth addresses key healthLimit), true⟩)
    (honce : (keyReads tail).length ≤ 1 ∧ (probes tail).length ≤ 1)
    (hprobed : ∀ probe ∈ probes tail, .ok probe.key ∈ keyReads tail ∧
      ∃ m, machine = some m ∧ probe.addresses = (m.profile name).endpoints)
    (hclassifies : Classifies settings name machine (keyReads tail) (probes tail) vm) :
    SelectsExactly settings name machine (asked ++ tail) (.ok vm) := by
  -- The queries show in none of the readings, so these are those of the rest.
  obtain ⟨hreads, hprobes⟩ := quiet_of_queries fun e he => (hasked e he).call
  have hreads' : keyReads (asked ++ tail) = keyReads tail := by
    rw [show keyReads (asked ++ tail) = keyReads asked ++ keyReads tail from
      List.filterMap_append, hreads, List.nil_append]
  have hprobes' : probes (asked ++ tail) = probes tail := by
    rw [show probes (asked ++ tail) = probes asked ++ probes tail from
      List.filterMap_append, hprobes, List.nil_append]
  have hnofailure : (asked ++ tail).filterMap queryFailure? = [] := by
    rw [List.filterMap_append, filterMap_queryFailure? hasked, List.nil_append]
    refine List.filterMap_eq_nil_iff.mpr fun e he => ?_
    rcases e with ⟨c, reply⟩
    rcases htail _ he with hread | ⟨addresses, key, hask⟩
    · obtain rfl : c = _ := hread
      rfl
    · obtain rfl : c = _ := hask
      rfl
  constructor
  · intro e he
    rcases List.mem_append.mp he with hleft | hright
    · exact .inl (hasked e hleft).call
    · exact .inr (htail e hright)
  · rwa [hreads', hprobes']
  · rwa [hreads', hprobes']
  · rw [hnofailure]
    refine fun error => ⟨nofun, ?_⟩
    rintro ⟨_, -, ⟨⟩⟩
  · exact ⟨fun _ => hnofailure, fun _ => ⟨vm, rfl⟩⟩
  · rw [hreads', hprobes']
    rintro _ ⟨⟩
    exact hclassifies

/-- Whatever course a selection takes. -/
theorem Selects.exactly {result : Except VmError Vm} (h : Selects settings name machine es result) :
    SelectsExactly settings name machine es result := by
  have hdescribed : ∀ m, ∀ e ∈ statusQueries name (some m) ++ profileQueries name m,
      Answered name e := fun m =>
    List.forall_mem_append.mpr ⟨answered_statusQueries _, answered_profileQueries m⟩
  have hquiet : ∀ probe ∈ probes [], .ok probe.key ∈ keyReads [] ∧
      ∃ m, machine = some m ∧ probe.addresses = (m.profile name).endpoints :=
    fun _ hprobe => absurd hprobe List.not_mem_nil
  cases h with
  | refused hrefused => exact selectsExactly_refused hrefused
  | absent =>
    rw [← List.append_nil (statusQueries name none)]
    exact selectsExactly_of_answered (answered_statusQueries none) (fun _ he => nomatch he)
      ⟨Nat.zero_le 1, Nat.zero_le 1⟩ hquiet classifies_absent
  | @off m hoff =>
    rw [← List.append_nil (_ ++ _ ++ [_])]
    refine selectsExactly_of_answered (List.forall_mem_append.mpr ⟨hdescribed m, ?_⟩)
      (fun _ he => nomatch he) ⟨Nat.zero_le 1, Nat.zero_le 1⟩ hquiet (classifies_off hoff)
    exact List.forall_mem_singleton.mpr ⟨.isSaved name, by simp [queries], _, rfl⟩
  | @keyless m failure hon =>
    exact selectsExactly_of_answered (hdescribed m)
      (List.forall_mem_singleton.mpr (.inl rfl)) ⟨Nat.le_refl 1, Nat.zero_le 1⟩
      (fun _ hprobe => absurd hprobe List.not_mem_nil) (classifies_keyless hon failure)
  | @probed m key reply hon =>
    refine selectsExactly_of_answered (hdescribed m)
      (List.forall_mem_cons.mpr ⟨.inl rfl, List.forall_mem_singleton.mpr (.inr ⟨_, key, rfl⟩)⟩)
      ⟨Nat.le_refl 1, Nat.le_refl 1⟩ ?_
      (classifies_probed hon key ⟨(m.profile name).endpoints, key, healthLimit, reply⟩)
    exact List.forall_mem_singleton.mpr ⟨List.mem_singleton_self _, m, rfl, rfl⟩

end Exactness

/-- Selecting the VM of a name comes to an end and leaves the machines, the network and the files
as they were. It makes only queries, and what it selects is what they say. -/
theorem select_exact (settings : Settings) (name : String) (w : World) :
    let run := w.run (Vm.select settings name)
    ∃ result, run.result = some result ∧ w.Unchanged run.state ∧
      SelectsExactly settings name (w.machine? name) run.events result := by
  obtain ⟨result, hresult, hselects⟩ := select_selects settings name w
  have hlooks : ∀ e ∈ (w.run (Vm.select settings name)).events, e.call.call.looks = true :=
    Program.Makes.events (Vm.looks_select name)
  have step : ∀ (w' : World) (c : HostCall), c.call.looks = true →
      w.Unchanged w' → w.Unchanged (World.host.answer c w').2 :=
    fun _ _ hc h => h.trans (unchanged_answer (.inl hc))
  exact ⟨result, hresult, Program.run_keeps_of_events step hlooks (.refl w), hselects.exactly⟩

end DevVm
