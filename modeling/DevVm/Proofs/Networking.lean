import DevVm.Proofs.Episodes
import DevVm.Proofs.Inventory

/-!
# How an import connects a machine

An import makes up to six calls in a fixed order (`ImportScript`): it may leave one of them out,
the one that adds an interface, and it goes on only as long as its calls succeed
(`importImage_carried`, for any host).

It looks for an interface with its address before it adds one. So no two interfaces come to have
the same address through imports, whatever fails on the way, and machines whose addresses are in
one network are attached to one interface (`imports_share_interfaces`). The rest of an import is
about its own machine, and the port that it forwards is the one that is found there later.
-/

namespace DevVm

open DevVm.Task DevVm.World

/-! ## Calls of a script -/

section Carried

variable {σ ε α : Type} {host : Host hostSignature σ} {s : σ}

/-- A run makes the calls of a script, answered as there, and succeeds, or it breaks off at the
first of them that fails and hands on the failure. -/
inductive Carried (steps : List (Event hostSignature)) :
    Outcome hostSignature σ (Except MachineError Unit) → Prop where
  | through (s : σ) : Carried steps ⟨some (.ok ()), steps, s⟩
  | brokenOff (before : List (Event hostSignature)) (c : HostCall) (v : c.call.Value)
      (after : List (Event hostSignature)) (failure : c.call.Failure) (error : MachineError) (s : σ)
      (hsteps : steps = before ++ ⟨c, .ok v⟩ :: after)
      (herror : error.fault? = some (c.call.fault failure)) :
      Carried steps ⟨some (.error error), before ++ [⟨c, .error failure⟩], s⟩

/-- The calls are those of the script from its beginning, and a run succeeds exactly if it is
through with all of them. -/
theorem Carried.calls {steps : List (Event hostSignature)}
    {o : Outcome hostSignature σ (Except MachineError Unit)} (h : Carried steps o) :
    o.events.map (·.call) <+: steps.map (·.call) ∧ (o.result = some (.ok ()) ↔ o.events = steps) := by
  cases h with
  | through => exact ⟨List.prefix_refl _, fun _ => rfl, fun _ => rfl⟩
  | brokenOff before c v after failure error s hsteps herror =>
    subst hsteps
    refine ⟨⟨after.map (·.call), ?_⟩, nofun, fun heq => ?_⟩
    · simp only [List.map_append, List.map_cons, List.map_nil, List.append_assoc]
      rfl
    · have hhead := List.append_cancel_left heq
      cases (List.cons.inj hhead).1

/-- One call of the script more, in front. -/
theorem Carried.cons {steps : List (Event hostSignature)}
    {o : Outcome hostSignature σ (Except MachineError Unit)} (h : Carried steps o)
    (e : Event hostSignature) : Carried (e :: steps) { o with events := e :: o.events } := by
  cases h with
  | through s => exact .through s
  | brokenOff before c v after failure error s hsteps herror =>
    exact .brokenOff (e :: before) c v after failure error s (congrArg (e :: ·) hsteps) herror

/-- The run follows one of the scripts that are possible. -/
def Follows (host : Host hostSignature σ) (t : Task MachineError Unit) (s : σ)
    (scripts : List (Event hostSignature) → Prop) : Prop :=
  ∃ steps, scripts steps ∧ Carried steps (Program.run host t.program s)

theorem follows_pure {scripts : List (Event hostSignature) → Prop} (h : scripts []) :
    Follows host (pure ()) s scripts := ⟨[], h, .through s⟩

/-- A call that a script begins with, and what comes after it. If the call fails nothing is known
of its value, so any script will do that begins with the call. -/
theorem follows_call {c : Call} {wrap : c.Failure → MachineError}
    (hwrap : ∀ e, (wrap e).fault? = some (c.fault e)) {f : c.Value → Task MachineError Unit}
    {scripts : List (Event hostSignature) → Prop}
    (hany : ∃ v steps, scripts (c.answered v :: steps))
    (hf : ∀ v s, Follows host (f v) s fun steps => scripts (c.answered v :: steps)) :
    Follows host (need c wrap >>= f) s scripts := by
  have hneed : Program.run host (need c wrap).program s = _ := run_need c wrap
  rcases hr : host.answer ⟨c, false⟩ s with ⟨e | v, s'⟩
  · rw [hr] at hneed
    obtain ⟨v, steps, hsteps⟩ := hany
    refine ⟨_, hsteps, ?_⟩
    rw [run_bind_of_error (congrArg Outcome.result hneed), hneed]
    exact .brokenOff [] ⟨c, false⟩ v steps e (wrap e) s' rfl (hwrap e)
  · rw [hr] at hneed
    obtain ⟨steps, hsteps, hcarried⟩ := hf v s'
    refine ⟨_, hsteps, ?_⟩
    rw [run_bind_of_ok (congrArg Outcome.result hneed), hneed]
    exact hcarried.cons (c.answered v)

end Carried

/-! ## The calls of an import -/

namespace Machine

/-- The calls of an import in their order, as they are answered if all goes well. An interface is
added only if none of those listed has the host's address, and else the first one is taken that
has it. -/
def importSteps (image : String) (vm : VmProfile) (hostIp : String) (address : Endpoint)
    (listed : List HostInterface) (created : String) : List (Event hostSignature) :=
  let found := listed.find? (·.ip = hostIp)
  let interface := (found.map (·.name)).getD created
  [(Call.ssh .freshEndpoint).answered address,
    (Call.hypervisor (.importImage image vm.name vm.memory vm.cpus)).answered (),
    (Call.hypervisor .interfaces).answered listed] ++
  (if found.isNone then [(Call.hypervisor (.createInterface hostIp)).answered created] else []) ++
  [(Call.hypervisor (.attach interface vm.name)).answered (),
    (Call.hypervisor (.forward vm.name "ssh" address.port 22)).answered ()]

/-- The possible scripts of an import, by what its calls may be answered with. -/
def ImportScript (image : String) (vm : VmProfile) (hostIp : String)
    (steps : List (Event hostSignature)) : Prop :=
  ∃ address listed created, steps = importSteps image vm hostIp address listed created

section

variable {σ : Type} {host : Host hostSignature σ} {s : σ}

/-- The script without a new interface, and the one with it. -/
theorem importSteps_found (image : String) (vm : VmProfile) {hostIp : String} (address : Endpoint)
    {listed : List HostInterface} (created : String) {interface : HostInterface}
    (hfound : listed.find? (·.ip = hostIp) = some interface) :
    importSteps image vm hostIp address listed created =
      [(Call.ssh .freshEndpoint).answered address,
        (Call.hypervisor (.importImage image vm.name vm.memory vm.cpus)).answered (),
        (Call.hypervisor .interfaces).answered listed,
        (Call.hypervisor (.attach interface.name vm.name)).answered (),
        (Call.hypervisor (.forward vm.name "ssh" address.port 22)).answered ()] := by
  unfold importSteps
  rw [hfound]
  rfl

theorem importSteps_missing (image : String) (vm : VmProfile) {hostIp : String} (address : Endpoint)
    {listed : List HostInterface} (created : String) (hmissing : listed.find? (·.ip = hostIp) = none) :
    importSteps image vm hostIp address listed created =
      [(Call.ssh .freshEndpoint).answered address,
        (Call.hypervisor (.importImage image vm.name vm.memory vm.cpus)).answered (),
        (Call.hypervisor .interfaces).answered listed,
        (Call.hypervisor (.createInterface hostIp)).answered created,
        (Call.hypervisor (.attach created vm.name)).answered (),
        (Call.hypervisor (.forward vm.name "ssh" address.port 22)).answered ()] := by
  unfold importSteps
  rw [hmissing]
  rfl

theorem interfaceFor_bind {α : Type} (hostIp : String) (f : String → Task MachineError α) :
    interfaceFor hostIp >>= f =
      need (.hypervisor .interfaces) .hypervisor >>= fun listed : List HostInterface =>
        (match listed.find? (·.ip = hostIp) with
          | some interface => pure interface.name
          | none => hypervisor (.createInterface hostIp)) >>= f :=
  bind_assoc _ _ _

/-- An import makes its calls in order, up to the first one that fails. -/
theorem importImage_follows (host : Host hostSignature σ) (s : σ) (image : String)
    {vm : VmProfile} {hostIp : String} (hip : hostAddress vm.ip = .ok hostIp) :
    Follows host (importImage image vm) s (ImportScript image vm hostIp) := by
  unfold importImage
  rw [hip]
  refine follows_call (fun _ => rfl) ⟨⟨loopback, 0⟩, _, ⟨loopback, 0⟩, [], "", rfl⟩
    fun address s => ?_
  refine follows_call (fun _ => rfl) ⟨(), _, address, [], "", rfl⟩ fun _ s => ?_
  rw [interfaceFor_bind]
  refine follows_call (fun _ => rfl) ⟨([] : List HostInterface), _, address, [], "", rfl⟩
    fun listed s => ?_
  -- The scripts part where the interfaces are looked through.
  cases hfound : listed.find? (·.ip = hostIp) with
  | some interface =>
    have hscript := importSteps_found image vm address "" hfound
    refine follows_call (fun _ => rfl) ⟨(), _, address, listed, "", hscript.symm⟩ fun _ s => ?_
    rw [← bind_pure (hypervisor (.forward vm.name forwardingRule address.port daemonPort))]
    exact follows_call (fun _ => rfl) ⟨(), _, address, listed, "", hscript.symm⟩ fun _ s =>
      follows_pure ⟨address, listed, "", hscript.symm⟩
  | none =>
    have hscript := fun created => importSteps_missing image vm address created hfound
    refine follows_call (fun _ => rfl) ⟨"", _, address, listed, "", (hscript "").symm⟩
      fun created s => ?_
    refine follows_call (fun _ => rfl) ⟨(), _, address, listed, created, (hscript created).symm⟩
      fun _ s => ?_
    rw [← bind_pure (hypervisor (.forward vm.name forwardingRule address.port daemonPort))]
    exact follows_call (fun _ => rfl) ⟨(), _, address, listed, created, (hscript created).symm⟩
      fun _ s => follows_pure ⟨address, listed, created, (hscript created).symm⟩

end

end Machine

/-! ## Interfaces in a world -/

namespace World

variable {w w' : World}

/-- Only adding an interface changes which interfaces there are. -/
theorem Inventory.interfaces_effect {c : Call}
    (hc : ∀ ip, c ≠ .hypervisor (.createInterface ip)) (i : Inventory) :
    (i.effect c).interfaces = i.interfaces := by
  cases c with
  | hypervisor request =>
    cases request with
    | createInterface ip => exact absurd rfl (hc ip)
    | _ => rfl
  | _ => rfl

/-- Interfaces stay, and new ones come after them. -/
theorem interfaces_grow (c : HostCall) : w.interfaces <+: (World.host.answer c w).2.interfaces := by
  refine inventory_cases (P := fun _ i => w.interfaces <+: i.interfaces) (fun _ => ?_)
    fun _ => List.prefix_refl _
  by_cases hc : ∃ ip, c.call = .hypervisor (.createInterface ip)
  · obtain ⟨ip, hc⟩ := hc
    rw [hc]
    exact List.prefix_append _ _
  · rw [Inventory.interfaces_effect fun ip h => hc ⟨ip, h⟩]
    exact List.prefix_refl _

theorem interfaces_kept {c : HostCall} {reply : c.call.Reply}
    (h : World.host.answer c w = (reply, w'))
    (hc : ∀ ip, c.call ≠ .hypervisor (.createInterface ip)) : w'.interfaces = w.interfaces := by
  have hsame : (World.host.answer c w).2.interfaces = w.interfaces :=
    inventory_cases (P := fun _ i => i.interfaces = w.interfaces)
      (fun _ => Inventory.interfaces_effect hc _) fun _ => rfl
  rwa [h] at hsame

/-- All interfaces there are, are listed. -/
theorem interfaces_listed {tolerated : Bool} {listed : List HostInterface}
    (h : World.host.answer ⟨.hypervisor .interfaces, tolerated⟩ w = (.ok listed, w')) :
    listed = w.interfaces := by
  replace h : w.answer ⟨.hypervisor .interfaces, tolerated⟩ = (.ok listed, w') := h
  unfold World.answer at h
  dsimp only at h
  split at h
  next => cases (Prod.mk.inj h).1
  next => exact (Except.ok.inj (Prod.mk.inj h).1).symm

/-- A new interface comes after those there are. -/
theorem interface_created {tolerated : Bool} {ip name : String}
    (h : World.host.answer ⟨.hypervisor (.createInterface ip), tolerated⟩ w = (.ok name, w')) :
    w'.interfaces = w.interfaces ++ [⟨name, ip⟩] := by
  replace h : w.answer ⟨.hypervisor (.createInterface ip), tolerated⟩ = (.ok name, w') := h
  unfold World.answer at h
  dsimp only at h
  split at h
  next => cases (Prod.mk.inj h).1
  next =>
    obtain ⟨hname, rfl⟩ := Prod.mk.inj h
    rw [← Except.ok.inj hname]
    rfl

/-- An interface is added only for an address that none has yet. -/
def AddsNew (w : World) (c : HostCall) : Prop :=
  ∀ ip, c.call = .hypervisor (.createInterface ip) → ∀ interface ∈ w.interfaces, interface.ip ≠ ip

theorem nodup_answer {c : HostCall} (hc : w.AddsNew c) (hw : (w.interfaces.map (·.ip)).Nodup) :
    ((World.host.answer c w).2.interfaces.map (·.ip)).Nodup := by
  refine inventory_cases (P := fun _ i => (i.interfaces.map (·.ip)).Nodup) (fun _ => ?_) fun _ => hw
  by_cases hadds : ∃ ip, c.call = .hypervisor (.createInterface ip)
  · obtain ⟨ip, heq⟩ := hadds
    rw [heq]
    show ((w.interfaces ++ [(⟨_, ip⟩ : HostInterface)]).map (·.ip)).Nodup
    rw [List.map_append, List.nodup_append]
    refine ⟨hw, by simp, fun a ha b hb => ?_⟩
    obtain ⟨interface, hin, rfl⟩ := List.mem_map.mp ha
    rw [List.mem_singleton.mp hb]
    exact hc ip heq interface hin
  · rw [Inventory.interfaces_effect fun ip h => hadds ⟨ip, h⟩]
    exact hw

/-- A task adds interfaces only for addresses that none has yet, and what is asked of its value, of
all calls so far and of the world it leaves holds if it succeeds. -/
def Adds {ε α : Type} (es : List (Event hostSignature)) (t : Task ε α) (w : World)
    (good : α → List (Event hostSignature) → World → Prop) : Prop :=
  t.program.Heeds World.host (fun _ w c => w.AddsNew c)
    (fun result es w => ∀ a, result = some (.ok a) → good a es w) es w

section Adds

variable {ε α : Type} {es : List (Event hostSignature)}
  {good : α → List (Event hostSignature) → World → Prop}

theorem adds_pure {a : α} (h : good a es w) : Adds es (pure a : Task ε α) w good := by
  intro a' heq
  obtain rfl := Except.ok.inj (Option.some.inj heq)
  exact h

theorem adds_call {c : Call} {wrap : c.Failure → ε} {f : c.Value → Task ε α}
    (hc : w.AddsNew ⟨c, false⟩)
    (hf : ∀ v w', World.host.answer ⟨c, false⟩ w = (.ok v, w') →
      Adds (es ++ [c.answered v]) (f v) w' good) : Adds es (need c wrap >>= f) w good := by
  refine ⟨hc, ?_⟩
  rcases hr : World.host.answer ⟨c, false⟩ w with ⟨e | v, w'⟩
  · exact fun a heq => by cases heq
  · exact hf v w' hr

end Adds

end World

/-! ## Imports into a world -/

/-- The interfaces that machines were to be attached to. -/
def attachments (es : List (Event hostSignature)) : List String :=
  es.filterMap fun e =>
    match e.call.call with
    | .hypervisor (.attach interface _) => some interface
    | _ => none

namespace Machine

variable {w : World} {vm : VmProfile} {es : List (Event hostSignature)}

/-- What an import leaves behind: the machine is attached to the first interface that has the
host's address, and the port that was made out for it is forwarded. -/
structure Networked (vm : VmProfile) (hostIp : String) (address : Endpoint)
    (es : List (Event hostSignature)) (w : World) : Prop where
  made : (Call.ssh .freshEndpoint).answered address ∈ es
  attached : ∃ interface, w.interfaces.find? (·.ip = hostIp) = some interface ∧
    attachments es = [interface.name]
  forwarded : ∃ m, w.machine? vm.name = some m ∧ Table.get? "ssh" m.forward = some address.port

theorem forwarded_of_answered {port : UInt16} {w w' : World}
    (h : World.host.answer ⟨.hypervisor (.forward vm.name forwardingRule port daemonPort), false⟩ w =
      (.ok (), w')) :
    ∃ m, w'.machine? vm.name = some m ∧ Table.get? "ssh" m.forward = some port := by
  obtain ⟨heffect, hvalue⟩ := World.standing_of_ok (n := vm.name) h
  obtain ⟨m, hm⟩ := Option.isSome_iff_exists.mp (hvalue rfl)
  refine ⟨m.connected port, ?_, ?_⟩
  · refine (congrArg Standing.machine heffect).trans ?_
    exact congrArg Standing.machine (Standing.change_eq (s := w.standing vm.name) hm)
  · show Table.get? "ssh" (Table.put "ssh" port m.forward) = some port
    rw [Table.get?_put, if_pos rfl]

/-- Attaching a machine and forwarding its port. -/
theorem adds_connect {hostIp : String} {interface : HostInterface} {address : Endpoint}
    (hmade : (Call.ssh .freshEndpoint).answered address ∈ es) (hnone : attachments es = [])
    (hfound : w.interfaces.find? (·.ip = hostIp) = some interface) :
    World.Adds es (hypervisor (.attach interface.name vm.name) >>= fun _ =>
        hypervisor (.forward vm.name forwardingRule address.port daemonPort)) w
      fun _ es' w' => Networked vm hostIp address es' w' := by
  refine World.adds_call nofun fun _ w' hattached => ?_
  rw [← bind_pure (hypervisor (.forward vm.name forwardingRule address.port daemonPort))]
  refine World.adds_call nofun fun _ w'' hforwarded => World.adds_pure ?_
  refine ⟨?_, ⟨interface, ?_, ?_⟩, forwarded_of_answered hforwarded⟩
  · exact List.mem_append_left _ (List.mem_append_left _ hmade)
  · rw [World.interfaces_kept hforwarded nofun, World.interfaces_kept hattached nofun]
    exact hfound
  · unfold attachments at hnone ⊢
    rw [List.filterMap_append, List.filterMap_append, hnone]
    rfl

/-- An import adds an interface only for an address that none has yet, and connects its machine. -/
theorem adds_importImage (image : String) (vm : VmProfile) (w : World) :
    World.Adds [] (importImage image vm) w fun _ es' w' =>
      ∃ hostIp, hostAddress vm.ip = .ok hostIp ∧ ∃ address, Networked vm hostIp address es' w' := by
  unfold importImage
  cases hip : hostAddress vm.ip with
  | error e => exact fun a heq => by cases heq
  | ok hostIp =>
    have hconnect : ∀ {es : List (Event hostSignature)} {w : World} {interface : HostInterface}
        {address : Endpoint}, (Call.ssh .freshEndpoint).answered address ∈ es →
        attachments es = [] → w.interfaces.find? (·.ip = hostIp) = some interface →
        World.Adds es (hypervisor (.attach interface.name vm.name) >>= fun _ =>
            hypervisor (.forward vm.name forwardingRule address.port daemonPort)) w
          fun _ es' w' => ∃ hostIp', (.ok hostIp : Except MachineError String) = .ok hostIp' ∧
            ∃ address, Networked vm hostIp' address es' w' :=
      fun {_ _ _ address} hmade hnone hfound => (adds_connect hmade hnone hfound).mono
        fun _ _ _ h a heq => ⟨hostIp, rfl, address, h a heq⟩
    refine World.adds_call nofun fun address w hmade => ?_
    refine World.adds_call nofun fun _ w himported => ?_
    rw [interfaceFor_bind]
    refine World.adds_call nofun fun listed w' hlisted => ?_
    obtain rfl := World.interfaces_listed hlisted
    rw [← World.interfaces_kept hlisted nofun]
    cases hfound : w'.interfaces.find? (·.ip = hostIp) with
    | some interface => exact hconnect (List.mem_cons_self ..) rfl hfound
    | none =>
      refine World.adds_call ?_ fun created w'' hcreated => ?_
      · intro ip heq interface hin hsame
        obtain rfl : hostIp = ip := by cases heq; rfl
        exact List.find?_eq_none.mp hfound interface hin (decide_eq_true hsame)
      · have hfirst : w''.interfaces.find? (·.ip = hostIp) = some ⟨created, hostIp⟩ := by
          rw [World.interface_created hcreated, List.find?_append, hfound]
          simp
        exact hconnect (List.mem_cons_self ..) rfl hfirst

end Machine

/-- An import that is tried, with the calls that are to fail meanwhile. -/
structure ImportAttempt where
  image : String
  vm : VmProfile
  plan : FaultPlan

namespace World

/-- What becomes of an import. -/
def importing (a : ImportAttempt) (w : World) :
    Outcome hostSignature World (Except MachineError Unit) :=
  { w with plan := a.plan }.run (Machine.importImage a.image a.vm)

/-- The world while an import is made, after so many of its calls. -/
def amidImport (a : ImportAttempt) (calls : Nat) (w : World) : World :=
  (Program.run World.host ((Machine.importImage a.image a.vm).program.upTo calls)
    { w with plan := a.plan }).state

/-- The world after some imports. -/
def afterImports : List ImportAttempt → World → World
  | [], w => w
  | a :: more, w => afterImports more (w.importing a).state

variable {w : World} {a : ImportAttempt}

theorem afterImports_append (imports more : List ImportAttempt) (w : World) :
    w.afterImports (imports ++ more) = (w.afterImports imports).afterImports more := by
  induction imports generalizing w with
  | nil => rfl
  | cons a imports ih => exact ih _

/-! ### What imports keep -/

/-- No two interfaces have the same address. -/
def Distinct (w : World) : Prop := (w.interfaces.map (·.ip)).Nodup

theorem distinct_importing (hw : w.Distinct) (a : ImportAttempt) : (w.importing a).state.Distinct :=
  (Machine.adds_importImage a.image a.vm { w with plan := a.plan }).keeps
    (I := fun _ w => w.Distinct) (fun _ _ _ hc h => nodup_answer hc h) hw

theorem distinct_amidImport (hw : w.Distinct) (a : ImportAttempt) (calls : Nat) :
    (w.amidImport a calls).Distinct :=
  ((Machine.adds_importImage a.image a.vm { w with plan := a.plan }).upTo calls).keeps
    (I := fun _ w => w.Distinct) (fun _ _ _ hc h => nodup_answer hc h) hw

theorem distinct_afterImports (hw : w.Distinct) (imports : List ImportAttempt) :
    (w.afterImports imports).Distinct := by
  induction imports generalizing w with
  | nil => exact hw
  | cons a imports ih => exact ih (distinct_importing hw a)

theorem interfaces_importing (w : World) (a : ImportAttempt) :
    w.interfaces <+: (w.importing a).state.interfaces :=
  Program.Makes.run_keeps (R := fun _ (w' : World) => w.interfaces <+: w'.interfaces)
    (fun _ _ c _ h => h.trans (interfaces_grow c)) (Program.makes_any _) [] (List.prefix_refl _)

theorem interfaces_afterImports (imports : List ImportAttempt) (w : World) :
    w.interfaces <+: (w.afterImports imports).interfaces := by
  induction imports generalizing w with
  | nil => exact List.prefix_refl _
  | cons a imports ih => exact (interfaces_importing w a).trans (ih _)

/-- An import that succeeds has connected its machine. -/
theorem networked_importing (h : (w.importing a).result = some (.ok ())) :
    ∃ hostIp, Machine.hostAddress a.vm.ip = .ok hostIp ∧ ∃ address,
      Machine.Networked a.vm hostIp address (w.importing a).events (w.importing a).state :=
  (Machine.adds_importImage a.image a.vm { w with plan := a.plan }).ends_run () h

end World

/-- Two addresses are in one network of 256 addresses. -/
def SameNetwork (ip ip' : String) : Prop :=
  ∃ x y, Network.Ipv4.ofText? ip.toList = some x ∧ Network.Ipv4.ofText? ip'.toList = some y ∧
    x.a = y.a ∧ x.b = y.b ∧ x.c = y.c

theorem Machine.hostAddress_error {ip : String} {e : MachineError}
    (h : hostAddress ip = .error e) : e = .invalidIp ip := by
  unfold hostAddress at h
  split at h
  · cases h
  · exact (Except.error.inj h).symm

/-- The host has one address in a network. -/
theorem Machine.hostAddress_eq {ip ip' : String} (h : SameNetwork ip ip') :
    hostAddress ip = hostAddress ip' := by
  obtain ⟨x, y, hx, hy, ha, hb, hc⟩ := h
  unfold hostAddress
  rw [hx, hy]
  dsimp only [Network.Ipv4.gateway]
  rw [ha, hb, hc]

namespace World

variable {w : World}

/-- Machines that are imported into one network are attached to one interface, whatever is
imported in between. -/
theorem attached_alike {earlier later : ImportAttempt} {between : List ImportAttempt}
    (hnetwork : SameNetwork earlier.vm.ip later.vm.ip)
    (hearlier : (w.importing earlier).result = some (.ok ()))
    (hlater : (((w.importing earlier).state.afterImports between).importing later).result =
      some (.ok ())) :
    ∃ interface, attachments (w.importing earlier).events = [interface] ∧
      attachments (((w.importing earlier).state.afterImports between).importing later).events =
        [interface] := by
  obtain ⟨hostIp, hip, _, hbefore⟩ := networked_importing hearlier
  obtain ⟨hostIp', hip', _, hafter⟩ := networked_importing hlater
  obtain rfl : hostIp = hostIp' :=
    Except.ok.inj (hip.symm.trans ((Machine.hostAddress_eq hnetwork).trans hip'))
  obtain ⟨interface, hfound, hattached⟩ := hbefore.attached
  obtain ⟨interface', hfound', hattached'⟩ := hafter.attached
  -- The interface of the earlier import still comes first among those with its address.
  have hstays := ((interfaces_afterImports between _).trans
    (interfaces_importing _ later)).find?_eq_some hfound
  obtain rfl : interface = interface' := Option.some.inj (hstays.symm.trans hfound')
  exact ⟨interface.name, hattached, hattached'⟩

/-- If no failure is planned, the port of a machine that is there is found. -/
theorem forwardedPort_unplanned {name rule : String} {m : Machine} (hm : w.machine? name = some m)
    (hplan : w.plan = .none) :
    (w.run (DevVm.Machine.hypervisor (.forwardedPort name rule))).result =
      some (.ok (Table.get? rule m.forward)) := by
  have hanswer : (w.answer ⟨.hypervisor (.forwardedPort name rule), false⟩).1 =
      .ok (Table.get? rule m.forward) := by
    refine (congrArg Prod.fst (answer_unplanned hplan _)).trans ?_
    show ((w.counted _).inspect _ name _).1 = _
    unfold inspect
    rw [show (w.counted _).machine? name = some m from hm]
    rfl
  show some (Except.mapError _ (w.answer ⟨.hypervisor (.forwardedPort name rule), false⟩).1) = _
  rw [hanswer]
  rfl

/-- The port that was made out for a machine is the one that is found to be forwarded. -/
theorem forwarded_importing {a : ImportAttempt} (h : (w.importing a).result = some (.ok ())) :
    ∃ address : Endpoint, (Call.ssh .freshEndpoint).answered address ∈ (w.importing a).events ∧
      ({ (w.importing a).state with plan := .none }.run
        (Machine.hypervisor (.forwardedPort a.vm.name "ssh"))).result =
          some (.ok (some address.port)) := by
  obtain ⟨_, -, address, hnetworked⟩ := networked_importing h
  obtain ⟨m, hm, hport⟩ := hnetworked.forwarded
  refine ⟨address, hnetworked.made, ?_⟩
  rw [← hport]
  exact forwardedPort_unplanned (w := { (w.importing a).state with plan := .none }) hm rfl

end World

/-! ## All imports -/

/-- How an import goes, on whatever host. An address that is none is rejected before any call, and
otherwise the calls are those of a script up to the first that fails. -/
def ImportsInOrder {σ : Type} (host : Host hostSignature σ) (image : String) (vm : VmProfile)
    (s : σ) : Prop :=
  let o := Program.run host (Machine.importImage image vm).program s
  match Machine.hostAddress vm.ip with
  | .error _ => o = ⟨some (.error (.invalidIp vm.ip)), [], s⟩
  | .ok hostIp =>
    ∃ steps, Machine.ImportScript image vm hostIp steps ∧ Carried steps o ∧
      o.events.map (·.call) <+: steps.map (·.call) ∧ (o.result = some (.ok ()) ↔ o.events = steps)

theorem imports_inOrder {σ : Type} (host : Host hostSignature σ) (image : String) (vm : VmProfile)
    (s : σ) : ImportsInOrder host image vm s := by
  unfold ImportsInOrder
  dsimp only
  split
  next e hip =>
    obtain rfl := Machine.hostAddress_error hip
    unfold Machine.importImage
    rw [hip]
    rfl
  next hostIp hip =>
    obtain ⟨steps, hscript, hcarried⟩ := Machine.importImage_follows host s image hip
    exact ⟨steps, hscript, hcarried, hcarried.calls⟩

/-- An import makes its calls in order up to the first that fails, on whatever host. In a world, and
after any imports with any failures: no two interfaces have come to have the same address at any
call of the next one if they had not before, a machine is attached to the interface that an
earlier one in its network was attached to, and the port made out for it is forwarded to it. -/
theorem imports_share_interfaces (w : World) (imports : List ImportAttempt) (next : ImportAttempt) :
    (∀ (σ : Type) (host : Host hostSignature σ) (image : String) (vm : VmProfile) (s : σ),
      ImportsInOrder host image vm s) ∧
    let now := w.afterImports imports
    let o := now.importing next
    (w.Distinct → ∀ calls, (now.amidImport next calls).Distinct) ∧
    (∀ before earlier between, imports = before ++ earlier :: between →
      SameNetwork earlier.vm.ip next.vm.ip →
      ((w.afterImports before).importing earlier).result = some (.ok ()) →
      o.result = some (.ok ()) →
      ∃ interface,
        attachments ((w.afterImports before).importing earlier).events = [interface] ∧
        attachments o.events = [interface]) ∧
    (o.result = some (.ok ()) →
      ∃ address : Endpoint, (Call.ssh .freshEndpoint).answered address ∈ o.events ∧
        ({ o.state with plan := .none }.run
          (Machine.hypervisor (.forwardedPort next.vm.name "ssh"))).result =
            some (.ok (some address.port))) := by
  refine ⟨fun σ => imports_inOrder, fun hw calls => ?_, ?_, World.forwarded_importing⟩
  · exact World.distinct_amidImport (World.distinct_afterImports hw imports) next calls
  · rintro before earlier between rfl hnetwork hearlier hnext
    rw [World.afterImports_append] at hnext ⊢
    exact World.attached_alike hnetwork hearlier hnext

/-- No machine can be attached to an interface. -/
def attachFails : FaultPlan
  | .hypervisor (.attach _ _), _ => some (.parse "" "")
  | _, _ => none

/-- The import of a machine of a name with an address. -/
def sampleImport (name ip : String) (plan : FaultPlan) : ImportAttempt where
  image := sampleSettings.imagePath
  vm := { VmProfile.planned sampleSettings none none (some ip) none with name }
  plan

theorem ok_of_value {ε : Type} {result : Option (Except ε Unit)}
    (h : result.map (·.toOption) = some (some ())) : result = some (.ok ()) := by
  rcases result with _ | e | a <;> cases h
  rfl

/-- Two machines in one network, and an import into another network between them that fails once
it has added its interface. -/
theorem imports_share_interfaces_pair :
    let first := sampleImport "pcfdev-a" "192.168.11.11" .none
    let other := sampleImport "pcfdev-b" "10.0.0.5" attachFails
    let last := sampleImport "pcfdev-c" "192.168.11.12" .none
    let o := (sampleWorld.afterImports [first, other]).importing last
    o.state.interfaces.map (·.ip) = ["192.168.11.1", "10.0.0.1"] ∧
      ∃ interface, attachments (sampleWorld.importing first).events = [interface] ∧
        attachments o.events = [interface] := by
  intro first other last o
  have hnetwork : SameNetwork first.vm.ip last.vm.ip :=
    ⟨⟨192, 168, 11, 11⟩, ⟨192, 168, 11, 12⟩, by decide, by decide, rfl, rfl, rfl⟩
  have hfirst : (sampleWorld.importing first).result = some (.ok ()) :=
    ok_of_value (by decide +kernel)
  have hlast : o.result = some (.ok ()) := ok_of_value (by decide +kernel)
  refine ⟨by decide +kernel, ?_⟩
  exact (imports_share_interfaces sampleWorld [first, other] last).2.2.1 [] first [other] rfl
    hnetwork hfirst hlast

end DevVm
