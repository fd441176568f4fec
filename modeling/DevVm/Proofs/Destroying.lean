import DevVm.Proofs.Imports
import DevVm.Proofs.Inventory
import DevVm.Proofs.Provisioning
import Mathlib.Data.List.Nodup

/-!
# Destroying machines

Destroying takes names one by one, and the list of machines shrinks as it goes: a name that is
given twice is that of no machine the second time. For one name there are up to four calls, each
of which may fail, and at whichever of them a run stops, only machines of that name and of the
names before it can have been touched (`Machine.ensures_destroyOne`, `Machine.StopsWithin`).

What a machine that is removed is doing at that moment is a matter of one name, and so it is shown
by standings (`HostCall.Clears`). That a name has one machine only is what lets the answer to a
look at it speak for all that is removed.

The user's command takes the names of this program's machines, as they are listed, and nothing
else (`UserCommand.destroys_own`).
-/

namespace DevVm

open DevVm.Task DevVm.World

namespace World

variable {w w' : World} {names : List String}

/-- The machines of a world, without those of some names. -/
def besides (names : List String) (w : World) : List Machine :=
  w.machines.filter (·.name ∉ names)

/-- The names of this program's machines, in the hypervisor's order. -/
def ownNames (w : World) : List String := (w.machines.map (·.name)).filter Machine.isOwnName

@[simp] theorem besides_nil : w.besides [] = w.machines :=
  List.filter_eq_self.mpr fun _ _ => by simp

/-- Once the machines of some names are gone, the others without those of more names are all
without those of both. -/
theorem besides_of_removed {more : List String} (h : w'.machines = w.besides names) :
    w'.besides more = w.besides (names ++ more) := by
  unfold besides at h ⊢
  rw [h, List.filter_filter]
  refine List.filter_congr fun m _ => ?_
  simp [Bool.and_comm]

/-- Worlds that agree without the machines of some names agree without those of more. -/
theorem besides_of_besides {more : List String} (h : w'.besides names = w.besides names)
    (hmore : ∀ n ∈ names, n ∈ more) : w'.besides more = w.besides more := by
  have hfurther : ∀ w : World, w.besides more = (w.besides names).filter (·.name ∉ more) := by
    intro w
    unfold besides
    rw [List.filter_filter]
    refine List.filter_congr fun m _ => ?_
    have hin := hmore m.name
    grind
  rw [hfurther, hfurther, h]

theorem besides_self_of_removed (h : w'.machines = w.besides names) :
    w'.besides names = w.besides names := by
  unfold besides at h ⊢
  rw [h, List.filter_filter]
  simp only [Bool.and_self]

/-- Without this program's machines there are those of other names. -/
theorem besides_ownNames :
    w.besides w.ownNames = w.machines.filter fun m => !Machine.isOwnName m.name := by
  refine List.filter_congr fun m hm => ?_
  have hmem : m.name ∈ w.ownNames ↔ Machine.isOwnName m.name = true := by
    unfold ownNames
    rw [List.mem_filter]
    exact ⟨And.right, fun h => ⟨List.mem_map_of_mem hm, h⟩⟩
  simp [hmem]

theorem ownNames_eq_nil (h : w.machines = w'.besides w'.ownNames) : w.ownNames = [] := by
  rw [besides_ownNames] at h
  refine List.filter_eq_nil_iff.mpr fun n hn => ?_
  obtain ⟨m, hm, rfl⟩ := List.mem_map.mp hn
  rw [h] at hm
  simpa using (List.mem_filter.mp hm).2

/-- What is done to the first machine of a name is done to none of another name. -/
theorem filter_updateFirst {name : String} {f : Machine → Machine}
    (hf : ∀ m, (f m).name = m.name) (machines : List Machine) :
    (updateFirst name f machines).filter (·.name ∉ [name]) =
      machines.filter (·.name ∉ [name]) := by
  induction machines with
  | nil => rfl
  | cons m more ih =>
    unfold updateFirst
    split
    next hm =>
      rw [List.filter_cons_of_neg (by simp [hf, hm]), List.filter_cons_of_neg (by simp [hm])]
    next hm =>
      rw [List.filter_cons_of_pos (by simp [hm]), List.filter_cons_of_pos (by simp [hm]), ih]

/-- No call changes the plan. -/
theorem answer_plan (c : HostCall) (w : World) : (w.answer c).2.plan = w.plan := by
  rcases answer_cases c w with ⟨failure, hfailed⟩ | hdone
  · rw [hfailed]
    rfl
  · rw [hdone, perform_plan]
    rfl

/-- A name that only one machine has is that machine's. -/
theorem machine?_of_mem (hdistinct : (w.machines.map (·.name)).Nodup) {m : Machine}
    (hm : m ∈ w.machines) : w.machine? m.name = some m := by
  have hthere : (w.machine? m.name).isSome :=
    List.find?_isSome.mpr ⟨m, hm, decide_eq_true rfl⟩
  obtain ⟨m', hfound⟩ := Option.isSome_iff_exists.mp hthere
  have hname : m'.name = m.name := by simpa using List.find?_some hfound
  rw [hfound, List.inj_on_of_nodup_map hdistinct (List.mem_of_find?_eq_some hfound) hm hname]

end World

/-- How a call may be made where machines are destroyed. The machine of the name is not removed
while it runs. -/
inductive HostCall.Clears (n : String) (s : Standing) : HostCall → Prop where
  | isRegistered (name : String) : Clears n s ⟨.hypervisor (.isRegistered name), false⟩
  | isRunning (name : String) : Clears n s ⟨.hypervisor (.isRunning name), false⟩
  | switchOff (name : String) : Clears n s ⟨.hypervisor (.switchOff name), false⟩
  | remove (name : String) (h : name = n → ∀ m, s.machine = some m → m.power ≠ .running) :
      Clears n s ⟨.hypervisor (.remove name), false⟩

/-- Nothing is imported. -/
theorem HostCall.Clears.names {n : String} {w : World} {c : HostCall}
    (hc : c.Clears n (w.standing n)) :
    ((World.host.answer c w).2.machines.map (·.name)).Sublist (w.machines.map (·.name)) := by
  have hnames : ((World.host.answer c w).2.standing n).names.Sublist (w.standing n).names :=
    reply_cases (P := fun _ (s : Standing) => s.names.Sublist (w.standing n).names)
      (fun _ _ => Standing.names_effect (by cases hc <;> nofun)) fun _ => List.Sublist.refl _
  exact hnames

/-! ## Destroying the machines of one name -/

namespace Machine

variable {w : World}

/-- A request is answered and has its effect, or it fails and has none, by plan or for want of
the machine it is about. -/
theorem ensures_request (request : HypervisorCall) (w : World) :
    Ensures World.host (hypervisor request) w
      (fun v es w' => w'.inventory = w.inventory.requestEffect request ∧ w'.plan = w.plan ∧
        (∀ n, (w.standing n).SaysRequest n request v) ∧ es = [(Call.hypervisor request).answered v])
      (fun _ es w' => w'.inventory = w.inventory ∧
        ((∀ name, request.subject? = some name → (w.machine? name).isSome) →
          w.plan ≠ FaultPlan.none) ∧
        ∃ failure, es = [⟨⟨.hypervisor request, false⟩, .error failure⟩]) := by
  refine ensures_need (fun v w' h => ⟨inventory_of_ok h, ?_, fun n => (standing_of_ok h).2, rfl⟩)
    fun e w' h => ⟨inventory_of_error h, fun hthere hplan => ?_, e, rfl⟩
  · have hkept := answer_plan ⟨.hypervisor request, false⟩ w
    rw [show w.answer _ = (.ok v, w') from h] at hkept
    exact hkept
  · have hok := request_answered (w := w.counted (w.names.call (.hypervisor request))) hthere
    have hfailed := congrArg (fun answer => Except.isOk answer.1)
      ((answer_unplanned hplan ⟨.hypervisor request, false⟩).symm.trans h)
    exact absurd (hok.symm.trans hfailed) (by nofun)

/-- How destroying one machine stops: by plan, and with all others as they were. -/
def Spares (name : String) (w w' : World) : Prop :=
  w.plan ≠ FaultPlan.none ∧ w'.besides [name] = w.besides [name]

/-- A look leaves everything as it was. -/
theorem ensures_look {request : HypervisorCall} (name : String)
    (hsubject : request.subject? = none)
    (heffect : w.inventory.requestEffect request = w.inventory) :
    Ensures World.host (hypervisor request) w
      (fun v _ w' => w'.inventory = w.inventory ∧ w'.plan = w.plan ∧
        ∀ n, (w.standing n).SaysRequest n request v)
      (fun _ _ w' => Spares name w w') := by
  refine (ensures_request request w).mono (fun v _ w' h => ?_) fun _ _ w' h => ⟨h.2.1 ?_, ?_⟩
  · exact ⟨h.1.trans heffect, h.2.1, h.2.2.1⟩
  · intro n hn
    rw [hsubject] at hn
    cases hn
  · exact congrArg (fun i => i.machines.filter (·.name ∉ [name])) h.1

/-- Powering a machine off changes no machine of another name. -/
theorem ensures_switchOff {name : String} (hthere : (w.machine? name).isSome) :
    Ensures World.host (hypervisor (.switchOff name)) w
      (fun _ _ w' => w'.plan = w.plan ∧ (w'.machine? name).isSome ∧
        w'.besides [name] = w.besides [name])
      (fun _ _ w' => Spares name w w') := by
  refine (ensures_request _ w).mono (fun _ _ w' h => ?_) fun _ _ w' h => ⟨h.2.1 ?_, ?_⟩
  · obtain ⟨hinventory, hplan, -⟩ := h
    have hchanged : w'.machines = updateFirst name (·.powered .stopped) w.machines :=
      congrArg Inventory.machines hinventory
    have hname : ∀ m : World.Machine, (m.powered .stopped).name = m.name := fun _ => rfl
    refine ⟨hplan, ?_, ?_⟩
    · unfold machine?
      rw [hchanged, find?_updateFirst hname, if_pos rfl, Option.isSome_map]
      exact hthere
    · unfold besides
      rw [hchanged, filter_updateFirst hname]
  · intro n hn
    rw [← Option.some.inj hn]
    exact hthere
  · exact congrArg (fun i => i.machines.filter (·.name ∉ [name])) h.1

/-- Removing a machine leaves the machines of other names. -/
theorem ensures_remove {name : String} (hthere : (w.machine? name).isSome) :
    Ensures World.host (hypervisor (.remove name)) w
      (fun _ _ w' => w'.plan = w.plan ∧ w'.machines = w.besides [name])
      (fun _ _ w' => Spares name w w') := by
  refine (ensures_request _ w).mono (fun _ _ w' h => ⟨h.2.1, ?_⟩) fun _ _ w' h => ⟨h.2.1 ?_, ?_⟩
  · rw [show w'.machines = _ from congrArg Inventory.machines h.1]
    exact List.filter_congr fun m _ => by simp
  · intro n hn
    rw [← Option.some.inj hn]
    exact hthere
  · exact congrArg (fun i => i.machines.filter (·.name ∉ [name])) h.1

/-- Destroying the machines of a name touches no others. If it fails then by plan. -/
theorem ensures_destroyOne (name : String) (w : World) :
    Ensures World.host (destroyOne name) w
      (fun _ _ w' => w'.plan = w.plan ∧ w'.machines = w.besides [name])
      (fun _ _ w' => Spares name w w') := by
  have hremove : ∀ {w' : World}, w'.plan = w.plan → (w'.machine? name).isSome →
      w'.besides [name] = w.besides [name] →
      Ensures World.host (hypervisor (.remove name)) w'
        (fun _ _ w'' => w''.plan = w.plan ∧ w''.machines = w.besides [name])
        (fun _ _ w'' => Spares name w w'') := by
    intro w' hplan hthere hbesides
    exact (ensures_remove hthere).mono (fun _ _ _ h => ⟨h.1.trans hplan, h.2.trans hbesides⟩)
      fun _ _ _ h => ⟨hplan ▸ h.1, h.2.trans hbesides⟩
  refine (ensures_look name rfl rfl).bind fun present es w₁ hpresent => ?_
  obtain ⟨hsame, hplan, hsays⟩ := hpresent
  have hpresent : present = (w.machine? name).isSome := hsays name rfl
  have hmachines : w₁.machines = w.machines := congrArg Inventory.machines hsame
  split
  next hisPresent =>
    rw [hpresent] at hisPresent
    have hthere : ∀ {w' : World}, w'.inventory = w₁.inventory → (w'.machine? name).isSome := by
      intro w' h
      have hsame : w'.machines = w.machines := congrArg Inventory.machines (h.trans hsame)
      unfold machine?
      rw [hsame]
      exact hisPresent
    have hbesides : ∀ {w' : World}, w'.inventory = w₁.inventory →
        w'.besides [name] = w.besides [name] := fun h =>
      congrArg (fun i => i.machines.filter (·.name ∉ [name])) (h.trans hsame)
    have hrunning : Ensures World.host (hypervisor (.isRunning name)) w₁
        (fun _ _ w' => w'.inventory = w₁.inventory ∧ w'.plan = w.plan)
        (fun _ _ w' => Spares name w w') :=
      (ensures_look name rfl rfl).mono (fun _ _ _ h => ⟨h.1, h.2.1.trans hplan⟩)
        fun _ _ _ h => ⟨hplan ▸ h.1, h.2.trans (hbesides rfl)⟩
    refine Ensures.bind hrunning fun running es w₂ hlooked => ?_
    obtain ⟨hlooked, hplan⟩ := hlooked
    split
    · -- It is powered off before it is removed, which changes it but no other.
      refine Ensures.bind ((ensures_switchOff (hthere hlooked)).mono (fun _ _ _ h => h)
        fun _ _ _ h => ⟨hplan ▸ h.1, h.2.trans (hbesides hlooked)⟩) fun _ es w₃ hoff => ?_
      exact hremove (hoff.1.trans hplan) hoff.2.1 (hoff.2.2.trans (hbesides hlooked))
    · exact hremove hplan (hthere hlooked) (hbesides hlooked)
  next habsent =>
    refine ensures_pure ⟨hplan, ?_⟩
    have hnone := not_named_of_absent (w := w) (n := name)
      (Option.not_isSome_iff_eq_none.mp (hpresent ▸ habsent))
    rw [hmachines]
    exact (List.filter_eq_self.mpr fun m hm => by simpa using hnone m hm).symm

/-! ## What is destroyed does not run -/

section

variable {n : String} {s : Standing} {es : List (Event hostSignature)}

/-- The machines of one name are powered off before they are removed. -/
theorem heeds_destroyOne (name : String) :
    Heeds n (fun _ s c => c.Clears n s) (destroyOne name) es s (fun _ _ _ => True)
      fun _ _ _ => True := by
  have hremove : ∀ {es s}, (name = n → ∀ m, s.machine = some m → m.power ≠ .running) →
      Heeds n (fun _ s c => c.Clears n s) (hypervisor (.remove name)) es s (fun _ _ _ => True)
        fun _ _ _ => True := fun hrests =>
    heeds_need (.remove name hrests) (fun _ _ => trivial) fun _ => trivial
  refine heeds_call (.isRegistered name) (fun _ => trivial) fun present _ => ?_
  split
  · refine heeds_call (.isRunning name) (fun _ => trivial) fun running hrunning => ?_
    have hrunning : name = n → running = s.machine.any (·.power = .running) := hrunning
    split
    · -- From here on it is stopped.
      refine heeds_call (.switchOff name) (fun _ => trivial) fun _ _ => ?_
      refine hremove fun hname m hm => ?_
      subst hname
      have hm : (s.change name name (·.powered .stopped)).machine = some m := hm
      unfold Standing.change at hm
      rw [if_pos rfl] at hm
      obtain ⟨m', -, rfl⟩ := Option.map_eq_some_iff.mp hm
      exact nofun
    next hstopped =>
      refine hremove fun hname m hm hpower => hstopped ?_
      rw [hrunning hname, show s.machine = some m from hm]
      exact decide_eq_true hpower
  · exact heeds_pure trivial

theorem heeds_destroy (names : List String) :
    Heeds n (fun _ s c => c.Clears n s) (destroy names) es s (fun _ _ _ => True)
      fun _ _ _ => True := by
  induction names generalizing es s with
  | nil => exact heeds_pure trivial
  | cons name more ih => exact (heeds_destroyOne name).bind fun _ _ _ _ => ih

/-- No machine appears while machines are destroyed. -/
theorem names_of_destroy (names : List String) (w : World) :
    ((w.run (destroy names)).state.machines.map (·.name)).Sublist (w.machines.map (·.name)) := by
  have hheeds : Heeds "" _ (destroy names) [] (w.standing "") _ _ := heeds_destroy names
  exact (hheeds w rfl).keeps
    (I := fun _ w' => (w'.machines.map (·.name)).Sublist (w.machines.map (·.name)))
    (fun _ _ _ hc h => hc.names.trans h) (List.Sublist.refl _)

/-- A machine that is removed does not run at that moment. -/
theorem rests_at_remove (hdistinct : (w.machines.map (·.name)).Nodup) {names : List String}
    {before after : List (Event hostSignature)} {e : Event hostSignature}
    (hevents : (w.run (destroy names)).events = before ++ e :: after)
    (hremove : e.call.call = .hypervisor (.remove n)) :
    ∀ m ∈ (w.amid (destroy names) before.length).machines, m.name = n → m.power ≠ .running := by
  have hheeds : Heeds n _ (destroy names) [] (w.standing n) _ _ := heeds_destroy names
  have hnames : ((w.amid (destroy names) before.length).machines.map (·.name)).Sublist
      (w.machines.map (·.name)) := ((hheeds w rfl).upTo before.length).keeps
    (I := fun _ w' => (w'.machines.map (·.name)).Sublist (w.machines.map (·.name)))
    (fun _ _ _ hc h => hc.names.trans h) (List.Sublist.refl _)
  intro m hm hname
  subst hname
  obtain ⟨c, reply⟩ := e
  have hcall := (hheeds w rfl).at_call hevents
  cases hcall with
  | remove name h =>
    have hname : name = m.name := HypervisorCall.remove.inj (Call.hypervisor.inj hremove)
    exact h hname m (machine?_of_mem (hdistinct.sublist hnames) hm)
  | _ => cases hremove

end

/-! ## Destroying machines in order -/

/-- If all names have been dealt with, the machines of these names are gone and no others. -/
theorem ensures_destroy (names : List String) (w : World) :
    Ensures World.host (destroy names) w
      (fun _ _ w' => w'.plan = w.plan ∧ w'.machines = w.besides names)
      (fun _ _ _ => w.plan ≠ FaultPlan.none) := by
  induction names generalizing w with
  | nil => exact ensures_pure ⟨rfl, besides_nil.symm⟩
  | cons name more ih =>
    refine Ensures.bind ((ensures_destroyOne name w).mono (fun _ _ _ h => h) fun _ _ _ h => h.1)
      fun _ es w' hfirst => ?_
    obtain ⟨hplan, hmachines⟩ := hfirst
    exact (ih w').mono (fun _ _ _ h => ⟨h.1.trans hplan, h.2.trans (besides_of_removed hmachines)⟩)
      fun _ _ _ h => hplan ▸ h

/-- A run that stops at the machines of a name: the names before are done with, no call is made
for the later ones, the machines of the names before are gone, and no machine is touched that
bears neither one of these names nor this one. -/
structure StopsWithin (w : World) (names done : List String) (name : String)
    (later : List String) : Prop where
  split : names = done ++ name :: later
  cleared : (w.run (destroy done)).result = some (.ok ())
  events : (w.run (destroy names)).events = (w.run (destroy done)).events ++
    ((w.run (destroy done)).state.run (destroyOne name)).events
  gone : ∀ m ∈ (w.run (destroy names)).state.machines, m.name ∉ done
  spared : (w.run (destroy names)).state.besides (done ++ [name]) = w.besides (done ++ [name])

theorem stopsWithin {names : List String} {e : MachineError}
    (h : (w.run (destroy names)).result = some (.error e)) :
    ∃ done name later, StopsWithin w names done name later := by
  induction names generalizing w with
  | nil => cases h
  | cons name more ih =>
    have hfirst := ensures_destroyOne name w
    obtain ⟨result, hresult, -⟩ := (apart_destroyOne name).result World.host w
    cases result with
    | error e' =>
      have hrun : w.run (destroy (name :: more)) = _ := run_bind_of_error hresult
      refine ⟨[], name, more, rfl, rfl, ?_, fun _ _ => List.not_mem_nil, ?_⟩
      · rw [hrun]
        rfl
      · rw [hrun]
        exact (hfirst.of_error hresult).2
    | ok v =>
      have hmachines := (hfirst.of_ok hresult).2
      have hrun : ∀ more, w.run (destroy (name :: more)) = _ := fun more => run_bind_of_ok hresult
      rw [hrun] at h
      obtain ⟨done, other, later, hstops⟩ := ih h
      refine ⟨name :: done, other, later, congrArg _ hstops.split, ?_, ?_, fun m hm => ?_, ?_⟩
      · rw [hrun]
        exact hstops.cleared
      · rw [hrun, hrun]
        show _ ++ (World.run (destroy more) _).events = _
        rw [hstops.events]
        exact (List.append_assoc _ _ _).symm
      · rw [hrun] at hm
        -- No machine of the first name has come back.
        have hother : m.name ≠ name := by
          have hin := (names_of_destroy more _).subset (List.mem_map_of_mem hm)
          rw [show World.machines _ = _ from hmachines] at hin
          obtain ⟨m', hm', hname⟩ := List.mem_map.mp hin
          simpa [hname] using (List.mem_filter.mp hm').2
        exact List.not_mem_cons_of_ne_of_not_mem hother (hstops.gone m hm)
      · rw [hrun]
        refine (besides_of_besides hstops.spared fun n hn => List.mem_cons_of_mem name hn).trans ?_
        exact besides_of_besides (besides_self_of_removed hmachines) (by simp)

end Machine

/-! ## The user's command -/

namespace Program

variable {S : Signature} {α β σ : Type} {host : Host S σ} {p : Program S α} {s : σ}

/-- A run that is not cut off before its last call leaves off where the whole run does. -/
theorem run_upTo_length :
    (run host (p.upTo (run host p s).events.length) s).state = (run host p s).state := by
  induction p generalizing s with
  | done value => rfl
  | cut => rfl
  | call c next ih => exact ih _

/-- A sequence that is cut off in its second part. -/
theorem run_upTo_bind {f : α → Program S β} {a : α} (h : (run host p s).result = some a)
    (k : Nat) :
    (run host ((p >>= f).upTo ((run host p s).events.length + k)) s).state =
      (run host ((f a).upTo k) (run host p s).state).state := by
  induction p generalizing s with
  | done value =>
    obtain rfl : value = a := Option.some.inj h
    rw [show (run host (done value) s).events.length + k = k from Nat.zero_add k]
    rfl
  | cut => cases h
  | call c next ih =>
    have hnext := ih _ (s := (host.answer c s).2) h
    rw [show (run host (call c next) s).events.length + k =
      (run host (next (host.answer c s).1) (host.answer c s).2).events.length + k + 1 from
        Nat.succ_add _ k]
    exact hnext

end Program

namespace World

variable {ε α β : Type} {w : World} {t : Task ε α} {f : α → Task ε β}

theorem amid_zero : w.amid t 0 = w := by
  unfold amid
  cases t.program <;> rfl

theorem amid_length : w.amid t (w.run t).events.length = (w.run t).state :=
  Program.run_upTo_length

theorem amid_bind {a : α} (h : (w.run t).result = some (.ok a)) (k : Nat) :
    w.amid (t >>= f) ((w.run t).events.length + k) = (w.run t).state.amid (f a) k :=
  Program.run_upTo_bind h k

/-- Telling the user something cannot fail, and changes nothing else. -/
theorem run_tell (text : String) (w : World) :
    (w.run (Task.tell text : Task ε Unit)).result = some (.ok ()) ∧
      (w.run (Task.tell text : Task ε Unit)).events = [(Call.tell text).answered ()] ∧
      (w.run (Task.tell text : Task ε Unit)).state.inventory = w.inventory ∧
      (w.run (Task.tell text : Task ε Unit)).state.plan = w.plan := by
  have hends : Ensures World.host (Task.tell text : Task ε Unit) w
      (fun _ es w' => es = [(Call.tell text).answered ()] ∧ w'.inventory = w.inventory ∧
        w'.plan = w.plan) (fun _ _ _ => False) := by
    refine ensures_need (fun _ w' h => ⟨rfl, inventory_of_ok h, ?_⟩) fun e => nomatch e
    have hplan := answer_plan ⟨.tell text, false⟩ w
    rw [show w.answer _ = (.ok _, w') from h] at hplan
    exact hplan
  obtain ⟨v, hresult, hevents, hinventory, hplan⟩ := hends.succeeds
  exact ⟨hresult, hevents, hinventory, hplan⟩

end World

namespace UserCommand

variable {w : World}

/-- The names of this program's machines are those that are listed and start in its way. -/
theorem ensures_ownVms (w : World) :
    Ensures World.host (Machine.ownVms.mapError VmError.machine) w
      (fun names es w' => names = w.ownNames ∧
        es = [(Call.hypervisor .listAll).answered (w.machines.map (·.name))] ∧
        w'.inventory = w.inventory ∧ w'.plan = w.plan)
      (fun _ es w' => w.plan ≠ FaultPlan.none ∧ w'.inventory = w.inventory ∧
        ∃ failure, es = [⟨⟨.hypervisor .listAll, false⟩, .error failure⟩]) := by
  have hlist : Ensures World.host (Machine.hypervisor .listAll) w
      (fun names es w' => names = w.machines.map (·.name) ∧
        es = [(Call.hypervisor .listAll).answered (w.machines.map (·.name))] ∧
        w'.inventory = w.inventory ∧ w'.plan = w.plan)
      (fun _ es w' => w.plan ≠ FaultPlan.none ∧ w'.inventory = w.inventory ∧
        ∃ failure, es = [⟨⟨.hypervisor .listAll, false⟩, .error failure⟩]) := by
    refine (Machine.ensures_request .listAll w).mono (fun names es w' h => ?_) fun _ _ _ h => ?_
    · obtain ⟨hinventory, hplan, hsays, hevents⟩ := h
      have hnames : names = w.machines.map (·.name) := hsays ""
      exact ⟨hnames, hnames ▸ hevents, hinventory, hplan⟩
    · exact ⟨h.2.1 nofun, h.1, h.2.2⟩
  refine Ensures.mapError (hlist.bind fun names es w' hlisted => ensures_pure ?_)
  obtain ⟨rfl, rfl, hkept⟩ := hlisted
  exact ⟨rfl, rfl, hkept⟩

/-- What the command does with the names of this program's machines. -/
def clear (names : List String) : Task VmError Unit :=
  if names.isEmpty then
    Task.tell Vm.notCreatedText
  else do
    Task.tell "Destroying VM..."
    (Machine.destroy names).mapError .machine
    Task.tell "PCF Dev VM has been destroyed."

theorem destroyAll_eq : destroyAll = Machine.ownVms.mapError .machine >>= clear := rfl

/-- The outcome of a task that destroys the machines of some names after some calls that change
nothing, and then does nothing else but tell the user of it. -/
structure Destroys (names : List String) (t : Task VmError Unit) (w : World)
    (before after : List (Event hostSignature)) : Prop where
  inventory : (w.amid t before.length).inventory = w.inventory
  plan : (w.amid t before.length).plan = w.plan
  events : (w.run t).events =
    before ++ ((w.amid t before.length).run (Machine.destroy names)).events ++ after
  tells : ∀ e ∈ after, ∃ text, e = (Call.tell text).answered ()
  result : (w.run t).result =
    ((w.amid t before.length).run (Machine.destroy names)).result.map (·.mapError .machine)
  state : (w.run t).state.inventory =
    ((w.amid t before.length).run (Machine.destroy names)).state.inventory

theorem destroys_none (text : String) (w : World) :
    Destroys [] (Task.tell text) w [(Call.tell text).answered ()] [] := by
  obtain ⟨hresult, hevents, hinventory, hplan⟩ := run_tell (ε := VmError) text w
  have hamid : w.amid (Task.tell text : Task VmError Unit) [(Call.tell text).answered ()].length =
      _ := hevents ▸ amid_length
  refine ⟨hamid ▸ hinventory, hamid ▸ hplan, hevents, List.forall_mem_nil _, hresult, ?_⟩
  rw [hamid]
  rfl

/-- Telling the user at the end that something has been done adds nothing else to it. -/
theorem run_farewell (t : Task VmError Unit) (text : String) (w : World) :
    ∃ after, (∀ e ∈ after, ∃ text, e = (Call.tell text).answered ()) ∧
      (w.run (t >>= fun _ => Task.tell text)).events = (w.run t).events ++ after ∧
      (w.run (t >>= fun _ => Task.tell text)).result = (w.run t).result ∧
      (w.run (t >>= fun _ => Task.tell text)).state.inventory = (w.run t).state.inventory := by
  have hrun : w.run (t >>= fun _ => Task.tell text) = _ :=
    Program.run_bind World.host t.program (ExceptT.bindCont fun _ => Task.tell text) w
  rw [hrun]
  rcases hresult : (w.run t).result with _ | e | v
  · rw [show (Program.run World.host t.program w).result = none from hresult]
    exact ⟨[], List.forall_mem_nil _, (List.append_nil _).symm, rfl, rfl⟩
  · rw [show (Program.run World.host t.program w).result = some (.error e) from hresult]
    exact ⟨[], List.forall_mem_nil _, rfl, rfl, rfl⟩
  · rw [show (Program.run World.host t.program w).result = some (.ok v) from hresult]
    obtain ⟨htold, hevents, hinventory, -⟩ := run_tell (ε := VmError) text (w.run t).state
    exact ⟨[(Call.tell text).answered ()], fun e he => ⟨text, List.mem_singleton.mp he⟩,
      congrArg _ hevents, htold, hinventory⟩

/-- Calls that change nothing may come first. -/
theorem Destroys.following {α : Type} {names : List String} {t : Task VmError α}
    {f : α → Task VmError Unit} {a : α} {w : World}
    {first before after : List (Event hostSignature)}
    (hresult : (w.run t).result = some (.ok a)) (hevents : (w.run t).events = first)
    (hinventory : (w.run t).state.inventory = w.inventory)
    (hplan : (w.run t).state.plan = w.plan)
    (h : Destroys names (f a) (w.run t).state before after) :
    Destroys names (t >>= f) w (first ++ before) after := by
  subst hevents
  have hamid := amid_bind (f := f) hresult before.length
  rw [← List.length_append] at hamid
  have hrun : w.run (t >>= f) = _ := run_bind_of_ok hresult
  refine ⟨hamid ▸ h.inventory.trans hinventory, hamid ▸ h.plan.trans hplan, ?_, h.tells, ?_, ?_⟩
  · rw [hamid, hrun]
    show _ ++ ((w.run t).state.run (f a)).events = _
    rw [h.events]
    simp only [List.append_assoc]
    rfl
  · rw [hamid, hrun]
    exact h.result
  · rw [hamid, hrun]
    exact h.state

theorem destroys_some (names : List String) (text farewell : String) (w : World) :
    ∃ after, Destroys names (Task.tell text >>= fun _ =>
      (Machine.destroy names).mapError .machine >>= fun _ => Task.tell farewell) w
        [(Call.tell text).answered ()] after := by
  obtain ⟨htold, htelling, hinventory, hplan⟩ := run_tell (ε := VmError) text w
  have hmapped : (w.run (Task.tell text : Task VmError Unit)).state.run
      ((Machine.destroy names).mapError VmError.machine) = _ := run_mapError VmError.machine
  obtain ⟨after, htells, hevents, hresult, hstate⟩ := run_farewell
    ((Machine.destroy names).mapError .machine) farewell (w.run (Task.tell text)).state
  rw [hmapped] at hevents hresult hstate
  refine ⟨after, Destroys.following htold htelling hinventory hplan ⟨?_, ?_, ?_, htells, ?_, ?_⟩⟩
  · rw [List.length_nil, amid_zero]
  · rw [List.length_nil, amid_zero]
  · rw [List.length_nil, amid_zero]
    exact hevents
  · rw [List.length_nil, amid_zero]
    exact hresult
  · rw [List.length_nil, amid_zero]
    exact hstate

theorem destroys_clear (names : List String) (w : World) :
    ∃ text after, Destroys names (clear names) w [(Call.tell text).answered ()] after := by
  cases names with
  | nil => exact ⟨_, _, destroys_none Vm.notCreatedText w⟩
  | cons name more => exact ⟨_, destroys_some (name :: more) "Destroying VM..." _ w⟩

/-- Unless the list of machines cannot be had, the command destroys those of this program in the
order they are listed, and does nothing else but tell the user. -/
theorem destroys_own (w : World) :
    (w.plan ≠ FaultPlan.none ∧ (w.run destroyAll).state.inventory = w.inventory ∧
      ∃ failure, (w.run destroyAll).events = [⟨⟨.hypervisor .listAll, false⟩, .error failure⟩]) ∨
    ∃ text after, Destroys w.ownNames destroyAll w
      [(Call.hypervisor .listAll).answered (w.machines.map (·.name)), (Call.tell text).answered ()]
      after := by
  have hlist := ensures_ownVms w
  obtain ⟨result, hresult, -⟩ :=
    (Completes.mapError (f := VmError.machine) Machine.apart_ownVms).result World.host w
  rw [destroyAll_eq]
  cases result with
  | error e =>
    have hrun : w.run (Machine.ownVms.mapError .machine >>= clear) = _ :=
      run_bind_of_error hresult
    rw [hrun]
    exact .inl (hlist.of_error hresult)
  | ok names =>
    obtain ⟨rfl, hevents, hinventory, hplan⟩ := hlist.of_ok hresult
    obtain ⟨text, after, h⟩ := destroys_clear w.ownNames
      (w.run (Machine.ownVms.mapError VmError.machine)).state
    exact .inr ⟨text, after, Destroys.following hresult hevents hinventory hplan h⟩

end UserCommand

/-! ## Where a call fails -/

/-- A call that failed, and may not, was the last one, and its error is what came of it. -/
theorem Outcome.StopsAtFault.at_fault {σ ε α : Type} {licence : HostCall → Prop} {account : Account ε}
    {o : Outcome hostSignature σ (Except ε α)} (h : o.StopsAtFault licence account)
    {e : Event hostSignature} (he : e ∈ o.events) {fault : Fault} (hfault : e.fault? = some fault) :
    o.events.getLast? = some e ∧
      ∃ error, o.result = some (.error error) ∧ account.blames error fault := by
  rcases hfirst : o.events.find? (·.fault?.isSome) with _ | first
  · have hnone := List.find?_eq_none.mp hfirst e he
    exact absurd (hfault ▸ rfl) hnone
  · obtain ⟨hsome, before, after, hevents, hbefore⟩ := List.find?_eq_some_iff_append.mp hfirst
    obtain ⟨firstFault, hfirstFault⟩ := Option.isSome_iff_exists.mp hsome
    have hnone : ∀ earlier ∈ before, earlier.fault? = none := by
      intro earlier hin
      simpa using hbefore earlier hin
    obtain ⟨rfl, hends⟩ := h.stops before first after firstFault hevents hnone hfirstFault
    -- It is the first such call, so those before it are not.
    have hthis : e = first := by
      rw [hevents] at he
      rcases List.mem_append.mp he with hin | hin
      · rw [hnone e hin] at hfault
        cases hfault
      · exact List.mem_singleton.mp hin
    subst hthis
    obtain rfl := Option.some.inj (hfirstFault.symm.trans hfault)
    exact ⟨by rw [hevents, List.getLast?_append_cons]; rfl, hends⟩

namespace Machine

variable {w : World} {names : List String} {e : Event hostSignature} {fault : Fault}

theorem stops_destroy (names : List String) (w : World) :
    (w.run (destroy names)).StopsAtFault HostCall.Strict (MachineError.account fun _ => False) :=
  (failsStop_destroy trivial names).run World.host w

/-- Only requests to the hypervisor are made. -/
theorem request_of_destroy (he : e ∈ (w.run (destroy names)).events) :
    ∃ request, e.call.call = .hypervisor request := by
  obtain ⟨before, after, hevents⟩ := List.append_of_mem he
  have hheeds : Heeds "" _ (destroy names) [] (w.standing "") _ _ := heeds_destroy names
  obtain ⟨c, reply⟩ := e
  have hcall := (hheeds w rfl).at_call hevents
  cases hcall <;> exact ⟨_, rfl⟩

theorem machines_of_destroy {v : Unit} (h : (w.run (destroy names)).result = some (.ok v)) :
    (w.run (destroy names)).state.machines = w.besides names :=
  ((ensures_destroy names w).of_ok h).2

theorem destroy_of_faultless (h : ∀ e ∈ (w.run (destroy names)).events, e.fault? = none) :
    (w.run (destroy names)).result = some (.ok ()) ∧
      (w.run (destroy names)).state.machines = w.besides names := by
  obtain ⟨result, hresult, -⟩ := (apart_destroy names).result World.host w
  cases result with
  | error error => exact ((stops_destroy names w).refuses h error hresult).elim
  | ok v => exact ⟨hresult, machines_of_destroy hresult⟩

theorem faultless_of_unplanned (hplan : w.plan = FaultPlan.none) :
    ∀ e ∈ (w.run (destroy names)).events, e.fault? = none := by
  intro e he
  rw [Option.eq_none_iff_forall_ne_some]
  intro fault hfault
  obtain ⟨-, error, hresult, -⟩ := (stops_destroy names w).at_fault he hfault
  exact (ensures_destroy names w).of_error hresult hplan

/-- The error of a call that failed is the error of the removal, as it is. -/
theorem destroy_of_fault (he : e ∈ (w.run (destroy names)).events)
    (hfault : e.fault? = some fault) :
    (∃ failure, fault = .hypervisor failure ∧
      (w.run (destroy names)).result = some (.error (.hypervisor failure))) ∧
      (w.run (destroy names)).events.getLast? = some e ∧
      ∃ done name later, StopsWithin w names done name later := by
  obtain ⟨hlast, error, hresult, hblames⟩ := (stops_destroy names w).at_fault he hfault
  refine ⟨?_, hlast, stopsWithin hresult⟩
  obtain ⟨request, hrequest⟩ := request_of_destroy he
  have hfailure : ∃ failure, fault = .hypervisor failure := by
    obtain ⟨⟨call, tolerated⟩, reply⟩ := e
    obtain rfl : call = .hypervisor request := hrequest
    unfold Event.fault? at hfault
    split at hfault
    · cases hfault
    · split at hfault
      · cases hfault
      · exact ⟨_, (Option.some.inj hfault).symm⟩
  obtain ⟨failure, rfl⟩ := hfailure
  have hblames : error.fault? = some (.hypervisor failure) := hblames
  refine ⟨failure, rfl, ?_⟩
  cases error with
  | hypervisor cause =>
    obtain rfl := Fault.hypervisor.inj (Option.some.inj hblames)
    exact hresult
  | _ => cases hblames

end Machine

namespace UserCommand

variable {w : World}

theorem stops_destroyAll (w : World) :
    (w.run destroyAll).StopsAtFault HostCall.Strict (VmError.account 1 fun _ => False) :=
  (failsStop_destroyAll trivial).run World.host w

/-- A command that succeeds has left the machines of other programs, and no machine of this one. -/
theorem machines_of_destroyAll {v : Unit} (h : (w.run destroyAll).result = some (.ok v)) :
    (w.run destroyAll).state.machines = w.besides w.ownNames := by
  rcases destroys_own w with ⟨-, -, failure, hevents⟩ | ⟨text, after, hdestroys⟩
  · -- Without the list it has failed.
    obtain ⟨-, error, hresult, -⟩ := (stops_destroyAll w).at_fault
      (hevents ▸ List.mem_singleton_self _)
      (show Event.fault? _ = some (.hypervisor failure) from rfl)
    cases hresult.symm.trans h
  · have hstate : World.machines _ = World.machines _ := congrArg Inventory.machines hdestroys.state
    have hsame : World.machines _ = w.machines := congrArg Inventory.machines hdestroys.inventory
    rw [hdestroys.result] at h
    obtain ⟨result, hresult, hok⟩ := Option.map_eq_some_iff.mp h
    cases result with
    | error e => cases hok
    | ok v =>
      rw [hstate, Machine.machines_of_destroy hresult]
      unfold besides
      rw [hsame]

theorem result_of_faultless (h : ∀ e ∈ (w.run destroyAll).events, e.fault? = none) :
    (w.run destroyAll).result = some (.ok ()) := by
  obtain ⟨result, hresult, -⟩ := apart_destroyAll.result World.host w
  cases result with
  | error error => exact ((stops_destroyAll w).refuses h error hresult).elim
  | ok v => exact hresult

theorem destroyAll_of_unplanned (hplan : w.plan = FaultPlan.none) :
    ∀ e ∈ (w.run destroyAll).events, e.fault? = none := by
  intro e he
  rw [Option.eq_none_iff_forall_ne_some]
  intro fault hfault
  obtain ⟨-, error, hresult, -⟩ := (stops_destroyAll w).at_fault he hfault
  rcases destroys_own w with ⟨hplanned, -⟩ | ⟨text, after, hdestroys⟩
  · exact hplanned hplan
  · rw [hdestroys.result] at hresult
    obtain ⟨result, hremoved, herror⟩ := Option.map_eq_some_iff.mp hresult
    have hok : (World.run (Machine.destroy w.ownNames) _).result = _ :=
      (Machine.destroy_of_faultless
        (Machine.faultless_of_unplanned (hdestroys.plan.trans hplan))).1
    rw [hremoved] at hok
    rw [Option.some.inj hok] at herror
    cases herror

/-- Where there is no machine of this program, nothing is done. -/
theorem looks_destroyAll (h : w.ownNames = []) :
    ∀ e ∈ (w.run destroyAll).events, e.call.call.looks = true := by
  intro e he
  rcases destroys_own w with ⟨-, -, failure, hevents⟩ | ⟨text, after, hdestroys⟩
  · rw [hevents] at he
    rw [List.mem_singleton.mp he]
    rfl
  · rw [hdestroys.events, h] at he
    rcases List.mem_append.mp he with hin | hin
    · rcases List.mem_append.mp hin with hin | hin
      · rcases List.mem_cons.mp hin with rfl | hin
        · rfl
        · rw [List.mem_singleton.mp hin]
          rfl
      · cases hin
    · obtain ⟨text, rfl⟩ := hdestroys.tells e hin
      rfl

end UserCommand

/-! ## The result -/

/-- Destroying removes exactly what it names, in order. Where no two machines have the same name,
and for any list of names, a machine that is removed does not run at that moment. Calls fail only
by plan. If none does, the machines that are not named are left, as they were and in their order.
If one does, it is the last one; its error is the error of all, as it is, and some name of the list
was being dealt with: no call was made for the later ones, the machines of the names before it are
gone, and no machine is touched that bears neither one of these names nor this one.

The user's command destroys in this way the machines of this program, as they are listed, unless
the list cannot be had. If no call fails it succeeds, the machines of other programs are left, and
another time it changes nothing. -/
theorem destroy_removes_named (w : World) (hdistinct : (w.machines.map (·.name)).Nodup)
    (names : List String) :
    let run := w.run (Machine.destroy names)
    let all := w.run UserCommand.destroyAll
    (∀ before e after n, run.events = before ++ e :: after →
      e.call.call = .hypervisor (.remove n) →
      ∀ m ∈ (w.amid (Machine.destroy names) before.length).machines,
        m.name = n → m.power ≠ .running) ∧
    (w.plan = FaultPlan.none → ∀ e ∈ run.events ++ all.events, e.fault? = none) ∧
    ((∀ e ∈ run.events, e.fault? = none) →
      run.result = some (.ok ()) ∧ run.state.machines = w.machines.filter (·.name ∉ names)) ∧
    (∀ e ∈ run.events, ∀ fault, e.fault? = some fault →
      (∃ failure, fault = .hypervisor failure ∧
        run.result = some (.error (.hypervisor failure))) ∧
      run.events.getLast? = some e ∧
      ∃ done name later, Machine.StopsWithin w names done name later) ∧
    ((∃ failure, all.events = [⟨⟨.hypervisor .listAll, false⟩, .error failure⟩]) ∨
      ∃ text after, UserCommand.Destroys w.ownNames UserCommand.destroyAll w
        [(Call.hypervisor .listAll).answered (w.machines.map (·.name)),
          (Call.tell text).answered ()] after) ∧
    ((∀ e ∈ all.events, e.fault? = none) →
      all.result = some (.ok ()) ∧
      all.state.machines = w.machines.filter (fun m => !Machine.isOwnName m.name) ∧
      ∀ plan, ∀ e ∈ ({ all.state with plan }.run UserCommand.destroyAll).events,
        e.call.call.looks = true) := by
  intro run all
  refine ⟨fun _ _ _ _ hevents => Machine.rests_at_remove hdistinct hevents, fun hplan e he => ?_,
    Machine.destroy_of_faultless, fun _ he _ hfault => Machine.destroy_of_fault he hfault, ?_,
    fun hfaultless => ?_⟩
  · rcases List.mem_append.mp he with hin | hin
    · exact Machine.faultless_of_unplanned hplan e hin
    · exact UserCommand.destroyAll_of_unplanned hplan e hin
  · exact (UserCommand.destroys_own w).imp_left fun h => h.2.2
  · have hresult := UserCommand.result_of_faultless hfaultless
    have hmachines := UserCommand.machines_of_destroyAll hresult
    refine ⟨hresult, hmachines.trans besides_ownNames, fun plan => ?_⟩
    exact UserCommand.looks_destroyAll (ownNames_eq_nil hmachines)

/-- A host with two machines of this program, one of which runs, and one of another program. -/
def sharedWorld : World := { sampleWorld with
  machines := [⟨"pcfdev-a", .running, 4096, 2, [], []⟩, ⟨"default", .running, 1024, 1, [], []⟩,
    ⟨"pcfdev-b", .saved, 4096, 2, [], []⟩] }

/-- A name that is given twice and one that no machine has do no harm, and the machine of the other
program outlives the command. -/
theorem destroy_removes_named_shared :
    (sharedWorld.machines.map (·.name)).Nodup ∧
      (sharedWorld.run (Machine.destroy ["pcfdev-a", "nothing", "pcfdev-a"])).state.machines =
        [⟨"default", .running, 1024, 1, [], []⟩, ⟨"pcfdev-b", .saved, 4096, 2, [], []⟩] ∧
      (sharedWorld.run UserCommand.destroyAll).result = some (.ok ()) ∧
      (sharedWorld.run UserCommand.destroyAll).state.machines =
        [⟨"default", .running, 1024, 1, [], []⟩] := by
  have hdistinct : (sharedWorld.machines.map (·.name)).Nodup := by decide
  obtain ⟨-, hunplanned, hremoved, -, -, hall⟩ :=
    destroy_removes_named sharedWorld hdistinct ["pcfdev-a", "nothing", "pcfdev-a"]
  have hfaultless := hunplanned rfl
  obtain ⟨-, hmachines⟩ := hremoved fun e he => hfaultless e (List.mem_append_left _ he)
  obtain ⟨hresult, hothers, -⟩ := hall fun e he => hfaultless e (List.mem_append_right _ he)
  exact ⟨hdistinct, hmachines.trans (by decide), hresult, hothers.trans (by decide)⟩

end DevVm
