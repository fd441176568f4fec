import DevVm.Proofs.Standing

/-!
# Tasks in calm worlds and in others

In a *calm* world no failure is planned and the guest is obliging. A call whose object is
there (`Standing.Provides`) is answered then (`Calm.answered`), and the world stays calm
(`Calm.next`).

`Task.Yields` describes a task by standings alone, and for both kinds of world at once: from
a standing the task ends well, as `good` says, or else it ends badly, as `bad` says, but
never badly if it is `sure`, which is to say that the world is calm. A success comes to the
same in every world, so one description of an operation serves the runs in which calls fail
and those in which none does.
-/

namespace DevVm

/-- The machine that has to be there for a request to be answered. -/
def HypervisorCall.subject? : HypervisorCall → Option String
  | .powerOn name | .shutDown name | .saveState name | .switchOff name | .remove name
  | .size name | .attach _ name | .forward name _ _ _ | .forwardedPort name _
  | .extraData name _ | .putExtraData name _ _ => some name
  | .isRegistered _ | .isRunning _ | .isSaved _ | .listRunning | .listAll | .importImage ..
  | .interfaces | .createInterface _ => none

namespace World

/-- What a call is about is there: its machine, its file, and for the health check a guest
that is healthy. -/
def Standing.Provides (n : String) (s : Standing) : Call → Prop
  | .hypervisor request => ∀ name, request.subject? = some name → name = n ∧ s.machine.isSome
  | .ssh (.run command _ _ _) | .ssh (.capture command _ _ _) =>
    command = .checkHealth → s.healthy = true
  | .read path => (Table.get? path s.files).isSome
  | _ => True

variable {n name : String} {w w' : World}

/-! ## Calm worlds -/

/-- A world in which no call is planned to fail and the guest is obliging. -/
structure Calm (w : World) : Prop where
  unplanned : w.plan = FaultPlan.none
  obliging : w.guest.Obliging

/-- A request whose machine is there is answered. -/
theorem request_answered {request : HypervisorCall}
    (h : ∀ name, request.subject? = some name → (w.machine? name).isSome) :
    (w.hypervisorAnswer request).1.isOk = true := by
  -- A request about a machine is refused for one reason only, that there is none.
  have hinspect : ∀ {α : Type} (request : HypervisorCall) (read : Machine → α) (name : String),
      (w.machine? name).isSome → (w.inspect request name read).1.isOk = true := by
    intro α request read name hname
    obtain ⟨m, hm⟩ := Option.isSome_iff_exists.mp hname
    unfold inspect
    rw [hm]
    rfl
  have hmodify : ∀ (request : HypervisorCall) (f : Machine → Machine) (name : String),
      (w.machine? name).isSome → (w.modify request name f).1.isOk = true := by
    intro request f name hname
    obtain ⟨m, hm⟩ := Option.isSome_iff_exists.mp hname
    unfold modify
    rw [hm]
    rfl
  cases request with
  | isRegistered name => rfl
  | isRunning name => rfl
  | isSaved name => rfl
  | listRunning => rfl
  | listAll => rfl
  | importImage image name memory cpus => rfl
  | powerOn name => exact hmodify _ _ name (h name rfl)
  | shutDown name => exact hmodify _ _ name (h name rfl)
  | saveState name => exact hmodify _ _ name (h name rfl)
  | switchOff name => exact hmodify _ _ name (h name rfl)
  | remove name =>
    obtain ⟨m, hm⟩ := Option.isSome_iff_exists.mp (h name rfl)
    unfold hypervisorAnswer
    dsimp only
    rw [hm]
    rfl
  | size name => exact hinspect _ _ name (h name rfl)
  | interfaces => rfl
  | createInterface ip => rfl
  | attach interface name => exact hinspect _ _ name (h name rfl)
  | forward name rule hostPort guestPort => exact hmodify _ _ name (h name rfl)
  | forwardedPort name rule => exact hinspect _ _ name (h name rfl)
  | extraData name key => exact hinspect _ _ name (h name rfl)
  | putExtraData name key value => exact hmodify _ _ name (h name rfl)

/-- Nothing but the commands it runs changes the guest, and nothing changes the plan. -/
theorem request_keeps {request : HypervisorCall} :
    (w.hypervisorAnswer request).2.plan = w.plan ∧
      (w.hypervisorAnswer request).2.guest = w.guest := by
  have hinspect : ∀ {α : Type} (request : HypervisorCall) (read : Machine → α) (name : String),
      (w.inspect request name read).2.plan = w.plan ∧
        (w.inspect request name read).2.guest = w.guest := by
    intro α request read name
    unfold inspect
    split <;> exact ⟨rfl, rfl⟩
  have hmodify : ∀ (request : HypervisorCall) (f : Machine → Machine) (name : String),
      (w.modify request name f).2.plan = w.plan ∧ (w.modify request name f).2.guest = w.guest := by
    intro request f name
    unfold modify
    split <;> exact ⟨rfl, rfl⟩
  cases request with
  | remove name =>
    unfold hypervisorAnswer
    dsimp only
    split <;> exact ⟨rfl, rfl⟩
  | powerOn name => exact hmodify _ _ name
  | shutDown name => exact hmodify _ _ name
  | saveState name => exact hmodify _ _ name
  | switchOff name => exact hmodify _ _ name
  | size name => exact hinspect _ _ name
  | attach interface name => exact hinspect _ _ name
  | forward name rule hostPort guestPort => exact hmodify _ _ name
  | forwardedPort name rule => exact hinspect _ _ name
  | extraData name key => exact hinspect _ _ name
  | putExtraData name key value => exact hmodify _ _ name
  | _ => exact ⟨rfl, rfl⟩

/-- No call changes the plan. -/
theorem perform_plan (c : Call) : (w.perform c).2.plan = w.plan := by
  cases c with
  | hypervisor request => exact (request_keeps (w := w)).1
  | ssh request => cases request <;> rfl
  | read path =>
    unfold perform
    dsimp only
    split <;> rfl
  | _ => rfl

/-- A guest stays obliging, whatever is done in the world. -/
theorem obliging_perform (h : w.guest.Obliging) (c : Call) : (w.perform c).2.guest.Obliging := by
  cases c with
  | hypervisor request =>
    show (w.hypervisorAnswer request).2.guest.Obliging
    rw [request_keeps.2]
    exact h
  | ssh request =>
    cases request with
    | run command addresses key limit => exact h.answer
    | capture command addresses key limit => exact h.answer
    | session addresses key limit stdin => exact h.answer
    | _ => exact h
  | read path =>
    unfold perform
    dsimp only
    split <;> exact h
  | _ => exact h

theorem obliging_answer (h : w.guest.Obliging) (c : HostCall) :
    (w.answer c).2.guest.Obliging := by
  have hcounted : (w.counted (w.names.call c.call)).guest.Obliging := h
  unfold World.answer
  dsimp only
  split
  · exact hcounted
  · exact obliging_perform hcounted c.call

/-- A guest stays obliging through a task, whatever fails in it. -/
theorem obliging_run {ε α : Type} (h : w.guest.Obliging) (t : Task ε α) :
    (w.run t).state.guest.Obliging := by
  have hmakes : t.program.Makes fun _ => True := Program.makes_any _
  have hkept : (Program.run World.host t.program w).state.guest.Obliging :=
    Program.Makes.run_keeps (S := hostSignature) (R := fun _ (w : World) => w.guest.Obliging)
      (fun _ _ c _ h => obliging_answer h c) hmakes [] h
  exact hkept

theorem Calm.perform (hw : w.Calm) (c : Call) : (w.perform c).2.Calm :=
  ⟨(perform_plan c).trans hw.unplanned, obliging_perform hw.obliging c⟩

/-- If no failure is planned, a call comes to what the host does. -/
theorem answer_unplanned (hw : w.plan = FaultPlan.none) (c : HostCall) :
    w.answer c = (w.counted (w.names.call c.call)).perform c.call := by
  unfold World.answer
  dsimp only
  have hplan : (w.counted (w.names.call c.call)).plan = FaultPlan.none := hw
  rw [hplan]
  rfl

theorem Calm.counted (hw : w.Calm) (name : String) : (w.counted name).Calm :=
  ⟨hw.unplanned, hw.obliging⟩

theorem Calm.next (hw : w.Calm) {c : HostCall} {reply : c.call.Reply}
    (h : w.answer c = (reply, w')) : w'.Calm := by
  have hcalm := (hw.counted (w.names.call c.call)).perform c.call
  rw [← answer_unplanned hw.unplanned, h] at hcalm
  exact hcalm

/-- In a calm world a call is answered if what it is about is there. -/
theorem Calm.answered (hw : w.Calm) {c : HostCall} (h : (w.standing n).Provides n c.call) :
    (w.answer c).1.isOk = true := by
  rw [answer_unplanned hw.unplanned]
  obtain ⟨call, tolerated⟩ := c
  cases call with
  | hypervisor request =>
    refine request_answered fun name hname => ?_
    obtain ⟨rfl, hsome⟩ := h name hname
    exact hsome
  | ssh request =>
    -- Only a health check may fail, and only that of a guest that is not healthy.
    have hobeys : ∀ command : GuestCommand, (command = .checkHealth → w.guest.healthy = true) →
        (w.guest.answer command.text).1.status = some 0 := by
      intro command hhealthy
      refine hw.obliging.status.mpr fun htext => ?_
      by_cases hcheck : command = .checkHealth
      · exact hhealthy hcheck
      · exact absurd htext (GuestCommand.text_ne_checkHealth hcheck)
    cases request with
    | freshEndpoint => rfl
    | freshKeyPair => rfl
    | wait addresses key limit => rfl
    | run command addresses key limit => exact run_isOk.mpr (hobeys command h)
    | capture command addresses key limit => exact capture_isOk.mpr (hobeys command h)
    | session addresses key limit stdin =>
      refine (isOk_map _ _).trans (exitResult_isOk.mpr (hw.obliging.status.mpr fun htext => ?_))
      exact absurd htext (by decide)
  | read path =>
    obtain ⟨content, hcontent⟩ := Option.isSome_iff_exists.mp h
    show (World.perform (.read path) (w.counted _)).1.isOk = true
    unfold World.perform
    dsimp only
    rw [show Table.get? path (w.counted _).files = some content from hcontent]
    rfl
  | writePrivate path content => rfl
  | runProgram program args => rfl
  | tell text => rfl
  | confirm question => rfl

theorem Calm.not_failed (hw : w.Calm) {c : HostCall} {e : c.call.Failure}
    (h : w.answer c = (.error e, w')) : ¬(w.standing n).Provides n c.call := by
  intro hprovides
  have hanswered := hw.answered hprovides
  rw [h] at hanswered
  cases hanswered

/-- In a calm world a health check tells the truth. -/
theorem Calm.checkHealth (hw : w.Calm) {tolerated : Bool} {addresses : List Endpoint} {key : Bytes}
    {limit : Duration} {reply : Except SshError String}
    (h : w.answer ⟨.ssh (.capture .checkHealth addresses key limit), tolerated⟩ = (reply, w')) :
    Except.isOk reply = w.guest.healthy := by
  rw [answer_unplanned hw.unplanned] at h
  rw [Bool.eq_iff_iff, show reply = _ from (congrArg Prod.fst h).symm]
  refine capture_isOk.trans (hw.obliging.status.trans ?_)
  exact ⟨fun h => h rfl, fun h _ => h⟩

end World

/-! ## Tasks by standings -/

namespace Task

open DevVm.World

variable {n : String} {sure : Prop} {ε ε' α β : Type} {s : Standing}
  {good good' : α → Standing → Prop} {bad bad' : Standing → Prop}

/-- From a world of a standing, calm if it is sure, the task ends well, or, unless it is sure,
badly. What is said of the end is said of its standing, and a calm world stays calm. -/
def Yields (n : String) (sure : Prop) (t : Task ε α) (s : Standing)
    (good : α → Standing → Prop) (bad : Standing → Prop) : Prop :=
  ∀ w : World, w.standing n = s → (sure → w.Calm) →
    Ensures World.host t w (fun a _ w' => good a (w'.standing n) ∧ (sure → w'.Calm))
      (fun _ _ w' => ¬sure ∧ bad (w'.standing n))

theorem yields_pure {a : α} (h : good a s) : Yields n sure (pure a : Task ε α) s good bad := by
  intro w heq hcalm
  subst heq
  exact ensures_pure ⟨h, hcalm⟩

theorem yields_throw {e : ε} (hsure : ¬sure) (h : bad s) :
    Yields n sure (throw e : Task ε α) s good bad := by
  intro w heq _
  subst heq
  exact ensures_throw ⟨hsure, h⟩

theorem yields_cut (hsure : ¬sure) (h : bad s) :
    Yields n sure (cut : Task ε α) s good bad := by
  intro w heq _
  subst heq
  exact ensures_cut ⟨hsure, h⟩

theorem yields_ofExcept {answer : Except ε α} (hok : ∀ a, answer = .ok a → good a s)
    (herror : ∀ e, answer = .error e → ¬sure ∧ bad s) :
    Yields n sure (ofExcept answer) s good bad := by
  intro w heq hcalm
  subst heq
  exact ensures_ofExcept (fun a h => ⟨hok a h, hcalm⟩) herror

/-- A call whose failure ends the task. -/
theorem yields_need {c : Call} {wrap : c.Failure → ε} {good : c.Value → Standing → Prop}
    (hsure : sure → s.Provides n c) (hok : ∀ v, s.Says n c v → good v (s.effect n c))
    (hbad : bad s) : Yields n sure (need c wrap) s good bad := by
  intro w heq hcalm
  subst heq
  refine ensures_need (fun v w' h => ?_) fun e w' h => ?_
  · obtain ⟨heffect, hvalue⟩ := standing_of_ok (n := n) h
    rw [heffect]
    exact ⟨hok v hvalue, fun hs => (hcalm hs).next h⟩
  · rw [standing_of_error h]
    exact ⟨fun hs => (hcalm hs).not_failed h (hsure hs), hbad⟩

/-- A call whose failure is an answer like any other. -/
theorem yields_attempt {c : Call} {good : Except c.Failure c.Value → Standing → Prop}
    (hok : ∀ v, s.Says n c v → good (.ok v) (s.effect n c))
    (herror : ∀ e, (sure → ¬s.Provides n c) → good (.error e) s) :
    Yields n sure (attempt c : Task ε _) s good bad := by
  intro w heq hcalm
  subst heq
  refine ensures_attempt fun reply w' h => ⟨?_, fun hs => (hcalm hs).next h⟩
  cases reply with
  | ok v =>
    obtain ⟨heffect, hvalue⟩ := standing_of_ok (n := n) h
    rw [heffect]
    exact hok v hvalue
  | error e =>
    rw [standing_of_error h]
    exact herror e fun hs => (hcalm hs).not_failed h

/-- The health check changes nothing, and in a calm world it tells the truth. -/
theorem yields_checkHealth {addresses : List Endpoint} {key : Bytes} {limit : Duration} :
    Yields n sure (attempt (.ssh (.capture .checkHealth addresses key limit)) : Task ε _) s
      (fun reply s' => s' = s ∧ (sure → Except.isOk reply = s.healthy)) bad := by
  intro w heq hcalm
  subst heq
  refine ensures_attempt fun reply w' h => ⟨⟨?_, fun hs => ?_⟩, fun hs => (hcalm hs).next h⟩
  · cases reply with
    | ok v => exact (standing_of_ok h).1
    | error e => exact standing_of_error h
  · exact (hcalm hs).checkHealth h

theorem Yields.mono {t : Task ε α} (h : Yields n sure t s good bad)
    (hgood : ∀ a s', good a s' → good' a s') (hbad : ∀ s', bad s' → bad' s') :
    Yields n sure t s good' bad' := fun w hw hcalm =>
  (h w hw hcalm).mono (fun a _ _ h => ⟨hgood a _ h.1, h.2⟩) fun _ _ _ h => ⟨h.1, hbad _ h.2⟩

/-- The same task, with less said of a bad end. -/
theorem Yields.leaving {t : Task ε α} (h : Yields n sure t s good bad)
    (hbad : ∀ s', bad s' → bad' s') : Yields n sure t s good bad' :=
  h.mono (fun _ _ hgood => hgood) hbad

theorem Yields.bind {t : Task ε α} {f : α → Task ε β} {mid : α → Standing → Prop}
    {good : β → Standing → Prop} (ht : Yields n sure t s mid bad)
    (hf : ∀ a s', mid a s' → Yields n sure (f a) s' good bad) :
    Yields n sure (t >>= f) s good bad := fun w hw hcalm =>
  (ht w hw hcalm).bind fun a _ w' h => hf a _ h.1 w' rfl h.2

/-- A task that can only come to one standing. -/
theorem Yields.comingTo {t : Task ε α} {reached : Standing}
    (h : Yields n sure t s (fun _ s' => s' = reached) bad) (hgood : ∀ a, good a reached) :
    Yields n sure t s good bad :=
  h.mono (fun a _ heq => heq ▸ hgood a) fun _ hbad => hbad

/-- A task that can only leave off in one standing. -/
theorem Yields.leavingAt {t : Task ε α} {stopped : Standing}
    (h : Yields n sure t s good (· = stopped)) (hbad : bad' stopped) :
    Yields n sure t s good bad' :=
  h.leaving fun _ heq => heq ▸ hbad

/-- A task that comes to one standing, and what follows it from there. -/
theorem Yields.next {t : Task ε α} {f : α → Task ε β} {reached : Standing}
    {good : β → Standing → Prop} (ht : Yields n sure t s (fun _ s' => s' = reached) bad)
    (hf : ∀ a, Yields n sure (f a) reached good bad) : Yields n sure (t >>= f) s good bad :=
  ht.bind fun a _ heq => heq ▸ hf a

/-- The same for a task of whose value something is known. -/
theorem Yields.nextWith {t : Task ε α} {f : α → Task ε β} {reached : Standing} {P : α → Prop}
    {good : β → Standing → Prop} (ht : Yields n sure t s (fun a s' => s' = reached ∧ P a) bad)
    (hf : ∀ a, P a → Yields n sure (f a) reached good bad) : Yields n sure (t >>= f) s good bad :=
  ht.bind fun a _ ⟨heq, ha⟩ => heq ▸ hf a ha

/-- The same for a task whose value is known. -/
theorem Yields.nextIs {t : Task ε α} {f : α → Task ε β} {reached : Standing} {value : α}
    {good : β → Standing → Prop}
    (ht : Yields n sure t s (fun a s' => s' = reached ∧ a = value) bad)
    (hf : Yields n sure (f value) reached good bad) : Yields n sure (t >>= f) s good bad :=
  ht.nextWith fun _ ha => ha ▸ hf

theorem Yields.mapError {t : Task ε α} {f : ε → ε'} (h : Yields n sure t s good bad) :
    Yields n sure (t.mapError f) s good bad := fun w hw hcalm => (h w hw hcalm).mapError

/-- A sure task succeeds in a calm world, which stays calm. -/
theorem Yields.succeeds {t : Task ε α} (h : Yields n True t s good bad) {w : World}
    (hw : w.standing n = s) (hcalm : w.Calm) :
    ∃ a, (w.run t).result = some (.ok a) ∧ good a ((w.run t).state.standing n) ∧
      (w.run t).state.Calm := by
  have hends : Ensures World.host t w
      (fun a _ w' => good a (w'.standing n) ∧ (True → w'.Calm)) (fun _ _ _ => False) :=
    (h w hw fun _ => hcalm).mono (fun _ _ _ hgood => hgood) fun _ _ _ hbad => hbad.1 trivial
  obtain ⟨a, hresult, hgood, hcalm'⟩ := hends.succeeds
  exact ⟨a, hresult, hgood, hcalm' trivial⟩

/-- What holds of a success, calm or not. -/
theorem Yields.of_ok {t : Task ε α} (h : Yields n False t s good bad) {w : World}
    (hw : w.standing n = s) {a : α} (hresult : (w.run t).result = some (.ok a)) :
    good a ((w.run t).state.standing n) := (Ends.of_ok (h w hw False.elim) hresult).1

/-- What a task keeps on both ends holds of the standing after it, calm or not. -/
theorem Yields.ends {t : Task ε α} (h : Yields n False t s good bad) {w : World}
    (hw : w.standing n = s) {P : Standing → Prop} (hgood : ∀ a s', good a s' → P s')
    (hbad : ∀ s', bad s' → P s') : P ((w.run t).state.standing n) := by
  have hends := h w hw False.elim
  unfold Ensures Ends at hends
  rcases hr : (Program.run World.host t.program w).result with _ | e | a
  · rw [hr] at hends
    exact hbad _ hends.2
  · rw [hr] at hends
    exact hbad _ hends.2
  · rw [hr] at hends
    exact hgood a _ hends.1

end Task

end DevVm
