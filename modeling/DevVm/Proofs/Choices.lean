import DevVm.Proofs.Lifecycle
import DevVm.Proofs.Stories

/-!
# What the guest is told to run

The services and registries of a VM are chosen on its first start and, so its users are told, not
to be changed any more. But they are written down in the guest only. Every boot hands over the
options of its own request, and a request for a VM that is there has to be silent about services
and registries, which reads as the usual choice. So the choice of the first start lasts just until
the next boot: the options that a VM is handed agree if and only if no start that imported it and
chose otherwise was followed by a command that handed it options anew (`choice_settled_iff`).
-/

namespace DevVm

open DevVm.Task DevVm.World

/-! ## Options in a story -/

/-- The services and registries that options name. -/
def GuestOptions.choice (o : GuestOptions) : String × List String := (o.services, o.registries)

/-- The services and registries that a request comes to. -/
def StartOptions.choice (opts : StartOptions) : String × List String :=
  (Service.normalize opts.services, opts.registryNames)

/-- The choice of a request that is silent about it. -/
def usualChoice : String × List String := StartOptions.choice {}

/-- What can happen to the options of a VM: they are handed over to its guest, or the VM is made
or removed. -/
inductive Turn where
  | handed (options : GuestOptions)
  | renewed
deriving DecidableEq

/-- What an entry means for the options of the VM of a name. Calls that fail mean nothing. -/
def Entry.turn? (n : String) : Entry → Option Turn
  | .made ⟨⟨.ssh (.run (.writeOptions options) _ _ _), _⟩, .ok _⟩ => some (.handed options)
  | .made ⟨⟨.hypervisor (.importImage _ name _ _), _⟩, .ok _⟩ =>
    if name = n then some .renewed else none
  | .made ⟨⟨.hypervisor (.remove name), _⟩, .ok _⟩ => if name = n then some .renewed else none
  | _ => none

/-- One and the same VM was handed options, and later others. -/
def HandedTwice (n : String) (story : List Entry) (o o' : GuestOptions) : Prop :=
  ∃ before first between second after,
    story = before ++ first :: between ++ second :: after ∧
    first.turn? n = some (.handed o) ∧ second.turn? n = some (.handed o') ∧
    ∀ entry ∈ between, entry.turn? n ≠ some .renewed

/-- All options that one VM was handed name the same services and registries. -/
def ChoiceSettled (n : String) (story : List Entry) : Prop :=
  ∀ o o', HandedTwice n story o o' → o.choice = o'.choice

/-- A start with these wishes imported the VM and handed it options, and a later command handed
it options anew. -/
def HandedAnew (n : String) (story : List Entry) (opts : StartOptions) : Prop :=
  ∃ before es first more command between second after o o',
    story = before ++ episode (.start opts) (es ++ first :: more) ++
      .given command :: between ++ second :: after ∧
    (∃ e ∈ es, e.Founds n) ∧
    (Entry.made first).turn? n = some (.handed o) ∧ second.turn? n = some (.handed o') ∧
    (∀ e ∈ more, (Entry.made e).turn? n ≠ some .renewed) ∧
    ∀ entry ∈ between, entry.turn? n ≠ some .renewed

/-! ## What is handed over -/

/-- A request that is not refused for a VM that is there makes the usual choice. -/
theorem StartOptions.choice_of_refuseChange {opts : StartOptions}
    (h : opts.refuseChange = .ok ()) : opts.choice = usualChoice := by
  have hsilent : opts.change? = none := by
    unfold refuseChange at h
    split at h
    · cases h
    · assumption
  have hempty : opts.services = "" ∧ opts.registries = "" := by
    unfold change? at hsilent
    grind
  unfold choice usualChoice choice registryNames
  rw [hempty.1, hempty.2]

example : StartOptions.choice { masterPassword := "secret" } = ("rabbitmq,redis", []) := by
  decide +kernel

/-- Options are handed over by a start. They are its own, which is the usual choice unless the
start has imported the VM. -/
theorem HostCall.Due.handed {settings : Settings} {command : UserCommand}
    {es : List (Event hostSignature)} {s : Standing} {c : HostCall} {reply : c.call.Reply}
    {o : GuestOptions} (h : c.Due settings command es s)
    (ho : (Entry.made ⟨c, reply⟩).turn? settings.vmName = some (.handed o)) :
    ∃ opts, command = .start opts ∧ o.choice = opts.choice ∧
      (opts.choice = usualChoice ∨ ∃ e ∈ es, e.Founds settings.vmName) := by
  have hcall : ∃ addresses key limit,
      c.call = .ssh (.run (.writeOptions o) addresses key limit) := by
    unfold Entry.turn? at ho
    split at ho
    · next heq =>
      cases heq
      cases ho
      exact ⟨_, _, _, rfl⟩
    -- No other entry hands options over.
    all_goals grind
  obtain ⟨addresses, key, limit, hcall⟩ := hcall
  cases h with
  | options hcommand hwhy =>
    cases hcall
    exact ⟨_, hcommand, rfl, hwhy.imp_left StartOptions.choice_of_refuseChange⟩
  | routine hroutine =>
    rw [hcall] at hroutine
    cases hroutine
  | setUp _ hsetsUp =>
    cases hcall
    cases hsetsUp
  | _ => cases hcall

/-- After these entries a start hands over options. They are its own, and the usual ones unless
it has imported the VM. -/
def FromStart (n : String) (before : List Entry) (o : GuestOptions) : Prop :=
  ∃ earlier opts es, before = earlier ++ episode (.start opts) es ∧ o.choice = opts.choice ∧
    (opts.choice = usualChoice ∨ ∃ e ∈ es, e.Founds n)

/-- All options in the story are handed over by starts. -/
def Chosen (n : String) (story : List Entry) : Prop :=
  ∀ before entry after o, story = before ++ entry :: after → entry.turn? n = some (.handed o) →
    FromStart n before o

theorem Chosen.snoc {n : String} {story : List Entry} {last : Entry} (h : Chosen n story)
    (hlast : ∀ o, last.turn? n = some (.handed o) → FromStart n story o) :
    Chosen n (story ++ [last]) := by
  intro before entry after o hstory ho
  rcases List.eq_nil_or_concat after with rfl | ⟨after, final, rfl⟩
  · obtain ⟨rfl, hentry⟩ := List.append_inj' hstory rfl
    obtain rfl := (List.cons.inj hentry).1
    exact hlast o ho
  · rw [List.concat_eq_append, ← List.cons_append, ← List.append_assoc] at hstory
    exact h before entry after o (List.append_inj' hstory rfl).1 ho

theorem chosen_invariable (settings : Settings) :
    Invariable settings fun story _ => Chosen settings.vmName story where
  given command h := h.snoc nofun
  made {story command es c w} hdue h := h.snoc fun o ho => by
    obtain ⟨opts, rfl, hchoice, hwhy⟩ := hdue.handed ho
    exact ⟨story, opts, es, rfl, hchoice, hwhy⟩

/-- In the story of any attempts all options are handed over by starts. -/
theorem World.chosen (settings : Settings) (w : World) (attempts : List Attempt) :
    Chosen settings.vmName (w.story settings attempts) := by
  have hbegin : Chosen settings.vmName [] := by
    intro before entry after o hstory
    cases (List.append_eq_nil_iff.mp hstory.symm).2
  exact (chosen_invariable settings).afterAll (w := w) hbegin

/-! ## When the choice lasts -/

theorem Entry.made_of_handed {n : String} {entry : Entry} {o : GuestOptions}
    (h : entry.turn? n = some (.handed o)) : ∃ e, entry = .made e := by
  cases entry with
  | given command => cases h
  | made e => exact ⟨e, rfl⟩

theorem Event.Founds.turn {n : String} {e : Event hostSignature} (h : e.Founds n) :
    (Entry.made e).turn? n = some .renewed := by
  obtain ⟨image, memory, cpus, rfl⟩ := h
  exact if_pos rfl

namespace Chosen

variable {n : String} {story front after : List Entry} {command : UserCommand} {entry : Entry}
  {o : GuestOptions}

/-- Options that a command hands over are its own. -/
theorem by_command {es : List (Event hostSignature)} (h : Chosen n story)
    (hstory : story = front ++ episode command es ++ entry :: after)
    (ho : entry.turn? n = some (.handed o)) :
    ∃ opts, command = .start opts ∧ o.choice = opts.choice ∧
      (opts.choice = usualChoice ∨ ∃ e ∈ es, e.Founds n) := by
  obtain ⟨earlier, opts, es', heq, hchoice, hwhy⟩ := h _ _ _ _ hstory ho
  rcases given_append_eq heq with ⟨hcommand, hes⟩ | ⟨skipped, hes⟩
  · obtain rfl := (List.map_inj_right fun _ _ => Entry.made.inj).mp hes
    exact ⟨opts, hcommand, hchoice, hwhy⟩
  · exact absurd hes calls_ne_given

/-- Options that a VM is handed after the command that made it are the usual ones. -/
theorem by_later {back : List Entry} (h : Chosen n story)
    (hstory : story = front ++ .given command :: back ++ entry :: after)
    (ho : entry.turn? n = some (.handed o))
    (hsame : ∀ entry ∈ back, entry.turn? n ≠ some .renewed) : o.choice = usualChoice := by
  obtain ⟨earlier, opts, es, heq, hchoice, husual | ⟨e, he, hfounds⟩⟩ := h _ _ _ _ hstory ho
  · exact hchoice.trans husual
  · have hmade : Entry.made e ∈ es.map .made := List.mem_map_of_mem he
    have hback : Entry.made e ∈ back := by
      rcases given_append_eq heq with ⟨-, rfl⟩ | ⟨skipped, rfl⟩
      · exact hmade
      · exact List.mem_append_right _ (List.mem_cons_of_mem _ hmade)
    exact absurd hfounds.turn (hsame _ hback)

/-- Where the choice lasts, a VM that is handed options anew was made with the usual choice. -/
theorem usual_of_anew {opts : StartOptions} (h : Chosen n story) (hsettled : ChoiceSettled n story)
    (hanew : HandedAnew n story opts) : opts.choice = usualChoice := by
  obtain ⟨before, es, first, more, command, between, second, after, o, o', hstory, -, ho, ho',
    hmore, hbetween⟩ := hanew
  have hfirst : story = before ++ episode (.start opts) es ++
      .made first :: (more.map .made ++ .given command :: between ++ second :: after) := by
    rw [hstory, episode_append_cons]
    simp only [List.append_assoc, List.cons_append]
  obtain ⟨opts', hcommand, hchoice, -⟩ := h.by_command hfirst ho
  obtain rfl := UserCommand.start.inj hcommand
  have htwice : HandedTwice n story o o' := by
    refine ⟨before ++ episode (.start opts) es, .made first,
      more.map .made ++ .given command :: between, second, after, ?_, ho, ho', ?_⟩
    · rw [hfirst]
      simp only [List.append_assoc, List.cons_append]
    · intro entry hentry
      rcases List.mem_append.mp hentry with hcalls | hlater
      · obtain ⟨e, he, rfl⟩ := List.mem_map.mp hcalls
        exact hmore e he
      · rcases List.mem_cons.mp hlater with rfl | hlater
        · nofun
        · exact hbetween entry hlater
  calc opts.choice = o.choice := hchoice.symm
    _ = o'.choice := hsettled o o' htwice
    _ = usualChoice := h.by_later hstory ho' hbetween

/-- And if all those VMs were made with the usual choice, it lasts. -/
theorem settled_of_usual (h : Chosen n story)
    (husual : ∀ opts, HandedAnew n story opts → opts.choice = usualChoice) :
    ChoiceSettled n story := by
  rintro o o' ⟨before, entry, between, second, after, hstory, ho, ho', hbetween⟩
  obtain ⟨first, rfl⟩ := Entry.made_of_handed ho
  obtain ⟨earlier, opts, es, rfl, hchoice, hwhy⟩ := h _ _ (between ++ second :: after) _
    (by rw [hstory, List.append_assoc, List.cons_append]) ho
  rw [hchoice]
  -- Is the second time still in the same command?
  obtain ⟨more, rfl | ⟨command, later, rfl⟩⟩ := calls_then_given between
  · have hsecond : story =
        earlier ++ episode (.start opts) (es ++ first :: more) ++ second :: after := by
      rw [hstory, episode_append_cons]
      simp only [List.append_assoc, List.cons_append]
    obtain ⟨opts', hcommand, hchoice', -⟩ := h.by_command hsecond ho'
    obtain rfl := UserCommand.start.inj hcommand
    exact hchoice'.symm
  · have hsecond : story = earlier ++ episode (.start opts) (es ++ first :: more) ++
        .given command :: later ++ second :: after := by
      rw [hstory, episode_append_cons]
      simp only [List.append_assoc, List.cons_append]
    have hlater : ∀ entry ∈ later, entry.turn? n ≠ some .renewed := fun entry he =>
      hbetween entry (List.mem_append_right _ (List.mem_cons_of_mem _ he))
    have hopts : opts.choice = usualChoice := by
      rcases hwhy with hopts | hfounded
      · exact hopts
      · refine husual opts ⟨earlier, es, first, more, command, later, second, after, o, o',
          hsecond, hfounded, ho, ho', fun e he => ?_, hlater⟩
        exact hbetween _ (List.mem_append_left _ (List.mem_map_of_mem he))
    exact hopts.trans (h.by_later hsecond ho' hlater).symm

end Chosen

/-- Whether the choice of services and registries lasts. After any attempts, whatever calls fail:
the options that one VM was handed name the same services and registries, all of them, if and only
if every start that imported a VM which was handed options anew made the usual choice. -/
theorem choice_settled_iff (settings : Settings) (w : World) (attempts : List Attempt) :
    ChoiceSettled settings.vmName (w.story settings attempts) ↔
      ∀ opts, HandedAnew settings.vmName (w.story settings attempts) opts →
        opts.choice = usualChoice :=
  have hchosen := w.chosen settings attempts
  ⟨fun hsettled _ hanew => hchosen.usual_of_anew hsettled hanew, hchosen.settled_of_usual⟩

/-! ## A choice that does not last -/

/-- A start with all services. -/
def lavishStart : Attempt :=
  { command := .start { services := "all", noProvision := true }, plan := .none }

/-- The machine that is made for it. -/
def lavishMachine : World.Machine where
  name := sampleSettings.vmName
  power := .running
  memory := 4096
  cpus := 2
  forward := [(Machine.forwardingRule, 4000)]
  extra := [(Machine.ipKey, usualIp), (Machine.domainKey, usualDomain)]

/-- The world after it, as far as the next start can tell. -/
theorem after_lavishStart :
    let w := (sampleWorld.attempt sampleSettings lavishStart).state
    w = { w with
      machines := [lavishMachine]
      files := [(sampleSettings.insecureKeyPath, [1]), (sampleSettings.privateKeyPath, [0, 3])]
      guest := {} } := by
  have hsuited : sampleWorld.Suited sampleSettings :=
    ⟨by decide, List.nodup_nil, nofun, rfl, rfl, nofun, nofun, rfl, nofun⟩
  have hwelcome : ∀ opts, lavishStart.command = .start opts →
      sampleWorld.Welcomes sampleSettings opts := by
    intro opts heq
    obtain rfl := UserCommand.start.inj heq
    exact ⟨rfl, by decide, .inl rfl, fun _ => by decide⟩
  have hlife : (sampleWorld.attempt sampleSettings lavishStart).state.life sampleSettings =
      (sampleWorld.life sampleSettings).step lavishStart.command :=
    (Order.run_step (o := lavishStart.toOrder) hsuited.calm hsuited.tidy hwelcome).2.1
  have hhealth : ∀ w : World, (w.life sampleSettings).healthy = w.guest.healthy := fun _ => rfl
  intro w
  have hhealthy : w.guest.healthy = false := by
    rw [← hhealth, hlife]
    rfl
  have hrules : w.guest.rules = [] := by decide +kernel
  have hmachines : w.machines = [lavishMachine] := by decide +kernel
  have hfiles : w.files =
      [(sampleSettings.insecureKeyPath, [1]), (sampleSettings.privateKeyPath, [0, 3])] := by
    decide +kernel
  rw [← hmachines, ← hfiles, ← hhealthy, ← hrules]

/-- A start that is silent about services. -/
def silentStart : Attempt := { command := .start { noProvision := true }, plan := .none }

/-- A start with all services, and another one that is silent about them: the guest is handed the
usual services instead. -/
theorem choice_unsettled :
    ¬ChoiceSettled sampleSettings.vmName
      (sampleWorld.story sampleSettings [lavishStart, silentStart]) := by
  have hturns : (sampleWorld.story sampleSettings [lavishStart, silentStart]).filterMap
      (Entry.turn? sampleSettings.vmName) =
        [.renewed,
         .handed ⟨usualDomain, usualIp, "rabbitmq,redis,spring-cloud-services", [], hypervisorName⟩,
         .handed ⟨usualDomain, usualIp, "rabbitmq,redis", [], hypervisorName⟩] := by
    unfold story
    rw [after_lavishStart]
    decide +kernel
  obtain ⟨before, made, rest, hstory, -, -, hturns⟩ := List.filterMap_eq_cons_iff.mp hturns
  obtain ⟨start, first, rest, rfl, -, hfirst, hturns⟩ := List.filterMap_eq_cons_iff.mp hturns
  obtain ⟨between, second, after, rfl, hquiet, hsecond, -⟩ := List.filterMap_eq_cons_iff.mp hturns
  intro hsettled
  have hagree := hsettled _ _ ⟨before ++ made :: start, first, between, second, after, ?_, hfirst,
    hsecond, ?_⟩
  · exact absurd (congrArg Prod.fst hagree) (by decide)
  · rw [hstory, List.append_assoc, List.append_assoc]
    rfl
  · intro entry he
    rw [hquiet entry he]
    exact (Option.some_ne_none _).symm

end DevVm
