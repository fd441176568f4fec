import DevVm.Proofs.Conduct
import DevVm.Proofs.Episodes

/-!
# What has happened

The story of some attempts is what was done in them, in order: the commands that were given, each
followed by the calls that it made. It can be told at any `Moment`, also in the middle of a
command.

Some things never cease to hold, neither when a command is given nor when one makes a call that
is due (`Invariable`). Such a thing holds at all moments if it holds at the beginning
(`Invariable.at_moment`).
-/

namespace DevVm

open DevVm.Task DevVm.World

/-- What can happen: a command is given, or it makes a call. -/
inductive Entry where
  | given (command : UserCommand)
  | made (e : Event hostSignature)

/-- A command with its calls. -/
def episode (command : UserCommand) (es : List (Event hostSignature)) : List Entry :=
  .given command :: es.map .made

theorem episode_append (command : UserCommand) (es more : List (Event hostSignature)) :
    episode command (es ++ more) = episode command es ++ more.map .made := by
  unfold episode
  rw [List.map_append]
  rfl

theorem episode_append_cons (command : UserCommand) (es more : List (Event hostSignature))
    (e : Event hostSignature) :
    episode command (es ++ e :: more) = episode command es ++ .made e :: more.map .made :=
  episode_append command es (e :: more)

/-- A moment: some attempts are over, and one has made a number of calls, or all it makes. -/
structure Moment where
  past : List Attempt
  last : Attempt
  calls : Nat

namespace World

variable (settings : Settings)

/-- The story of some attempts. -/
def story : List Attempt → World → List Entry
  | [], _ => []
  | a :: more, w =>
    episode a.command (w.attempt settings a).events ++ story more (w.attempt settings a).state

/-- What has become of an attempt when it has made so many calls. -/
def midway (a : Attempt) (calls : Nat) (w : World) :
    Outcome hostSignature World (Except VmError Unit) :=
  Program.run World.host ((a.task settings).program.upTo calls) { w with plan := a.plan }

/-- The world at a moment. -/
def worldAt (t : Moment) (w : World) : World :=
  ((w.afterAll settings t.past).midway settings t.last t.calls).state

/-- The story up to a moment. -/
def storyAt (t : Moment) (w : World) : List Entry :=
  w.story settings t.past ++
    episode t.last.command ((w.afterAll settings t.past).midway settings t.last t.calls).events

end World

/-! ## Things that stay as they are -/

/-- What holds of a call that was answered and of one that failed holds of every reply. -/
theorem World.reply_cases {n : String} {w : World} {c : HostCall}
    {P : c.call.Reply → Standing → Prop}
    (hok : ∀ v, (w.standing n).Says n c.call v → P (.ok v) ((w.standing n).effect n c.call))
    (herror : ∀ e, P (.error e) (w.standing n)) :
    P (World.host.answer c w).1 ((World.host.answer c w).2.standing n) := by
  rcases hr : World.host.answer c w with ⟨e | v, w'⟩
  · show P (.error e) (w'.standing n)
    rw [standing_of_error hr]
    exact herror e
  · obtain ⟨heffect, hvalue⟩ := standing_of_ok (n := n) hr
    show P (.ok v) (w'.standing n)
    rw [heffect]
    exact hok v hvalue

/-- What goes on to hold whatever command is given and whatever due call is made. -/
structure Invariable (settings : Settings) (I : List Entry → Standing → Prop) : Prop where
  given : ∀ {story s} (command : UserCommand), I story s → I (story ++ [.given command]) s
  made : ∀ {story command es c} {w : World},
    HostCall.Due settings command es (w.standing settings.vmName) c →
    I (story ++ episode command es) (w.standing settings.vmName) →
    I (story ++ episode command es ++ [.made ⟨c, (World.host.answer c w).1⟩])
      ((World.host.answer c w).2.standing settings.vmName)

namespace Invariable

variable {settings : Settings} {I : List Entry → Standing → Prop} {w : World} {a : Attempt}
  {story : List Entry}

/-- Every call of an attempt is due. -/
theorem heeds_task (a : Attempt) (w : World) :
    (a.task settings).program.Heeds World.host
      (fun es w c => c.Due settings a.command es (w.standing settings.vmName))
      (fun result es w => Ended (fun _ _ _ => True) (fun e es _ => Excused e es) result es
        (w.standing settings.vmName)) [] { w with plan := a.plan } :=
  UserCommand.behaves_perform settings Invocation.handOffs a.stdin a.command _ _ rfl

theorem step (h : Invariable settings I) {command : UserCommand} (es : List (Event hostSignature))
    (w : World) (c : HostCall)
    (hdue : c.Due settings command es (w.standing settings.vmName))
    (hI : I (story ++ episode command es) (w.standing settings.vmName)) :
    I (story ++ episode command (es ++ [⟨c, (World.host.answer c w).1⟩]))
      ((World.host.answer c w).2.standing settings.vmName) := by
  rw [episode_append, ← List.append_assoc]
  exact h.made hdue hI

theorem attempt (h : Invariable settings I) (hI : I story (w.standing settings.vmName)) :
    I (story ++ episode a.command (w.attempt settings a).events)
      ((w.attempt settings a).state.standing settings.vmName) :=
  (heeds_task a w).keeps (I := fun es (w : World) =>
    I (story ++ episode a.command es) (w.standing settings.vmName)) h.step (h.given a.command hI)

theorem midway (h : Invariable settings I) (hI : I story (w.standing settings.vmName))
    (calls : Nat) :
    I (story ++ episode a.command (w.midway settings a calls).events)
      ((w.midway settings a calls).state.standing settings.vmName) :=
  ((heeds_task a w).upTo calls).keeps (I := fun es (w : World) =>
    I (story ++ episode a.command es) (w.standing settings.vmName)) h.step (h.given a.command hI)

/-- What holds at the beginning holds when some attempts are over. -/
theorem afterAll (h : Invariable settings I) {attempts : List Attempt}
    (hI : I story (w.standing settings.vmName)) :
    I (story ++ w.story settings attempts)
      ((w.afterAll settings attempts).standing settings.vmName) := by
  induction attempts generalizing w story with
  | nil =>
    rw [World.story, List.append_nil]
    exact hI
  | cons a more ih =>
    rw [World.story, ← List.append_assoc]
    exact ih (h.attempt hI)

/-- What holds at the beginning holds at every moment. -/
theorem at_moment (h : Invariable settings I) (hI : I [] (w.standing settings.vmName))
    (t : Moment) : I (w.storyAt settings t) ((w.worldAt settings t).standing settings.vmName) :=
  h.midway (h.afterAll hI) t.calls

end Invariable

/-- Among calls no command is given. -/
theorem calls_ne_given {es : List (Event hostSignature)} {before after : List Entry}
    {command : UserCommand} : es.map .made ≠ before ++ .given command :: after := by
  intro h
  have hin : Entry.given command ∈ es.map .made := by
    rw [h]
    exact List.mem_append_right _ List.mem_cons_self
  obtain ⟨e, -, he⟩ := List.mem_map.mp hin
  cases he

/-- A command that is given in a story is the last one, or the last one is given after it. -/
theorem given_append_eq {front back earlier : List Entry} {given command : UserCommand}
    {es : List (Event hostSignature)}
    (h : front ++ .given given :: back = earlier ++ episode command es) :
    (given = command ∧ back = es.map .made) ∨ ∃ skipped, back = skipped ++ episode command es := by
  rcases List.append_eq_append_iff.mp h with ⟨tail, -, htail⟩ | ⟨tail, -, htail⟩
  · cases tail with
    | nil =>
      obtain ⟨hgiven, hback⟩ := List.cons.inj htail
      exact .inl ⟨Entry.given.inj hgiven, hback⟩
    | cons entry tail => exact .inr ⟨tail, (List.cons.inj htail).2⟩
  · cases tail with
    | nil =>
      obtain ⟨hgiven, hback⟩ := List.cons.inj htail
      exact .inl ⟨(Entry.given.inj hgiven).symm, hback.symm⟩
    | cons entry tail => exact absurd (List.cons.inj htail).2 calls_ne_given

/-- What follows in a story are calls, up to the next command. -/
theorem calls_then_given (story : List Entry) :
    ∃ es : List (Event hostSignature), story = es.map .made ∨
      ∃ command after, story = es.map .made ++ .given command :: after := by
  induction story with
  | nil => exact ⟨[], .inl rfl⟩
  | cons entry story ih =>
    cases entry with
    | given command => exact ⟨[], .inr ⟨command, story, rfl⟩⟩
    | made e =>
      obtain ⟨es, rfl | ⟨command, after, rfl⟩⟩ := ih
      · exact ⟨e :: es, .inl rfl⟩
      · exact ⟨e :: es, .inr ⟨command, after, rfl⟩⟩

end DevVm
