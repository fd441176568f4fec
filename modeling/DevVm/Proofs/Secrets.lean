import DevVm.Proofs.Provisioning
import Mathlib.Data.List.Forall2

/-!
# Where the master password goes

What a start was asked for is handed on from state to state as a whole, the master password with
it, but only the command that provisions the guest tells it. Two starts that differ in nothing but
the password therefore go through the same calls side by side (`Program.Twins`), as long as the
guest does not answer that command differently, and the hypervisor, the files and the terminal
never learn which of the two they take part in (`World.Lockstep`).

What the guest does with the password is its own affair: all that is asked of it is that it cannot
be told by its answers which password it was given (`Guest.Alike`).
-/

namespace DevVm

open DevVm.Task DevVm.World

/-! ## Guests that answer alike -/

/-- The request with a master password. -/
def StartOptions.withPassword (password : String) (opts : StartOptions) : StartOptions :=
  { opts with masterPassword := password }

/-- The command with another master password, if it tells one. -/
def GuestCommand.withPassword (password : String) : GuestCommand → GuestCommand
  | .provision _ => .provision password
  | command => command

theorem GuestCommand.withPassword_of_idle {password : String} {command : GuestCommand}
    (h : command.provisions = false) : command.withPassword password = command := by
  cases command with
  | provision other => cases h
  | _ => rfl

theorem GuestCommand.healthAfter_withPassword (password : String) (healthy : Bool)
    (command : GuestCommand) :
    (command.withPassword password).healthAfter healthy = command.healthAfter healthy := by
  cases command <;> rfl

namespace World.Guest

variable {password password' : String} {guest guest' : Guest} {G : Guest → Guest → Prop}

/-- What a guest answers to some commands, one after the other. -/
def replies : List GuestCommand → Guest → List GuestReply
  | [], _ => []
  | command :: more, guest =>
    (guest.answer command.text).1 :: replies more (guest.answer command.text).2

/-- Guests that answer all commands alike, the one if it is told the first password, and the other
one if it is told the second one in its place. -/
def Alike (password password' : String) (guest guest' : Guest) : Prop :=
  ∀ commands : List GuestCommand, guest.replies (commands.map (·.withPassword password)) =
    guest'.replies (commands.map (·.withPassword password'))

/-- No rule tells the two passwords apart. -/
def Heedless (password password' : String) (guest : Guest) : Prop :=
  ∀ rule ∈ guest.rules, rule.pattern.fits (GuestCommand.provision password).text =
    rule.pattern.fits (GuestCommand.provision password').text

/-- What stays true of two guests that are told the same, except for the password, and answer the
same. -/
structure Lockstep (password password' : String) (G : Guest → Guest → Prop) : Prop where
  healthy : ∀ {guest guest'}, G guest guest' → guest'.healthy = guest.healthy
  reply : ∀ {guest guest'} (command : GuestCommand), G guest guest' →
    (guest.answer (command.withPassword password).text).1 =
      (guest'.answer (command.withPassword password').text).1
  next : ∀ {guest guest'} (command : GuestCommand), G guest guest' →
    G (guest.answer (command.withPassword password).text).2
      (guest'.answer (command.withPassword password').text).2

theorem Lockstep.alike (hG : Lockstep password password' G) (h : G guest guest') :
    Alike password password' guest guest' := by
  intro commands
  induction commands generalizing guest guest' with
  | nil => rfl
  | cons command more ih =>
    exact List.cons_eq_cons.mpr ⟨hG.reply command h, ih (hG.next command h)⟩

/-- Two equally healthy guests that answer alike stay so. -/
theorem lockstep_alike : Lockstep password password' fun guest guest' =>
    guest'.healthy = guest.healthy ∧ Alike password password' guest guest' where
  healthy h := h.1
  reply command h := (List.cons.inj (h.2 [command])).1
  next {guest guest'} command h := by
    refine ⟨?_, fun more => (List.cons.inj (h.2 (command :: more))).2⟩
    have hreply : (guest.answer (command.withPassword password).text).1 = _ :=
      (List.cons.inj (h.2 [command])).1
    rw [answer_healthy, answer_healthy, GuestCommand.healthAfter_text,
      GuestCommand.healthAfter_text, GuestCommand.healthAfter_withPassword,
      GuestCommand.healthAfter_withPassword, ← hreply, h.1]

/-! ### Rules that tell no passwords apart -/

/-- Which rule answers a command, and what it does then, depends on which rules fit it. -/
theorem pick?_congr {text text' : String} {rules : List GuestRule}
    (h : ∀ rule ∈ rules, rule.pattern.fits text = rule.pattern.fits text') :
    pick? text rules = pick? text' rules := by
  induction rules with
  | nil => rfl
  | cons rule more ih =>
    unfold pick?
    rw [h rule List.mem_cons_self, ih fun other hin => h other (List.mem_cons_of_mem _ hin)]

/-- Answering changes what rules answer, and not what they are about. -/
theorem patterns_pick? {text : String} {rules rest : List GuestRule} {reply : GuestReply}
    (h : pick? text rules = some (reply, rest)) :
    rest.map (·.pattern) = rules.map (·.pattern) := by
  induction rules generalizing rest with
  | nil => cases h
  | cons rule more ih =>
    unfold pick? at h
    split at h
    · obtain ⟨first, -, heq⟩ := Option.map_eq_some_iff.mp h
      obtain ⟨-, rfl⟩ := Prod.mk.inj heq
      rfl
    · obtain ⟨⟨first, rest'⟩, hpicked, heq⟩ := Option.map_eq_some_iff.mp h
      obtain ⟨rfl, rfl⟩ := Prod.mk.inj heq
      exact congrArg (rule.pattern :: ·) (ih hpicked)

theorem Heedless.answer (h : guest.Heedless password password') (text : String) :
    (guest.answer text).2.Heedless password password' := by
  unfold Guest.answer
  rcases hpicked : pick? text guest.rules with _ | ⟨reply, rest⟩
  · exact h
  · intro rule hin
    have hpattern : rule.pattern ∈ guest.rules.map (·.pattern) :=
      patterns_pick? hpicked ▸ List.mem_map_of_mem hin
    obtain ⟨earlier, hearlier, hsame⟩ := List.mem_map.mp hpattern
    rw [← hsame]
    exact h earlier hearlier

/-- A heedless guest is left the same whichever password it is told. -/
theorem Heedless.answer_eq (h : guest.Heedless password password') (command : GuestCommand) :
    guest.answer (command.withPassword password).text =
      guest.answer (command.withPassword password').text := by
  by_cases hprovisions : command.provisions = true
  · obtain ⟨other, rfl⟩ : ∃ other, command = .provision other := by
      cases command with
      | provision other => exact ⟨other, rfl⟩
      | _ => cases hprovisions
    have hplain : ∀ password, guest.plainReply (GuestCommand.provision password).text = {} := by
      intro password
      have htext : (GuestCommand.provision password).text ≠ GuestCommand.checkHealth.text :=
        GuestCommand.text_ne_checkHealth nofun
      unfold plainReply
      rw [if_neg fun hcheck => htext hcheck.1]
    show guest.answer (GuestCommand.provision password).text =
      guest.answer (GuestCommand.provision password').text
    unfold Guest.answer
    rw [pick?_congr h, hplain, hplain]
    simp only [GuestCommand.healthAfter_text]
    rfl
  · have hidle := Bool.eq_false_iff.mpr hprovisions
    rw [GuestCommand.withPassword_of_idle hidle, GuestCommand.withPassword_of_idle hidle]

theorem lockstep_heedless : Lockstep password password' fun guest guest' =>
    guest' = guest ∧ guest.Heedless password password' where
  healthy h := by rw [h.1]
  reply command h := by rw [h.1, h.2.answer_eq]
  next command h := by
    obtain ⟨rfl, hheedless⟩ := h
    exact ⟨(congrArg Prod.snd (hheedless.answer_eq command)).symm, hheedless.answer _⟩

end World.Guest

/-! ## Worlds in lockstep -/

/-- The call that has the guest provisioned. -/
def Call.provisioning (password : String) (addresses : List Endpoint) (key : Bytes)
    (limit : Duration) : Call := .ssh (.run (.provision password) addresses key limit)

namespace World

/-- What that call is named, and whether it fails, does not depend on the password. -/
structure Discreet (password password' : String) (w : World) : Prop where
  named : ∀ addresses key limit, w.names.call (.provisioning password addresses key limit) =
    w.names.call (.provisioning password' addresses key limit)
  planned : ∀ addresses key limit occurrence,
    (w.plan (.provisioning password addresses key limit) occurrence : Option SshError) =
      w.plan (.provisioning password' addresses key limit) occurrence

/-- Worlds that differ in nothing but the guest, where their guests have gone on in lockstep. -/
structure Lockstep (password password' : String) (G : Guest → Guest → Prop) (w w' : World) :
    Prop where
  discreet : w.Discreet password password'
  apart : ∃ guest, G w.guest guest ∧ w' = { w with guest }

variable {password password' : String} {G : Guest → Guest → Prop} {w w' : World}

/-- The hypervisor knows nothing of the guest, and changes no name. -/
theorem request_apart (request : HypervisorCall) (guest : Guest) (w : World) :
    { w with guest }.hypervisorAnswer request =
        ((w.hypervisorAnswer request).1, { (w.hypervisorAnswer request).2 with guest }) ∧
      (w.hypervisorAnswer request).2.names = w.names := by
  have hinspect : ∀ {α : Type} (request : HypervisorCall) (name : String) (read : Machine → α),
      { w with guest }.inspect request name read =
          ((w.inspect request name read).1, { (w.inspect request name read).2 with guest }) ∧
        (w.inspect request name read).2.names = w.names := by
    intro α request name read
    unfold inspect
    rw [show ({ w with guest } : World).machine? name = w.machine? name from rfl]
    cases w.machine? name <;> exact ⟨rfl, rfl⟩
  have hmodify : ∀ (request : HypervisorCall) (name : String) (f : Machine → Machine),
      { w with guest }.modify request name f =
          ((w.modify request name f).1, { (w.modify request name f).2 with guest }) ∧
        (w.modify request name f).2.names = w.names := by
    intro request name f
    unfold modify
    rw [show ({ w with guest } : World).machine? name = w.machine? name from rfl]
    cases w.machine? name <;> exact ⟨rfl, rfl⟩
  cases request with
  | remove name =>
    unfold hypervisorAnswer
    dsimp only
    rw [show ({ w with guest } : World).machine? name = w.machine? name from rfl]
    cases w.machine? name <;> exact ⟨rfl, rfl⟩
  | powerOn name => exact hmodify _ _ _
  | shutDown name => exact hmodify _ _ _
  | saveState name => exact hmodify _ _ _
  | switchOff name => exact hmodify _ _ _
  | size name => exact hinspect _ _ _
  | attach interface name => exact hinspect _ _ _
  | forward name rule hostPort guestPort => exact hmodify _ _ _
  | forwardedPort name rule => exact hinspect _ _ _
  | extraData name key => exact hinspect _ _ _
  | putExtraData name key value => exact hmodify _ _ _
  | _ => exact ⟨rfl, rfl⟩

/-- Nor does anything else, without a login, know of the guest. -/
theorem perform_apart {c : Call} (hidle : c.isIdle = true) (hcommand : c.command? = none)
    (guest : Guest) (w : World) :
    { w with guest }.perform c = ((w.perform c).1, { (w.perform c).2 with guest }) ∧
      (w.perform c).2.names = w.names ∧ (w.perform c).2.guest = w.guest := by
  cases c with
  | hypervisor request =>
    obtain ⟨happart, hnames⟩ := request_apart request guest w
    exact ⟨happart, hnames, request_keeps.2⟩
  | ssh request =>
    cases request with
    | session addresses key limit stdin => cases hidle
    | run command addresses key limit => cases hcommand
    | capture command addresses key limit => cases hcommand
    | _ => exact ⟨rfl, rfl, rfl⟩
  | read path =>
    unfold World.perform
    dsimp only
    cases Table.get? path w.files <;> exact ⟨rfl, rfl, rfl⟩
  | _ => exact ⟨rfl, rfl, rfl⟩

/-- How often a call of its name has been made by the time a call is answered. -/
def occurrence (c : Call) (w : World) : Nat :=
  (w.counted (w.names.call c)).history.count (w.names.call c)

theorem answer_failed {c : HostCall} {failure : c.call.Failure}
    (h : w.plan c.call (w.occurrence c.call) = some failure) :
    w.answer c = (.error failure, w.counted (w.names.call c.call)) := by
  unfold World.answer
  dsimp only
  split
  next other hother =>
    obtain rfl : other = failure := Option.some.inj (hother.symm.trans h)
    rfl
  next hnone => cases hnone.symm.trans h

theorem answer_unfailed {c : HostCall} (h : w.plan c.call (w.occurrence c.call) = none) :
    w.answer c = (w.counted (w.names.call c.call)).perform c.call := by
  unfold World.answer
  dsimp only
  split
  next other hother => cases hother.symm.trans h
  next => rfl

/-- What comes of a command that is run in the guest. -/
theorem sshAnswer_run (command : GuestCommand) (addresses : List Endpoint) (key : Bytes)
    (limit : Duration) (w : World) : w.sshAnswer (.run command addresses key limit) =
      ((Ssh.exitResult (w.guest.answer command.text).1.status "").map fun _ => (),
        { w with
          guest := (w.guest.answer command.text).2
          process := w.process.write (w.guest.answer command.text).1.out
            (w.guest.answer command.text).1.err }) := rfl

theorem sshAnswer_capture (command : GuestCommand) (addresses : List Endpoint) (key : Bytes)
    (limit : Duration) (w : World) : w.sshAnswer (.capture command addresses key limit) =
      (Ssh.exitResult (w.guest.answer command.text).1.status
        (Text.Utf8.decodeLossy ((w.guest.answer command.text).1.out ++
          (w.guest.answer command.text).1.err)),
        { w with guest := (w.guest.answer command.text).2 }) := rfl

namespace Lockstep

theorem counted (h : Lockstep password password' G w w') (name : String) :
    Lockstep password password' G (w.counted name) (w'.counted name) := by
  obtain ⟨hdiscreet, guest, hguest, rfl⟩ := h
  exact ⟨⟨hdiscreet.named, hdiscreet.planned⟩, guest, hguest, rfl⟩

/-- A command is run in both guests: the same command, or one that tells each its password. -/
theorem run (hG : Guest.Lockstep password password' G) (h : Lockstep password password' G w w')
    (command : GuestCommand) (addresses : List Endpoint) (key : Bytes) (limit : Duration) :
    ((w'.sshAnswer (.run (command.withPassword password') addresses key limit)).1 :
        Except SshError Unit) =
      (w.sshAnswer (.run (command.withPassword password) addresses key limit)).1 ∧
    Lockstep password password' G
      (w.sshAnswer (.run (command.withPassword password) addresses key limit)).2
      (w'.sshAnswer (.run (command.withPassword password') addresses key limit)).2 := by
  obtain ⟨hdiscreet, guest, hguest, rfl⟩ := h
  have hreply := hG.reply command hguest
  rw [sshAnswer_run, sshAnswer_run]
  dsimp only
  rw [← hreply]
  exact ⟨rfl, ⟨hdiscreet.named, hdiscreet.planned⟩, _, hG.next command hguest, rfl⟩

theorem capture (hG : Guest.Lockstep password password' G)
    (h : Lockstep password password' G w w') (command : GuestCommand) (addresses : List Endpoint)
    (key : Bytes) (limit : Duration) :
    ((w'.sshAnswer (.capture (command.withPassword password') addresses key limit)).1 :
        Except SshError String) =
      (w.sshAnswer (.capture (command.withPassword password) addresses key limit)).1 ∧
    Lockstep password password' G
      (w.sshAnswer (.capture (command.withPassword password) addresses key limit)).2
      (w'.sshAnswer (.capture (command.withPassword password') addresses key limit)).2 := by
  obtain ⟨hdiscreet, guest, hguest, rfl⟩ := h
  have hreply := hG.reply command hguest
  rw [sshAnswer_capture, sshAnswer_capture]
  dsimp only
  rw [← hreply]
  exact ⟨rfl, ⟨hdiscreet.named, hdiscreet.planned⟩, _, hG.next command hguest, rfl⟩

/-- Whatever does not tell a password is done in both worlds alike. -/
theorem perform (hG : Guest.Lockstep password password' G)
    (h : Lockstep password password' G w w') {c : Call} (hidle : c.isIdle = true) :
    (w'.perform c).1 = (w.perform c).1 ∧
      Lockstep password password' G (w.perform c).2 (w'.perform c).2 := by
  cases hcommand : c.command? with
  | none =>
    obtain ⟨hdiscreet, guest, hguest, rfl⟩ := h
    obtain ⟨happart, hnames, hkept⟩ := perform_apart hidle hcommand guest w
    rw [happart]
    refine ⟨rfl, ⟨?_, ?_⟩, guest, hkept.symm ▸ hguest, rfl⟩
    · rw [hnames]
      exact hdiscreet.named
    · rw [perform_plan]
      exact hdiscreet.planned
  | some command =>
    have hspared : command.provisions = false := by
      have hprovisions := Call.provisions_eq_false hidle
      unfold Call.provisions at hprovisions
      rw [hcommand] at hprovisions
      exact hprovisions
    cases c with
    | ssh request =>
      cases request with
      | run command addresses key limit =>
        obtain rfl := Option.some.inj hcommand
        have hrun := h.run hG command addresses key limit
        rw [GuestCommand.withPassword_of_idle hspared,
          GuestCommand.withPassword_of_idle hspared] at hrun
        exact hrun
      | capture command addresses key limit =>
        obtain rfl := Option.some.inj hcommand
        have hcapture := h.capture hG command addresses key limit
        rw [GuestCommand.withPassword_of_idle hspared,
          GuestCommand.withPassword_of_idle hspared] at hcapture
        exact hcapture
      | _ => cases hcommand
    | _ => cases hcommand

/-- A call that does not tell a password is answered alike. -/
theorem answer (hG : Guest.Lockstep password password' G)
    (h : Lockstep password password' G w w') {c : HostCall} (hidle : c.call.isIdle = true) :
    ∃ (reply : c.call.Reply) (next next' : World), w.answer c = (reply, next) ∧
      w'.answer c = (reply, next') ∧ Lockstep password password' G next next' := by
  have hcounted := h.counted (w.names.call c.call)
  have hsame : w'.names = w.names ∧ w'.plan c.call (w'.occurrence c.call) =
      w.plan c.call (w.occurrence c.call) := by
    obtain ⟨-, guest, -, rfl⟩ := h
    exact ⟨rfl, rfl⟩
  obtain ⟨hnames, hplan⟩ := hsame
  rcases hplanned : w.plan c.call (w.occurrence c.call) with _ | failure
  · obtain ⟨hreply, hnext⟩ := hcounted.perform hG hidle
    refine ⟨_, _, _, answer_unfailed hplanned, ?_, hnext⟩
    rw [answer_unfailed (hplan.trans hplanned), hnames]
    exact Prod.ext hreply rfl
  · refine ⟨_, _, _, answer_failed hplanned, ?_, hcounted⟩
    rw [answer_failed (hplan.trans hplanned), hnames]

theorem planned (h : Lockstep password password' G w w') (addresses : List Endpoint) (key : Bytes)
    (limit : Duration) :
    (w'.plan (.provisioning password' addresses key limit)
        (w'.occurrence (.provisioning password' addresses key limit)) : Option SshError) =
      w.plan (.provisioning password addresses key limit)
        (w.occurrence (.provisioning password addresses key limit)) := by
  obtain ⟨hdiscreet, guest, -, rfl⟩ := h
  have hoccurrence : w.occurrence (.provisioning password' addresses key limit) =
      w.occurrence (.provisioning password addresses key limit) := by
    unfold occurrence
    rw [hdiscreet.named]
  show (w.plan (.provisioning password' addresses key limit)
    (w.occurrence (.provisioning password' addresses key limit)) : Option SshError) = _
  rw [hoccurrence]
  exact (hdiscreet.planned ..).symm

/-- A call that provisions the guest is answered alike, although each guest is told its
password. -/
theorem answer_provisioning (hG : Guest.Lockstep password password' G)
    (h : Lockstep password password' G w w') (addresses : List Endpoint) (key : Bytes)
    (limit : Duration) (tolerated : Bool) :
    ∃ (reply : Except SshError Unit) (next next' : World),
      w.answer ⟨.provisioning password addresses key limit, tolerated⟩ = (reply, next) ∧
      w'.answer ⟨.provisioning password' addresses key limit, tolerated⟩ = (reply, next') ∧
      Lockstep password password' G next next' := by
  have hcounted := h.counted (w.names.call (.provisioning password addresses key limit))
  have hnames : w.names.call (.provisioning password addresses key limit) =
      w'.names.call (.provisioning password' addresses key limit) := by
    obtain ⟨hdiscreet, guest, -, rfl⟩ := h
    exact hdiscreet.named ..
  have hplan := h.planned addresses key limit
  rcases hplanned : (w.plan (.provisioning password addresses key limit)
    (w.occurrence (.provisioning password addresses key limit)) : Option SshError) with _ | failure
  · obtain ⟨hreply, hnext⟩ := hcounted.run hG (.provision password) addresses key limit
    refine ⟨_, _, _, answer_unfailed hplanned, ?_, hnext⟩
    rw [answer_unfailed (c := ⟨.provisioning password' addresses key limit, tolerated⟩)
      (hplan.trans hplanned), ← hnames]
    exact Prod.ext hreply rfl
  · refine ⟨.error failure, _, _, answer_failed hplanned, ?_, hcounted⟩
    rw [hnames]
    exact answer_failed (hplan.trans hplanned)

end Lockstep

end World

/-! ## Programs that go side by side -/

/-- What two calls have in common that are made side by side: they are the same, or they tell each
guest its password; and they are answered the same. -/
inductive Event.Twins (password password' : String) :
    Event hostSignature → Event hostSignature → Prop where
  | same {e : Event hostSignature} (h : e.call.call.provisions = false) :
      Twins password password' e e
  | provisioning {addresses : List Endpoint} {key : Bytes} {limit : Duration} {tolerated : Bool}
      {reply : Except SshError Unit} :
      Twins password password' ⟨⟨.provisioning password addresses key limit, tolerated⟩, reply⟩
        ⟨⟨.provisioning password' addresses key limit, tolerated⟩, reply⟩

/-- Programs that make the same calls as long as they get the same replies, none of which opens a
shell or tells a password; only where the one tells the first password, the other one tells the
second one. In the end their values are related. -/
inductive Program.Twins (password password' : String) {α : Type} (R : α → α → Prop) :
    Program hostSignature α → Program hostSignature α → Prop where
  | done {a a' : α} (h : R a a') : Twins password password' R (.done a) (.done a')
  | cut : Twins password password' R .cut .cut
  | same {c : HostCall} {next next' : c.call.Reply → Program hostSignature α}
      (hidle : c.call.isIdle = true)
      (h : ∀ reply, Twins password password' R (next reply) (next' reply)) :
      Twins password password' R (.call c next) (.call c next')
  | provisioning {addresses : List Endpoint} {key : Bytes} {limit : Duration} {tolerated : Bool}
      {next next' : Except SshError Unit → Program hostSignature α}
      (h : ∀ reply, Twins password password' R (next reply) (next' reply)) :
      Twins password password' R
        (.call ⟨.provisioning password addresses key limit, tolerated⟩ next)
        (.call ⟨.provisioning password' addresses key limit, tolerated⟩ next')

namespace Program

variable {password password' : String} {α β : Type} {R : α → α → Prop} {R' : β → β → Prop}
  {p p' : Program hostSignature α}

theorem Twins.bind {f f' : α → Program hostSignature β} (hp : Twins password password' R p p')
    (hf : ∀ a a', R a a' → Twins password password' R' (f a) (f' a')) :
    Twins password password' R' (p >>= f) (p' >>= f') := by
  induction hp with
  | done h => exact hf _ _ h
  | cut => exact .cut
  | same hidle h ih => exact .same hidle ih
  | provisioning h ih => exact .provisioning ih

/-- An idle program goes side by side with itself. -/
theorem Completes.twins {good : α → Prop}
    (hp : p.Completes (fun c : HostCall => c.call.isIdle = true) good)
    (hR : ∀ a, good a → R a a) : Twins password password' R p p := by
  induction p with
  | done value => exact .done (hR value hp)
  | cut => exact hp.elim
  | call c next ih => exact .same hp.1 fun reply => ih reply (hp.2 reply)

/-- What comes of two programs that are run side by side. -/
structure SideBySide (password password' : String) (G : Guest → Guest → Prop) (R : α → α → Prop)
    (o o' : Outcome hostSignature World α) : Prop where
  result : Option.Rel R o.result o'.result
  events : List.Forall₂ (Event.Twins password password') o.events o'.events
  state : World.Lockstep password password' G o.state o'.state

/-- How the run of a program begins that makes a call. -/
theorem run_call {c : HostCall} {reply : c.call.Reply} {w w' : World}
    (h : w.answer c = (reply, w')) {next : c.call.Reply → Program hostSignature α} :
    run World.host (.call c next) w =
      { run World.host (next reply) w' with
        events := ⟨c, reply⟩ :: (run World.host (next reply) w').events } := by
  obtain rfl : (w.answer c).1 = reply := congrArg Prod.fst h
  obtain rfl : (w.answer c).2 = w' := congrArg Prod.snd h
  rfl

/-- Programs that go side by side are run so in worlds in lockstep. -/
theorem Twins.run {G : Guest → Guest → Prop} (hG : Guest.Lockstep password password' G)
    (hp : Twins password password' R p p') {w w' : World}
    (h : World.Lockstep password password' G w w') :
    SideBySide password password' G R (run World.host p w) (run World.host p' w') := by
  induction hp generalizing w w' with
  | done hR => exact ⟨.some hR, .nil, h⟩
  | cut => exact ⟨.none, .nil, h⟩
  | same hidle _ ih =>
    obtain ⟨reply, next, next', hanswer, hanswer', hnext⟩ := h.answer hG hidle
    have hrest := ih reply hnext
    refine (congrArg₂ (SideBySide password password' G R) (run_call hanswer)
      (run_call hanswer')).mpr ⟨hrest.result, .cons ?_ hrest.events, hrest.state⟩
    exact .same (Call.provisions_eq_false hidle)
  | @provisioning addresses key limit tolerated _ _ _ ih =>
    obtain ⟨reply, next, next', hanswer, hanswer', hnext⟩ :=
      h.answer_provisioning hG addresses key limit tolerated
    have hrest := ih reply hnext
    exact (congrArg₂ (SideBySide password password' G R) (run_call hanswer)
      (run_call hanswer')).mpr ⟨hrest.result, .cons .provisioning hrest.events, hrest.state⟩

end Program

namespace Task

variable {password password' : String} {ε ε' α β : Type} {R : α → α → Prop} {R' : β → β → Prop}
  {good : α → Prop}

/-- The same error, or values that are related. -/
def Agree (R : α → α → Prop) : Except ε α → Except ε α → Prop
  | .ok a, .ok a' => R a a'
  | .error e, .error e' => e' = e
  | _, _ => False

/-- Tasks that go side by side and come to the same error or to related values. -/
def Twins (password password' : String) (R : α → α → Prop) (t t' : Task ε α) : Prop :=
  Program.Twins password password' (Agree R) t.program t'.program

theorem twins_pure {a a' : α} (h : R a a') :
    Twins password password' R (pure a : Task ε α) (pure a') := .done h

theorem twins_cut : Twins password password' R (cut : Task ε α) cut := .cut

theorem Twins.bind {t t' : Task ε α} {f f' : α → Task ε β}
    (ht : Twins password password' R t t')
    (hf : ∀ a a', R a a' → Twins password password' R' (f a) (f' a')) :
    Twins password password' R' (t >>= f) (t' >>= f') := by
  refine Program.Twins.bind ht fun result result' hagree => ?_
  rcases result with e | a <;> rcases result' with e' | a'
  · obtain rfl : e' = e := hagree
    exact .done rfl
  · exact hagree.elim
  · exact hagree.elim
  · exact hf a a' hagree

/-- An idle task goes side by side with itself. -/
theorem Completes.twins {t : Task ε α} (ht : t.Idle good) (hR : ∀ a, good a → R a a) :
    Twins password password' R t t := by
  refine Program.Completes.twins ht fun result hresult => ?_
  cases result with
  | ok a => exact hR a (hresult a rfl)
  | error e => exact rfl

/-- Where a task begins with an idle part, it is up to the rest. -/
theorem Completes.side {t : Task ε α} {f f' : α → Task ε β} (ht : t.Idle good)
    (hf : ∀ a, good a → Twins password password' R' (f a) (f' a)) :
    Twins password password' R' (t >>= f) (t >>= f') := by
  have hfirst : Twins password password' (fun a a' => a' = a ∧ good a) t t :=
    ht.twins fun _ hgood => ⟨rfl, hgood⟩
  refine hfirst.bind fun a a' h => ?_
  obtain ⟨rfl, hgood⟩ := h
  exact hf a' hgood

/-- What is decided is the same. -/
theorem twins_ite {b b' : Bool} {t t' u u' : Task ε α} (hb : b' = b)
    (ht : Twins password password' R t t') (hu : Twins password password' R u u') :
    Twins password password' R (if b then t else u) (if b' then t' else u') := by
  subst hb
  cases b'
  · exact hu
  · exact ht

/-- Without a value to speak of, tasks that agree come to the same. -/
theorem result_of_agree {result result' : Option (Except ε α)}
    (h : Option.Rel (Agree Eq) result result') : result' = result := by
  cases h with
  | none => rfl
  | @some answer answer' h =>
    rcases answer with e | a <;> rcases answer' with e' | a'
    · obtain rfl : e' = e := h
      rfl
    · exact h.elim
    · exact h.elim
    · obtain rfl : a = a' := h
      rfl

end Task

/-! ## Starts that differ in the password -/

namespace Vm

variable {password password' : String} {settings : Settings} {vm : Vm} {opts : StartOptions}

/-- What is handed on in two starts that differ in the password differs in nothing else. -/
def Handed (password password' : String) (handed handed' : Option StartOptions) : Prop :=
  ∃ opts : Option StartOptions, handed = opts.map (·.withPassword password) ∧
    handed' = opts.map (·.withPassword password')

theorem twins_switchOn (profile : VmProfile) :
    (switchOn settings profile (opts.withPassword password)).Twins password password'
      (Handed password password') (switchOn settings profile (opts.withPassword password')) := by
  refine (idle_tell _).side fun _ _ => ?_
  refine (Machine.idle_start _ _).mapError.side fun sshPort _ => ?_
  refine (idle_readKey _).side fun key _ => ?_
  -- The options that the guest is handed here are the same.
  refine Completes.side (completes_need rfl) fun _ _ => ?_
  refine twins_ite rfl ?_ (twins_pure ⟨some { opts with provision := true }, rfl, rfl⟩)
  exact (idle_tell _).side fun _ _ => twins_pure ⟨none, rfl, rfl⟩

/-- Only here is the password told. -/
theorem twins_provision (profile : VmProfile) :
    (provision settings profile (opts.withPassword password)).Twins password password' Eq
      (provision settings profile (opts.withPassword password')) := by
  refine (idle_tell _).side fun _ _ => ?_
  refine (idle_readKey _).side fun key _ => ?_
  refine Program.Twins.provisioning fun reply => .done ?_
  cases reply with
  | ok v => exact rfl
  | error e => exact rfl

theorem twins_startStep :
    (startStep settings vm (opts.withPassword password)).Twins password password'
      (Handed password password') (startStep settings vm (opts.withPassword password')) := by
  have hverify : ∀ {f f' : Unit → Task VmError (Option StartOptions)},
      (∀ v, (f v).Twins password password' (Handed password password') (f' v)) →
      (verify settings vm (opts.withPassword password) >>= f).Twins password password'
        (Handed password password') (verify settings vm (opts.withPassword password') >>= f') :=
    have hidle : (verify settings vm opts).Idle fun _ => True := apart_verify.idle
    fun hf => Completes.side hidle fun v _ => hf v
  unfold startStep
  cases vm.phase with
  | notCreated =>
    refine hverify fun _ => ?_
    refine (idle_tell _).side fun _ _ => ?_
    refine Completes.side (Machine.idle_importImage _ _).mapError fun _ _ => ?_
    exact (idle_tell _).side fun _ _ => twins_switchOn _
  | stopped => exact hverify fun _ => twins_switchOn _
  | saved =>
    refine Completes.side completes_ofExcept fun _ _ => ?_
    exact (idle_restore _).side fun _ _ => twins_pure ⟨none, rfl, rfl⟩
  | unprovisioned =>
    refine twins_ite rfl ?_ (hverify fun _ => ?_)
    · exact (twins_provision _).bind fun _ _ _ => twins_pure ⟨none, rfl, rfl⟩
    · exact (apart_switchOff _ _).idle.side fun _ _ => twins_switchOn _
  | running =>
    refine twins_ite rfl ?_ (hverify fun _ => ?_)
    · refine (idle_readKey _).side fun key _ => ?_
      exact Completes.side (completes_need rfl) fun _ _ => twins_pure ⟨some opts, rfl, rfl⟩
    · exact (idle_tell _).side fun _ _ => twins_pure ⟨none, rfl, rfl⟩

/-- However often the start is handed on. -/
theorem twins_start (allowance : Nat) :
    (start settings allowance vm (opts.withPassword password)).Twins password password' Eq
      (start settings allowance vm (opts.withPassword password')) := by
  induction allowance generalizing vm opts with
  | zero => exact twins_cut
  | succ allowance ih =>
    refine twins_startStep.bind fun handed handed' hhanded => ?_
    obtain ⟨more, rfl, rfl⟩ := hhanded
    cases more with
    | none => exact twins_pure rfl
    | some more => exact (idle_select _).mapError.side fun next _ => ih

end Vm

theorem UserCommand.twins_perform (settings : Settings) (allowance : Nat) (stdin : Bytes)
    (opts : StartOptions) (password password' : String) :
    (UserCommand.perform settings allowance stdin (.start (opts.withPassword password))).Twins
      password password' Eq
      (UserCommand.perform settings allowance stdin (.start (opts.withPassword password'))) := by
  refine (Vm.idle_select _).side fun vm _ => ?_
  refine (Vm.twins_start allowance).bind fun _ _ _ => ?_
  refine twins_ite rfl ?_ (twins_pure rfl)
  refine (Vm.idle_select _).side fun vm _ => ?_
  exact (Vm.apart_target true).idle.twins fun _ _ => rfl

/-! ## The result -/

/-- Of a password that is not empty it is only shown that there is one. -/
theorem StartOptions.shown_withPassword (opts : StartOptions) {password password' : String}
    (h : password ≠ "") (h' : password' ≠ "") :
    (opts.withPassword password).shown = (opts.withPassword password').shown := by
  have hpresent : ∀ {password : String}, password ≠ "" →
      decide ((opts.withPassword password).masterPassword ≠ "") = true := fun h => decide_eq_true h
  unfold shown
  rw [hpresent h, hpresent h']
  rfl

/-- The master password reaches nothing but the command that provisions the guest. Let two starts
differ in the password, in a world whose guest cannot be told by its answers which of the two it was
given, and where no failure is planned by it: then the same calls are made, in the same order and
answered the same, except that the guest is told the other password; the result is the same; and all
of the world is left the same, except for what the guest's rules will answer from then on, by which
the two guests still cannot be told apart. If no rule of the guest tells the passwords apart, the
world is left quite the same. And unless one of them is empty, the two requests are shown alike. -/
theorem password_confined (settings : Settings) (allowance : Nat) (stdin : Bytes)
    (opts : StartOptions) {password password' : String} {w : World}
    (hdiscreet : w.Discreet password password')
    (halike : w.guest.Alike password password' w.guest) :
    let run := fun password =>
      w.run (UserCommand.perform settings allowance stdin (.start (opts.withPassword password)))
    let after := (run password).state
    let after' := (run password').state
    List.Forall₂ (Event.Twins password password') (run password).events (run password').events ∧
      (run password').result = (run password).result ∧
      (∃ rules, after' = { after with guest := { after.guest with rules } }) ∧
      after.guest.Alike password password' after'.guest ∧
      (w.guest.Heedless password password' → after' = after) ∧
      (password ≠ "" → password' ≠ "" →
        (opts.withPassword password).shown = (opts.withPassword password').shown) := by
  intro run after after'
  have htwins := UserCommand.twins_perform settings allowance stdin opts password password'
  have hrun := htwins.run Guest.lockstep_alike ⟨hdiscreet, w.guest, ⟨rfl, halike⟩, rfl⟩
  obtain ⟨-, guest, ⟨hhealthy, hguest⟩, hafter⟩ := hrun.state
  have hafter : after' = { after with guest } := hafter
  have hhealthy : guest.healthy = after.guest.healthy := hhealthy
  refine ⟨hrun.events, ?_, ⟨guest.rules, ?_⟩, ?_, fun hheedless => ?_,
    opts.shown_withPassword⟩
  · exact result_of_agree hrun.result
  · rw [hafter]
    show { after with guest } = { after with guest := ⟨after.guest.healthy, guest.rules⟩ }
    rw [← hhealthy]
  · rw [hafter]
    exact hguest
  · have hsame := htwins.run Guest.lockstep_heedless ⟨hdiscreet, w.guest, ⟨rfl, hheedless⟩, rfl⟩
    obtain ⟨-, guest, ⟨rfl, -⟩, hafter⟩ := hsame.state
    exact hafter

/-- A guest that refuses to be provisioned, whatever it is told. -/
def refusingGuest : Guest where
  rules := [⟨.startingWith GuestCommand.provisioner, [{ status := some 1 }]⟩]

/-- Two starts that fail because of such a guest leave no trace of the password. -/
theorem password_confined_refused :
    let w := { sampleWorld with guest := refusingGuest }
    let run := fun password => w.run (UserCommand.perform sampleSettings 1000 []
      (.start (({} : StartOptions).withPassword password)))
    w.Discreet "open" "sesame" ∧ w.guest.Alike "open" "sesame" w.guest ∧
      (run "sesame").result = (run "open").result ∧ (run "sesame").state = (run "open").state := by
  intro w run
  have hdiscreet : w.Discreet "open" "sesame" := ⟨fun _ _ _ => rfl, fun _ _ _ _ => rfl⟩
  have hheedless : w.guest.Heedless "open" "sesame" := by
    intro rule hin
    rw [List.mem_singleton.mp hin]
    decide
  have halike : w.guest.Alike "open" "sesame" w.guest :=
    Guest.lockstep_heedless.alike ⟨rfl, hheedless⟩
  obtain ⟨-, hresult, -, -, hstate, -⟩ :=
    password_confined sampleSettings 1000 [] {} hdiscreet halike
  exact ⟨hdiscreet, halike, hresult, hstate hheedless⟩

end DevVm
