import DevVm.Hypervisor.Tool
import DevVm.Proofs.Relays
import DevVm.Proofs.Runs
import DevVm.World.Script
import Mathlib.Data.List.Chain

/-!
# Stopping a machine in time

To stop a machine, its power button is pressed, and then the tool is asked once a second which
machines run, until this one does not or its time is up; then it is switched off. The answers of the
tool are arbitrary here, and so is the time its commands take: all that is asked of a host is that
its clock `KeepsTime`.

`Watches` lists the courses of the watch in between. Every run of it takes one of them, as the
rounds it is allowed suffice for the pauses there can be before the deadline
(`stopsBefore_watches`). In each of them a look comes right after the clock showed a time before the
deadline, and the switch right after it showed one that is not (`Paced`). As a host `Gives` the
readings by its clock, both are facts about the host: where it stands when the machine is looked at,
its clock is before the deadline, and where it stands when the machine is switched off, it is not.
`shutDown_inOrder` puts this together.
-/

namespace DevVm.Hypervisor

variable {σ : Type}

/-! ## Clocks -/

/-- A clock goes by a host's states: it is read as it stands, it never goes back, and a pause moves
it by its length at least. -/
structure KeepsTime (host : Host runnerSignature σ) (clock : σ → Nat) : Prop where
  now : ∀ s, ((host.answer .now s).1 : Duration).nanos = clock (host.answer .now s).2
  forward : ∀ c s, clock s ≤ clock (host.answer c s).2
  sleep : ∀ length s, clock s + length.nanos ≤ clock (host.answer (.sleep length) s).2

/-! ## The commands -/

/-- The command that presses a machine's power button. -/
def Tool.pressing (tool : Tool) (name : String) : Command :=
  ⟨tool.program, ["controlvm", name, "acpipowerbutton"]⟩

/-- The command that lists the machines that run. -/
def Tool.looking (tool : Tool) : Command := ⟨tool.program, ["list", "runningvms"]⟩

/-- The command that switches a machine off. -/
def Tool.cutting (tool : Tool) (name : String) : Command :=
  ⟨tool.program, ["controlvm", name, "poweroff"]⟩

/-- What a reply to a command comes to. -/
def verdict (command : Command) (reply : Option Output) : Except HypervisorError String :=
  (command.text reply).mapError .command

/-- A look found a machine among those that run. -/
def Tool.Lists (tool : Tool) (name : String) (reply : Option Output) : Prop :=
  ∃ text, verdict tool.looking reply = .ok text ∧ name ∈ vmNames text

/-- A look found that a machine is not among those that run. -/
def Tool.Misses (tool : Tool) (name : String) (reply : Option Output) : Prop :=
  ∃ text, verdict tool.looking reply = .ok text ∧ name ∉ vmNames text

/-! ## Running the tool -/

section Looks

variable {host : Host runnerSignature σ} {tool : Tool} {name : String} {deadline now : Duration}
  {rounds : Nat} {reply : Option Output} {e : HypervisorError} {s s₁ s₂ s₃ : σ}

/-- A task that goes wrong is not followed by anything. -/
theorem run_bind_error {ε α β : Type} {task : RunnerTask ε α} {f : α → RunnerTask ε β} {e : ε}
    {es : List (Event runnerSignature)} {s s' : σ}
    (h : Program.run host (ExceptT.run task) s = ⟨some (.error e), es, s'⟩) :
    Program.run host (ExceptT.run (task >>= f)) s = ⟨some (.error e), es, s'⟩ := by
  have hrun := Program.run_bind host (ExceptT.run task) (ExceptT.bindCont f) s
  rw [h] at hrun
  exact hrun.trans (congrArg (Outcome.mk _ · _) (List.append_nil es))

/-- A task with a value is followed by what its value asks for. -/
theorem run_bind_ok {ε α β : Type} {task : RunnerTask ε α} {f : α → RunnerTask ε β} {a : α}
    {es : List (Event runnerSignature)} {s s' : σ}
    (h : Program.run host (ExceptT.run task) s = ⟨some (.ok a), es, s'⟩) :
    Program.run host (ExceptT.run (task >>= f)) s =
      (Program.run host (ExceptT.run (f a)) s').behind es := by
  have hrun := Program.run_bind host (ExceptT.run task) (ExceptT.bindCont f) s
  rw [h] at hrun
  exact hrun

theorem run_now (h : host.answer .now s = (now, s₁)) {ε : Type} :
    Program.run host (ExceptT.run (RunnerTask.now : RunnerTask ε Duration)) s =
      ⟨some (.ok now), [⟨.now, now⟩], s₁⟩ := by
  obtain rfl : (host.answer .now s).1 = now := congrArg Prod.fst h
  obtain rfl : (host.answer .now s).2 = s₁ := congrArg Prod.snd h
  rfl

theorem run_invoke {args : List String}
    (h : host.answer (.run ⟨tool.program, args⟩) s = (reply, s₁)) :
    Program.run host (ExceptT.run (tool.invoke args)) s =
      ⟨some (verdict ⟨tool.program, args⟩ reply), [⟨.run ⟨tool.program, args⟩, reply⟩], s₁⟩ := by
  obtain rfl : (host.answer (.run ⟨tool.program, args⟩) s).1 = reply := congrArg Prod.fst h
  obtain rfl : (host.answer (.run ⟨tool.program, args⟩) s).2 = s₁ := congrArg Prod.snd h
  rfl

/-- Reading a value differently changes nothing else. -/
theorem run_reading {ε α β : Type} {task : RunnerTask ε α} {answer : Except ε α}
    {es : List (Event runnerSignature)} {s s' : σ} (f : α → β)
    (h : Program.run host (ExceptT.run task) s = ⟨some answer, es, s'⟩) :
    Program.run host (ExceptT.run (task >>= fun a => pure (f a))) s =
      ⟨some (answer.map f), es, s'⟩ := by
  cases answer with
  | error e => exact run_bind_error h
  | ok a =>
    rw [run_bind_ok h]
    exact congrArg (Outcome.mk _ · _) (List.append_nil es)

theorem run_order {args : List String}
    (h : host.answer (.run ⟨tool.program, args⟩) s = (reply, s₁)) :
    Program.run host (ExceptT.run (tool.order args)) s =
      ⟨some ((verdict ⟨tool.program, args⟩ reply).map fun _ => ()),
        [⟨.run ⟨tool.program, args⟩, reply⟩], s₁⟩ :=
  run_reading _ (run_invoke h)

theorem run_press (h : host.answer (.run (tool.pressing name)) s = (reply, s₁)) :
    Program.run host (ExceptT.run (tool.order ["controlvm", name, "acpipowerbutton"])) s =
      ⟨some ((verdict (tool.pressing name) reply).map fun _ => ()),
        [⟨.run (tool.pressing name), reply⟩], s₁⟩ := run_order h

theorem run_powerOff (h : host.answer (.run (tool.cutting name)) s = (reply, s₁)) :
    Program.run host (ExceptT.run (tool.powerOff name)) s =
      ⟨some ((verdict (tool.cutting name) reply).map fun _ => ()),
        [⟨.run (tool.cutting name), reply⟩], s₁⟩ := run_order h

theorem run_isRunning (name : String) (h : host.answer (.run tool.looking) s = (reply, s₁)) :
    Program.run host (ExceptT.run (tool.isRunning name)) s =
      ⟨some (((verdict tool.looking reply).map vmNames).map fun names => names.contains name),
        [⟨.run tool.looking, reply⟩], s₁⟩ :=
  run_reading (fun names : List String => names.contains name)
    (run_reading vmNames (run_invoke h))

/-! ## One round -/

theorem run_stopsBefore_expired (hnow : host.answer .now s = (now, s₁))
    (hlate : deadline.nanos ≤ now.nanos) :
    Program.run host (ExceptT.run (tool.stopsBefore name deadline (rounds + 1))) s =
      ⟨some (.ok false), [⟨.now, now⟩], s₁⟩ := by
  have hrun : Program.run host
      (ExceptT.run (tool.stopsBefore name deadline (rounds + 1))) s = _ :=
    run_bind_ok (run_now hnow)
  rw [hrun, if_pos hlate]
  rfl

/-- Before the deadline a watch looks. -/
theorem run_stopsBefore_early (hnow : host.answer .now s = (now, s₁))
    (hearly : now.nanos < deadline.nanos) :
    Program.run host (ExceptT.run (tool.stopsBefore name deadline (rounds + 1))) s =
      (Program.run host (ExceptT.run (do
        if !(← tool.isRunning name) then return true
        RunnerTask.sleep pollInterval
        tool.stopsBefore name deadline rounds : ToolTask Bool)) s₁).behind [⟨.now, now⟩] := by
  have hrun : Program.run host
      (ExceptT.run (tool.stopsBefore name deadline (rounds + 1))) s = _ :=
    run_bind_ok (run_now hnow)
  rw [hrun, if_neg (Nat.not_le.mpr hearly)]

theorem run_stopsBefore_failed (hnow : host.answer .now s = (now, s₁))
    (hearly : now.nanos < deadline.nanos) (hlook : host.answer (.run tool.looking) s₁ = (reply, s₂))
    (hverdict : verdict tool.looking reply = .error e) :
    Program.run host (ExceptT.run (tool.stopsBefore name deadline (rounds + 1))) s =
      ⟨some (.error e), [⟨.now, now⟩, ⟨.run tool.looking, reply⟩], s₂⟩ := by
  have hrunning := run_isRunning name hlook
  rw [hverdict] at hrunning
  rw [run_stopsBefore_early hnow hearly, run_bind_error hrunning]
  rfl

theorem run_stopsBefore_stopped (hnow : host.answer .now s = (now, s₁))
    (hearly : now.nanos < deadline.nanos) (hlook : host.answer (.run tool.looking) s₁ = (reply, s₂))
    (hmisses : tool.Misses name reply) :
    Program.run host (ExceptT.run (tool.stopsBefore name deadline (rounds + 1))) s =
      ⟨some (.ok true), [⟨.now, now⟩, ⟨.run tool.looking, reply⟩], s₂⟩ := by
  obtain ⟨text, hverdict, hmisses⟩ := hmisses
  have hrunning := run_isRunning name hlook
  have hcontains : (vmNames text).contains name = false :=
    Bool.eq_false_iff.mpr fun h => hmisses (List.contains_iff_mem.mp h)
  rw [hverdict, Except.map, Except.map, hcontains] at hrunning
  rw [run_stopsBefore_early hnow hearly, run_bind_ok hrunning]
  rfl

theorem run_stopsBefore_listed (hnow : host.answer .now s = (now, s₁))
    (hearly : now.nanos < deadline.nanos) (hlook : host.answer (.run tool.looking) s₁ = (reply, s₂))
    (hlists : tool.Lists name reply) (hsleep : host.answer (.sleep pollInterval) s₂ = ((), s₃)) :
    Program.run host (ExceptT.run (tool.stopsBefore name deadline (rounds + 1))) s =
      (Program.run host (ExceptT.run (tool.stopsBefore name deadline rounds)) s₃).behind
        [⟨.now, now⟩, ⟨.run tool.looking, reply⟩, ⟨.sleep pollInterval, ()⟩] := by
  obtain ⟨text, hverdict, hlists⟩ := hlists
  have hrunning := run_isRunning name hlook
  rw [hverdict, Except.map, Except.map, List.contains_iff_mem.mpr hlists] at hrunning
  rw [run_stopsBefore_early hnow hearly, run_bind_ok hrunning]
  obtain rfl : (host.answer (.sleep pollInterval) s₂).2 = s₃ := congrArg Prod.snd hsleep
  rfl

end Looks

/-! ## The course of a watch -/

/-- The courses a watch can take, each with what its looks were answered with and what it comes to:
that the machine has stopped, that it has not in time, or why a look failed. -/
inductive Watches (tool : Tool) (name : String) (deadline : Duration) :
    List (Event runnerSignature) → List (Option Output) → Except HypervisorError Bool → Prop where
  | expired {now : Duration} (late : deadline.nanos ≤ now.nanos) :
      Watches tool name deadline [⟨.now, now⟩] [] (.ok false)
  | failed {now : Duration} {reply : Option Output} {e : HypervisorError}
      (early : now.nanos < deadline.nanos) (fails : verdict tool.looking reply = .error e) :
      Watches tool name deadline [⟨.now, now⟩, ⟨.run tool.looking, reply⟩] [reply] (.error e)
  | stopped {now : Duration} {reply : Option Output}
      (early : now.nanos < deadline.nanos) (misses : tool.Misses name reply) :
      Watches tool name deadline [⟨.now, now⟩, ⟨.run tool.looking, reply⟩] [reply] (.ok true)
  | listed {now : Duration} {reply : Option Output} {es : List (Event runnerSignature)}
      {looks : List (Option Output)} {answer : Except HypervisorError Bool}
      (early : now.nanos < deadline.nanos) (lists : tool.Lists name reply)
      (rest : Watches tool name deadline es looks answer) :
      Watches tool name deadline
        (⟨.now, now⟩ :: ⟨.run tool.looking, reply⟩ :: ⟨.sleep pollInterval, ()⟩ :: es)
        (reply :: looks) answer

/-- With as many rounds as there can be pauses before the deadline and one more, a watch takes its
course, and it looks once in every round but the last at most. -/
theorem stopsBefore_watches {host : Host runnerSignature σ} {clock : σ → Nat}
    (h : KeepsTime host clock) (tool : Tool) (name : String) (deadline : Duration) (rounds : Nat)
    (s : σ) (henough : deadline.nanos ≤ clock s + rounds * pollInterval.nanos) :
    ∃ answer looks es s',
      Program.run host (ExceptT.run (tool.stopsBefore name deadline (rounds + 1))) s =
        ⟨some answer, es, s'⟩ ∧
      Watches tool name deadline es looks answer ∧ looks.length ≤ rounds := by
  -- The invariant is `henough`: each pause takes from the time left what its round was worth.
  induction rounds generalizing s with
  | zero =>
    rcases hnow : host.answer .now s with ⟨now, s₁⟩
    have hread := h.now s
    have hforward := h.forward .now s
    rw [hnow] at hread hforward
    have hlate : deadline.nanos ≤ now.nanos := by
      dsimp only at hread hforward
      omega
    exact ⟨_, [], _, _, run_stopsBefore_expired hnow hlate, .expired hlate, Nat.le_refl 0⟩
  | succ rounds ih =>
    rcases hnow : host.answer .now s with ⟨now, s₁⟩
    by_cases hlate : deadline.nanos ≤ now.nanos
    · exact ⟨_, [], _, _, run_stopsBefore_expired hnow hlate, .expired hlate, Nat.zero_le _⟩
    have hearly : now.nanos < deadline.nanos := Nat.lt_of_not_le hlate
    rcases hlook : host.answer (.run tool.looking) s₁ with ⟨reply, s₂⟩
    cases hverdict : verdict tool.looking reply with
    | error e =>
      exact ⟨_, [reply], _, _, run_stopsBefore_failed hnow hearly hlook hverdict,
        .failed hearly hverdict, Nat.le_add_left 1 rounds⟩
    | ok text =>
      by_cases hlists : name ∈ vmNames text
      · rcases hsleep : host.answer (.sleep pollInterval) s₂ with ⟨slept, s₃⟩
        have hforward := h.forward .now s
        have hforward' := h.forward (.run tool.looking) s₁
        have hslept := h.sleep pollInterval s₂
        rw [hnow] at hforward
        rw [hlook] at hforward'
        rw [hsleep] at hslept
        dsimp only at hforward hforward' hslept
        have hleft : deadline.nanos ≤ clock s₃ + rounds * pollInterval.nanos := by
          rw [Nat.succ_mul] at henough
          omega
        obtain ⟨answer, looks, es, s', hrun, hwatches, hlength⟩ := ih s₃ hleft
        have hlisted : Program.run host
            (ExceptT.run (tool.stopsBefore name deadline (rounds + 1 + 1))) s = _ :=
          run_stopsBefore_listed hnow hearly hlook ⟨text, hverdict, hlists⟩ hsleep
        rw [hrun] at hlisted
        exact ⟨_, reply :: looks, _, _, hlisted, .listed hearly ⟨text, hverdict, hlists⟩ hwatches,
          Nat.succ_le_succ hlength⟩
      · exact ⟨_, [reply], _, _, run_stopsBefore_stopped hnow hearly hlook ⟨text, hverdict, hlists⟩,
          .stopped hearly ⟨text, hverdict, hlists⟩, Nat.le_add_left 1 rounds⟩

/-- The commands among some calls, each with what it was answered with. -/
def invocations (es : List (Event runnerSignature)) : List (Command × Option Output) :=
  es.filterMap fun
    | ⟨.run command, reply⟩ => some (command, reply)
    | _ => none

/-- The calls of a watch that has found its machine so many times, up to its next look at the
clock. -/
def Tool.watching (tool : Tool) : Nat → List RunnerCall
  | 0 => [.now]
  | looks + 1 => .now :: .run tool.looking :: .sleep pollInterval :: tool.watching looks

/-- Of two calls in a row: a look comes right after the clock showed a time before the deadline, and
the switch right after it showed one that is not. -/
structure Paced (tool : Tool) (name : String) (deadline : Duration)
    (before e : Event runnerSignature) : Prop where
  look : e.call = .run tool.looking → ∃ now : Duration, before = ⟨.now, now⟩ ∧
    now.nanos < deadline.nanos
  cut : e.call = .run (tool.cutting name) → ∃ now : Duration, before = ⟨.now, now⟩ ∧
    deadline.nanos ≤ now.nanos

section Courses

variable {tool : Tool} {name : String} {deadline now : Duration} {reply : Option Output}
  {es : List (Event runnerSignature)} {looks : List (Option Output)}
  {answer : Except HypervisorError Bool} {e : HypervisorError}

theorem Tool.Lists.not_misses (h : tool.Lists name reply) : ¬ tool.Misses name reply := by
  rintro ⟨text, hverdict, hmisses⟩
  obtain ⟨text', hverdict', hlists⟩ := h
  rw [hverdict] at hverdict'
  cases hverdict'
  exact hmisses hlists

theorem Tool.Lists.not_error (h : tool.Lists name reply) :
    verdict tool.looking reply ≠ .error e := by
  obtain ⟨text, hverdict, -⟩ := h
  rw [hverdict]
  exact nofun

theorem Tool.cutting_ne_looking : tool.cutting name ≠ tool.looking := fun heq =>
  absurd (List.cons.inj (congrArg Command.args heq)).1 (by decide)

theorem paced_look (h : now.nanos < deadline.nanos) :
    Paced tool name deadline ⟨.now, now⟩ ⟨.run tool.looking, reply⟩ where
  look _ := ⟨now, rfl, h⟩
  cut heq := absurd (RunnerCall.run.inj heq).symm Tool.cutting_ne_looking

theorem paced_cut (h : deadline.nanos ≤ now.nanos) :
    Paced tool name deadline ⟨.now, now⟩ ⟨.run (tool.cutting name), reply⟩ where
  look heq := absurd (RunnerCall.run.inj heq) Tool.cutting_ne_looking
  cut _ := ⟨now, rfl, h⟩

namespace Watches

/-- Every look but the last found the machine. -/
theorem earlier (h : Watches tool name deadline es looks answer) :
    ∀ reply ∈ looks.dropLast, tool.Lists name reply := by
  induction h with
  | expired => exact nofun
  | failed => exact nofun
  | stopped => exact nofun
  | @listed now reply es looks answer early lists rest ih =>
    cases looks with
    | nil => exact nofun
    | cons next looks => exact List.forall_mem_cons.mpr ⟨lists, ih⟩

/-- A look that does not find the machine is the last one. -/
theorem of_misses (h : Watches tool name deadline es looks answer) (hreply : reply ∈ looks)
    (hmisses : tool.Misses name reply) : answer = .ok true := by
  induction h with
  | expired => exact absurd hreply List.not_mem_nil
  | failed early fails =>
    obtain rfl := List.mem_singleton.mp hreply
    obtain ⟨text, hverdict, -⟩ := hmisses
    exact absurd (hverdict.symm.trans fails) nofun
  | stopped early misses => rfl
  | listed early lists rest ih =>
    rcases List.mem_cons.mp hreply with rfl | hreply
    · exact absurd hmisses lists.not_misses
    · exact ih hreply

/-- A look that fails is the last one. -/
theorem of_error (h : Watches tool name deadline es looks answer) (hreply : reply ∈ looks)
    (hfails : verdict tool.looking reply = .error e) : answer = .error e := by
  induction h with
  | expired => exact absurd hreply List.not_mem_nil
  | failed early fails =>
    obtain rfl := List.mem_singleton.mp hreply
    cases fails.symm.trans hfails
    rfl
  | stopped early misses =>
    obtain rfl := List.mem_singleton.mp hreply
    obtain ⟨text, hverdict, -⟩ := misses
    exact absurd (hverdict.symm.trans hfails) nofun
  | listed early lists rest ih =>
    rcases List.mem_cons.mp hreply with rfl | hreply
    · exact absurd hfails lists.not_error
    · exact ih hreply

/-- The time has run out just if every look found the machine. -/
theorem expired_iff (h : Watches tool name deadline es looks answer) :
    answer = .ok false ↔ ∀ reply ∈ looks, tool.Lists name reply := by
  induction h with
  | expired => exact ⟨fun _ => nofun, fun _ => rfl⟩
  | failed early fails =>
    exact ⟨nofun, fun hall => absurd fails (hall _ List.mem_cons_self).not_error⟩
  | stopped early misses =>
    exact ⟨nofun, fun hall => absurd misses (hall _ List.mem_cons_self).not_misses⟩
  | listed early lists rest ih =>
    rw [List.forall_mem_cons]
    exact ih.trans ⟨fun hall => ⟨lists, hall⟩, And.right⟩

/-- A watch that ended in time did so with a look that did not find the machine. -/
theorem last (h : Watches tool name deadline es looks answer) (hanswer : answer ≠ .ok false) :
    ∃ reply, looks.getLast? = some reply ∧
      (tool.Misses name reply ∨ ∃ e, verdict tool.looking reply = .error e) := by
  induction h with
  | expired => exact absurd rfl hanswer
  | failed early fails => exact ⟨_, rfl, .inr ⟨_, fails⟩⟩
  | stopped early misses => exact ⟨_, rfl, .inl misses⟩
  | listed early lists rest ih =>
    obtain ⟨reply, hlast, hends⟩ := ih hanswer
    exact ⟨reply, by rw [List.getLast?_cons, hlast]; rfl, hends⟩

theorem invocations_eq (h : Watches tool name deadline es looks answer) :
    invocations es = looks.map (tool.looking, ·) := by
  induction h with
  | expired => rfl
  | failed => rfl
  | stopped => rfl
  | listed early lists rest ih => exact congrArg (_ :: ·) ih

/-- The calls of a watch whose time has run out. -/
theorem calls_of_expired (h : Watches tool name deadline es looks answer)
    (hanswer : answer = .ok false) : es.map (·.call) = tool.watching looks.length := by
  induction h with
  | expired => rfl
  | failed => cases hanswer
  | stopped => cases hanswer
  | listed early lists rest ih => exact congrArg (_ :: _ :: _ :: ·) (ih hanswer)

/-- The calls of a watch that ended in time. -/
theorem calls_of_seen (h : Watches tool name deadline es looks answer)
    (hanswer : answer ≠ .ok false) :
    es.map (·.call) = tool.watching (looks.length - 1) ++ [.run tool.looking] := by
  induction h with
  | expired => exact absurd rfl hanswer
  | failed => rfl
  | stopped => rfl
  | @listed now reply es looks answer early lists rest ih =>
    obtain ⟨reply', hlast, -⟩ := rest.last hanswer
    cases looks with
    | nil => cases hlast
    | cons next looks => exact congrArg (_ :: _ :: _ :: ·) (ih hanswer)

/-- A watch begins with a look at the clock. -/
theorem begins (h : Watches tool name deadline es looks answer) :
    ∃ (now : Duration) (rest : List (Event runnerSignature)), es = ⟨.now, now⟩ :: rest := by
  cases h <;> exact ⟨_, _, rfl⟩

/-- A watch for which the time has run out has last seen a time that is not before the deadline. -/
theorem ends (h : Watches tool name deadline es looks answer) (hanswer : answer = .ok false) :
    ∃ now : Duration, es.getLast? = some ⟨.now, now⟩ ∧ deadline.nanos ≤ now.nanos := by
  induction h with
  | expired late => exact ⟨_, rfl, late⟩
  | failed => cases hanswer
  | stopped => cases hanswer
  | listed early lists rest ih =>
    obtain ⟨now, hlast, hlate⟩ := ih hanswer
    refine ⟨now, ?_, hlate⟩
    rw [List.getLast?_cons, List.getLast?_cons, List.getLast?_cons, hlast]
    rfl

theorem paced (h : Watches tool name deadline es looks answer) :
    es.IsChain (Paced tool name deadline) := by
  induction h with
  | expired => exact .singleton _
  | failed early => exact .cons_cons (paced_look early) (.singleton _)
  | stopped early => exact .cons_cons (paced_look early) (.singleton _)
  | listed early lists rest ih =>
    obtain ⟨now, more, rfl⟩ := rest.begins
    exact .cons_cons (paced_look early) (.cons_cons ⟨nofun, nofun⟩ (.cons_cons ⟨nofun, nofun⟩ ih))

end Watches

end Courses

/-! ## Stopping -/

/-- The time that a machine has to stop by itself, on a host's clock: the limit of its tool, from
when its button has been pressed. -/
def Tool.deadline (tool : Tool) (host : Host runnerSignature σ) (clock : σ → Nat) (name : String)
    (s : σ) : Nat :=
  clock (host.answer .now (host.answer (.run (tool.pressing name)) s).2).2 + tool.stopLimit.nanos

/-- How a machine is stopped on a host: what the button press was answered with, what the looks
were, and what switching it off was, if that came to pass. -/
structure ShutsDown (host : Host runnerSignature σ) (clock : σ → Nat) (tool : Tool) (name : String)
    (s : σ) (es : List (Event runnerSignature)) (result : Except HypervisorError Unit)
    (pressed : Option Output) (looks : List (Option Output)) (off : Option (Option Output)) :
    Prop where
  /-- The button is pressed once, at first, and the machine is switched off once at most, at
  last. -/
  invocations : invocations es = (tool.pressing name, pressed) ::
    (looks.map (tool.looking, ·) ++ off.toList.map (tool.cutting name, ·))
  /-- If the button cannot be pressed, that is all. -/
  refused : ∀ e, verdict (tool.pressing name) pressed = .error e →
    looks = [] ∧ off = none ∧ result = .error e
  /-- Otherwise there are rounds of looking, with a look at the clock before the machine is looked
  at, and a pause after it if it was found. -/
  rounds : (∃ text, verdict (tool.pressing name) pressed = .ok text) →
    es.map (·.call) = .run (tool.pressing name) :: .now ::
      (if off.isSome then tool.watching looks.length ++ [.run (tool.cutting name)]
        else tool.watching (looks.length - 1) ++ [.run tool.looking])
  /-- It goes on looking only while the machine is found. -/
  earlier : ∀ reply ∈ looks.dropLast, tool.Lists name reply
  stopped : ∀ reply ∈ looks, tool.Misses name reply → off = none ∧ result = .ok ()
  failed : ∀ reply ∈ looks, ∀ e, verdict tool.looking reply = .error e →
    off = none ∧ result = .error e
  /-- Unless the machine is switched off, the last look did not find it. -/
  ends : (∃ text, verdict (tool.pressing name) pressed = .ok text) → off = none →
    ∃ reply, looks.getLast? = some reply ∧
      (tool.Misses name reply ∨ ∃ e, verdict tool.looking reply = .error e)
  /-- The machine is switched off just if its time has passed and every look found it. -/
  switchesOff_iff : off.isSome ↔ (∃ text, verdict (tool.pressing name) pressed = .ok text) ∧
    (∀ reply ∈ looks, tool.Lists name reply) ∧
    tool.deadline host clock name s ≤ clock (host.after s es)
  switchedOff : ∀ reply, off = some reply →
    result = (verdict (tool.cutting name) reply).map fun _ => ()
  /-- Every look begins before the deadline on the clock of the host. -/
  timely : ∀ before reply later, es = before ++ ⟨.run tool.looking, reply⟩ :: later →
    clock (host.after s before) < tool.deadline host clock name s
  /-- The machine is not switched off before the deadline on the clock of the host. -/
  overdue : ∀ before reply later, es = before ++ ⟨.run (tool.cutting name), reply⟩ :: later →
    tool.deadline host clock name s ≤ clock (host.after s before)
  /-- There is at most one look for every second of the time, begun seconds included. -/
  bounded : looks.length ≤ (tool.stopLimit.nanos + pollInterval.nanos - 1) / pollInterval.nanos

/-- What is done upon a watch: its result, and what the switch was answered with if it was used. -/
inductive Concludes (tool : Tool) (name : String) : Except HypervisorError Bool →
    Except HypervisorError Unit → Option (Option Output) → Prop where
  | failed (e : HypervisorError) : Concludes tool name (.error e) (.error e) none
  | stopped : Concludes tool name (.ok true) (.ok ()) none
  | late (reply : Option Output) : Concludes tool name (.ok false)
      ((verdict (tool.cutting name) reply).map fun _ => ()) (some reply)

/-- The calls around a watch: the button and a look at the clock before it, and the switch behind it
if it was used. -/
def Tool.course (tool : Tool) (name : String) (pressed : Option Output) (start : Duration)
    (es : List (Event runnerSignature)) (off : Option (Option Output)) :
    List (Event runnerSignature) :=
  ⟨.run (tool.pressing name), pressed⟩ :: ⟨.now, start⟩ ::
    (es ++ off.toList.map fun reply => ⟨.run (tool.cutting name), reply⟩)

section Stopping

variable {host : Host runnerSignature σ} {clock : σ → Nat} {tool : Tool} {name : String}
  {pressed : Option Output} {deadline start : Duration} {es : List (Event runnerSignature)}
  {looks : List (Option Output)} {answer : Except HypervisorError Bool}
  {result : Except HypervisorError Unit} {off : Option (Option Output)} {s s₁ : σ}

theorem Tool.pressing_ne_looking : tool.pressing name ≠ tool.looking := fun heq =>
  absurd (List.cons.inj (congrArg Command.args heq)).1 (by decide)

theorem Tool.pressing_ne_cutting : tool.pressing name ≠ tool.cutting name := fun heq =>
  absurd (List.cons.inj (List.cons.inj (List.cons.inj (congrArg Command.args heq)).2).2).1
    (by decide)

/-! ### What the clock of the host showed -/

/-- Where a host stands after the clock has been read, it is the time that was read. -/
theorem KeepsTime.clock_of_gives (h : KeepsTime host clock) (hgives : host.Gives s es)
    {before later : List (Event runnerSignature)} {now : Duration}
    (hes : es = (before ++ [⟨.now, now⟩]) ++ later) :
    clock (host.after s (before ++ [⟨.now, now⟩])) = now.nanos := by
  have hreply : (host.answer .now (host.after s before)).1 = now :=
    hgives before _ later (hes.trans (List.append_assoc ..))
  have hread := h.now (host.after s before)
  rw [hreply] at hread
  rw [Host.after_append]
  exact hread.symm

/-- The clock never goes back. -/
theorem KeepsTime.le_after (h : KeepsTime host clock) (s : σ) (es : List (Event runnerSignature)) :
    clock s ≤ clock (host.after s es) := by
  induction es generalizing s with
  | nil => exact Nat.le_refl _
  | cons e es ih => exact Nat.le_trans (h.forward e.call s) (ih _)

/-- A command that is not the first call comes behind another call. -/
theorem before_ne_nil {first command : Command} {reply : Option Output}
    {rest before later : List (Event runnerSignature)} (hne : first ≠ command)
    (hes : (⟨.run first, pressed⟩ : Event runnerSignature) :: rest =
      before ++ ⟨.run command, reply⟩ :: later) : before ≠ [] := by
  rintro rfl
  exact hne (RunnerCall.run.inj (congrArg Event.call (List.cons.inj hes).1))

/-- Of a call behind another one, what holds of each two in a row. -/
theorem exists_before {R : Event runnerSignature → Event runnerSignature → Prop}
    (hchain : es.IsChain R) {before later : List (Event runnerSignature)}
    {e : Event runnerSignature} (hes : es = before ++ e :: later) (hne : before ≠ []) :
    ∃ earlier x, before = earlier ++ [x] ∧ R x e := by
  rcases List.eq_nil_or_concat before with rfl | ⟨earlier, x, rfl⟩
  · exact absurd rfl hne
  · rw [hes] at hchain
    refine ⟨earlier, x, List.concat_eq_append, ?_⟩
    exact (List.isChain_append.mp hchain).2.2 x (by simp) e rfl

/-! ### The course as a whole -/

theorem Concludes.isSome_iff (h : Concludes tool name answer result off) :
    off.isSome ↔ answer = .ok false := by
  cases h with
  | failed e => exact ⟨nofun, nofun⟩
  | stopped => exact ⟨nofun, nofun⟩
  | late reply => exact ⟨fun _ => rfl, fun _ => rfl⟩

/-- A watch stays paced between the button and the switch. -/
theorem Watches.paced_course (h : Watches tool name deadline es looks answer)
    (hdone : Concludes tool name answer result off) :
    (tool.course name pressed start es off).IsChain (Paced tool name deadline) := by
  have hwatch : (es ++ off.toList.map fun reply =>
      (⟨.run (tool.cutting name), reply⟩ : Event runnerSignature)).IsChain
        (Paced tool name deadline) := by
    cases hdone with
    | failed e => exact (List.append_nil es).symm ▸ h.paced
    | stopped => exact (List.append_nil es).symm ▸ h.paced
    | late reply =>
      obtain ⟨now, hlast, hlate⟩ := h.ends rfl
      refine List.isChain_append.mpr ⟨h.paced, .singleton _, fun x hx y hy => ?_⟩
      obtain rfl : _ = x := Option.some.inj (hlast.symm.trans hx)
      obtain rfl : _ = y := Option.some.inj hy
      exact paced_cut hlate
  obtain ⟨now, rest, rfl⟩ := h.begins
  exact .cons_cons ⟨nofun, nofun⟩ (.cons_cons ⟨nofun, nofun⟩ hwatch)

theorem invocations_append (es more : List (Event runnerSignature)) :
    invocations (es ++ more) = invocations es ++ invocations more := List.filterMap_append

theorem Watches.invocations_course (h : Watches tool name deadline es looks answer) :
    invocations (tool.course name pressed start es off) = (tool.pressing name, pressed) ::
      (looks.map (tool.looking, ·) ++ off.toList.map (tool.cutting name, ·)) := by
  show (_, pressed) :: invocations (es ++ _) = _
  rw [invocations_append, h.invocations_eq]
  cases off <;> rfl

theorem Watches.calls_course (h : Watches tool name deadline es looks answer)
    (hdone : Concludes tool name answer result off) :
    (tool.course name pressed start es off).map (·.call) = .run (tool.pressing name) :: .now ::
      (if off.isSome then tool.watching looks.length ++ [.run (tool.cutting name)]
        else tool.watching (looks.length - 1) ++ [.run tool.looking]) := by
  refine congrArg (_ :: _ :: ·) ?_
  rw [List.map_append]
  cases hdone with
  | failed e => exact (List.append_nil _).trans (h.calls_of_seen nofun)
  | stopped => exact (List.append_nil _).trans (h.calls_of_seen nofun)
  | late reply => exact congrArg (· ++ _) (h.calls_of_expired rfl)

/-- The deadline of a watch, as the clock of the host has it. -/
theorem deadline_eq (hclock : KeepsTime host clock)
    (hgives : host.Gives s (tool.course name pressed start es off)) :
    tool.deadline host clock name s = start.nanos + tool.stopLimit.nanos := by
  have hsplit : tool.course name pressed start es off =
      ([⟨.run (tool.pressing name), pressed⟩] ++ [⟨.now, start⟩]) ++
        (es ++ off.toList.map fun reply => ⟨.run (tool.cutting name), reply⟩) := rfl
  exact congrArg (· + tool.stopLimit.nanos) (hclock.clock_of_gives hgives hsplit)

/-- A button that cannot be pressed is the end of it. -/
theorem shutsDown_refused {e : HypervisorError}
    (hfails : verdict (tool.pressing name) pressed = .error e) :
    ShutsDown host clock tool name s [⟨.run (tool.pressing name), pressed⟩] (.error e) pressed []
      none := by
  have hnot : ¬∃ text, verdict (tool.pressing name) pressed = .ok text :=
    fun ⟨text, hok⟩ => absurd (hfails.symm.trans hok) nofun
  have halone : ∀ {before later : List (Event runnerSignature)} {e : Event runnerSignature},
      [⟨.run (tool.pressing name), pressed⟩] = before ++ e :: later → before = [] := by
    intro before later e hes
    rcases List.append_eq_singleton_iff.mp hes.symm with ⟨hnil, -⟩ | ⟨-, hnil⟩
    · exact hnil
    · cases hnil
  constructor
  case refused =>
    intro e' hfails'
    cases hfails.symm.trans hfails'
    exact ⟨rfl, rfl, rfl⟩
  case rounds => exact fun hok => absurd hok hnot
  case ends => exact fun hok => absurd hok hnot
  case switchesOff_iff => exact ⟨nofun, fun h => absurd h.1 hnot⟩
  case timely =>
    exact fun before reply later hes =>
      absurd (halone hes) (before_ne_nil Tool.pressing_ne_looking hes)
  case overdue =>
    exact fun before reply later hes =>
      absurd (halone hes) (before_ne_nil Tool.pressing_ne_cutting hes)
  -- Nothing was looked at, and nothing switched off.
  case invocations => rfl
  case bounded => exact Nat.zero_le _
  all_goals exact nofun

/-- What follows a button that was pressed, as a watch says and what is done upon it. -/
theorem Watches.shutsDown {text : String}
    (h : Watches tool name ⟨start.nanos + tool.stopLimit.nanos⟩ es looks answer)
    (hdone : Concludes tool name answer result off)
    (hpressed : verdict (tool.pressing name) pressed = .ok text)
    (hbound : looks.length ≤
      (tool.stopLimit.nanos + pollInterval.nanos - 1) / pollInterval.nanos)
    (hclock : KeepsTime host clock)
    (hgives : host.Gives s (tool.course name pressed start es off)) :
    ShutsDown host clock tool name s (tool.course name pressed start es off) result pressed looks
      off := by
  have hdeadline := deadline_eq hclock hgives
  have hpaced : (tool.course name pressed start es off).IsChain (Paced tool name _) :=
    h.paced_course hdone
  have hoverdue : ∀ before reply later, tool.course name pressed start es off =
      before ++ ⟨.run (tool.cutting name), reply⟩ :: later →
      tool.deadline host clock name s ≤ clock (host.after s before) := by
    intro before reply later hes
    obtain ⟨earlier, x, rfl, hx⟩ :=
      exists_before hpaced hes (before_ne_nil Tool.pressing_ne_cutting hes)
    obtain ⟨now, rfl, hlate⟩ := hx.cut rfl
    rw [hdeadline, hclock.clock_of_gives hgives hes]
    exact hlate
  constructor
  case invocations => exact h.invocations_course
  case refused => exact fun e hfails => absurd (hpressed.symm.trans hfails) nofun
  case rounds => exact fun _ => h.calls_course hdone
  case earlier => exact h.earlier
  case stopped =>
    intro reply hreply hmisses
    obtain rfl := h.of_misses hreply hmisses
    cases hdone
    exact ⟨rfl, rfl⟩
  case failed =>
    intro reply hreply e hfails
    obtain rfl := h.of_error hreply hfails
    cases hdone
    exact ⟨rfl, rfl⟩
  case ends =>
    rintro - rfl
    exact h.last fun hanswer => absurd (hdone.isSome_iff.mpr hanswer) nofun
  case switchesOff_iff =>
    rw [hdone.isSome_iff, h.expired_iff]
    refine ⟨fun hall => ⟨⟨text, hpressed⟩, hall, ?_⟩, fun hall => hall.2.1⟩
    cases hdone with
    | failed e => exact absurd (h.expired_iff.mpr hall) nofun
    | stopped => exact absurd (h.expired_iff.mpr hall) nofun
    | late reply =>
      -- The switch comes last, and the clock has gone on since.
      have hsplit : tool.course name pressed start es (some reply) =
          (⟨.run (tool.pressing name), pressed⟩ :: ⟨.now, start⟩ :: es) ++
            [⟨.run (tool.cutting name), reply⟩] := rfl
      rw [hsplit, Host.after_append]
      exact Nat.le_trans (hoverdue _ _ _ hsplit) (hclock.le_after _ _)
  case switchedOff =>
    rintro reply rfl
    cases hdone
    rfl
  case timely =>
    intro before reply later hes
    obtain ⟨earlier, x, rfl, hx⟩ :=
      exists_before hpaced hes (before_ne_nil Tool.pressing_ne_looking hes)
    obtain ⟨now, rfl, hearly⟩ := hx.look rfl
    rw [hdeadline, hclock.clock_of_gives hgives hes]
    exact hearly
  case overdue => exact hoverdue
  case bounded => exact hbound

/-- The rounds of a tool are enough for its time. -/
theorem Tool.rounds_enough (tool : Tool) (start : Nat) :
    start + tool.stopLimit.nanos ≤
      start + (tool.stopLimit.nanos + pollInterval.nanos - 1) / pollInterval.nanos *
        pollInterval.nanos := by
  have hpos : pollInterval.nanos = 1000000000 := rfl
  rw [hpos]
  omega

/-- The watch that a tool keeps after pressing the button. -/
theorem watches_rounds (h : KeepsTime host clock) (tool : Tool) (name : String)
    (hstart : start.nanos = clock s) :
    ∃ answer looks es s',
      Program.run host (ExceptT.run
          (tool.stopsBefore name ⟨start.nanos + tool.stopLimit.nanos⟩ tool.rounds)) s =
        ⟨some answer, es, s'⟩ ∧
      Watches tool name ⟨start.nanos + tool.stopLimit.nanos⟩ es looks answer ∧
      looks.length ≤ (tool.stopLimit.nanos + pollInterval.nanos - 1) / pollInterval.nanos := by
  unfold Tool.rounds
  refine stopsBefore_watches h tool name _ _ s ?_
  rw [← hstart]
  exact tool.rounds_enough start.nanos

theorem behind_behind {α : Type} (o : Outcome runnerSignature σ α)
    (es more : List (Event runnerSignature)) : (o.behind more).behind es = o.behind (es ++ more) :=
  congrArg (Outcome.mk o.result · o.state) (List.append_assoc es more o.events).symm

/-- A button that was pressed is followed by a watch. -/
theorem run_shutDown {text : String} {start : Duration} {s₂ : σ}
    (hpress : host.answer (.run (tool.pressing name)) s = (pressed, s₁))
    (hpressed : verdict (tool.pressing name) pressed = .ok text)
    (hnow : host.answer .now s₁ = (start, s₂)) :
    Program.run host (ExceptT.run (tool.shutDown name)) s =
      (Program.run host (ExceptT.run (do
        let stopped ← tool.stopsBefore name ⟨start.nanos + tool.stopLimit.nanos⟩ tool.rounds
        if !stopped then tool.powerOff name)) s₂).behind
        [⟨.run (tool.pressing name), pressed⟩, ⟨.now, start⟩] := by
  have hpressing := run_press hpress
  rw [hpressed] at hpressing
  unfold Tool.shutDown
  rw [run_bind_ok hpressing, run_bind_ok (run_now hnow), behind_behind]
  exact congrArg (Outcome.behind _) rfl

/-- What is done upon a watch. -/
theorem run_upon {s₂ s₃ : σ} (hwatch : Program.run host (ExceptT.run
      (tool.stopsBefore name ⟨start.nanos + tool.stopLimit.nanos⟩ tool.rounds)) s₂ =
        ⟨some answer, es, s₃⟩) :
    ∃ result off s', Concludes tool name answer result off ∧
      Program.run host (ExceptT.run (do
        let stopped ← tool.stopsBefore name ⟨start.nanos + tool.stopLimit.nanos⟩ tool.rounds
        if !stopped then tool.powerOff name)) s₂ =
      ⟨some result,
        es ++ off.toList.map fun reply => ⟨.run (tool.cutting name), reply⟩, s'⟩ := by
  rcases answer with e | _ | _
  · refine ⟨_, none, s₃, .failed e, ?_⟩
    rw [run_bind_error hwatch]
    exact congrArg (Outcome.mk _ · _) (List.append_nil es).symm
  · obtain ⟨reply, s₄, hcut⟩ : ∃ (reply : Option Output) (s₄ : σ),
      host.answer (.run (tool.cutting name)) s₃ = (reply, s₄) := ⟨_, _, rfl⟩
    have hoff : Program.run host
        (ExceptT.run (if !false then tool.powerOff name else pure ())) s₃ = _ :=
      run_powerOff hcut
    refine ⟨_, some reply, s₄, .late reply, ?_⟩
    rw [run_bind_ok hwatch, hoff]
    rfl
  · refine ⟨_, none, s₃, .stopped, ?_⟩
    rw [run_bind_ok hwatch]
    rfl

/-- A machine is always stopped as it should be, whatever its tool is answered with and however long
its commands take: stopping comes to an end, and does so in order. -/
theorem shutDown_inOrder {clock : σ → Nat} (h : KeepsTime host clock) (tool : Tool) (name : String)
    (s : σ) :
    let outcome := Program.run host (ExceptT.run (tool.shutDown name)) s
    ∃ result pressed looks off, outcome.result = some result ∧
      ShutsDown host clock tool name s outcome.events result pressed looks off := by
  intro outcome
  have hgives := Program.run_gives host (ExceptT.run (tool.shutDown name)) s
  rcases hpress : host.answer (.run (tool.pressing name)) s with ⟨pressed, s₁⟩
  cases hpressed : verdict (tool.pressing name) pressed with
  | error e =>
    have hpressing := run_press hpress
    rw [hpressed] at hpressing
    have hrun : outcome = _ := run_bind_error hpressing
    rw [hrun]
    exact ⟨_, pressed, [], none, rfl, shutsDown_refused hpressed⟩
  | ok text =>
    obtain ⟨start, s₂, hnow⟩ : ∃ (start : Duration) (s₂ : σ), host.answer .now s₁ = (start, s₂) :=
      ⟨_, _, rfl⟩
    have hstart : start.nanos = clock s₂ := by
      have hread := h.now s₁
      rw [hnow] at hread
      exact hread
    obtain ⟨answer, looks, es, s₃, hwatch, hwatches, hbound⟩ := watches_rounds h tool name hstart
    obtain ⟨result, off, s₄, hdone, hupon⟩ := run_upon hwatch
    have hrun : Program.run host (ExceptT.run (tool.shutDown name)) s =
        ⟨some result, tool.course name pressed start es off, s₄⟩ := by
      rw [run_shutDown hpress hpressed hnow, hupon]
      rfl
    rw [hrun] at hgives
    rw [show outcome = _ from hrun]
    exact ⟨result, pressed, looks, off, rfl,
      hwatches.shutsDown hdone hpressed hbound h hgives⟩

end Stopping

/-- The clock of a script keeps time. -/
theorem script_keepsTime : KeepsTime World.Script.host (·.time.nanos) where
  now _ := rfl
  forward c s := by
    cases c with
    | run command =>
      show s.time.nanos ≤ (s.run command).2.time.nanos
      unfold World.Script.run
      split
      · split <;> exact Nat.le_refl _
      · exact Nat.le_refl _
    | now => exact Nat.le_refl _
    | sleep length => exact Nat.le_add_right _ _
  sleep _ _ := Nat.le_refl _

/-- A machine by the name of `dev` that ignores its power button. -/
def lingering : World.Script where
  installed := ["VBoxManage"]
  rules := [⟨⟨"VBoxManage", ["list", "runningvms"]⟩,
    [{ out := [0x22, 0x64, 0x65, 0x76, 0x22] }]⟩]

theorem shutDown_inOrder_lingering :
    let tool : Tool := { stopLimit := .ofMillis 1500 }
    let outcome := Program.run World.Script.host (ExceptT.run (tool.shutDown "dev")) lingering
    KeepsTime World.Script.host (·.time.nanos) ∧
      (invocations outcome.events).map (·.1) =
        [tool.pressing "dev", tool.looking, tool.looking, tool.cutting "dev"] ∧
      ∃ result pressed looks off, outcome.result = some result ∧
        ShutsDown World.Script.host (·.time.nanos) tool "dev" lingering outcome.events result
          pressed looks off := by
  refine ⟨script_keepsTime, ?_, shutDown_inOrder script_keepsTime _ "dev" lingering⟩
  decide +kernel

end DevVm.Hypervisor
