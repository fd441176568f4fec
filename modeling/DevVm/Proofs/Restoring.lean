import DevVm.Proofs.Captures

/-!
# The terminal is given back

A session takes hold of a connection, of the local terminal and of the watch on its window, in that
order, and can fail at every step: while it opens the channel and asks for a shell, on entering raw
mode, on setting up the watch, and wherever the exchange takes input, sends something or writes
something. `session_givesBack` says that none of this matters to what it gives back: each thing it
took is let go of once, the watch before the terminal and the terminal before the connection, and
the result is the one failure there was, or else what the guest's last status means.

The exchange is dealt with round by round (`run_exchange_succ`, `Exchanged`). What is held around
it is a task `between` two calls, three times over, and `ShellGoes` lists the courses that come of
that.
-/

namespace DevVm.Ssh

variable {σ : Type}

/-! ## Failures -/

/-- The failure that a reply tells of. -/
def failure? : Event remoteSignature → Option SshError
  | ⟨.dial .., .error e⟩ | ⟨.exec _, .error e⟩ | ⟨.openChannel, .error e⟩
  | ⟨.requestTerminal .., .error e⟩ | ⟨.requestShell, .error e⟩ | ⟨.sendInput _, .error e⟩
  | ⟨.sendEnd, .error e⟩ | ⟨.sendSize _, .error e⟩ => some e
  | ⟨.enterRawMode, .error reason⟩ => some (.rawMode reason)
  | ⟨.watchResizes, .error reason⟩ => some (.signals reason)
  | ⟨.write .., .error reason⟩ | ⟨.next _, .inputFailed reason⟩ => some (.io reason)
  | _ => none

/-- The failures in some calls, in order. -/
def failures (es : List (Event remoteSignature)) : List SshError := es.filterMap failure?

theorem failures_append (es more : List (Event remoteSignature)) :
    failures (es ++ more) = failures es ++ failures more := List.filterMap_append

/-- Some calls come to a result: to the one failure among them, or, where nothing failed, to
`whole`. -/
def ComesTo {α : Type} (es : List (Event remoteSignature)) (whole result : Except SshError α) :
    Prop :=
  (failures es = [] ∧ result = whole) ∨ ∃ e, failures es = [e] ∧ result = .error e

/-! ## One round of an exchange -/

/-- The calls that an exchange is made of. -/
def RemoteCall.exchanges : RemoteCall → Bool
  | .next _ | .sendInput _ | .sendEnd | .sendSize _ | .write .. => true
  | _ => false

/-- A round after which the exchange goes on, with another status so far. -/
structure Round (status status' : Option UInt32) (es : List (Event remoteSignature)) : Prop where
  calls : ∀ e ∈ es, e.call.exchanges = true
  calm : failures es = []
  arrival : ∃ taken, arrivals es = [taken] ∧ taken.isLast = false
  status : status' = (lastStatus? (messagesTaken es)).or status

/-- The round with which the exchange ends. -/
structure LastRound (status : Option UInt32) (es : List (Event remoteSignature))
    (answer : Except SshError (Option UInt32)) : Prop where
  calls : ∀ e ∈ es, e.call.exchanges = true
  result : ComesTo es (.ok ((lastStatus? (messagesTaken es)).or status)) answer

section Rounds

variable {host : Host remoteSignature σ} {rounds : Nat} {listening : Bool}
  {status : Option UInt32} {s s' s'' : σ}

theorem run_exchange_inputFailed {reason : String}
    (h : host.answer (.next true) s = (.inputFailed reason, s')) :
    Program.run host (ExceptT.run (exchange (rounds + 1) true status)) s =
      ⟨some (.error (.io reason)), [⟨.next true, .inputFailed reason⟩], s'⟩ := run_ask_bind h _

theorem run_exchange_outputRefused {message : Message} {stream : Stream} {octets : Bytes}
    {reason : String} (hout : message.output? = some (stream, octets))
    (h : host.answer (.next listening) s = (.message message, s'))
    (h' : host.answer (.write stream octets) s' = (.error reason, s'')) :
    Program.run host (ExceptT.run (exchange (rounds + 1) listening status)) s =
      ⟨some (.error (.io reason)),
        [⟨.next listening, .message message⟩, ⟨.write stream octets, .error reason⟩], s''⟩ :=
  (run_exchange_writes hout h).trans (congrArg (Outcome.behind · _) (run_write_refused h' _))

theorem run_exchange_inputRefused {octets : Bytes} {e : SshError} (hsome : octets ≠ [])
    (h : host.answer (.next true) s = (.input octets, s'))
    (h' : host.answer (.sendInput octets) s' = (.error e, s'')) :
    Program.run host (ExceptT.run (exchange (rounds + 1) true status)) s =
      ⟨some (.error e), [⟨.next true, .input octets⟩, ⟨.sendInput octets, .error e⟩], s''⟩ := by
  cases octets with
  | nil => exact absurd rfl hsome
  | cons octet octets =>
    exact (run_ask_bind h _).trans (congrArg (Outcome.behind · _) (run_ask_bind h' _))

theorem run_exchange_inputEndRefused {e : SshError}
    (h : host.answer (.next true) s = (.input [], s'))
    (h' : host.answer .sendEnd s' = (.error e, s'')) :
    Program.run host (ExceptT.run (exchange (rounds + 1) true status)) s =
      ⟨some (.error e), [⟨.next true, .input []⟩, ⟨.sendEnd, .error e⟩], s''⟩ :=
  (run_ask_bind h _).trans (congrArg (Outcome.behind · _) (run_ask_bind h' _))

theorem run_exchange_sizeRefused {size : WindowSize} {e : SshError}
    (h : host.answer (.next listening) s = (.resized size, s'))
    (h' : host.answer (.sendSize size) s' = (.error e, s'')) :
    Program.run host (ExceptT.run (exchange (rounds + 1) listening status)) s =
      ⟨some (.error e), [⟨.next listening, .resized size⟩, ⟨.sendSize size, .error e⟩], s''⟩ := by
  cases listening <;>
    exact (run_ask_bind h _).trans (congrArg (Outcome.behind · _) (run_ask_bind h' _))

theorem lastStatus?_singleton (message : Message) : lastStatus? [message] = message.status? := by
  cases message <;> rfl

/-- The calls of a round with two of them. -/
theorem exchanges_pair {arrival : Arrival listening} {c : RemoteCall} {reply : c.Reply}
    (h : c.exchanges = true) :
    ∀ e ∈ ([⟨.next listening, arrival⟩, ⟨c, reply⟩] : List (Event remoteSignature)),
      e.call.exchanges = true :=
  List.forall_mem_cons.mpr ⟨rfl, List.forall_mem_singleton.mpr h⟩

/-- An exchange ends with a round, or goes on after it. -/
theorem run_exchange_succ (host : Host remoteSignature σ) (rounds : Nat) (listening : Bool)
    (status : Option UInt32) (s : σ) :
    (∃ es answer s', Program.run host (ExceptT.run (exchange (rounds + 1) listening status)) s =
        ⟨some answer, es, s'⟩ ∧ LastRound status es answer) ∨
      ∃ es listening' status' s',
        Program.run host (ExceptT.run (exchange (rounds + 1) listening status)) s =
          (Program.run host (ExceptT.run (exchange rounds listening' status')) s').behind es ∧
        Round status status' es := by
  rcases hanswer : host.answer (.next listening) s with ⟨arrival, s'⟩
  cases arrival with
  | input octets =>
    by_cases hsome : octets = []
    · subst hsome
      rcases hsend : host.answer .sendEnd s' with ⟨e | sent, s''⟩
      · exact .inl ⟨_, _, _, run_exchange_inputEndRefused hanswer hsend,
          exchanges_pair rfl, .inr ⟨e, rfl, rfl⟩⟩
      · exact .inr ⟨_, _, _, _, run_exchange_inputEnd hanswer hsend,
          exchanges_pair rfl, rfl, ⟨_, rfl, rfl⟩, rfl⟩
    · rcases hsend : host.answer (.sendInput octets) s' with ⟨e | sent, s''⟩
      · exact .inl ⟨_, _, _, run_exchange_inputRefused hsome hanswer hsend,
          exchanges_pair rfl, .inr ⟨e, rfl, rfl⟩⟩
      · exact .inr ⟨_, _, _, _, run_exchange_input hsome hanswer hsend,
          exchanges_pair rfl, rfl, ⟨_, rfl, rfl⟩, rfl⟩
  | inputFailed reason =>
    exact .inl ⟨_, _, _, run_exchange_inputFailed hanswer, List.forall_mem_singleton.mpr rfl,
      .inr ⟨.io reason, rfl, rfl⟩⟩
  | resized size =>
    rcases hsend : host.answer (.sendSize size) s' with ⟨e | sent, s''⟩
    · exact .inl ⟨_, _, _, run_exchange_sizeRefused hanswer hsend,
        exchanges_pair rfl, .inr ⟨e, rfl, rfl⟩⟩
    · exact .inr ⟨_, _, _, _, run_exchange_resized hanswer hsend,
        exchanges_pair rfl, rfl, ⟨_, rfl, rfl⟩, rfl⟩
  | message message =>
    by_cases hclose : message = .close
    · subst hclose
      exact .inl ⟨_, _, _, run_exchange_closed hanswer, List.forall_mem_singleton.mpr rfl,
        .inl ⟨rfl, rfl⟩⟩
    have hlast : Taken.isLast ⟨listening, .message message⟩ = false := Taken.isLast_message hclose
    cases hout : message.output? with
    | none =>
      exact .inr ⟨_, _, _, _, run_exchange_quiet hclose hout hanswer,
        List.forall_mem_singleton.mpr rfl, rfl, ⟨_, rfl, hlast⟩,
        congrArg (Option.or · status) (lastStatus?_singleton message).symm⟩
    | some piece =>
      rcases hwrite : host.answer (.write piece.1 piece.2) s' with ⟨reason | accepted, s''⟩
      · exact .inl ⟨_, _, _, run_exchange_outputRefused hout hanswer hwrite,
          exchanges_pair rfl, .inr ⟨.io reason, rfl, rfl⟩⟩
      · have hquiet : lastStatus? [message] = none :=
          (lastStatus?_singleton message).trans (Message.status?_of_output? hout)
        exact .inr ⟨_, _, _, _, run_exchange_output hout hanswer hwrite,
          exchanges_pair rfl, rfl, ⟨_, rfl, hlast⟩, congrArg (Option.or · status) hquiet.symm⟩
  | gone =>
    exact .inl ⟨_, _, _, run_exchange_gone hanswer, List.forall_mem_singleton.mpr rfl,
      .inl ⟨rfl, rfl⟩⟩

end Rounds

/-! ## Exchanges -/

theorem messagesTaken_append (es more : List (Event remoteSignature)) :
    messagesTaken (es ++ more) = messagesTaken es ++ messagesTaken more := by
  unfold messagesTaken
  rw [arrivals_append, List.filterMap_append]

/-- Of two stretches of messages, the second one's last status counts before the first one's. -/
theorem lastStatus?_append (messages more : List Message) :
    lastStatus? (messages ++ more) = (lastStatus? more).or (lastStatus? messages) := by
  unfold lastStatus?
  rw [List.filterMap_append, List.getLast?_append]

/-- Nothing has ended an exchange yet. -/
structure GoesOn (rounds : Nat) (es : List (Event remoteSignature)) : Prop where
  calm : failures es = []
  rounds : (arrivals es).length = rounds
  open_ : ∀ taken ∈ arrivals es, taken.isLast = false

/-- What there is to an exchange, with the status so far. -/
structure Exchanged (rounds : Nat) (status : Option UInt32) (es : List (Event remoteSignature))
    (result : Option (Except SshError (Option UInt32))) : Prop where
  calls : ∀ e ∈ es, e.call.exchanges = true
  ended : ∀ answer, result = some answer →
    ComesTo es (.ok ((lastStatus? (messagesTaken es)).or status)) answer
  cut : result = none → GoesOn rounds es

theorem LastRound.exchanged {rounds : Nat} {status : Option UInt32}
    {es : List (Event remoteSignature)} {answer : Except SshError (Option UInt32)}
    (h : LastRound status es answer) : Exchanged rounds status es (some answer) where
  calls := h.calls
  ended _ heq := Option.some.inj heq ▸ h.result
  cut := nofun

/-- A round before an exchange makes it one round longer. -/
theorem Round.exchanged {rounds : Nat} {status status' : Option UInt32}
    {es more : List (Event remoteSignature)} {result : Option (Except SshError (Option UInt32))}
    (h : Round status status' es) (hmore : Exchanged rounds status' more result) :
    Exchanged (rounds + 1) status (es ++ more) result where
  calls := List.forall_mem_append.mpr ⟨h.calls, hmore.calls⟩
  ended answer heq := by
    unfold ComesTo
    rw [failures_append, h.calm, List.nil_append, messagesTaken_append, lastStatus?_append,
      Option.or_assoc, ← h.status]
    exact hmore.ended answer heq
  cut heq := by
    obtain ⟨taken, htaken, hlast⟩ := h.arrival
    obtain ⟨hcalm, hlength, hopen⟩ := hmore.cut heq
    constructor
    · rw [failures_append, h.calm, hcalm, List.nil_append]
    · rw [arrivals_append, htaken, List.length_append, hlength]
      exact Nat.add_comm 1 rounds
    · rw [arrivals_append, htaken]
      exact List.forall_mem_cons.mpr ⟨hlast, hopen⟩

/-- Every exchange comes to the first failure in it, or to the last status it was told of. -/
theorem exchange_exchanged (host : Host remoteSignature σ) (rounds : Nat) (listening : Bool)
    (status : Option UInt32) (s : σ) :
    Exchanged rounds status
      (Program.run host (ExceptT.run (exchange rounds listening status)) s).events
      (Program.run host (ExceptT.run (exchange rounds listening status)) s).result := by
  induction rounds generalizing listening status s with
  | zero => exact ⟨nofun, nofun, fun _ => ⟨rfl, rfl, nofun⟩⟩
  | succ rounds ih =>
    rcases run_exchange_succ host rounds listening status s with
      ⟨es, answer, s', hrun, hlast⟩ | ⟨es, listening', status', s', hrun, hround⟩
    · rw [hrun]
      exact hlast.exchanged
    · rw [hrun]
      exact hround.exchanged (ih listening' status' s')

/-! ## Holding -/

/-- What a session takes hold of, and has to let go of again. -/
inductive Hold where
  | connection
  | rawMode
  | windowWatch
deriving DecidableEq, Repr

/-- What a call takes hold of, if it succeeds. -/
def RemoteCall.takes? : RemoteCall → Option Hold
  | .dial .. => some .connection
  | .enterRawMode => some .rawMode
  | .watchResizes => some .windowWatch
  | _ => none

/-- What a call lets go of. -/
def RemoteCall.releases? : RemoteCall → Option Hold
  | .hangUp => some .connection
  | .leaveRawMode => some .rawMode
  | .stopWatching => some .windowWatch
  | _ => none

/-- How many times something was taken hold of. -/
def timesTaken (hold : Hold) (es : List (Event remoteSignature)) : Nat :=
  es.countP fun e => e.call.takes? = some hold ∧ failure? e = none

/-- How many times something was let go of. -/
def timesReleased (hold : Hold) (es : List (Event remoteSignature)) : Nat :=
  es.countP fun e => e.call.releases? = some hold

/-- A call that neither takes hold of anything nor lets go of it. -/
def RemoteCall.plain (c : RemoteCall) : Bool := c.takes?.isNone && c.releases?.isNone

section Between

variable {α : Type} {host : Host remoteSignature σ}
  {after : Program remoteSignature Unit} {last : Event remoteSignature} {task : RemoteTask α}
  {es : List (Event remoteSignature)} {s s' s'' : σ}

/-- A task between a call that takes hold of something, unless its reply is a failure, and what
lets go of it. This is what `connected`, `inRawMode` and `watching` are. -/
def between (c : RemoteCall) (accepts : c.Reply → Except SshError Unit)
    (after : Program remoteSignature Unit) (task : RemoteTask α) : RemoteTask α := do
  let reply : c.Reply ← RemoteTask.ask c
  RemoteTask.ofExcept (accepts reply)
  task.ensuring after

theorem run_between_refused (c : RemoteCall) {reply : c.Reply}
    (accepts : c.Reply → Except SshError Unit) {e : SshError}
    (h : host.answer c s = (reply, s')) (hreply : accepts reply = .error e) :
    Program.run host (ExceptT.run (between c accepts after task)) s =
      ⟨some (.error e), [⟨c, reply⟩], s'⟩ := by
  unfold between
  rw [run_ask_bind h, hreply]
  rfl

theorem run_between (c : RemoteCall) {reply : c.Reply}
    (accepts : c.Reply → Except SshError Unit)
    (h : host.answer c s = (reply, s')) (hreply : accepts reply = .ok ()) :
    Program.run host (ExceptT.run (between c accepts after task)) s =
      (Program.run host (ExceptT.run (task.ensuring after)) s').behind [⟨c, reply⟩] := by
  unfold between
  rw [run_ask_bind h, hreply]
  rfl

/-- A task that ends is followed by letting go. -/
theorem run_between_ended (c : RemoteCall) {reply : c.Reply}
    (accepts : c.Reply → Except SshError Unit)
    {answer : Except SshError α} (h : host.answer c s = (reply, s'))
    (hreply : accepts reply = .ok ())
    (hafter : ∀ s, ∃ s', Program.run host after s = ⟨some (), [last], s'⟩)
    (htask : Program.run host (ExceptT.run task) s' = ⟨some answer, es, s''⟩) :
    ∃ final, Program.run host (ExceptT.run (between c accepts after task)) s =
      ⟨some answer, ⟨c, reply⟩ :: (es ++ [last]), final⟩ := by
  obtain ⟨final, hfinal⟩ := hafter (Program.run host (ExceptT.run task) s').state
  have hrun := run_ensuring (congrArg Outcome.result htask) hfinal
  rw [run_between c accepts h hreply, hrun, htask]
  exact ⟨final, rfl⟩

theorem run_between_cut (c : RemoteCall) {reply : c.Reply}
    (accepts : c.Reply → Except SshError Unit)
    (h : host.answer c s = (reply, s')) (hreply : accepts reply = .ok ())
    (htask : Program.run host (ExceptT.run task) s' = ⟨none, es, s''⟩) :
    Program.run host (ExceptT.run (between c accepts after task)) s =
      ⟨none, ⟨c, reply⟩ :: es, s''⟩ := by
  rw [run_between c accepts h hreply, run_ensuring_of_cut (congrArg Outcome.result htask), htask]
  rfl

end Between

/-! ## Shells -/

/-- The calls by which a shell is asked for. -/
def RemoteCall.prepares : RemoteCall → Bool
  | .openChannel | .terminalSize | .requestTerminal .. | .requestShell => true
  | _ => false

/-- How a shell can go: which calls are made, and what it comes to, if it is not cut off. -/
inductive ShellGoes (rounds : Nat) :
    List (Event remoteSignature) → Option (Except SshError (Option UInt32)) → Prop where
  | unprepared {lead : List (Event remoteSignature)} {e : SshError}
      (prepares : ∀ x ∈ lead, x.call.prepares = true) (fails : failures lead = [e]) :
      ShellGoes rounds lead (some (.error e))
  | cooked {lead : List (Event remoteSignature)} {reason : String}
      (prepares : ∀ x ∈ lead, x.call.prepares = true) (calm : failures lead = []) :
      ShellGoes rounds (lead ++ [⟨.enterRawMode, .error reason⟩]) (some (.error (.rawMode reason)))
  | unwatched {lead : List (Event remoteSignature)} {reason : String}
      (prepares : ∀ x ∈ lead, x.call.prepares = true) (calm : failures lead = []) :
      ShellGoes rounds
        (lead ++ [⟨.enterRawMode, .ok ()⟩, ⟨.watchResizes, .error reason⟩, ⟨.leaveRawMode, ()⟩])
        (some (.error (.signals reason)))
  | ended {lead exchanged : List (Event remoteSignature)}
      {answer : Except SshError (Option UInt32)}
      (prepares : ∀ x ∈ lead, x.call.prepares = true) (calm : failures lead = [])
      (exchanges : Exchanged rounds none exchanged (some answer)) :
      ShellGoes rounds
        (lead ++ ([⟨.enterRawMode, .ok ()⟩, ⟨.watchResizes, .ok ()⟩] ++ exchanged ++
          [⟨.stopWatching, ()⟩, ⟨.leaveRawMode, ()⟩])) (some answer)
  | going {lead exchanged : List (Event remoteSignature)}
      (prepares : ∀ x ∈ lead, x.call.prepares = true) (calm : failures lead = [])
      (exchanges : Exchanged rounds none exchanged none) :
      ShellGoes rounds
        (lead ++ ⟨.enterRawMode, .ok ()⟩ :: ⟨.watchResizes, .ok ()⟩ :: exchanged) none

section Shell

variable {host : Host remoteSignature σ} {rounds : Nat} {s : σ}

theorem run_leaveRawMode (s : σ) :
    ∃ s', Program.run host (Program.ask (S := remoteSignature) .leaveRawMode) s =
      ⟨some (), [⟨.leaveRawMode, ()⟩], s'⟩ := ⟨_, rfl⟩

theorem run_stopWatching (s : σ) :
    ∃ s', Program.run host (Program.ask (S := remoteSignature) .stopWatching) s =
      ⟨some (), [⟨.stopWatching, ()⟩], s'⟩ := ⟨_, rfl⟩

theorem run_hangUp (s : σ) :
    ∃ s', Program.run host (Program.ask (S := remoteSignature) .hangUp) s =
      ⟨some (), [⟨.hangUp, ()⟩], s'⟩ := ⟨_, rfl⟩

/-- Made after preparations that succeeded, what a task does is the rest of a shell. -/
def GoesAfter (host : Host remoteSignature σ) (rounds : Nat) (task : RemoteTask (Option UInt32)) :
    Prop :=
  ∀ lead s, (∀ x ∈ lead, x.call.prepares = true) → failures lead = [] →
    ShellGoes rounds (lead ++ (Program.run host (ExceptT.run task) s).events)
      (Program.run host (ExceptT.run task) s).result

/-- One more preparation, after which the rest goes on unless it failed. -/
theorem goesAfter_prepare (c : RemoteCall) (accepts : c.Reply → Except SshError Unit)
    {next : c.Reply → RemoteTask (Option UInt32)} (hc : c.prepares = true)
    (haccepts : ∀ reply, accepts reply = (failure? ⟨c, reply⟩).elim (.ok ()) .error)
    (hnext : ∀ reply, GoesAfter host rounds (next reply)) :
    GoesAfter host rounds (RemoteTask.ask c >>= fun reply =>
      RemoteTask.ofExcept (accepts reply) >>= fun _ => next reply) := by
  intro lead s prepares calm
  rcases hanswer : host.answer c s with ⟨reply, s'⟩
  have prepares' : ∀ x ∈ lead ++ [⟨c, reply⟩], x.call.prepares = true :=
    List.forall_mem_append.mpr ⟨prepares, List.forall_mem_singleton.mpr hc⟩
  rw [run_ask_bind hanswer, haccepts reply]
  cases hreply : failure? ⟨c, reply⟩ with
  | some e =>
    refine ShellGoes.unprepared prepares' ?_
    rw [failures_append, calm]
    exact congrArg Option.toList hreply
  | none =>
    have calm' : failures (lead ++ [⟨c, reply⟩]) = [] := by
      rw [failures_append, calm]
      exact congrArg Option.toList hreply
    exact List.append_assoc lead [_] _ ▸ hnext reply _ s' prepares' calm'

/-- Once a shell has been asked for, what is left of it goes as it should. -/
theorem goesAfter_held (host : Host remoteSignature σ) (rounds : Nat) :
    GoesAfter host rounds (inRawMode (watching (exchange rounds true none))) := by
  intro lead s prepares calm
  rcases hraw : host.answer .enterRawMode s with ⟨reason | entered, s₁⟩
  · -- Raw mode that was not entered is not left either.
    have hheld : Program.run host
        (ExceptT.run (inRawMode (watching (exchange rounds true none)))) s = _ :=
      run_between_refused .enterRawMode (Except.mapError .rawMode) hraw rfl
    rw [hheld]
    exact .cooked prepares calm
  rcases hwatch : host.answer .watchResizes s₁ with ⟨reason | watched, s₂⟩
  · have hwatching : Program.run host
        (ExceptT.run (watching (exchange rounds true none))) s₁ = _ :=
      run_between_refused .watchResizes (Except.mapError .signals) hwatch rfl
    obtain ⟨_, hheld⟩ : ∃ final, Program.run host
        (ExceptT.run (inRawMode (watching (exchange rounds true none)))) s = _ :=
      run_between_ended .enterRawMode (Except.mapError .rawMode) hraw rfl
        run_leaveRawMode hwatching
    rw [hheld]
    exact .unwatched prepares calm
  -- From here on both are held, and it only matters whether the exchange comes to an end.
  have hexchange := exchange_exchanged host rounds true none s₂
  rcases hrun : Program.run host (ExceptT.run (exchange rounds true none)) s₂ with
    ⟨_ | answer, exchanged, s₃⟩
  · rw [hrun] at hexchange
    have hwatching : Program.run host
        (ExceptT.run (watching (exchange rounds true none))) s₁ = _ :=
      run_between_cut .watchResizes (Except.mapError .signals) hwatch rfl hrun
    have hheld : Program.run host
        (ExceptT.run (inRawMode (watching (exchange rounds true none)))) s = _ :=
      run_between_cut .enterRawMode (Except.mapError .rawMode) hraw rfl hwatching
    rw [hheld]
    exact .going prepares calm hexchange
  · rw [hrun] at hexchange
    obtain ⟨_, hwatching⟩ : ∃ final, Program.run host
        (ExceptT.run (watching (exchange rounds true none))) s₁ = _ :=
      run_between_ended .watchResizes (Except.mapError .signals) hwatch rfl
        run_stopWatching hrun
    obtain ⟨_, hheld⟩ : ∃ final, Program.run host
        (ExceptT.run (inRawMode (watching (exchange rounds true none)))) s = _ :=
      run_between_ended .enterRawMode (Except.mapError .rawMode) hraw rfl
        run_leaveRawMode hwatching
    rw [hheld]
    dsimp only
    rw [List.cons_append, List.append_assoc]
    exact .ended prepares calm hexchange

/-- Every shell goes as it should. -/
theorem openShell_goes (host : Host remoteSignature σ) (rounds : Nat) (terminalType : String)
    (s : σ) :
    ShellGoes rounds (Program.run host (ExceptT.run (openShell rounds terminalType)) s).events
      (Program.run host (ExceptT.run (openShell rounds terminalType)) s).result := by
  have hgoes : GoesAfter host rounds (openShell rounds terminalType) := by
    refine goesAfter_prepare .openChannel _ rfl ?opened fun opened => ?_
    case opened => rintro (e | _) <;> rfl
    refine goesAfter_prepare .terminalSize (fun _ => .ok ()) rfl (fun _ => rfl) fun size => ?_
    refine goesAfter_prepare (.requestTerminal _ _) _ rfl ?granted fun granted => ?_
    case granted => rintro (e | _) <;> rfl
    refine goesAfter_prepare .requestShell _ rfl ?started fun started => ?_
    case started => rintro (e | _) <;> rfl
    exact goesAfter_held host rounds
  exact hgoes [] s nofun rfl

end Shell

/-! ## What a shell gives back -/

section Counting

variable {hold : Hold} {es more : List (Event remoteSignature)} {e : Event remoteSignature}

theorem timesTaken_append :
    timesTaken hold (es ++ more) = timesTaken hold es + timesTaken hold more :=
  List.countP_append

theorem timesReleased_append :
    timesReleased hold (es ++ more) = timesReleased hold es + timesReleased hold more :=
  List.countP_append

theorem timesTaken_cons :
    timesTaken hold (e :: es) = timesTaken hold [e] + timesTaken hold es :=
  show timesTaken hold ([e] ++ es) = _ from timesTaken_append

theorem timesReleased_cons :
    timesReleased hold (e :: es) = timesReleased hold [e] + timesReleased hold es :=
  show timesReleased hold ([e] ++ es) = _ from timesReleased_append

/-- Calls that are plain neither take hold of anything nor let go of it. -/
theorem times_of_plain (hold : Hold) (h : ∀ e ∈ es, e.call.plain = true) :
    timesTaken hold es = 0 ∧ timesReleased hold es = 0 := by
  have hnone : ∀ e ∈ es, e.call.takes? = none ∧ e.call.releases? = none := fun e he => by
    simpa only [RemoteCall.plain, Bool.and_eq_true, Option.isNone_iff_eq_none] using h e he
  refine ⟨List.countP_eq_zero.mpr fun e he => ?_, List.countP_eq_zero.mpr fun e he => ?_⟩
  · simp only [(hnone e he).1, reduceCtorEq, false_and, decide_false, Bool.false_eq_true,
      not_false_eq_true]
  · simp only [(hnone e he).2, reduceCtorEq, decide_false, Bool.false_eq_true, not_false_eq_true]

theorem RemoteCall.plain_of_prepares {c : RemoteCall} (h : c.prepares = true) : c.plain = true := by
  cases c with
  | openChannel | terminalSize | requestTerminal | requestShell => rfl
  | _ => exact absurd h nofun

theorem RemoteCall.plain_of_exchanges {c : RemoteCall} (h : c.exchanges = true) :
    c.plain = true := by
  cases c with
  | next | sendInput | sendEnd | sendSize | write => rfl
  | _ => exact absurd h nofun

theorem RemoteCall.not_exchanges_of_prepares {c : RemoteCall} (h : c.prepares = true) :
    c.exchanges = false := by
  cases c with
  | openChannel | terminalSize | requestTerminal | requestShell => rfl
  | _ => exact absurd h nofun

/-- What was done with the terminal in a stretch of calls of which `tail` is the end. -/
structure TerminalBack (tail es : List (Event remoteSignature)) : Prop where
  balanced : ∀ hold, hold ≠ .connection →
    timesReleased hold es = timesTaken hold es ∧ timesTaken hold es ≤ 1
  last : 0 < timesTaken .rawMode es → ∃ before, es = before ++ ⟨.leaveRawMode, ()⟩ :: tail
  watched : 0 < timesTaken .windowWatch es → ∃ before exchanged,
    es = before ++ ⟨.watchResizes, .ok ()⟩ ::
      (exchanged ++ ⟨.stopWatching, ()⟩ :: ⟨.leaveRawMode, ()⟩ :: tail) ∧
    (∀ e ∈ before, e.call.exchanges = false) ∧ ∀ e ∈ exchanged, e.call.exchanges = true
  unwatched : timesTaken .windowWatch es = 0 → ∀ e ∈ es, e.call.exchanges = false

/-- Calls that have nothing to do with the terminal. -/
structure Apart (es : List (Event remoteSignature)) : Prop where
  taken : ∀ hold, hold ≠ .connection → timesTaken hold es = 0
  released : ∀ hold, hold ≠ .connection → timesReleased hold es = 0
  calls : ∀ e ∈ es, e.call.exchanges = false

theorem apart_of_prepares (h : ∀ e ∈ es, e.call.prepares = true) : Apart es where
  taken _ _ := (times_of_plain _ fun e he => RemoteCall.plain_of_prepares (h e he)).1
  released _ _ := (times_of_plain _ fun e he => RemoteCall.plain_of_prepares (h e he)).2
  calls e he := RemoteCall.not_exchanges_of_prepares (h e he)

theorem Apart.terminalBack (h : Apart es) : TerminalBack [] es where
  balanced hold hhold := by
    rw [h.taken hold hhold, h.released hold hhold]
    decide
  last hpos := absurd (h.taken .rawMode nofun) (Nat.ne_of_gt hpos)
  watched hpos := absurd (h.taken .windowWatch nofun) (Nat.ne_of_gt hpos)
  unwatched _ := h.calls

theorem Apart.before {tail : List (Event remoteSignature)} (h : Apart es)
    (hmore : TerminalBack tail more) : TerminalBack tail (es ++ more) := by
  have htaken : ∀ hold, hold ≠ .connection → timesTaken hold (es ++ more) = timesTaken hold more :=
    fun hold hhold => by rw [timesTaken_append, h.taken hold hhold, Nat.zero_add]
  constructor
  · intro hold hhold
    rw [htaken hold hhold, timesReleased_append, h.released hold hhold, Nat.zero_add]
    exact hmore.balanced hold hhold
  · intro hpos
    rw [htaken .rawMode nofun] at hpos
    obtain ⟨before, rfl⟩ := hmore.last hpos
    exact ⟨es ++ before, (List.append_assoc _ _ _).symm⟩
  · intro hpos
    rw [htaken .windowWatch nofun] at hpos
    obtain ⟨before, exchanged, rfl, hbefore, hexchanged⟩ := hmore.watched hpos
    exact ⟨es ++ before, exchanged, (List.append_assoc _ _ _).symm,
      List.forall_mem_append.mpr ⟨h.calls, hbefore⟩, hexchanged⟩
  · intro hzero
    rw [htaken .windowWatch nofun] at hzero
    exact List.forall_mem_append.mpr ⟨h.calls, hmore.unwatched hzero⟩

theorem TerminalBack.before (h : TerminalBack [] es) (hmore : Apart more) :
    TerminalBack more (es ++ more) := by
  have htaken : ∀ hold, hold ≠ .connection → timesTaken hold (es ++ more) = timesTaken hold es :=
    fun hold hhold => by rw [timesTaken_append, hmore.taken hold hhold, Nat.add_zero]
  constructor
  · intro hold hhold
    rw [htaken hold hhold, timesReleased_append, hmore.released hold hhold, Nat.add_zero]
    exact h.balanced hold hhold
  · intro hpos
    rw [htaken .rawMode nofun] at hpos
    obtain ⟨before, rfl⟩ := h.last hpos
    exact ⟨before, List.append_assoc _ _ _⟩
  · intro hpos
    rw [htaken .windowWatch nofun] at hpos
    obtain ⟨before, exchanged, rfl, hbefore, hexchanged⟩ := h.watched hpos
    exact ⟨before, exchanged, by simp only [List.append_assoc, List.cons_append, List.nil_append],
      hbefore, hexchanged⟩
  · intro hzero
    rw [htaken .windowWatch nofun] at hzero
    exact List.forall_mem_append.mpr ⟨h.unwatched hzero, hmore.calls⟩

/-- The terminal is given back if the window could not be watched. -/
theorem terminalBack_unwatched (reason : String) :
    TerminalBack [] [⟨.enterRawMode, .ok ()⟩, ⟨.watchResizes, .error reason⟩,
      ⟨.leaveRawMode, ()⟩] where
  balanced hold hhold := by
    cases hold with
    | connection => exact absurd rfl hhold
    | rawMode => exact ⟨rfl, Nat.le_refl 1⟩
    | windowWatch => exact ⟨rfl, Nat.zero_le 1⟩
  last _ := ⟨[_, _], rfl⟩
  watched hpos := absurd hpos (Nat.lt_irrefl 0)
  unwatched _ := by
    intro e he
    simp only [List.mem_cons, List.not_mem_nil, or_false] at he
    rcases he with rfl | rfl | rfl <;> rfl

/-- The terminal is given back after an exchange. -/
theorem terminalBack_watched (h : ∀ e ∈ es, e.call.exchanges = true) :
    TerminalBack [] ([⟨.enterRawMode, .ok ()⟩, ⟨.watchResizes, .ok ()⟩] ++ es ++
      [⟨.stopWatching, ()⟩, ⟨.leaveRawMode, ()⟩]) := by
  have hplain := fun hold => times_of_plain hold
    fun e he => RemoteCall.plain_of_exchanges (h e he)
  constructor
  · intro hold hhold
    rw [timesTaken_append, timesTaken_append, timesReleased_append, timesReleased_append,
      (hplain hold).1, (hplain hold).2]
    cases hold with
    | connection => exact absurd rfl hhold
    | rawMode => exact ⟨rfl, Nat.le_refl 1⟩
    | windowWatch => exact ⟨rfl, Nat.le_refl 1⟩
  · exact fun _ => ⟨_, List.append_cons _ _ _⟩
  · exact fun _ => ⟨[⟨.enterRawMode, .ok ()⟩], es, List.append_assoc _ _ _,
      List.forall_mem_singleton.mpr rfl, h⟩
  · intro hzero
    rw [timesTaken_append, timesTaken_append, (hplain _).1] at hzero
    exact absurd hzero nofun

/-- However a shell ends, it gives the terminal back. -/
theorem ShellGoes.terminalBack {rounds : Nat} {answer : Except SshError (Option UInt32)}
    (h : ShellGoes rounds es (some answer)) : TerminalBack [] es := by
  cases h with
  | unprepared prepares fails => exact (apart_of_prepares prepares).terminalBack
  | cooked prepares calm =>
    have hrefused : ∀ reason, Apart [⟨.enterRawMode, .error reason⟩] := fun _ =>
      ⟨fun hold _ => by cases hold <;> rfl, fun hold _ => by cases hold <;> rfl,
        List.forall_mem_singleton.mpr rfl⟩
    exact (apart_of_prepares prepares).before (hrefused _).terminalBack
  | unwatched prepares calm =>
    exact (apart_of_prepares prepares).before (terminalBack_unwatched _)
  | ended prepares calm exchanges =>
    exact (apart_of_prepares prepares).before (terminalBack_watched exchanges.calls)

/-- A shell leaves the connection alone. -/
theorem ShellGoes.connection {rounds : Nat} {answer : Except SshError (Option UInt32)}
    (h : ShellGoes rounds es (some answer)) :
    timesTaken .connection es = 0 ∧ timesReleased .connection es = 0 := by
  have hlead : ∀ lead : List (Event remoteSignature), (∀ e ∈ lead, e.call.prepares = true) →
      timesTaken .connection lead = 0 ∧ timesReleased .connection lead = 0 := fun lead h =>
    times_of_plain _ fun e he => RemoteCall.plain_of_prepares (h e he)
  cases h with
  | unprepared prepares fails => exact hlead _ prepares
  | cooked prepares calm =>
    rw [timesTaken_append, timesReleased_append, (hlead _ prepares).1, (hlead _ prepares).2]
    exact ⟨rfl, rfl⟩
  | unwatched prepares calm =>
    rw [timesTaken_append, timesReleased_append, (hlead _ prepares).1, (hlead _ prepares).2]
    exact ⟨rfl, rfl⟩
  | ended prepares calm exchanges =>
    have hplain := times_of_plain .connection
      fun e he => RemoteCall.plain_of_exchanges (exchanges.calls e he)
    simp only [timesTaken_append, timesReleased_append, (hlead _ prepares).1,
      (hlead _ prepares).2, hplain.1, hplain.2]
    exact ⟨rfl, rfl⟩

/-- Nothing arrives but during an exchange. -/
theorem arrivals_of_apart (h : ∀ e ∈ es, e.call.exchanges = false) : arrivals es = [] := by
  refine List.filterMap_eq_nil_iff.mpr fun e he => ?_
  have hcall := h e he
  rcases e with ⟨c, reply⟩
  cases c with
  | next listening => exact absurd hcall nofun
  | _ => rfl

/-- The calls around an exchange that was begun add nothing to what it comes to. -/
theorem ended_calm {lead exchanged : List (Event remoteSignature)} (calm : failures lead = [])
    (prepares : ∀ e ∈ lead, e.call.prepares = true) :
    failures (lead ++ ([⟨.enterRawMode, .ok ()⟩, ⟨.watchResizes, .ok ()⟩] ++ exchanged ++
        [⟨.stopWatching, ()⟩, ⟨.leaveRawMode, ()⟩])) = failures exchanged ∧
      messagesTaken (lead ++ ([⟨.enterRawMode, .ok ()⟩, ⟨.watchResizes, .ok ()⟩] ++ exchanged ++
        [⟨.stopWatching, ()⟩, ⟨.leaveRawMode, ()⟩])) = messagesTaken exchanged := by
  have hquiet : messagesTaken lead = [] :=
    congrArg (List.filterMap _) (arrivals_of_apart (apart_of_prepares prepares).calls)
  simp only [failures_append, messagesTaken_append, calm, hquiet, List.nil_append]
  exact ⟨List.append_nil _, List.append_nil _⟩

/-- A shell comes to the first failure in it, or to the last status it was told of. -/
theorem ShellGoes.result {rounds : Nat} {answer : Except SshError (Option UInt32)}
    (h : ShellGoes rounds es (some answer)) :
    ComesTo es (.ok (lastStatus? (messagesTaken es))) answer := by
  cases h with
  | unprepared prepares fails => exact .inr ⟨_, fails, rfl⟩
  | cooked prepares calm =>
    refine .inr ⟨_, ?_, rfl⟩
    rw [failures_append, calm]
    rfl
  | unwatched prepares calm =>
    refine .inr ⟨_, ?_, rfl⟩
    rw [failures_append, calm]
    rfl
  | ended prepares calm exchanges =>
    obtain ⟨hfailures, hmessages⟩ := ended_calm calm prepares
    have hended := exchanges.ended answer rfl
    rw [Option.or_none] at hended
    unfold ComesTo
    rw [hfailures, hmessages]
    exact hended

/-- A shell that has not ended is in an exchange that has not. -/
theorem ShellGoes.goesOn {rounds : Nat} (h : ShellGoes rounds es none) : GoesOn rounds es := by
  cases h with
  | @going lead exchanged prepares calm exchanges =>
    obtain ⟨hcalm, hrounds, hopen⟩ := exchanges.cut rfl
    have harrivals : arrivals (lead ++ ⟨.enterRawMode, .ok ()⟩ :: ⟨.watchResizes, .ok ()⟩ ::
        exchanged) = arrivals exchanged := by
      rw [arrivals_append, arrivals_of_apart (apart_of_prepares prepares).calls]
      rfl
    constructor
    · rw [failures_append, calm]
      exact hcalm
    · rw [harrivals]
      exact hrounds
    · rw [harrivals]
      exact hopen

end Counting

/-! ## Sessions -/

/-- What a session that has ended has done with all that it took hold of, and what it comes to. -/
structure GivesBack (es : List (Event remoteSignature)) (result : Except SshError Unit) :
    Prop where
  /-- Whatever is taken hold of is let go of as often, and that is once at most. -/
  balanced : ∀ hold, timesReleased hold es = timesTaken hold es ∧ timesTaken hold es ≤ 1
  /-- After raw mode is left, the session only hangs up. -/
  terminal : 0 < timesTaken .rawMode es →
    ∃ before, es = before ++ [⟨.leaveRawMode, ()⟩, ⟨.hangUp, ()⟩]
  /-- The window is watched for just as long as the exchange takes, and then the terminal is
  restored at once. -/
  watched : 0 < timesTaken .windowWatch es → ∃ before exchanged,
    es = before ++ ⟨.watchResizes, .ok ()⟩ ::
      (exchanged ++ [⟨.stopWatching, ()⟩, ⟨.leaveRawMode, ()⟩, ⟨.hangUp, ()⟩]) ∧
    (∀ e ∈ before, e.call.exchanges = false) ∧ ∀ e ∈ exchanged, e.call.exchanges = true
  /-- Nothing is exchanged without that. -/
  unwatched : timesTaken .windowWatch es = 0 → ∀ e ∈ es, e.call.exchanges = false
  /-- A session that was connected hangs up last. -/
  connection : 0 < timesTaken .connection es → ∃ before, es = before ++ [⟨.hangUp, ()⟩]
  /-- The first failure is the result, and it is the only one. Without a failure, the result is
  what the last status means. -/
  result : ComesTo es ((exitResult (lastStatus? (messagesTaken es)) "").map fun _ => ()) result

section Sessions

variable {host : Host remoteSignature σ} {rounds : Nat} {terminalType : String}
  {addresses : List Endpoint} {key : Bytes} {limit : Duration} {s : σ}

theorem run_session :
    let inner := Program.run host
      (ExceptT.run (connected addresses key limit (openShell rounds terminalType))) s
    Program.run host (ExceptT.run (session rounds terminalType addresses key limit)) s =
      ⟨inner.result.map (·.bind fun status => (exitResult status "").map fun _ => ()),
        inner.events, inner.state⟩ := by
  unfold session
  rw [judging_eq]
  exact run_concluding _ _

/-- A session that could not be connected has taken hold of nothing. -/
theorem givesBack_undialled (e : SshError) :
    GivesBack [⟨.dial addresses key limit, .error e⟩] (.error e) where
  balanced hold := by cases hold <;> exact ⟨rfl, Nat.zero_le 1⟩
  terminal hpos := absurd hpos (Nat.lt_irrefl 0)
  watched hpos := absurd hpos (Nat.lt_irrefl 0)
  unwatched _ := List.forall_mem_singleton.mpr rfl
  connection hpos := absurd hpos (Nat.lt_irrefl 0)
  result := .inr ⟨e, rfl, rfl⟩

/-- A session that was connected gives back what its shell does, and hangs up. -/
theorem ShellGoes.givesBack {es : List (Event remoteSignature)}
    {answer : Except SshError (Option UInt32)} (h : ShellGoes rounds es (some answer)) :
    GivesBack (⟨.dial addresses key limit, .ok ()⟩ :: (es ++ [⟨.hangUp, ()⟩]))
      (answer.bind fun status => (exitResult status "").map fun _ => ()) := by
  have hdial : Apart [⟨.dial addresses key limit, .ok ()⟩] := {
    taken := fun hold hhold => by
      cases hold with
      | connection => exact absurd rfl hhold
      | rawMode | windowWatch => rfl
    released := fun hold _ => by cases hold <;> rfl
    calls := List.forall_mem_singleton.mpr rfl }
  have hhangUp : Apart [⟨.hangUp, ()⟩] := {
    taken := fun hold _ => by cases hold <;> rfl
    released := fun hold hhold => by
      cases hold with
      | connection => exact absurd rfl hhold
      | rawMode | windowWatch => rfl
    calls := List.forall_mem_singleton.mpr rfl }
  have hterminal : TerminalBack [⟨.hangUp, ()⟩]
      (⟨.dial addresses key limit, .ok ()⟩ :: (es ++ [⟨.hangUp, ()⟩])) :=
    hdial.before (h.terminalBack.before hhangUp)
  constructor
  · intro hold
    -- The connection is the session's own, the rest the shell has seen to.
    by_cases hhold : hold = .connection
    · subst hhold
      rw [timesTaken_cons, timesReleased_cons, timesTaken_append, timesReleased_append,
        h.connection.1, h.connection.2]
      exact ⟨rfl, Nat.le_refl 1⟩
    · exact hterminal.balanced hold hhold
  · exact hterminal.last
  · exact hterminal.watched
  · exact hterminal.unwatched
  · exact fun _ => ⟨_ :: es, rfl⟩
  · have hfailures : failures (⟨.dial addresses key limit, .ok ()⟩ :: (es ++ [⟨.hangUp, ()⟩])) =
        failures es := (failures_append es _).trans (List.append_nil _)
    have hmessages : messagesTaken (⟨.dial addresses key limit, .ok ()⟩ ::
        (es ++ [⟨.hangUp, ()⟩])) = messagesTaken es :=
      (messagesTaken_append es _).trans (List.append_nil _)
    unfold ComesTo
    rw [hfailures, hmessages]
    rcases h.result with ⟨hcalm, rfl⟩ | ⟨e, hfailed, rfl⟩
    · exact .inl ⟨hcalm, rfl⟩
    · exact .inr ⟨e, hfailed, rfl⟩

/-- However a session ends, it has given back the terminal and the connection; and one that has not
ended is in an exchange whose end has not come. -/
theorem session_givesBack (host : Host remoteSignature σ) (rounds : Nat) (terminalType : String)
    (addresses : List Endpoint) (key : Bytes) (limit : Duration) (s : σ) :
    let outcome := Program.run host
      (ExceptT.run (session rounds terminalType addresses key limit)) s
    match outcome.result with
    | some result => GivesBack outcome.events result
    | none => GoesOn rounds outcome.events := by
  intro outcome
  rw [show outcome = _ from run_session]
  rcases hdial : host.answer (.dial addresses key limit) s with ⟨e | dialled, s'⟩
  · have hrun : Program.run host
        (ExceptT.run (connected addresses key limit (openShell rounds terminalType))) s = _ :=
      run_between_refused (.dial addresses key limit) id hdial rfl
    rw [hrun]
    exact givesBack_undialled e
  have hshell := openShell_goes host rounds terminalType s'
  rcases hrun : Program.run host (ExceptT.run (openShell rounds terminalType)) s' with
    ⟨_ | answer, es, s''⟩
  · rw [hrun] at hshell
    have hrun : Program.run host
        (ExceptT.run (connected addresses key limit (openShell rounds terminalType))) s = _ :=
      run_between_cut (.dial addresses key limit) id hdial rfl hrun
    rw [hrun]
    obtain ⟨hcalm, hrounds, hopen⟩ := hshell.goesOn
    exact ⟨hcalm, hrounds, hopen⟩
  · rw [hrun] at hshell
    obtain ⟨_, hrun⟩ : ∃ final, Program.run host
        (ExceptT.run (connected addresses key limit (openShell rounds terminalType))) s = _ :=
      run_between_ended (.dial addresses key limit) id hdial rfl run_hangUp hrun
    rw [hrun]
    exact hshell.givesBack

end Sessions

theorem session_givesBack_leftShell :
    let outcome := Program.run timetabled
      (ExceptT.run (session 13 "some-terminal" [] [] ⟨0⟩)) leftShell
    outcome.result = some (.error (.exitStatus 3 "")) ∧
      timesTaken .rawMode outcome.events = 1 ∧ timesReleased .rawMode outcome.events = 1 ∧
      GivesBack outcome.events (.error (.exitStatus 3 "")) :=
  ⟨rfl, rfl, rfl, session_givesBack timetabled 13 "some-terminal" [] [] ⟨0⟩ leftShell⟩

end DevVm.Ssh
