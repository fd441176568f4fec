import DevVm.Proofs.Relays
import DevVm.Ssh.Session

/-!
# Sessions in any order

During a session three things arrive in an order that nobody controls: the guest's messages,
readings of the user's input, and changes of the window. What there is of each is a `Supply`,
and a host `Serves` it if every arrival is the next one of some source, whichever it picks, and
if nothing that is passed on fails.

`Exchanges` gives the course of an exchange by rules, one for each kind of arrival, and
`exchange_exchanges` shows that every run follows them. What is told of a course is then shown
by induction over the rules. `exchange_unscheduled` puts it together: the output and the status
are those of a command with the same messages, what the guest is sent is what was taken from
the input and from the window, and the exchange ends with the channel and not before.
-/

namespace DevVm.Ssh

variable {σ : Type}

/-! ## What arrives -/

/-- What can still arrive from the guest, from the user's input and from the window, each in
its order. A reading without octets is the end of the input. -/
structure Supply where
  messages : List Message := []
  readings : List Bytes := []
  sizes : List WindowSize := []
deriving DecidableEq, Repr

/-- How much can still arrive. -/
def Supply.size (supply : Supply) : Nat :=
  supply.messages.length + supply.readings.length + supply.sizes.length

/-- What arrives is the next thing of one of the sources. The channel is gone when the guest
has no more messages. -/
inductive Supply.Gives : Supply → {listening : Bool} → Arrival listening → Supply → Prop where
  | message {message : Message} {messages : List Message} {readings : List Bytes}
      {sizes : List WindowSize} {listening : Bool} :
      Gives ⟨message :: messages, readings, sizes⟩ (.message message : Arrival listening)
        ⟨messages, readings, sizes⟩
  | gone {readings : List Bytes} {sizes : List WindowSize} {listening : Bool} :
      Gives ⟨[], readings, sizes⟩ (.gone : Arrival listening) ⟨[], readings, sizes⟩
  | input {messages : List Message} {octets : Bytes} {readings : List Bytes}
      {sizes : List WindowSize} :
      Gives ⟨messages, octets :: readings, sizes⟩ (.input octets) ⟨messages, readings, sizes⟩
  | resized {messages : List Message} {readings : List Bytes} {size : WindowSize}
      {sizes : List WindowSize} {listening : Bool} :
      Gives ⟨messages, readings, size :: sizes⟩ (.resized size : Arrival listening)
        ⟨messages, readings, sizes⟩

/-- A call succeeds and takes nothing of what can arrive. -/
def Passes (host : Host remoteSignature σ) (left : σ → Supply) (c : RemoteCall) (ok : c.Reply) :
    Prop :=
  ∀ s, ∃ s', host.answer c s = (ok, s') ∧ left s' = left s

/-- A host has a supply arrive, in whatever order it chooses, and nothing fails. -/
structure Serves (host : Host remoteSignature σ) (left : σ → Supply) : Prop where
  next : ∀ listening s, ∃ arrival s',
    host.answer (.next listening) s = (arrival, s') ∧ (left s).Gives arrival (left s')
  input : ∀ octets, Passes host left (.sendInput octets) (.ok ())
  inputEnd : Passes host left .sendEnd (.ok ())
  size : ∀ size, Passes host left (.sendSize size) (.ok ())
  write : ∀ stream octets, Passes host left (.write stream octets) (.ok ())

/-! ## Every order can come about -/

/-- The sources of what arrives. -/
inductive Source where
  | guest
  | input
  | window
deriving DecidableEq, Repr

/-- A supply, and the order in which the sources take their turns. -/
structure Timetable where
  supply : Supply
  turns : List Source
deriving DecidableEq, Repr

/-- What the guest sends next. -/
def Supply.fromGuest (listening : Bool) (supply : Supply) (turns : List Source) :
    Arrival listening × Timetable :=
  match supply.messages with
  | [] => (.gone, ⟨supply, turns⟩)
  | message :: messages => (.message message, ⟨{ supply with messages }, turns⟩)

/-- What arrives next. The turn of a source that has nothing to give passes, and when there are
no more turns, it is the guest's. -/
def Supply.arrival (listening : Bool) (supply : Supply) :
    List Source → Arrival listening × Timetable
  | [] => supply.fromGuest listening []
  | .guest :: turns => supply.fromGuest listening turns
  | .input :: turns =>
    match listening, supply.readings with
    | true, octets :: readings => (.input octets, ⟨{ supply with readings }, turns⟩)
    | true, [] => supply.arrival true turns
    | false, _ => supply.arrival false turns
  | .window :: turns =>
    match supply.sizes with
    | size :: sizes => (.resized size, ⟨{ supply with sizes }, turns⟩)
    | [] => supply.arrival listening turns

/-- The host that keeps to a timetable and lets nothing fail. -/
def timetabled : Host remoteSignature Timetable where
  answer
    | .next listening, t => t.supply.arrival listening t.turns
    | .exec _, t => (.ok t.supply.messages, t)
    | .dial .., t | .openChannel, t | .requestTerminal .., t | .requestShell, t
    | .sendInput _, t | .sendEnd, t | .sendSize _, t => (.ok (), t)
    | .terminalSize, t => (none, t)
    | .enterRawMode, t | .watchResizes, t | .write .., t => (.ok (), t)
    | .hangUp, t | .leaveRawMode, t | .stopWatching, t => ((), t)

theorem Supply.gives_fromGuest (listening : Bool) (supply : Supply) (turns : List Source) :
    supply.Gives (supply.fromGuest listening turns).1
      (supply.fromGuest listening turns).2.supply := by
  obtain ⟨messages, readings, sizes⟩ := supply
  cases messages with
  | nil => exact .gone
  | cons message messages => exact .message

theorem Supply.gives_arrival (listening : Bool) (supply : Supply) (turns : List Source) :
    supply.Gives (supply.arrival listening turns).1 (supply.arrival listening turns).2.supply := by
  induction turns with
  | nil => exact supply.gives_fromGuest listening []
  | cons source turns ih =>
    obtain ⟨messages, readings, sizes⟩ := supply
    cases source with
    | guest => exact gives_fromGuest listening _ turns
    | input =>
      cases listening with
      | false => exact ih
      | true =>
        cases readings with
        | nil => exact ih
        | cons octets readings => exact .input
    | window =>
      cases sizes with
      | nil => exact ih
      | cons size sizes => exact .resized

theorem timetabled_serves : Serves timetabled Timetable.supply where
  next listening t := ⟨_, _, rfl, t.supply.gives_arrival listening t.turns⟩
  input _ t := ⟨t, rfl, rfl⟩
  inputEnd t := ⟨t, rfl, rfl⟩
  size _ t := ⟨t, rfl, rfl⟩
  write _ _ t := ⟨t, rfl, rfl⟩

/-! ## The course of an exchange -/

/-- The courses that an exchange can take with a supply, each with the status it comes to. The
first two parameters say whether there may be more input, and what the status is so far. -/
inductive Exchanges :
    Bool → Option UInt32 → Supply → List (Event remoteSignature) → Option UInt32 → Prop where
  | closed {listening : Bool} {status : Option UInt32} {messages : List Message}
      {readings : List Bytes} {sizes : List WindowSize} :
      Exchanges listening status ⟨.close :: messages, readings, sizes⟩
        [⟨.next listening, .message .close⟩] status
  | gone {listening : Bool} {status : Option UInt32} {readings : List Bytes}
      {sizes : List WindowSize} :
      Exchanges listening status ⟨[], readings, sizes⟩ [⟨.next listening, .gone⟩] status
  | output {listening : Bool} {status final : Option UInt32} {message : Message}
      {messages : List Message} {readings : List Bytes} {sizes : List WindowSize}
      {stream : Stream} {octets : Bytes} {es : List (Event remoteSignature)}
      (has : message.output? = some (stream, octets))
      (rest : Exchanges listening status ⟨messages, readings, sizes⟩ es final) :
      Exchanges listening status ⟨message :: messages, readings, sizes⟩
        (⟨.next listening, .message message⟩ :: ⟨.write stream octets, .ok ()⟩ :: es) final
  | quiet {listening : Bool} {status final : Option UInt32} {message : Message}
      {messages : List Message} {readings : List Bytes} {sizes : List WindowSize}
      {es : List (Event remoteSignature)} (open_ : message ≠ .close)
      (has : message.output? = none)
      (rest : Exchanges listening (message.status?.or status) ⟨messages, readings, sizes⟩ es
        final) :
      Exchanges listening status ⟨message :: messages, readings, sizes⟩
        (⟨.next listening, .message message⟩ :: es) final
  | input {status final : Option UInt32} {messages : List Message} {octets : Bytes}
      {readings : List Bytes} {sizes : List WindowSize} {es : List (Event remoteSignature)}
      (some_ : octets ≠ [])
      (rest : Exchanges true status ⟨messages, readings, sizes⟩ es final) :
      Exchanges true status ⟨messages, octets :: readings, sizes⟩
        (⟨.next true, .input octets⟩ :: ⟨.sendInput octets, .ok ()⟩ :: es) final
  | inputEnd {status final : Option UInt32} {messages : List Message} {readings : List Bytes}
      {sizes : List WindowSize} {es : List (Event remoteSignature)}
      (rest : Exchanges false status ⟨messages, readings, sizes⟩ es final) :
      Exchanges true status ⟨messages, [] :: readings, sizes⟩
        (⟨.next true, .input []⟩ :: ⟨.sendEnd, .ok ()⟩ :: es) final
  | resized {listening : Bool} {status final : Option UInt32} {messages : List Message}
      {readings : List Bytes} {size : WindowSize} {sizes : List WindowSize}
      {es : List (Event remoteSignature)}
      (rest : Exchanges listening status ⟨messages, readings, sizes⟩ es final) :
      Exchanges listening status ⟨messages, readings, size :: sizes⟩
        (⟨.next listening, .resized size⟩ :: ⟨.sendSize size, .ok ()⟩ :: es) final

section Runs

variable {host : Host remoteSignature σ} {rounds : Nat} {listening : Bool}
  {status : Option UInt32} {s s' s'' : σ}

theorem run_exchange_closed (h : host.answer (.next listening) s = (.message .close, s')) :
    Program.run host (ExceptT.run (exchange (rounds + 1) listening status)) s =
      ⟨some (.ok status), [⟨.next listening, .message .close⟩], s'⟩ := by
  cases listening <;> exact run_ask_bind h _

theorem run_exchange_gone (h : host.answer (.next listening) s = (.gone, s')) :
    Program.run host (ExceptT.run (exchange (rounds + 1) listening status)) s =
      ⟨some (.ok status), [⟨.next listening, .gone⟩], s'⟩ := by
  cases listening <;> exact run_ask_bind h _

theorem run_exchange_extended {number : UInt32} {octets : Bytes}
    (h : host.answer (.next listening) s = (.message (.extended number octets), s')) :
    Program.run host (ExceptT.run (exchange (rounds + 1) listening status)) s =
      (Program.run host (ExceptT.run
        (if number = errorStream then
          RemoteTask.write .err octets >>= fun _ => exchange rounds listening status
        else exchange rounds listening status)) s').behind
        [⟨.next listening, .message (.extended number octets)⟩] := by
  cases listening <;> exact run_ask_bind h _

theorem run_exchange_quiet {message : Message} (hclose : message ≠ .close)
    (hout : message.output? = none)
    (h : host.answer (.next listening) s = (.message message, s')) :
    Program.run host (ExceptT.run (exchange (rounds + 1) listening status)) s =
      (Program.run host
        (ExceptT.run (exchange rounds listening (message.status?.or status))) s').behind
        [⟨.next listening, .message message⟩] := by
  cases message with
  | data _ => cases hout
  | extended number octets =>
    have hn : ¬ number = errorStream := by
      intro hn
      rw [Message.output?, if_pos hn] at hout
      cases hout
    rw [run_exchange_extended h, if_neg hn]
    rfl
  | exitStatus n => cases listening <;> exact run_ask_bind h _
  | exitSignal => cases listening <;> exact run_ask_bind h _
  | eof => cases listening <;> exact run_ask_bind h _
  | close => exact absurd rfl hclose
  | other => cases listening <;> exact run_ask_bind h _

/-- A message that has something for a stream is followed by writing it. -/
theorem run_exchange_writes {message : Message} {stream : Stream} {octets : Bytes}
    (hout : message.output? = some (stream, octets))
    (h : host.answer (.next listening) s = (.message message, s')) :
    Program.run host (ExceptT.run (exchange (rounds + 1) listening status)) s =
      (Program.run host (ExceptT.run (RemoteTask.write stream octets >>= fun _ =>
        exchange rounds listening status)) s').behind [⟨.next listening, .message message⟩] := by
  cases message with
  | data _ =>
    cases hout
    cases listening <;> exact run_ask_bind h _
  | extended number octets' =>
    by_cases hn : number = errorStream
    · rw [Message.output?, if_pos hn] at hout
      cases hout
      rw [run_exchange_extended h, if_pos hn]
    · rw [Message.output?, if_neg hn] at hout
      cases hout
  | exitStatus n => cases hout
  | exitSignal => cases hout
  | eof => cases hout
  | close => cases hout
  | other => cases hout

theorem run_exchange_output {message : Message} {stream : Stream} {octets : Bytes}
    (hout : message.output? = some (stream, octets))
    (h : host.answer (.next listening) s = (.message message, s'))
    (h' : host.answer (.write stream octets) s' = (.ok (), s'')) :
    Program.run host (ExceptT.run (exchange (rounds + 1) listening status)) s =
      (Program.run host (ExceptT.run (exchange rounds listening status)) s'').behind
        [⟨.next listening, .message message⟩, ⟨.write stream octets, .ok ()⟩] :=
  (run_exchange_writes hout h).trans (congrArg (Outcome.behind · _) (run_write h' _))

theorem run_exchange_input {octets : Bytes} (hsome : octets ≠ [])
    (h : host.answer (.next true) s = (.input octets, s'))
    (h' : host.answer (.sendInput octets) s' = (.ok (), s'')) :
    Program.run host (ExceptT.run (exchange (rounds + 1) true status)) s =
      (Program.run host (ExceptT.run (exchange rounds true status)) s'').behind
        [⟨.next true, .input octets⟩, ⟨.sendInput octets, .ok ()⟩] := by
  cases octets with
  | nil => exact absurd rfl hsome
  | cons octet octets =>
    exact (run_ask_bind h _).trans (congrArg (Outcome.behind · _) (run_ask_bind h' _))

theorem run_exchange_inputEnd (h : host.answer (.next true) s = (.input [], s'))
    (h' : host.answer .sendEnd s' = (.ok (), s'')) :
    Program.run host (ExceptT.run (exchange (rounds + 1) true status)) s =
      (Program.run host (ExceptT.run (exchange rounds false status)) s'').behind
        [⟨.next true, .input []⟩, ⟨.sendEnd, .ok ()⟩] :=
  (run_ask_bind h _).trans (congrArg (Outcome.behind · _) (run_ask_bind h' _))

theorem run_exchange_resized {size : WindowSize}
    (h : host.answer (.next listening) s = (.resized size, s'))
    (h' : host.answer (.sendSize size) s' = (.ok (), s'')) :
    Program.run host (ExceptT.run (exchange (rounds + 1) listening status)) s =
      (Program.run host (ExceptT.run (exchange rounds listening status)) s'').behind
        [⟨.next listening, .resized size⟩, ⟨.sendSize size, .ok ()⟩] := by
  cases listening <;>
    exact (run_ask_bind h _).trans (congrArg (Outcome.behind · _) (run_ask_bind h' _))

end Runs

/-- Where nothing fails, an exchange that is allowed enough rounds runs its course. -/
theorem exchange_exchanges {host : Host remoteSignature σ} {left : σ → Supply}
    (h : Serves host left) {rounds : Nat} {listening : Bool} {status : Option UInt32} {s : σ}
    {supply : Supply} (hleft : left s = supply) (henough : supply.size < rounds) :
    ∃ final,
      (Program.run host (ExceptT.run (exchange rounds listening status)) s).result =
        some (.ok final) ∧
      Exchanges listening status supply
        (Program.run host (ExceptT.run (exchange rounds listening status)) s).events final := by
  -- Every round but the last takes something of the supply.
  induction rounds generalizing listening status s supply with
  | zero => exact absurd henough (Nat.not_lt_zero _)
  | succ rounds ih =>
    obtain ⟨arrival, s', hanswer, hgives⟩ := h.next listening s
    rw [hleft] at hgives
    generalize hleft' : left s' = rest at hgives
    cases hgives with
    | @message message messages readings sizes =>
      have hless : Supply.size ⟨messages, readings, sizes⟩ < rounds := by
        simp only [Supply.size, List.length_cons] at henough ⊢
        omega
      by_cases hclose : message = .close
      · subst hclose
        rw [run_exchange_closed hanswer]
        exact ⟨status, rfl, .closed⟩
      cases hout : message.output? with
      | none =>
        rw [run_exchange_quiet hclose hout hanswer]
        obtain ⟨final, hresult, hrest⟩ := ih hleft' hless
        exact ⟨final, hresult, .quiet hclose hout hrest⟩
      | some piece =>
        obtain ⟨s'', hwrite, hkept⟩ := h.write piece.1 piece.2 s'
        rw [run_exchange_output hout hanswer hwrite]
        obtain ⟨final, hresult, hrest⟩ := ih (hkept.trans hleft') hless
        exact ⟨final, hresult, .output hout hrest⟩
    | gone =>
      rw [run_exchange_gone hanswer]
      exact ⟨status, rfl, .gone⟩
    | @input messages octets readings sizes =>
      have hless : Supply.size ⟨messages, readings, sizes⟩ < rounds := by
        simp only [Supply.size, List.length_cons] at henough ⊢
        omega
      by_cases hsome : octets = []
      · subst hsome
        obtain ⟨s'', hend, hkept⟩ := h.inputEnd s'
        rw [run_exchange_inputEnd hanswer hend]
        obtain ⟨final, hresult, hrest⟩ := ih (hkept.trans hleft') hless
        exact ⟨final, hresult, .inputEnd hrest⟩
      · obtain ⟨s'', hsend, hkept⟩ := h.input octets s'
        rw [run_exchange_input hsome hanswer hsend]
        obtain ⟨final, hresult, hrest⟩ := ih (hkept.trans hleft') hless
        exact ⟨final, hresult, .input hsome hrest⟩
    | @resized messages readings size sizes =>
      have hless : Supply.size ⟨messages, readings, sizes⟩ < rounds := by
        simp only [Supply.size, List.length_cons] at henough ⊢
        omega
      obtain ⟨s'', hsend, hkept⟩ := h.size size s'
      rw [run_exchange_resized hanswer hsend]
      obtain ⟨final, hresult, hrest⟩ := ih (hkept.trans hleft') hless
      exact ⟨final, hresult, .resized hrest⟩

/-! ## What a course comes to -/

/-- An arrival, and whether there might have been input instead. -/
structure Taken where
  listening : Bool
  arrival : Arrival listening

/-- What arrived, in order. -/
def arrivals (es : List (Event remoteSignature)) : List Taken :=
  es.filterMap fun
    | ⟨.next listening, arrival⟩ => some ⟨listening, arrival⟩
    | _ => none

/-- The messages of the guest among what arrived. -/
def messagesTaken (es : List (Event remoteSignature)) : List Message :=
  (arrivals es).filterMap fun
    | ⟨_, .message message⟩ => some message
    | _ => none

/-- The readings of input among what arrived. -/
def readingsTaken (es : List (Event remoteSignature)) : List Bytes :=
  (arrivals es).filterMap fun
    | ⟨_, .input octets⟩ => some octets
    | _ => none

/-- The sizes of the window among what arrived. -/
def sizesTaken (es : List (Event remoteSignature)) : List WindowSize :=
  (arrivals es).filterMap fun
    | ⟨_, .resized size⟩ => some size
    | _ => none

/-- The input that was sent to the guest. -/
def inputSent (es : List (Event remoteSignature)) : List Bytes :=
  es.filterMap fun
    | ⟨.sendInput octets, _⟩ => some octets
    | _ => none

/-- How many times the guest was told that the input has ended. -/
def endsSent (es : List (Event remoteSignature)) : Nat :=
  (es.filter fun
    | ⟨.sendEnd, _⟩ => true
    | _ => false).length

/-- The sizes of the window that the guest was told of. -/
def sizesSent (es : List (Event remoteSignature)) : List WindowSize :=
  es.filterMap fun
    | ⟨.sendSize size, _⟩ => some size
    | _ => none

/-- An arrival after which nothing can arrive any more. -/
def Taken.isLast : Taken → Bool
  | ⟨_, .message .close⟩ | ⟨_, .gone⟩ => true
  | _ => false

section Courses

variable {listening : Bool} {status final : Option UInt32} {supply : Supply}
  {es : List (Event remoteSignature)}

/-- The streams and the status are those of a command with the same messages. -/
theorem Exchanges.relays (h : Exchanges listening status supply es final) :
    writes es = outputs (counting supply.messages) ∧
      final = (lastStatus? (counting supply.messages)).or status := by
  induction h with
  | closed => exact ⟨rfl, rfl⟩
  | gone => exact ⟨rfl, rfl⟩
  | output has rest ih =>
    rw [counting_cons (Message.ne_close_of_output? has), outputs_cons, lastStatus?_cons_or, has,
      Message.status?_of_output? has]
    exact ⟨congrArg (_ :: ·) ih.1, ih.2⟩
  | quiet open_ has rest ih =>
    rw [counting_cons open_, outputs_cons, lastStatus?_cons_or, has]
    exact ih
  | input some_ rest ih => exact ih
  | inputEnd rest ih => exact ih
  | resized rest ih => exact ih

/-- The messages are taken up to the one that closes the channel. -/
theorem Exchanges.messages (h : Exchanges listening status supply es final) :
    messagesTaken es =
      counting supply.messages ++ if .close ∈ supply.messages then [.close] else [] := by
  induction h with
  | closed =>
    rw [if_pos List.mem_cons_self]
    rfl
  | gone => rfl
  | @output _ _ _ message _ _ _ _ _ _ has rest ih =>
    have hclose := Message.ne_close_of_output? has
    rw [counting_cons hclose]
    simp only [List.mem_cons, hclose.symm, false_or, List.cons_append]
    exact congrArg (message :: ·) ih
  | @quiet _ _ _ message _ _ _ _ open_ has rest ih =>
    rw [counting_cons open_]
    simp only [List.mem_cons, open_.symm, false_or, List.cons_append]
    exact congrArg (message :: ·) ih
  | input some_ rest ih => exact ih
  | inputEnd rest ih => exact ih
  | resized rest ih => exact ih

/-- The guest is told of every change of the window that was taken, and they are taken in
order. -/
theorem Exchanges.sizes (h : Exchanges listening status supply es final) :
    sizesSent es = sizesTaken es ∧ sizesTaken es <+: supply.sizes := by
  induction h with
  | closed => exact ⟨rfl, List.nil_prefix⟩
  | gone => exact ⟨rfl, List.nil_prefix⟩
  | output has rest ih => exact ih
  | quiet open_ has rest ih => exact ih
  | input some_ rest ih => exact ih
  | inputEnd rest ih => exact ih
  | @resized _ _ _ _ _ size _ _ rest ih =>
    exact ⟨congrArg (size :: ·) ih.1, (List.prefix_cons_inj size).mpr ih.2⟩

/-- Readings of input are taken in order. -/
theorem Exchanges.readings (h : Exchanges listening status supply es final) :
    readingsTaken es <+: supply.readings := by
  induction h with
  | closed => exact List.nil_prefix
  | gone => exact List.nil_prefix
  | output has rest ih => exact ih
  | quiet open_ has rest ih => exact ih
  | @input _ _ _ octets _ _ _ some_ rest ih => exact (List.prefix_cons_inj octets).mpr ih
  | inputEnd rest ih => exact (List.prefix_cons_inj []).mpr ih
  | resized rest ih => exact ih

/-- No input is taken and nothing is said of it. -/
structure Deaf (es : List (Event remoteSignature)) : Prop where
  taken : readingsTaken es = []
  sent : inputSent es = []
  ended : endsSent es = 0

/-- Once the input has ended, it is done with. -/
theorem Exchanges.deaf (h : Exchanges false status supply es final) : Deaf es := by
  generalize hl : false = listening at h
  induction h with
  | closed => exact ⟨rfl, rfl, rfl⟩
  | gone => exact ⟨rfl, rfl, rfl⟩
  | output has rest ih => exact ⟨(ih hl).taken, (ih hl).sent, (ih hl).ended⟩
  | quiet open_ has rest ih => exact ⟨(ih hl).taken, (ih hl).sent, (ih hl).ended⟩
  | input some_ rest ih => exact absurd hl nofun
  | inputEnd rest ih => exact absurd hl nofun
  | resized rest ih => exact ⟨(ih hl).taken, (ih hl).sent, (ih hl).ended⟩

/-- All input that is taken is sent on, and the end of the input has not been among it. -/
structure Heard (es : List (Event remoteSignature)) : Prop where
  sent : inputSent es = readingsTaken es
  filled : [] ∉ readingsTaken es
  ended : endsSent es = 0

/-- Either the input has not ended, or there is one place in the course where the end is taken
and at once told of. -/
def Hears (es : List (Event remoteSignature)) : Prop :=
  Heard es ∨ ∃ before after, es = before ++
    ⟨.next true, .input []⟩ :: ⟨.sendEnd, .ok ()⟩ :: after ∧ Heard before ∧ Deaf after

theorem Hears.more (h : Hears es) (lead : List (Event remoteSignature))
    (hmore : ∀ es, Heard es → Heard (lead ++ es)) : Hears (lead ++ es) := by
  rcases h with hheard | ⟨before, after, rfl, hheard, hdeaf⟩
  · exact .inl (hmore es hheard)
  · exact .inr ⟨lead ++ before, after, (List.append_assoc _ _ _).symm, hmore before hheard, hdeaf⟩

theorem Exchanges.hears (h : Exchanges listening status supply es final) : Hears es := by
  induction h with
  | closed => exact .inl ⟨rfl, List.not_mem_nil, rfl⟩
  | gone => exact .inl ⟨rfl, List.not_mem_nil, rfl⟩
  | output has rest ih => exact ih.more [_, _] fun _ h => ⟨h.sent, h.filled, h.ended⟩
  | quiet open_ has rest ih => exact ih.more [_] fun _ h => ⟨h.sent, h.filled, h.ended⟩
  | @input _ _ _ octets _ _ _ some_ rest ih =>
    refine ih.more [_, _] fun _ h => ⟨congrArg (octets :: ·) h.sent, ?_, h.ended⟩
    exact List.not_mem_cons_of_ne_of_not_mem some_.symm h.filled
  | inputEnd rest ih =>
    exact .inr ⟨[], _, rfl, ⟨rfl, List.not_mem_nil, rfl⟩, rest.deaf⟩
  | resized rest ih => exact ih.more [_, _] fun _ h => ⟨h.sent, h.filled, h.ended⟩

theorem Taken.isLast_message {message : Message} (h : message ≠ .close) :
    Taken.isLast ⟨listening, .message message⟩ = false := by
  cases message with
  | close => exact absurd rfl h
  | _ => rfl

/-- The course ends with the first arrival that ends it. -/
def EndsAtLast (es : List (Event remoteSignature)) : Prop :=
  ∃ (before : List (Event remoteSignature)) (last : Taken),
    es = before ++ [⟨.next last.listening, last.arrival⟩] ∧ last.isLast = true ∧
      ∀ t ∈ arrivals before, t.isLast = false

theorem arrivals_append (es more : List (Event remoteSignature)) :
    arrivals (es ++ more) = arrivals es ++ arrivals more := List.filterMap_append

theorem EndsAtLast.more (h : EndsAtLast es) (lead : List (Event remoteSignature))
    (hlead : ∀ t ∈ arrivals lead, t.isLast = false) : EndsAtLast (lead ++ es) := by
  obtain ⟨before, last, rfl, hlast, hbefore⟩ := h
  refine ⟨lead ++ before, last, (List.append_assoc _ _ _).symm, hlast, fun t ht => ?_⟩
  rw [arrivals_append] at ht
  exact (List.mem_append.mp ht).elim (hlead t) (hbefore t)

theorem Exchanges.ends (h : Exchanges listening status supply es final) : EndsAtLast es := by
  induction h with
  | @closed listening =>
    exact ⟨[], ⟨listening, .message .close⟩, rfl, rfl, fun t ht => absurd ht List.not_mem_nil⟩
  | @gone listening =>
    exact ⟨[], ⟨listening, .gone⟩, rfl, rfl, fun t ht => absurd ht List.not_mem_nil⟩
  | output has rest ih =>
    exact ih.more [_, _]
      (List.forall_mem_singleton.mpr (Taken.isLast_message (Message.ne_close_of_output? has)))
  | quiet open_ has rest ih =>
    exact ih.more [_] (List.forall_mem_singleton.mpr (Taken.isLast_message open_))
  | input some_ rest ih => exact ih.more [_, _] (List.forall_mem_singleton.mpr rfl)
  | inputEnd rest ih => exact ih.more [_, _] (List.forall_mem_singleton.mpr rfl)
  | resized rest ih => exact ih.more [_, _] (List.forall_mem_singleton.mpr rfl)

end Courses

/-! ## The order does not matter -/

/-- What an exchange has done with what there was of each source. -/
structure Conveyed (supply : Supply) (es : List (Event remoteSignature)) : Prop where
  /-- Readings are taken in order, and all there is in them is sent to the guest. -/
  readings : readingsTaken es <+: supply.readings
  input : (inputSent es).flatten = (readingsTaken es).flatten
  /-- The guest is told of the end of the input once for every reading without octets. -/
  inputEnds : endsSent es = (readingsTaken es).count []
  /-- There is at most one, the guest is told at once, and that is the end of it. -/
  inputEndsOnce : [] ∈ readingsTaken es → ∃ before after,
    es = before ++ ⟨.next true, .input []⟩ :: ⟨.sendEnd, .ok ()⟩ :: after ∧
      [] ∉ readingsTaken before ∧ endsSent before = 0 ∧ Deaf after
  /-- Changes of the window are taken in order, and the guest is told of each. -/
  sizes : sizesTaken es <+: supply.sizes
  sizesTold : sizesSent es = sizesTaken es
  /-- Messages are taken up to the one that closes the channel, or all of them. -/
  messages : messagesTaken es =
    counting supply.messages ++ if .close ∈ supply.messages then [.close] else []
  /-- The exchange ends when it finds the channel closed or gone, and it does not before. -/
  ends : EndsAtLast es

theorem readingsTaken_append (es more : List (Event remoteSignature)) :
    readingsTaken (es ++ more) = readingsTaken es ++ readingsTaken more := by
  unfold readingsTaken
  rw [arrivals_append, List.filterMap_append]

theorem inputSent_append (es more : List (Event remoteSignature)) :
    inputSent (es ++ more) = inputSent es ++ inputSent more := List.filterMap_append

theorem endsSent_append (es more : List (Event remoteSignature)) :
    endsSent (es ++ more) = endsSent es + endsSent more := by
  unfold endsSent
  rw [List.filter_append, List.length_append]

/-- A course whose input has ended, told from its parts. -/
theorem Heard.append {before after : List (Event remoteSignature)} (h : Heard before)
    (h' : Deaf after) :
    readingsTaken (before ++ ⟨.next true, .input []⟩ :: ⟨.sendEnd, .ok ()⟩ :: after) =
        inputSent before ++ [[]] ∧
      inputSent (before ++ ⟨.next true, .input []⟩ :: ⟨.sendEnd, .ok ()⟩ :: after) =
        inputSent before ∧
      endsSent (before ++ ⟨.next true, .input []⟩ :: ⟨.sendEnd, .ok ()⟩ :: after) = 1 := by
  rw [readingsTaken_append, inputSent_append, endsSent_append, h.sent, h.ended]
  refine ⟨congrArg (readingsTaken before ++ [] :: ·) h'.taken, ?_, ?_⟩
  · rw [show inputSent (⟨.next true, .input []⟩ :: ⟨.sendEnd, .ok ()⟩ :: after) = inputSent after
      from rfl, h'.sent, List.append_nil]
  · rw [show endsSent (⟨.next true, .input []⟩ :: ⟨.sendEnd, .ok ()⟩ :: after) =
      endsSent after + 1 from rfl, h'.ended]

theorem Exchanges.conveyed {listening : Bool} {status final : Option UInt32} {supply : Supply}
    {es : List (Event remoteSignature)} (h : Exchanges listening status supply es final) :
    Conveyed supply es where
  readings := h.readings
  input := by
    rcases h.hears with hheard | ⟨before, after, rfl, hheard, hdeaf⟩
    · rw [hheard.sent]
    · obtain ⟨htaken, hsent, -⟩ := hheard.append hdeaf
      rw [htaken, hsent, List.flatten_append]
      exact (List.append_nil _).symm
  inputEnds := by
    rcases h.hears with hheard | ⟨before, after, rfl, hheard, hdeaf⟩
    · rw [hheard.ended, List.count_eq_zero_of_not_mem hheard.filled]
    · obtain ⟨htaken, -, hended⟩ := hheard.append hdeaf
      rw [htaken, hended, List.count_append, hheard.sent,
        List.count_eq_zero_of_not_mem hheard.filled]
      rfl
  inputEndsOnce := by
    intro hmem
    rcases h.hears with hheard | ⟨before, after, heq, hheard, hdeaf⟩
    · exact absurd hmem hheard.filled
    · exact ⟨before, after, heq, hheard.filled, hheard.ended, hdeaf⟩
  sizes := h.sizes.2
  sizesTold := h.sizes.1
  messages := h.messages
  ends := h.ends

/-- An exchange in which nothing fails comes to the same whatever the order in which things
arrive: as a command would, it writes what the messages that count have for the streams and ends
with the last status among them. Its dealings with input and window are as they should be, and it
ends when the channel does. -/
theorem exchange_unscheduled {host : Host remoteSignature σ} {left : σ → Supply}
    (h : Serves host left) (s : σ) {rounds : Nat} (henough : (left s).size < rounds) :
    let session := Program.run host (ExceptT.run (exchange rounds true none)) s
    let command := Program.run host (ExceptT.run (relay (left s).messages none)) s
    session.result = command.result ∧
      (∀ stream, onStream stream (writes session.events) =
        onStream stream (writes command.events)) ∧
      session.result = some (.ok (lastStatus? (counting (left s).messages))) ∧
      writes session.events = outputs (counting (left s).messages) ∧
      Conveyed (left s) session.events := by
  intro session command
  obtain ⟨final, hresult, hcourse⟩ := exchange_exchanges h rfl henough
  obtain ⟨hwrites, hfinal⟩ := hcourse.relays
  obtain ⟨hresult', hwrites'⟩ := run_relay
    (fun stream octets s => (h.write stream octets s).imp fun _ => And.left)
    (left s).messages none s
  rw [hfinal, Option.or_none] at hresult
  rw [Option.or_none] at hresult'
  exact ⟨hresult.trans hresult'.symm, fun stream => by rw [hwrites, hwrites'], hresult, hwrites,
    hcourse.conveyed⟩

/-- A shell that is left after the end of the input, between changes of the window. -/
def leftShell : Timetable where
  supply :=
    { messages := [.data [104, 105], .exitStatus 1, .extended 1 [33], .exitStatus 3, .eof, .close,
        .data [0]]
      readings := [[97, 98], [], [99]]
      sizes := [⟨120, 50⟩, ⟨80, 24⟩] }
  turns := [.window, .input, .guest, .input, .input, .guest, .window]

theorem exchange_unscheduled_leftShell :
    let session := Program.run timetabled (ExceptT.run (exchange 13 true none)) leftShell
    Serves timetabled Timetable.supply ∧ leftShell.supply.size < 13 ∧
      session.result = some (.ok (some 3)) ∧
      writes session.events = [(.out, [104, 105]), (.err, [33])] ∧
      Conveyed leftShell.supply session.events := by
  have hsession := exchange_unscheduled timetabled_serves leftShell
    (show leftShell.supply.size < 13 by decide)
  exact ⟨timetabled_serves, by decide, hsession.2.2.1, hsession.2.2.2.1, hsession.2.2.2.2⟩

end DevVm.Ssh
