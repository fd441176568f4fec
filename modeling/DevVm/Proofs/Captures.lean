import DevVm.Proofs.Sessions

/-!
# Streaming and capturing

A command's output goes to two local streams, or is captured as one text. Both are the same
passing on of messages, with another choice of where the pieces go (`forward`): `relay` lets each
piece keep its stream (`relay_eq_forward`), and `collect` keeps what one stream for all of them
would get (`collect_eq`, `onStream_joined`).

How passing on can end is said once (`forward_cases`): either every piece that counts was accepted,
or one was refused, and then nothing that came after it matters. `output_agrees` draws the
conclusions for commands that are streamed and for commands that are captured.
-/

namespace DevVm.Ssh

variable {σ : Type}

/-! ## Passing on to any stream -/

/-- Passes on what messages have for the streams. The piece meant for a stream goes where `sink`
says. -/
def forward (sink : Stream → Stream) : List Message → Option UInt32 → RemoteTask (Option UInt32)
  | [], status => return status
  | message :: more, status =>
    if message = .close then return status
    else
      match message.output? with
      | some (stream, octets) => do
        RemoteTask.write (sink stream) octets
        forward sink more status
      | none => forward sink more (message.status?.or status)

/-- A piece that was accepted. -/
def delivered (sink : Stream → Stream) (piece : Stream × Bytes) : Event remoteSignature :=
  ⟨.write (sink piece.1) piece.2, .ok ()⟩

section Forward

variable {sink : Stream → Stream} {message : Message} {more : List Message}
  {status : Option UInt32}

theorem forward_of_output {stream : Stream} {octets : Bytes}
    (h : message.output? = some (stream, octets)) :
    forward sink (message :: more) status =
      RemoteTask.write (sink stream) octets >>= fun _ => forward sink more status := by
  rw [forward, if_neg (Message.ne_close_of_output? h), h]

theorem forward_of_quiet (hclose : message ≠ .close) (h : message.output? = none) :
    forward sink (message :: more) status = forward sink more (message.status?.or status) := by
  rw [forward, if_neg hclose, h]

end Forward

/-- Streaming to two streams lets each piece keep its stream. -/
theorem relay_eq_forward (messages : List Message) (status : Option UInt32) :
    relay messages status = forward id messages status := by
  induction messages generalizing status with
  | nil => rfl
  | cons message messages ih =>
    by_cases hclose : message = .close
    · subst hclose
      rfl
    cases hout : message.output? with
    | none => rw [relay_of_quiet hclose hout, forward_of_quiet hclose hout, ih]
    | some piece => rw [relay_of_output hout, forward_of_output hout, ih, id]

/-! ## How passing on ends -/

/-- Where it is refused, what is written first is all that becomes of a task. -/
theorem run_write_refused {host : Host remoteSignature σ} {stream : Stream} {octets : Bytes}
    {reason : String} {s s' : σ}
    (h : host.answer (.write stream octets) s = (.error reason, s')) {α : Type}
    (next : RemoteTask α) :
    Program.run host (ExceptT.run (RemoteTask.write stream octets >>= fun _ => next)) s =
      ⟨some (.error (.io reason)), [⟨.write stream octets, .error reason⟩], s'⟩ :=
  run_ask_bind h fun reply => RemoteTask.ofExcept (Except.mapError .io reply) >>= fun _ => next

/-- A piece is refused, and passing on ends with it. The pieces before it were accepted, and it does
not matter which messages would have come `after`. -/
structure Breaks (host : Host remoteSignature σ) (sink : Stream → Stream) (status : Option UInt32)
    (s : σ) (before : List Message) (message : Message) (piece : Stream × Bytes)
    (reason : String) : Prop where
  still : .close ∉ before
  has : message.output? = some piece
  refused : ∃ s₁ s₂, host.answer (.write (sink piece.1) piece.2) s₁ = (.error reason, s₂)
  ends : ∃ s', ∀ after,
    Program.run host (ExceptT.run (forward sink (before ++ message :: after) status)) s =
      ⟨some (.error (.io reason)), (outputs before).map (delivered sink) ++
        [⟨.write (sink piece.1) piece.2, .error reason⟩], s'⟩

section Breaks

variable {host : Host remoteSignature σ} {sink : Stream → Stream} {status : Option UInt32}
  {s s' : σ} {before : List Message} {message first : Message} {piece later : Stream × Bytes}
  {reason : String}

/-- Passing on breaks off at a piece that is refused at once. -/
theorem breaks_here (has : message.output? = some piece)
    (hanswer : host.answer (.write (sink piece.1) piece.2) s = (.error reason, s')) :
    Breaks host sink status s [] message piece reason where
  still := List.not_mem_nil
  has := has
  refused := ⟨s, s', hanswer⟩
  ends := ⟨s', fun after => by
    rw [List.nil_append, forward_of_output has, run_write_refused hanswer]
    rfl⟩

/-- A message without a piece in front changes nothing but the status so far. -/
theorem Breaks.afterQuiet
    (h : Breaks host sink (first.status?.or status) s before message piece reason)
    (hclose : first ≠ .close) (hout : first.output? = none) :
    Breaks host sink status s (first :: before) message piece reason where
  still := List.not_mem_cons_of_ne_of_not_mem (Ne.symm hclose) h.still
  has := h.has
  refused := h.refused
  ends := by
    obtain ⟨s', hends⟩ := h.ends
    refine ⟨s', fun after => ?_⟩
    rw [List.cons_append, forward_of_quiet hclose hout, hends after, outputs_cons, hout]
    rfl

/-- A piece in front that is accepted comes before the others. -/
theorem Breaks.afterPiece (h : Breaks host sink status s' before message later reason)
    (hout : first.output? = some piece)
    (hanswer : host.answer (.write (sink piece.1) piece.2) s = (.ok (), s')) :
    Breaks host sink status s (first :: before) message later reason where
  still := List.not_mem_cons_of_ne_of_not_mem (Message.ne_close_of_output? hout).symm h.still
  has := h.has
  refused := h.refused
  ends := by
    obtain ⟨s'', hends⟩ := h.ends
    refine ⟨s'', fun after => ?_⟩
    rw [List.cons_append, forward_of_output hout, run_write hanswer, hends after, outputs_cons,
      hout]
    rfl

end Breaks

/-- Passing on goes through, with every piece that counts accepted, or breaks off at a piece. -/
theorem forward_cases (host : Host remoteSignature σ) (sink : Stream → Stream)
    (messages : List Message) (status : Option UInt32) (s : σ) :
    (∃ s', Program.run host (ExceptT.run (forward sink messages status)) s =
      ⟨some (.ok ((lastStatus? (counting messages)).or status)),
        (outputs (counting messages)).map (delivered sink), s'⟩) ∨
      ∃ before message after piece reason, messages = before ++ message :: after ∧
        Breaks host sink status s before message piece reason := by
  -- Pieces move the host and statuses replace the one so far, so both vary in the induction.
  induction messages generalizing status s with
  | nil => exact .inl ⟨s, rfl⟩
  | cons message messages ih =>
    by_cases hclose : message = .close
    · subst hclose
      exact .inl ⟨s, rfl⟩
    rw [counting_cons hclose, lastStatus?_cons_or, outputs_cons]
    cases hout : message.output? with
    | none =>
      rw [forward_of_quiet hclose hout]
      rcases ih (message.status?.or status) s with
        h | ⟨before, broken, after, piece, reason, rfl, h⟩
      · exact .inl h
      · exact .inr ⟨_, _, _, _, _, rfl, h.afterQuiet hclose hout⟩
    | some piece =>
      rw [forward_of_output hout]
      rcases hanswer : host.answer (.write (sink piece.1) piece.2) s with ⟨reason | accepted, s'⟩
      · exact .inr ⟨[], message, messages, piece, reason, rfl, breaks_here hout hanswer⟩
      · rw [run_write hanswer, Message.status?_of_output? hout]
        rcases ih status s' with ⟨s'', h⟩ | ⟨before, broken, after, later, reason, rfl, h⟩
        · exact .inl ⟨s'', congrArg (Outcome.behind · [delivered sink piece]) h⟩
        · exact .inr ⟨_, _, _, _, _, rfl, h.afterPiece hout hanswer⟩

/-- A host whose streams accept everything. -/
def Accepts (host : Host remoteSignature σ) : Prop :=
  ∀ stream octets s, ∃ s', host.answer (.write stream octets) s = (.ok (), s')

/-- Streams that accept everything get every piece that counts. -/
theorem run_forward {host : Host remoteSignature σ} (h : Accepts host) (sink : Stream → Stream)
    (messages : List Message) (s : σ) :
    ∃ s', Program.run host (ExceptT.run (forward sink messages none)) s =
      ⟨some (.ok (lastStatus? (counting messages))),
        (outputs (counting messages)).map (delivered sink), s'⟩ := by
  rcases forward_cases host sink messages none s with hwhole | ⟨_, _, _, piece, reason, -, hbreaks⟩
  · rw [Option.or_none] at hwhole
    exact hwhole
  · obtain ⟨s₁, s₂, hrefused⟩ := hbreaks.refused
    obtain ⟨s₃, haccepted⟩ := h (sink piece.1) piece.2 s₁
    cases hrefused.symm.trans haccepted

/-! ## What the streams get -/

/-- The data among messages, put together. -/
def dataOf (messages : List Message) : Bytes :=
  messages.flatMap fun
    | .data octets => octets
    | _ => []

/-- What messages have for the stream for errors, put together. -/
def errorsOf (messages : List Message) : Bytes :=
  messages.flatMap fun
    | .extended stream octets => if stream = errorStream then octets else []
    | _ => []

/-- What messages have for either stream, put together as it came. -/
def wholeOf (messages : List Message) : Bytes := (outputs messages).flatMap (·.2)

theorem writes_delivered (sink : Stream → Stream) (pieces : List (Stream × Bytes)) :
    writes (pieces.map (delivered sink)) = pieces.map fun piece => (sink piece.1, piece.2) := by
  induction pieces with
  | nil => rfl
  | cons piece pieces ih => exact congrArg ((sink piece.1, piece.2) :: ·) ih

theorem onStream_cons (stream : Stream) (piece : Stream × Bytes) (pieces : List (Stream × Bytes)) :
    onStream stream (piece :: pieces) =
      (if piece.1 = stream then piece.2 else []) ++ onStream stream pieces := by
  unfold onStream
  rw [List.filter_cons]
  by_cases h : piece.1 = stream
  · simp only [h, decide_true, if_true, List.flatMap_cons]
  · simp only [h, decide_false, Bool.false_eq_true, if_false, List.nil_append]

/-- Each stream's part of the output is what the messages of its kind carry. -/
theorem onStream_outputs (messages : List Message) :
    onStream .out (outputs messages) = dataOf messages ∧
      onStream .err (outputs messages) = errorsOf messages := by
  induction messages with
  | nil => exact ⟨rfl, rfl⟩
  | cons message messages ih =>
    obtain ⟨hout, herr⟩ := ih
    unfold dataOf errorsOf at *
    rw [outputs_cons, List.flatMap_cons, List.flatMap_cons]
    cases message with
    | data octets =>
      refine ⟨?_, ?_⟩
      · exact (onStream_cons _ _ _).trans (congrArg (octets ++ ·) hout)
      · exact (onStream_cons _ _ _).trans herr
    | extended number octets =>
      by_cases hn : number = errorStream
      · simp only [Message.output?, if_pos hn, Option.toList_some, List.singleton_append,
          onStream_cons]
        exact ⟨hout, congrArg (octets ++ ·) herr⟩
      · simp only [Message.output?, if_neg hn, Option.toList_none, List.nil_append]
        exact ⟨hout, herr⟩
    | exitStatus | exitSignal | eof | close | other => exact ⟨hout, herr⟩

/-- One stream for everything gets it as it came. -/
theorem onStream_joined (pieces : List (Stream × Bytes)) :
    onStream .out (pieces.map fun piece => (.out, piece.2)) = pieces.flatMap (·.2) := by
  induction pieces with
  | nil => rfl
  | cons piece pieces ih =>
    rw [List.map_cons, onStream_cons, if_pos rfl, ih, List.flatMap_cons]

/-- Capturing keeps everything as it came. -/
theorem collect_eq (messages : List Message) (sofar : Collected) :
    collect messages sofar =
      ⟨sofar.output ++ wholeOf (counting messages),
        (lastStatus? (counting messages)).or sofar.status⟩ := by
  unfold wholeOf
  induction messages generalizing sofar with
  | nil => simp only [collect, counting, List.takeWhile_nil, outputs, List.filterMap_nil,
      List.flatMap_nil, List.append_nil, lastStatus?, List.getLast?_nil, Option.none_or]
  | cons message messages ih =>
    by_cases hclose : message = .close
    · subst hclose
      exact congrArg (Collected.mk · sofar.status) (List.append_nil _).symm
    rw [counting_cons hclose, lastStatus?_cons_or, outputs_cons]
    cases message with
    | data octets =>
      rw [collect, ih, List.append_assoc]
      rfl
    | extended number octets =>
      by_cases hn : number = errorStream
      · rw [collect, if_pos hn, ih, List.append_assoc, Message.output?, if_pos hn]
        rfl
      · rw [collect, if_neg hn, ih, Message.output?, if_neg hn]
        rfl
    | exitStatus n => rw [collect, ih]; rfl
    | exitSignal => rw [collect, ih]; rfl
    | eof => rw [collect, ih]; rfl
    | close => exact absurd rfl hclose
    | other => rw [collect, ih]; rfl

/-! ## Commands -/

section Commands

variable {α β : Type} {host : Host remoteSignature σ} {s s' : σ} {addresses : List Endpoint}
  {key : Bytes} {limit : Duration} {command : String}

/-- What is to be done after a task is done however the task ends. -/
theorem run_ensuring {task : RemoteTask α} {after : Program remoteSignature Unit}
    {result : Except SshError α} {es : List (Event remoteSignature)}
    (h : (Program.run host (ExceptT.run task) s).result = some result)
    (hafter : Program.run host after (Program.run host (ExceptT.run task) s).state =
      ⟨some (), es, s'⟩) :
    Program.run host (ExceptT.run (task.ensuring after)) s =
      ⟨some result, (Program.run host (ExceptT.run task) s).events ++ es, s'⟩ := by
  have hlast : Program.run host (after >>= fun _ => pure result)
      (Program.run host (ExceptT.run task) s).state = ⟨some result, es, s'⟩ := by
    rw [Program.run_bind, hafter]
    exact congrArg (Outcome.mk _ · _) (List.append_nil es)
  have hrun := Program.run_bind host (ExceptT.run task)
    (fun answer => after >>= fun _ => pure answer) s
  rw [h] at hrun
  dsimp only at hrun
  rw [hlast] at hrun
  exact hrun

/-- A task that is cut off is not followed by anything. -/
theorem run_ensuring_of_cut {task : RemoteTask α} {after : Program remoteSignature Unit}
    (h : (Program.run host (ExceptT.run task) s).result = none) :
    Program.run host (ExceptT.run (task.ensuring after)) s =
      ⟨none, (Program.run host (ExceptT.run task) s).events,
        (Program.run host (ExceptT.run task) s).state⟩ := by
  have hrun := Program.run_bind host (ExceptT.run task)
    (fun answer => after >>= fun _ => pure answer) s
  rw [h] at hrun
  exact hrun

/-- Drawing a conclusion from the value of a task changes its result and nothing else. -/
theorem run_concluding (task : RemoteTask α) (conclude : α → Except SshError β) :
    Program.run host (ExceptT.run (task >>= fun a => RemoteTask.ofExcept (conclude a))) s =
      ⟨(Program.run host (ExceptT.run task) s).result.map (·.bind conclude),
        (Program.run host (ExceptT.run task) s).events,
        (Program.run host (ExceptT.run task) s).state⟩ := by
  have hrun := Program.run_bind host (ExceptT.run task)
    (ExceptT.bindCont fun a => RemoteTask.ofExcept (conclude a)) s
  refine (show Program.run host (ExceptT.run (task >>= fun a => RemoteTask.ofExcept (conclude a))) s
    = _ from hrun).trans ?_
  rcases (Program.run host (ExceptT.run task) s).result with _ | e | a
  · rfl
  · exact congrArg (Outcome.mk _ · _) (List.append_nil _)
  · exact congrArg (Outcome.mk _ · _) (List.append_nil _)

/-- To judge by the status alone is to forget the output. -/
theorem judging_eq :
    (fun status => RemoteTask.ofExcept (exitResult status "") >>= fun _ => pure ()) =
      fun status => RemoteTask.ofExcept ((exitResult status "").map fun _ => ()) := by
  funext status
  cases exitResult status "" <;> rfl

/-- The result of a task with a connection is that of the task. -/
theorem result_connected {task : RemoteTask α}
    (h : host.answer (.dial addresses key limit) s = (.ok (), s')) :
    (Program.run host (ExceptT.run (connected addresses key limit task)) s).result =
      (Program.run host (ExceptT.run task) s').result := by
  have hrun : Program.run host (ExceptT.run (connected addresses key limit task)) s =
      (Program.run host (ExceptT.run
        (task.ensuring (Program.ask (S := remoteSignature) .hangUp))) s').behind
        [⟨.dial addresses key limit, .ok ()⟩] := run_ask_bind h _
  refine (congrArg Outcome.result hrun).trans ?_
  cases hresult : (Program.run host (ExceptT.run task) s').result with
  | none => exact congrArg Outcome.result (run_ensuring_of_cut hresult)
  | some result => exact congrArg Outcome.result (run_ensuring hresult rfl)

/-- A guest is reached, and it answers a command with some messages. -/
def Answers (host : Host remoteSignature σ) (command : String) (addresses : List Endpoint)
    (key : Bytes) (limit : Duration) (messages : List Message) (s s' : σ) : Prop :=
  ∃ dialled, host.answer (.dial addresses key limit) s = (.ok (), dialled) ∧
    host.answer (.exec command) dialled = (.ok messages, s')

/-- A command that is streamed goes by what passing its messages on comes to. -/
theorem result_run {messages : List Message}
    (h : Answers host command addresses key limit messages s s') :
    (Program.run host (ExceptT.run (run command addresses key limit)) s).result =
      (Program.run host (ExceptT.run (relay messages none)) s').result.map
        (·.bind fun status => (exitResult status "").map fun _ => ()) := by
  obtain ⟨dialled, hdial, hexec⟩ := h
  have hbody : (Program.run host (ExceptT.run (do
      let messages ← RemoteTask.ofExcept (← RemoteTask.ask (.exec command))
      relay messages none)) dialled).result =
      (Program.run host (ExceptT.run (relay messages none)) s').result :=
    (congrArg Outcome.result (run_ask_bind hexec _)).trans rfl
  unfold run
  rw [judging_eq, run_concluding]
  exact congrArg (Option.map _) ((result_connected hdial).trans hbody)

/-- A command that is captured goes by what its messages add up to. -/
theorem result_capture {messages : List Message}
    (h : Answers host command addresses key limit messages s s') :
    (Program.run host (ExceptT.run (capture command addresses key limit)) s).result =
      some (collect messages {}).result := by
  obtain ⟨dialled, hdial, hexec⟩ := h
  have hbody : (Program.run host (ExceptT.run (do
      let messages ← RemoteTask.ofExcept (← RemoteTask.ask (.exec command))
      return collect messages {})) dialled).result = some (.ok (collect messages {})) :=
    congrArg Outcome.result (run_ask_bind hexec _)
  unfold capture
  rw [run_concluding]
  exact congrArg (Option.map _) ((result_connected hdial).trans hbody)

end Commands

/-- How a command ends by its last status, streamed and captured. -/
structure Concluded (last : Option UInt32) (whole : String)
    (streamed : Option (Except SshError Unit)) (captured : Option (Except SshError String)) :
    Prop where
  streamed_ok : streamed = some (.ok ()) ↔ last = some 0
  captured_ok : (∃ text, captured = some (.ok text)) ↔ last = some 0
  text : last = some 0 → captured = some (.ok whole)
  failed : ∀ n, n ≠ 0 → last = some n → streamed = some (.error (.exitStatus n "")) ∧
    captured = some (.error (.exitStatus n whole))
  missing : last = none → streamed = some (.error .missingExitStatus) ∧
    captured = some (.error .missingExitStatus)

theorem exitResult_of_ne_zero {n : UInt32} (hn : n ≠ 0) (output : String) :
    exitResult (some n) output = .error (.exitStatus n output) := by
  unfold exitResult
  split
  next h => exact absurd (Option.some.inj h) hn
  next h => rw [Option.some.inj h]
  next h => cases h

/-- What a status means is the same for both. -/
theorem concluded_exitResult (last : Option UInt32) (whole : String) :
    Concluded last whole (some ((exitResult last "").map fun _ => ()))
      (some (exitResult last whole)) := by
  rcases last with _ | n
  · exact ⟨⟨nofun, nofun⟩, ⟨nofun, nofun⟩, nofun, nofun, fun _ => ⟨rfl, rfl⟩⟩
  by_cases hn : n = 0
  · subst hn
    exact ⟨⟨fun _ => rfl, fun _ => rfl⟩, ⟨fun _ => rfl, fun _ => ⟨whole, rfl⟩⟩, fun _ => rfl,
      fun n hn heq => absurd (Option.some.inj heq).symm hn, nofun⟩
  · rw [exitResult_of_ne_zero hn, exitResult_of_ne_zero hn]
    have hzero : some n ≠ some 0 := fun h => hn (Option.some.inj h)
    refine ⟨⟨nofun, fun h => absurd h hzero⟩, ⟨nofun, fun h => absurd h hzero⟩,
      fun h => absurd h hzero, fun m _ heq => ?_, nofun⟩
    rw [← Option.some.inj heq]
    exact ⟨rfl, rfl⟩

/-! ## Both ways agree -/

/-- Why a piece was refused, if it was. -/
def refusal? : Event remoteSignature → Option String
  | ⟨.write _ _, .error reason⟩ => some reason
  | _ => none

/-- What the messages of a command come to, whichever way its output is taken. Those messages count
that come before the first one that closes the channel. -/
structure OutputAgrees (messages : List Message) : Prop where
  /-- Two streams get what is meant for each of them. -/
  streamed : ∀ {σ : Type} (host : Host remoteSignature σ) (s : σ), Accepts host →
    let outcome := Program.run host (ExceptT.run (relay messages none)) s
    outcome.result = some (.ok (lastStatus? (counting messages))) ∧
      writes outcome.events = outputs (counting messages) ∧
      onStream .out (writes outcome.events) = dataOf (counting messages) ∧
      onStream .err (writes outcome.events) = errorsOf (counting messages)
  /-- One stream gets the same pieces, in the order in which they came. -/
  joined : ∀ {σ : Type} (host : Host remoteSignature σ) (s : σ), Accepts host →
    let outcome := Program.run host (ExceptT.run (forward (fun _ => .out) messages none)) s
    outcome.result = some (.ok (lastStatus? (counting messages))) ∧
      writes outcome.events = (outputs (counting messages)).map (fun piece => (.out, piece.2)) ∧
      onStream .out (writes outcome.events) = wholeOf (counting messages)
  /-- A capture is what one stream gets. -/
  captured : collect messages {} =
    ⟨wholeOf (counting messages), lastStatus? (counting messages)⟩
  /-- Streaming to two streams is passing on with the pieces kept apart. -/
  apart : relay messages none = forward id messages none
  /-- With one stream or two: when a piece is refused, that is the error, whatever would have come
  `after`, and what was accepted is just the pieces of the messages before. -/
  refused : ∀ {σ : Type} (host : Host remoteSignature σ) (sink : Stream → Stream) (s : σ),
    ∀ e ∈ (Program.run host (ExceptT.run (forward sink messages none)) s).events,
    ∀ reason, refusal? e = some reason →
    ∃ before message rest piece, messages = before ++ message :: rest ∧ .close ∉ before ∧
      message.output? = some piece ∧ ∀ after,
        let outcome := Program.run host
          (ExceptT.run (forward sink (before ++ message :: after) none)) s
        outcome.result = some (.error (.io reason)) ∧
          outcome.events = (outputs before).map (delivered sink) ++
            [⟨.write (sink piece.1) piece.2, .error reason⟩]
  /-- Run with its output streamed or captured, in whatever surroundings, a command ends alike. -/
  concluded : ∀ {σ σ' : Type} (host : Host remoteSignature σ) (host' : Host remoteSignature σ')
    (command : String) (addresses : List Endpoint) (key : Bytes) (limit : Duration)
    (s s₁ : σ) (s' s₁' : σ'), Accepts host →
    Answers host command addresses key limit messages s s₁ →
    Answers host' command addresses key limit messages s' s₁' →
    Concluded (lastStatus? (counting messages))
      (Text.Utf8.decodeLossy (wholeOf (counting messages)))
      (Program.run host (ExceptT.run (run command addresses key limit)) s).result
      (Program.run host' (ExceptT.run (capture command addresses key limit)) s').result
  /-- A command that is streamed fails if a piece is refused. -/
  broken : ∀ {σ : Type} (host : Host remoteSignature σ) (command : String)
    (addresses : List Endpoint) (key : Bytes) (limit : Duration) (s s₁ : σ),
    Answers host command addresses key limit messages s s₁ →
    ∀ e ∈ (Program.run host (ExceptT.run (relay messages none)) s₁).events,
    ∀ reason, refusal? e = some reason →
    (Program.run host (ExceptT.run (run command addresses key limit)) s).result =
      some (.error (.io reason))

/-- A refused piece among the events of passing on is where it broke off. -/
theorem breaks_of_refusal {host : Host remoteSignature σ} {sink : Stream → Stream}
    {messages : List Message} {s : σ} {e : Event remoteSignature} {reason : String}
    (he : e ∈ (Program.run host (ExceptT.run (forward sink messages none)) s).events)
    (hreason : refusal? e = some reason) :
    ∃ before message rest piece, messages = before ++ message :: rest ∧
      Breaks host sink none s before message piece reason := by
  have haccepted : ∀ pieces : List (Stream × Bytes), e ∉ pieces.map (delivered sink) := by
    intro pieces hmem
    obtain ⟨piece, -, rfl⟩ := List.mem_map.mp hmem
    exact absurd hreason nofun
  rcases forward_cases host sink messages none s with
    ⟨s', hrun⟩ | ⟨before, message, rest, piece, reason', rfl, hbreaks⟩
  · rw [hrun] at he
    exact absurd he (haccepted _)
  · obtain ⟨s', hends⟩ := hbreaks.ends
    rw [hends rest] at he
    have hlast := List.mem_singleton.mp ((List.mem_append.mp he).resolve_left (haccepted _))
    rw [hlast] at hreason
    obtain rfl : reason' = reason := Option.some.inj hreason
    exact ⟨before, message, rest, piece, rfl, hbreaks⟩

/-- Whatever the messages of a command are, its output is the same whether it is streamed or
captured, and so is what the command comes to. -/
theorem output_agrees (messages : List Message) : OutputAgrees messages where
  streamed host s haccepts := by
    intro outcome
    obtain ⟨s', hrun⟩ := run_forward haccepts id messages s
    rw [← relay_eq_forward] at hrun
    have hwrites : writes outcome.events = outputs (counting messages) := by
      rw [show outcome = _ from hrun]
      exact (writes_delivered id _).trans (List.map_id _)
    obtain ⟨hout, herr⟩ := onStream_outputs (counting messages)
    rw [hwrites]
    exact ⟨congrArg Outcome.result hrun, rfl, hout, herr⟩
  joined host s haccepts := by
    intro outcome
    obtain ⟨s', hrun⟩ := run_forward haccepts (fun _ => .out) messages s
    have hwrites : writes outcome.events =
        (outputs (counting messages)).map fun piece => (.out, piece.2) := by
      rw [show outcome = _ from hrun]
      exact writes_delivered _ _
    rw [hwrites]
    exact ⟨congrArg Outcome.result hrun, rfl, onStream_joined _⟩
  captured := by rw [collect_eq, Option.or_none]; rfl
  apart := relay_eq_forward messages none
  refused host sink s e he reason hreason := by
    obtain ⟨before, message, rest, piece, rfl, hbreaks⟩ := breaks_of_refusal he hreason
    obtain ⟨s', hends⟩ := hbreaks.ends
    refine ⟨before, message, rest, piece, rfl, hbreaks.still, hbreaks.has, fun after => ?_⟩
    exact ⟨congrArg Outcome.result (hends after), congrArg Outcome.events (hends after)⟩
  concluded host host' command addresses key limit s s₁ s' s₁' haccepts hstreams hcaptures := by
    obtain ⟨_, hrun⟩ := run_forward haccepts id messages s₁
    have hcollected : collect messages {} = _ := collect_eq messages {}
    rw [result_run hstreams, relay_eq_forward, hrun, result_capture hcaptures, hcollected,
      Option.or_none]
    exact concluded_exitResult _ _
  broken host command addresses key limit s s₁ hstreams e he reason hreason := by
    rw [relay_eq_forward] at he
    obtain ⟨before, message, rest, piece, rfl, hbreaks⟩ := breaks_of_refusal he hreason
    obtain ⟨s', hends⟩ := hbreaks.ends
    rw [result_run hstreams, relay_eq_forward, hends rest]
    rfl

/-- A command whose output goes on after the end of its input, and that tells of two statuses before
the channel is closed and of one after it. -/
def chatty : Timetable where
  supply :=
    { messages := [.data [104], .eof, .extended 2 [63], .exitStatus 1, .extended 1 [33],
        .data [105], .exitStatus 3, .close, .data [0], .exitStatus 0] }
  turns := []

/-- The host that keeps to a timetable, and whose streams have room for so many pieces only. -/
def filling : Host remoteSignature (Timetable × Nat) where
  answer
    | .write _ _, (t, 0) => (.error "No space left on device", t, 0)
    | .write _ _, (t, room + 1) => (.ok (), t, room)
    | c, (t, room) => ((timetabled.answer c t).1, (timetabled.answer c t).2, room)

theorem output_agrees_chatty :
    Accepts timetabled ∧
      Answers timetabled "some-command" [] [] ⟨0⟩ chatty.supply.messages chatty chatty ∧
      (Program.run timetabled (ExceptT.run (run "some-command" [] [] ⟨0⟩)) chatty).result =
        some (.error (.exitStatus 3 "")) ∧
      (Program.run timetabled (ExceptT.run (capture "some-command" [] [] ⟨0⟩)) chatty).result =
        some (.error (.exitStatus 3 "h!i")) ∧
      (Program.run filling (ExceptT.run (run "some-command" [] [] ⟨0⟩)) (chatty, 2)).result =
        some (.error (.io "No space left on device")) := by
  have haccepts : Accepts timetabled := fun _ _ t => ⟨t, rfl⟩
  have hanswers : Answers timetabled "some-command" [] [] ⟨0⟩ chatty.supply.messages chatty
    chatty := ⟨chatty, rfl, rfl⟩
  have hagrees := output_agrees chatty.supply.messages
  obtain ⟨hstreamed, hcaptured⟩ := (hagrees.concluded timetabled timetabled "some-command" [] [] ⟨0⟩
    chatty chatty chatty chatty haccepts hanswers hanswers).failed 3 (by decide) rfl
  have hbroken := hagrees.broken filling "some-command" [] [] ⟨0⟩ (chatty, 2) (chatty, 2)
    ⟨(chatty, 2), rfl, rfl⟩ ⟨.write .out [105], .error "No space left on device"⟩
    (List.mem_cons_of_mem _ (List.mem_cons_of_mem _ List.mem_cons_self)) _ rfl
  exact ⟨haccepts, hanswers, hstreamed, hcaptured, hbroken⟩

end DevVm.Ssh
