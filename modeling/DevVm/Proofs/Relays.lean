import DevVm.Ssh.Exec

/-!
# What a guest's messages come to

Of the messages on a channel those count that come before the one that closes it (`counting`).
What they have for the local streams (`outputs`) and the last status among them (`lastStatus?`)
are all there is to a command that was run: `run_relay` says so of the loop that passes them on
as they arrive, where everything that is written is accepted.
-/

namespace DevVm

/-- What becomes of a program that has already made some calls. -/
def Outcome.behind {S : Signature} {σ α : Type} (o : Outcome S σ α) (es : List (Event S)) :
    Outcome S σ α :=
  { o with events := es ++ o.events }

namespace Ssh

variable {σ α : Type}

/-! ## Messages -/

/-- The messages that count. -/
def counting (messages : List Message) : List Message := messages.takeWhile (· ≠ .close)

/-- The local stream that a message is for, and what it has for that stream. -/
def Message.output? : Message → Option (Stream × Bytes)
  | .data octets => some (.out, octets)
  | .extended stream octets => if stream = errorStream then some (.err, octets) else none
  | .exitStatus _ | .exitSignal | .eof | .close | .other => none

/-- What messages have for the local streams, in order. -/
def outputs (messages : List Message) : List (Stream × Bytes) := messages.filterMap Message.output?

/-- The status that a message tells of. -/
def Message.status? : Message → Option UInt32
  | .exitStatus n => some n
  | .data _ | .extended _ _ | .exitSignal | .eof | .close | .other => none

/-- The last status among messages. -/
def lastStatus? (messages : List Message) : Option UInt32 :=
  (messages.filterMap Message.status?).getLast?

/-- What is meant for one stream, put together. -/
def onStream (stream : Stream) (pieces : List (Stream × Bytes)) : Bytes :=
  (pieces.filter (·.1 = stream)).flatMap (·.2)

theorem counting_cons {message : Message} (h : message ≠ .close) (messages : List Message) :
    counting (message :: messages) = message :: counting messages :=
  List.takeWhile_cons_of_pos (decide_eq_true h)

/-- A message that has something for a stream does not close the channel. -/
theorem Message.ne_close_of_output? {message : Message} {piece : Stream × Bytes}
    (h : message.output? = some piece) : message ≠ .close := by
  rintro rfl
  exact absurd h nofun

/-- A message that has something for a stream tells of no status. -/
theorem Message.status?_of_output? {message : Message} {piece : Stream × Bytes}
    (h : message.output? = some piece) : message.status? = none := by
  cases message with
  | data octets => rfl
  | extended stream octets => rfl
  | exitStatus n => exact absurd h nofun
  | exitSignal => exact absurd h nofun
  | eof => exact absurd h nofun
  | close => exact absurd h nofun
  | other => exact absurd h nofun

theorem outputs_cons (message : Message) (messages : List Message) :
    outputs (message :: messages) = message.output?.toList ++ outputs messages := by
  unfold outputs
  rw [List.filterMap_cons]
  cases message.output? <;> rfl

/-- The status of the first message counts as long as no other follows it. -/
theorem lastStatus?_cons_or (message : Message) (messages : List Message)
    (status : Option UInt32) :
    (lastStatus? (message :: messages)).or status =
      (lastStatus? messages).or (message.status?.or status) := by
  unfold lastStatus?
  rw [List.filterMap_cons]
  cases message.status? with
  | none => rfl
  | some n =>
    rw [List.getLast?_cons]
    cases (messages.filterMap Message.status?).getLast? <;> rfl

/-! ## Passing messages on -/

/-- What was written to the local streams, in order. -/
def writes (es : List (Event remoteSignature)) : List (Stream × Bytes) :=
  es.filterMap fun
    | ⟨.write stream octets, _⟩ => some (stream, octets)
    | _ => none

/-- A task that makes a call first goes on as it does after the reply. -/
theorem run_ask_bind {host : Host remoteSignature σ} {c : RemoteCall} {reply : c.Reply} {s s' : σ}
    (h : host.answer c s = (reply, s')) (f : c.Reply → RemoteTask α) :
    Program.run host (ExceptT.run (RemoteTask.ask c >>= f)) s =
      (Program.run host (ExceptT.run (f reply)) s').behind [⟨c, reply⟩] := by
  obtain rfl : (host.answer c s).1 = reply := congrArg Prod.fst h
  obtain rfl : (host.answer c s).2 = s' := congrArg Prod.snd h
  rfl

/-- Where it is accepted, what is written first is all that is added to a task. -/
theorem run_write {host : Host remoteSignature σ} {stream : Stream} {octets : Bytes} {s s' : σ}
    (h : host.answer (.write stream octets) s = (.ok (), s')) (next : RemoteTask α) :
    Program.run host (ExceptT.run (RemoteTask.write stream octets >>= fun _ => next)) s =
      (Program.run host (ExceptT.run next) s').behind [⟨.write stream octets, .ok ()⟩] :=
  run_ask_bind h fun reply => RemoteTask.ofExcept (Except.mapError .io reply) >>= fun _ => next

theorem relay_of_output {message : Message} {stream : Stream} {octets : Bytes}
    (h : message.output? = some (stream, octets)) (more : List Message)
    (status : Option UInt32) :
    relay (message :: more) status =
      RemoteTask.write stream octets >>= fun _ => relay more status := by
  cases message with
  | data _ =>
    cases h
    rfl
  | extended number _ =>
    by_cases hn : number = errorStream
    · rw [Message.output?, if_pos hn] at h
      cases h
      rw [relay, if_pos hn]
    · rw [Message.output?, if_neg hn] at h
      exact absurd h nofun
  | exitStatus n => exact absurd h nofun
  | exitSignal => exact absurd h nofun
  | eof => exact absurd h nofun
  | close => exact absurd h nofun
  | other => exact absurd h nofun

theorem relay_of_quiet {message : Message} (hclose : message ≠ .close)
    (h : message.output? = none) (more : List Message) (status : Option UInt32) :
    relay (message :: more) status = relay more (message.status?.or status) := by
  cases message with
  | data _ => exact absurd h nofun
  | extended number _ =>
    by_cases hn : number = errorStream
    · rw [Message.output?, if_pos hn] at h
      exact absurd h nofun
    · rw [relay, if_neg hn]
      rfl
  | exitStatus n => rfl
  | exitSignal => rfl
  | eof => rfl
  | close => exact absurd rfl hclose
  | other => rfl

/-- Where everything that is written is accepted, a command has written what the messages that
count have for the streams and nothing else, and has come to the last status among them. -/
theorem run_relay {host : Host remoteSignature σ}
    (haccepts : ∀ stream octets s, ∃ s', host.answer (.write stream octets) s = (.ok (), s'))
    (messages : List Message) (status : Option UInt32) (s : σ) :
    (Program.run host (ExceptT.run (relay messages status)) s).result =
        some (.ok ((lastStatus? (counting messages)).or status)) ∧
      writes (Program.run host (ExceptT.run (relay messages status)) s).events =
        outputs (counting messages) := by
  induction messages generalizing status s with
  | nil => exact ⟨rfl, rfl⟩
  | cons message messages ih =>
    by_cases hclose : message = .close
    · subst hclose
      exact ⟨rfl, rfl⟩
    rw [counting_cons hclose, lastStatus?_cons_or, outputs_cons]
    cases hout : message.output? with
    | none =>
      rw [relay_of_quiet hclose hout]
      exact ih _ s
    | some piece =>
      obtain ⟨stream, octets⟩ := piece
      obtain ⟨s', hs'⟩ := haccepts stream octets s
      obtain ⟨hresult, hwrites⟩ := ih status s'
      rw [relay_of_output hout, run_write hs', Message.status?_of_output? hout]
      exact ⟨hresult, congrArg ((stream, octets) :: ·) hwrites⟩

end Ssh

end DevVm
