import DevVm.Ssh.Dial

/-!
# The contest between addresses, move by move

`race` says at once what comes of dialling several addresses. Here it goes on move by move:
each address has a dialler of its own, and whoever waits for a connection looks at the
diallers that are through, one after the other, until it has a connection, no dialler is left
or the time is up.

Time passes up to the next thing that is due and not beyond it; what is due at the same time
happens in any order. `Contest.step?` is one move of one of the parties, if it can make that
move.
-/

namespace DevVm.Ssh

/-- What a dialler is doing: it makes an attempt or pauses after one, with more attempts to
come, or it is through. One that has crashed is gone once that has been seen. -/
inductive DialPhase where
  | dialling (since : Nat) (schedule : List Attempt)
  | pausing (ends : Nat) (schedule : List Attempt)
  | connected
  | crashed
  | gone
deriving DecidableEq, Repr

/-- What a dialler does when an attempt has ended. -/
def Ending.phase (now : Nat) (more : List Attempt) : Ending → DialPhase
  | .connected => .connected
  | .crashed => .crashed
  | .refused | .handshakeFailed | .keyRejected => .pausing (now + retryInterval.nanos) more

/-- A dialler: how the attempts at its address end, when it has begun attempts, and what it is
doing. -/
structure Dialler where
  schedule : List Attempt
  begun : List Nat
  phase : DialPhase
deriving DecidableEq, Repr

namespace Dialler

/-- A dialler that makes its first attempt. -/
def start (schedule : List Attempt) : Dialler := ⟨schedule, [0], .dialling 0 schedule⟩

/-- When something is due for the dialler. -/
def due? (d : Dialler) : Option Nat :=
  match d.phase with
  | .dialling since (attempt :: _) => some (since + attempt.length.nanos)
  | .pausing ends _ => some ends
  | .dialling _ [] | .connected | .crashed | .gone => none

/-- The dialler is through, and nobody has looked at it. -/
def through (d : Dialler) : Bool := d.phase = .connected || d.phase = .crashed

/-- What is due now: an attempt ends, or the next one begins. -/
def act? (now : Nat) (d : Dialler) : Option Dialler :=
  match d.phase with
  | .dialling since (attempt :: more) =>
    if now = since + attempt.length.nanos then
      some { d with phase := attempt.ending.phase now more }
    else none
  | .pausing ends schedule =>
    if now = ends then
      some { d with begun := d.begun ++ [now], phase := .dialling now schedule }
    else none
  | .dialling _ [] | .connected | .crashed | .gone => none

/-- Time can pass up to then as far as the dialler is concerned. -/
def lets (time : Nat) (d : Dialler) : Bool := !d.through && d.due?.all (time ≤ ·)

end Dialler

/-- A contest: the limit, the time since it began, the diallers, and what came of it, if it is
over. -/
structure Contest where
  limit : Duration
  now : Nat := 0
  diallers : List Dialler
  result? : Option (Except SshError Unit) := none

namespace Contest

/-- The moves. -/
inductive Move where
  /-- Time passes. -/
  | pass (time : Nat)
  /-- A dialler does what is due. -/
  | act (i : Nat)
  /-- A dialler is found to be through. -/
  | look (i : Nat)
  /-- No dialler is left. -/
  | giveUp
  /-- The time is up. -/
  | expire
deriving DecidableEq, Repr

/-- The contest between some addresses, when it begins. -/
def start (limit : Duration) (schedules : List (List Attempt)) : Contest :=
  { limit, diallers := schedules.map Dialler.start }

/-- A move, if it can be made. When the contest is over, the diallers are stopped. -/
def step? (c : Contest) (move : Move) : Option Contest :=
  if c.result?.isSome then none
  else match move with
    | .pass time =>
      if c.now < time ∧ time ≤ c.limit.nanos ∧
          (∀ d ∈ c.diallers, d.lets time) ∧ ∃ d ∈ c.diallers, d.phase ≠ .gone then
        some { c with now := time }
      else none
    | .act i => do
      let d ← c.diallers[i]?
      let d' ← d.act? c.now
      return { c with diallers := c.diallers.set i d' }
    | .look i => do
      let d ← c.diallers[i]?
      match d.phase with
      | .connected => some { c with result? := some (.ok ()) }
      | .crashed => some { c with diallers := c.diallers.set i { d with phase := .gone } }
      | .dialling .. | .pausing .. | .gone => none
    | .giveUp =>
      if ∀ d ∈ c.diallers, d.phase = .gone then
        some { c with result? := some (.error (.timeout c.limit)) }
      else none
    | .expire =>
      if c.now = c.limit.nanos then some { c with result? := some (.error (.timeout c.limit)) }
      else none

/-- The contests that moves lead to. -/
inductive Reachable (limit : Duration) (schedules : List (List Attempt)) : Contest → Prop where
  | start : Reachable limit schedules (start limit schedules)
  | step {c c' : Contest} (move : Move) (before : Reachable limit schedules c)
      (moves : c.step? move = some c') : Reachable limit schedules c'

end Contest

end DevVm.Ssh
