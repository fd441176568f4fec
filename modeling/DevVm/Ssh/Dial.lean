import DevVm.Ssh.Error
import DevVm.Text.Utf8

/-!
# Dialling several addresses at once

A guest may answer at any of several addresses, and only once it has booted. All of them
are dialled at the same time, each again a second after every attempt that failed, and the
first attempt that gets through wins. How an attempt fails does not matter; only the time
limit ends the race without a winner.

The key is read before anything is dialled. Which texts are keys is up to the reader that
`connect` is given.

Times are nanoseconds since the race began.
-/

namespace DevVm.Ssh

/-- How an attempt ends. One that crashes is not made again. -/
inductive Ending where
  | refused
  | handshakeFailed
  | keyRejected
  | crashed
  | connected
deriving DecidableEq, Repr

/-- One attempt at an address. -/
structure Attempt where
  length : Duration
  ending : Ending
deriving DecidableEq, Repr

/-- The pause between two attempts at an address. -/
def retryInterval : Duration := .ofSeconds 1

/-- What becomes of dialling one address, if it is let go on. -/
inductive Dialled where
  | connected (time : Nat)
  | crashed (time : Nat)
  | never
deriving DecidableEq, Repr

/-- What becomes of an address whose attempts end as listed. The attempt after the last
one listed never ends. -/
def dialled (start : Nat) : List Attempt → Dialled
  | [] => .never
  | attempt :: more =>
    let time := start + attempt.length.nanos
    match attempt.ending with
    | .connected => .connected time
    | .crashed => .crashed time
    | .refused | .handshakeFailed | .keyRejected => dialled (time + retryInterval.nanos) more

/-- When the attempts at an address begin, if it is let go on. -/
def begins (start : Nat) : List Attempt → List Nat
  | [] => [start]
  | attempt :: more =>
    start :: match attempt.ending with
      | .connected | .crashed => []
      | .refused | .handshakeFailed | .keyRejected =>
        begins (start + attempt.length.nanos + retryInterval.nanos) more

/-- When an address got through, if it did. -/
def Dialled.connectedAt? : Dialled → Option Nat
  | connected time => some time
  | crashed _ | never => none

/-- When dialling an address crashed, if it did. -/
def Dialled.crashedAt? : Dialled → Option Nat
  | crashed time => some time
  | connected _ | never => none

/-- When the last of the addresses was given up, if all of them were. -/
def allCrashedAt? (ends : List Dialled) : Option Nat :=
  (ends.mapM Dialled.crashedAt?).map fun times => times.foldl max 0

/-- What came of a race: its result, and when there was one. -/
structure Race where
  result : Except SshError Unit
  time : Nat

/-- The race between addresses. An attempt has to get through before the limit to count,
and when there is nothing left to wait for, the race is over at once. -/
def race (limit : Duration) (schedules : List (List Attempt)) : Race :=
  let ends := schedules.map (dialled 0)
  match (ends.filterMap Dialled.connectedAt?).min? with
  | some time =>
    if time < limit.nanos then ⟨.ok (), time⟩ else ⟨.error (.timeout limit), limit.nanos⟩
  | none =>
    match allCrashedAt? ends with
    | some time => ⟨.error (.timeout limit), min time limit.nanos⟩
    | none => ⟨.error (.timeout limit), limit.nanos⟩

/-- When the attempts of a race begin, address by address: the first ones at once, and
later ones only while the race goes on. -/
def attempts (limit : Duration) (schedules : List (List Attempt)) : List (List Nat) :=
  let finish := (race limit schedules).time
  schedules.map fun schedule => (begins 0 schedule).filter fun time => time = 0 || time < finish

/-- What came of connecting: the race, and the beginnings of its attempts. -/
structure Connection where
  race : Race
  attempts : List (List Nat)

/-- Connects with a key, as `decode` reads it from the text of its file. With one that is
none, nothing is dialled. -/
def connect {κ : Type} (decode : String → Except String κ) (key : Bytes) (limit : Duration)
    (schedules : List (List Attempt)) : Connection :=
  match decode (Text.Utf8.decodeLossy key) with
  | .ok _ => ⟨race limit schedules, attempts limit schedules⟩
  | .error reason => ⟨⟨.error (.badPrivateKey reason), 0⟩, []⟩

end DevVm.Ssh
