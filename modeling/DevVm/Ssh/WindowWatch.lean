import DevVm.Ssh.Remote

/-!
# Watching the window

While a session runs, a watcher takes the signals that tell of a change of the window and
hands the new sizes to the session through a queue of four. When the queue is full, the
watcher waits. After the session, the signals are shut off and the watcher is waited for,
while the queue is still there.

`Watch.step?` is one move of one of the parties, if it can make that move.
-/

namespace DevVm.Ssh

/-- How many sizes the queue holds. -/
def queueCapacity : Nat := 4

/-- What the watcher is doing: waiting for a signal, handing over a size, or nothing any
more. -/
inductive Watcher where
  | waiting
  | handing (size : WindowSize)
  | done
deriving DecidableEq, Repr

/-- How far the session is: it takes sizes from the queue, it has ended, it waits for the
watcher, or it has been left for good. -/
inductive Progress where
  | exchanging
  | ended
  | joining
  | left
deriving DecidableEq, Repr

/-- The parties. Signals that came and have not been taken are counted. -/
structure Watch where
  signals : Nat := 0
  shutOff : Bool := false
  watcher : Watcher := .waiting
  queue : List WindowSize := []
  progress : Progress := .exchanging
deriving DecidableEq, Repr

/-- The moves. -/
inductive Move where
  /-- A signal comes. -/
  | signal
  /-- The watcher takes a signal and finds the terminal's size, if there is a terminal. -/
  | take (size : Option WindowSize)
  /-- The watcher sees that the signals have been shut off. -/
  | notice
  /-- The watcher puts a size into the queue. -/
  | hand
  /-- The session takes a size from the queue. -/
  | receive
  /-- The session ends. -/
  | finish
  /-- The signals are shut off. -/
  | shut
  /-- The watcher is found to be done. -/
  | join
deriving DecidableEq, Repr

/-- A move, if it can be made. -/
def Watch.step? (w : Watch) : Move → Option Watch
  | .signal => some { w with signals := w.signals + 1 }
  | .take size =>
    if w.watcher = .waiting ∧ !w.shutOff ∧ 0 < w.signals then
      some { w with
        signals := w.signals - 1
        watcher := match size with
          | some size => .handing size
          | none => .waiting }
    else none
  | .notice => if w.watcher = .waiting ∧ w.shutOff then some { w with watcher := .done } else none
  | .hand =>
    match w.watcher with
    | .handing size =>
      if w.queue.length < queueCapacity then
        some { w with watcher := .waiting, queue := w.queue ++ [size] }
      else none
    | .waiting | .done => none
  | .receive =>
    match w.progress, w.queue with
    | .exchanging, _ :: rest => some { w with queue := rest }
    | _, _ => none
  | .finish => if w.progress = .exchanging then some { w with progress := .ended } else none
  | .shut =>
    if w.progress = .ended then some { w with progress := .joining, shutOff := true } else none
  | .join =>
    if w.progress = .joining ∧ w.watcher = .done then some { w with progress := .left } else none

/-- The states that moves lead to from the beginning of a session. -/
inductive Watch.Reachable : Watch → Prop where
  | start : Watch.Reachable {}
  | step {w w' : Watch} (move : Move) (before : Watch.Reachable w)
      (moves : w.step? move = some w') : Watch.Reachable w'

end DevVm.Ssh
