import DevVm.Text.Utf8

/-!
# Input that nobody waits for

The user's input is read by a reader of its own, so that a session can end while the reader
still waits for a key. The reader puts what it reads into a queue of sixteen pieces, and
whoever reads the input takes it from there, piece by piece and at most as many octets at
a time as there is room for.

`advance?` is one step of the reader, and `poll` one attempt to read. They may come in any
order; `settled` is what there is once the reader can do nothing more.
-/

namespace DevVm.Ssh

/-- What the source of the input answers the reader with. No octets are the end. -/
inductive Reading where
  | octets (content : Bytes)
  | interrupted
  | failed (reason : String)
deriving DecidableEq, Repr

/-- A piece in the queue: some octets, or the failure that ends the input. -/
abbrev Piece := Except String Bytes

/-- What the reader is doing. -/
inductive ReaderPhase where
  | reading
  | handing (piece : Piece)
  /-- The failure has been handed over. -/
  | failed
  | stopped

/-- How many octets the reader takes at most. -/
def chunkLimit : Nat := 4096

/-- How many pieces the queue holds. -/
def pieceCapacity : Nat := 16

/-- Input in progress: what the source still has, the reader, the queue, and the rest of
the piece that is being handed out. -/
structure InputFeed where
  source : List Reading
  reader : ReaderPhase := .reading
  queue : List Piece := []
  current : Bytes := []

namespace InputFeed

/-- What the reader does after it has handed a piece over. -/
def afterPiece : Piece → ReaderPhase
  | .ok _ => .reading
  | .error _ => .failed

/-- The reader's next step, if it can take one. An interruption is as if nothing had
happened. -/
def advance? (s : InputFeed) : Option InputFeed :=
  match s.reader with
  | .stopped => none
  | .failed => some { s with reader := .stopped }
  | .handing piece =>
    if s.queue.length < pieceCapacity then
      some { s with reader := afterPiece piece, queue := s.queue ++ [piece] }
    else none
  | .reading =>
    match s.source with
    | [] | .octets [] :: _ => some { s with reader := .stopped }
    | .interrupted :: more => some { s with source := more }
    | .failed reason :: more => some { s with source := more, reader := .handing (.error reason) }
    | .octets (b :: content) :: more =>
      let piece := (b :: content).take chunkLimit
      let rest := (b :: content).drop chunkLimit
      some { s with
        source := if rest = [] then more else .octets rest :: more
        reader := .handing (.ok piece) }

/-- An attempt to read: there is nothing yet, or there are some octets, of which there are
none only at the end or without room, or the input has failed. -/
inductive Poll where
  | pending
  | ready (octets : Bytes)
  | failed (reason : String)
deriving DecidableEq, Repr

/-- Takes the next piece from the queue, past empty ones. -/
def takePiece (room : Nat) (s : InputFeed) : List Piece → Poll × InputFeed
  | .ok (b :: piece) :: more =>
    (.ready ((b :: piece).take room),
      { s with current := (b :: piece).drop room, queue := more })
  | .ok [] :: more => takePiece room s more
  | .error reason :: more => (.failed reason, { s with queue := more })
  | [] =>
    match s.reader with
    | .stopped => (.ready [], { s with queue := [] })
    | .reading | .handing _ | .failed => (.pending, { s with queue := [] })

/-- Reads as many octets as there is room for, from one piece. -/
def poll (room : Nat) (s : InputFeed) : Poll × InputFeed :=
  match s.current with
  | [] => takePiece room s s.queue
  | octets => (.ready (octets.take room), { s with current := octets.drop room })

/-- How much there is left to do for the reader with what the source has. -/
def sourceWork : List Reading → Nat
  | [] => 0
  | .octets content :: more => 2 * content.length + 2 + sourceWork more
  | .interrupted :: more | .failed _ :: more => 2 + sourceWork more

/-- How much there is left to do for the reader. -/
def work (s : InputFeed) : Nat :=
  sourceWork s.source + match s.reader with
    | .handing _ => 2
    | .reading | .failed => 1
    | .stopped => 0

/-- Every step leaves less to do. -/
theorem work_lt_of_advance? {s t : InputFeed} (h : s.advance? = some t) :
    t.work < s.work := by
  unfold advance? at h
  split at h
  · exact absurd h nofun
  · rename_i hr
    cases h
    simp [work, hr]
  · rename_i piece hr
    split at h
    · cases h
      cases piece <;> simp [work, hr, afterPiece]
    · exact absurd h nofun
  · rename_i hr
    split at h <;> cases h
    · simp [work, hr]
    · simp [work, hr]
    · rename_i hs
      simp [work, hr, hs, sourceWork]
    · rename_i hs
      simp only [work, hr, hs, sourceWork]
      omega
    · rename_i hs
      simp only [work, hr, hs]
      split
      · simp only [sourceWork, List.length_cons]
        omega
      · simp only [sourceWork, List.length_drop, List.length_cons, chunkLimit]
        omega

/-- What there is once the reader can do nothing more. -/
def settled (s : InputFeed) : InputFeed :=
  match _next : s.advance? with
  | none => s
  | some t => settled t
termination_by s.work
decreasing_by exact work_lt_of_advance? _next

/-- An attempt to read once the reader can do nothing more. -/
def read (room : Nat) (s : InputFeed) : Poll × InputFeed := s.settled.poll room

end InputFeed

end DevVm.Ssh
