import DevVm.Ssh.InputFeed

/-!
# What reads of an input feed yield

The reader and those who read from the queue take their turns in any order (`InputFeed.Played`).
What is ahead of the next read is then the rest of the piece being handed out, the queue, and
what the reader is still going to put there (`InputFeed.ahead`). A turn of the reader leaves all
of that as it is, and a read that is answered takes its answer from the front
(`InputFeed.poll_cases`).

So what the reads yield is what the source gave, whatever the order of turns and however much
room there was (`InputFeed.Played.answers_faithful`): in order, nothing twice and nothing left
out, and the end or the failure only after that.
-/

namespace DevVm.Ssh

namespace Reading

/-- The octets up to the end or the failure. -/
def content : List Reading → Bytes
  | [] | .octets [] :: _ | .failed _ :: _ => []
  | .octets (b :: rest) :: more => b :: rest ++ content more
  | .interrupted :: more => content more

/-- The failure, if it is one that the octets end with. -/
def failure? : List Reading → Option String
  | [] | .octets [] :: _ => none
  | .failed reason :: _ => some reason
  | .octets (_ :: _) :: more | .interrupted :: more => failure? more

/-- What the source answered, but for the interruptions. -/
def uninterrupted (source : List Reading) : List Reading := source.filter (· ≠ .interrupted)

end Reading

namespace InputFeed

variable {source : List Reading} {s t : InputFeed} {ps : List Piece} {room n : Nat}

/-! ## Pieces -/

/-- Some octets in pieces as large as the reader takes them. -/
def cut (octets : Bytes) : List Bytes :=
  if octets = [] then [] else octets.take chunkLimit :: cut (octets.drop chunkLimit)
termination_by octets.length
decreasing_by
  rename_i h
  have := List.length_pos_iff.mpr h
  simp only [List.length_drop, chunkLimit]
  omega

theorem cut_nil : cut [] = [] := by rw [cut, if_pos rfl]

theorem cut_of_ne_nil {octets : Bytes} (h : octets ≠ []) :
    cut octets = octets.take chunkLimit :: cut (octets.drop chunkLimit) := by
  rw [cut, if_neg h]

/-- The pieces that the reader makes of what the source answers. -/
def pieces : List Reading → List Piece
  | [] | .octets [] :: _ => []
  | .octets (b :: octets) :: more => (cut (b :: octets)).map .ok ++ pieces more
  | .interrupted :: more => pieces more
  | .failed reason :: _ => [.error reason]

/-- The octets in some pieces. -/
def octetsOf (ps : List Piece) : Bytes :=
  ps.flatMap fun
    | .ok piece => piece
    | .error _ => []

/-- The failure among some pieces. -/
def failureOf (ps : List Piece) : Option String :=
  ps.findSome? fun
    | .ok _ => none
    | .error reason => some reason

/-- No piece is empty, and after a failure there is nothing. -/
def Proper : List Piece → Prop
  | [] => True
  | .ok piece :: more => piece ≠ [] ∧ Proper more
  | .error _ :: more => more = []

theorem octetsOf_cut (octets : Bytes) : octetsOf ((cut octets).map .ok) = octets := by
  fun_induction cut octets with
  | case1 => rfl
  | case2 octets h ih => simpa [octetsOf] using congrArg (octets.take chunkLimit ++ ·) ih

theorem octetsOf_pieces (source : List Reading) :
    octetsOf (pieces source) = Reading.content source := by
  fun_induction pieces source with
  | case3 b octets more ih =>
    have happend : octetsOf ((cut (b :: octets)).map .ok ++ pieces more) =
        octetsOf ((cut (b :: octets)).map .ok) ++ octetsOf (pieces more) := List.flatMap_append
    rw [happend, octetsOf_cut, ih, Reading.content]
  | case4 more ih => rw [ih, Reading.content]
  | _ => rfl

theorem failureOf_map_ok (bs : List Bytes) (ps : List Piece) :
    failureOf (bs.map .ok ++ ps) = failureOf ps := by
  induction bs with
  | nil => rfl
  | cons b bs ih => exact ih

theorem failureOf_pieces (source : List Reading) :
    failureOf (pieces source) = Reading.failure? source := by
  fun_induction pieces source with
  | case3 b octets more ih => rw [failureOf_map_ok, ih, Reading.failure?]
  | case4 more ih => rw [ih, Reading.failure?]
  | _ => rfl

theorem proper_cut_append (octets : Bytes) (h : Proper ps) :
    Proper ((cut octets).map .ok ++ ps) := by
  fun_induction cut octets with
  | case1 => exact h
  | case2 octets hne ih =>
    refine ⟨fun hnil => ?_, ih⟩
    rcases List.take_eq_nil_iff.mp hnil with hlimit | hnil
    · exact absurd hlimit (by decide)
    · exact hne hnil

theorem proper_pieces (source : List Reading) : Proper (pieces source) := by
  fun_induction pieces source with
  | case3 b octets more ih => exact proper_cut_append _ ih
  | case4 more ih => exact ih
  | case5 => rfl
  | _ => trivial

/-- Without the interruptions, the pieces are the same. -/
theorem pieces_uninterrupted (source : List Reading) :
    pieces (Reading.uninterrupted source) = pieces source := by
  fun_induction pieces source with
  | case3 b octets more ih => exact congrArg ((cut (b :: octets)).map .ok ++ ·) ih
  | case4 more ih => exact ih
  | _ => rfl

/-! ## Handing pieces out -/

/-- What is left of some pieces after the first `n` octets. -/
def after : Nat → List Piece → List Piece
  | _, [] => []
  | n, .ok piece :: more =>
    if n < piece.length then .ok (piece.drop n) :: more else after (n - piece.length) more
  | _, .error reason :: more => .error reason :: more

/-- How many octets there are in the first piece. -/
def firstSize : List Piece → Nat
  | .ok piece :: _ => piece.length
  | [] | .error _ :: _ => 0

/-- The answer to a read: as much of the first piece as there is room for, the failure, or
nothing at the end. -/
def answer (room : Nat) : List Piece → Poll
  | [] => .ready []
  | .ok piece :: _ => .ready (piece.take room)
  | .error reason :: _ => .failed reason

/-- What is left once that has been answered. -/
def left (ps : List Piece) : Poll → List Piece
  | .pending => ps
  | .ready octets => after octets.length ps
  | .failed _ => []

theorem after_zero (h : Proper ps) : after 0 ps = ps := by
  match ps, h with
  | [], _ => rfl
  | .ok piece :: more, h => rw [after, if_pos (List.length_pos_iff.mpr h.1), List.drop_zero]
  | .error _ :: _, _ => rfl

theorem after_add (m n : Nat) (ps : List Piece) : after (m + n) ps = after n (after m ps) := by
  fun_induction after m ps with
  | case1 => rfl
  | case2 m piece more hlt =>
    simp only [after, List.length_drop, List.drop_drop]
    split <;> split
    · rfl
    · omega
    · omega
    · congr 1
      omega
  | case3 m piece more hge ih =>
    rw [after, if_neg (by omega), ← ih]
    congr 1
    omega
  | case4 => rfl

theorem proper_after (n : Nat) (h : Proper ps) : Proper (after n ps) := by
  fun_induction after n ps with
  | case1 => trivial
  | case2 n piece more hlt => exact ⟨by simpa using hlt, h.2⟩
  | case3 n piece more hge ih => exact ih h.2
  | case4 => exact h

theorem failureOf_after (n : Nat) (ps : List Piece) : failureOf (after n ps) = failureOf ps := by
  fun_induction after n ps with
  | case3 n piece more hge ih => exact ih
  | _ => rfl

theorem octetsOf_after (n : Nat) (h : Proper ps) :
    octetsOf (after n ps) = (octetsOf ps).drop n := by
  fun_induction after n ps with
  | case1 => simp [octetsOf]
  | case2 n piece more hlt =>
    exact (List.drop_append_of_le_length (Nat.le_of_lt hlt)).symm
  | case3 n piece more hge ih =>
    have hdrop : (piece ++ octetsOf more).drop n = (octetsOf more).drop (n - piece.length) := by
      rw [List.drop_append, List.drop_eq_nil_of_le (Nat.le_of_not_lt hge), List.nil_append]
    exact (ih h.2).trans hdrop.symm
  | case4 n reason more =>
    cases h
    exact List.drop_nil.symm

theorem firstSize_eq_zero_iff (h : Proper ps) : firstSize ps = 0 ↔ octetsOf ps = [] := by
  match ps, h with
  | [], _ => exact ⟨fun _ => rfl, fun _ => rfl⟩
  | .error _ :: _, h =>
    cases h
    exact ⟨fun _ => rfl, fun _ => rfl⟩
  | .ok piece :: more, h =>
    refine ⟨fun hsize => absurd (List.length_eq_zero_iff.mp hsize) h.1, fun hnil => ?_⟩
    exact absurd (List.append_eq_nil_iff.mp hnil).1 h.1

/-! ## What is ahead -/

/-- What the reader is still going to put into the queue. -/
def coming (s : InputFeed) : List Piece :=
  match s.reader with
  | .reading => pieces s.source
  | .handing (.ok piece) => .ok piece :: pieces s.source
  | .handing (.error reason) => [.error reason]
  | .failed | .stopped => []

/-- What there is still to be read. -/
def ahead (s : InputFeed) : List Piece :=
  (if s.current = [] then [] else [.ok s.current]) ++ (s.queue ++ s.coming)

/-- The reader makes its pieces of what the source answers as it comes to them. -/
theorem pieces_octets (b : UInt8) (octets : Bytes) (more : List Reading) :
    pieces (.octets (b :: octets) :: more) =
      .ok ((b :: octets).take chunkLimit) ::
        pieces (if (b :: octets).drop chunkLimit = [] then more
          else .octets ((b :: octets).drop chunkLimit) :: more) := by
  rw [pieces, cut_of_ne_nil (by simp), List.map_cons, List.cons_append]
  split
  · rename_i hnil
    rw [hnil, cut_nil]
    rfl
  · rename_i hne
    obtain ⟨c, rest, hc⟩ := List.exists_cons_of_ne_nil hne
    rw [hc, pieces]

/-- The reader's steps leave what there is to be read as it is. -/
theorem ahead_of_advance? (h : s.advance? = some t) : t.ahead = s.ahead := by
  obtain ⟨source, reader, queue, current⟩ := s
  cases reader with
  | stopped => cases h
  | failed => cases h; rfl
  | handing piece =>
    simp only [advance?, Option.ite_none_right_eq_some, Option.some.injEq] at h
    obtain ⟨-, rfl⟩ := h
    cases piece <;> simp [ahead, coming, afterPiece]
  | reading =>
    cases source with
    | nil => cases h; rfl
    | cons first more =>
      cases first with
      | interrupted => cases h; rfl
      | failed reason => cases h; rfl
      | octets octets =>
        cases octets with
        | nil => cases h; rfl
        | cons b octets =>
          cases h
          simp only [ahead, coming, pieces_octets]

theorem left_ok (piece : Bytes) (h : Proper ps) (room : Nat) :
    left (.ok piece :: ps) (.ready (piece.take room)) =
      (if piece.drop room = [] then [] else [.ok (piece.drop room)]) ++ ps := by
  rw [left, after, List.length_take]
  by_cases hroom : piece.length ≤ room
  · rw [if_neg (by omega), if_pos (List.drop_eq_nil_of_le hroom), Nat.min_eq_right hroom,
      Nat.sub_self, after_zero h, List.nil_append]
  · rw [if_pos (by omega), if_neg (by simpa using hroom), Nat.min_eq_left (by omega)]
    rfl

/-- A read is answered from the front of what is ahead, unless there is nothing yet; then the
reader can take a step. -/
theorem poll_cases (h : Proper s.ahead) (room : Nat) :
    (s.poll room = (.pending, s) ∧ ∃ t, s.advance? = some t) ∨
      (s.poll room).1 = answer room s.ahead ∧
        (s.poll room).2.ahead = left s.ahead (answer room s.ahead) := by
  obtain ⟨source, reader, queue, current⟩ := s
  match current, queue, h with
  | b :: rest, queue, h => exact .inr ⟨rfl, (left_ok (b :: rest) h.2 room).symm⟩
  | [], .ok [] :: more, h => exact absurd rfl h.1
  | [], .ok (b :: piece) :: more, h =>
    exact .inr ⟨rfl, (left_ok (b :: piece) h.2 room).symm⟩
  | [], .error reason :: more, h => exact .inr ⟨rfl, h⟩
  | [], [], h =>
    cases reader with
    | stopped => exact .inr ⟨rfl, rfl⟩
    | failed => exact .inl ⟨rfl, _, rfl⟩
    | handing piece => exact .inl ⟨rfl, _, rfl⟩
    | reading =>
      refine .inl ⟨rfl, ?_⟩
      match source with
      | [] | .octets [] :: _ | .interrupted :: _ | .failed _ :: _ | .octets (_ :: _) :: _ =>
        exact ⟨_, rfl⟩

/-! ## Any order of turns -/

/-- The octets of an answer. -/
def Poll.octets : Poll → Bytes
  | .ready octets => octets
  | .pending | .failed _ => []

/-- An attempt to read, with its answer. -/
structure Attempt where
  room : Nat
  answer : Poll

/-- The octets that some attempts have yielded. -/
def got (log : List Attempt) : Bytes := log.flatMap (·.answer.octets)

/-- One of the attempts has been answered with a failure. -/
def Failed (log : List Attempt) : Prop := ∃ a ∈ log, ∃ reason, a.answer = .failed reason

/-- The attempt was told that there is no more: none of the octets it had room for, or the
failure. -/
def Attempt.Ends (a : Attempt) : Prop :=
  (0 < a.room ∧ a.answer = .ready []) ∨ ∃ reason, a.answer = .failed reason

/-- The attempts and the state that some turns of the reader and some attempts lead to, in any
order. -/
inductive Played (source : List Reading) : List Attempt → InputFeed → Prop
  | start : Played source [] { source := source }
  | turn {log s t} (before : Played source log s) (step : s.advance? = some t) :
    Played source log t
  | attempt {log s} (before : Played source log s) (room : Nat) :
    Played source (log ++ [⟨room, (s.poll room).1⟩]) (s.poll room).2

variable {log before later : List Attempt} {a : Attempt}

theorem got_concat (log : List Attempt) (a : Attempt) :
    got (log ++ [a]) = got log ++ a.answer.octets := by
  simp [got]

theorem failed_concat :
    Failed (log ++ [a]) ↔ Failed log ∨ ∃ reason, a.answer = .failed reason := by
  simp only [Failed, List.mem_append, List.mem_singleton, or_and_right, exists_or, exists_eq_left]

/-- What is ahead after some attempts: what is left after the octets they yielded, until the
failure has been handed out. -/
structure Stands (source : List Reading) (log : List Attempt) (ps : List Piece) : Prop where
  conserved : got log ++ octetsOf ps = Reading.content source
  place : ¬ Failed log → ps = after (got log).length (pieces source)
  emptied : Failed log → ps = []

theorem Stands.proper (h : Stands source log ps) : Proper ps := by
  by_cases hfailed : Failed log
  · rw [h.emptied hfailed]
    trivial
  · rw [h.place hfailed]
    exact proper_after _ (proper_pieces source)

/-- An answer and what is left make up what was ahead. -/
theorem octets_append_left (h : Proper ps) (room : Nat) :
    (answer room ps).octets ++ octetsOf (left ps (answer room ps)) = octetsOf ps := by
  match ps, h with
  | [], _ => rfl
  | .error reason :: _, h =>
    cases h
    rfl
  | .ok piece :: more, h =>
    have hrest : octetsOf ((if piece.drop room = [] then [] else [.ok (piece.drop room)]) ++ more)
        = piece.drop room ++ octetsOf more := by
      split
      · rename_i hnil
        rw [hnil]
        rfl
      · rfl
    rw [answer, left_ok piece h.2, hrest, Poll.octets, ← List.append_assoc, List.take_append_drop]
    rfl

theorem Stands.attempt {p : Poll} (h : Stands source log ps)
    (hp : p = .pending ∨ p = answer room ps) :
    Stands source (log ++ [⟨room, p⟩]) (left ps p) := by
  refine ⟨?_, fun hnot => ?_, fun hfailed => ?_⟩
  · rw [got_concat, List.append_assoc, ← h.conserved]
    rcases hp with rfl | rfl
    · rfl
    · rw [octets_append_left h.proper]
  · rw [failed_concat, not_or, not_exists] at hnot
    have hplace := h.place hnot.1
    cases p with
    | pending => rw [got_concat, hplace]; simp [left, Poll.octets]
    | ready octets => rw [got_concat, left, hplace, List.length_append, after_add, Poll.octets]
    | failed reason => exact absurd rfl (hnot.2 reason)
  · rcases failed_concat.mp hfailed with hfailed | ⟨reason, hreason⟩
    · rw [h.emptied hfailed]
      cases p <;> rfl
    · cases hreason
      rfl

theorem Played.stands (h : Played source log s) : Stands source log s.ahead := by
  induction h with
  | start =>
    have hahead : ahead { source := source } = pieces source := rfl
    refine ⟨?_, fun _ => ?_, fun ⟨_, hmem, _⟩ => absurd hmem List.not_mem_nil⟩
    · rw [hahead, octetsOf_pieces]
      rfl
    · exact hahead.trans (after_zero (proper_pieces source)).symm
  | turn before step ih => exact ahead_of_advance? step ▸ ih
  | attempt before room ih =>
    rcases poll_cases ih.proper room with ⟨hpending, -⟩ | ⟨hanswer, hleft⟩
    · rw [hpending]
      exact ih.attempt (.inl rfl)
    · rw [hanswer, hleft]
      exact ih.attempt (.inr rfl)

/-- Each attempt of a run was made in a state that the attempts before it lead to. -/
theorem Played.at_attempt (h : Played source (before ++ a :: later) s) :
    ∃ t, Played source before t ∧ a.answer = (t.poll a.room).1 := by
  generalize hlog : before ++ a :: later = log at h
  induction h generalizing later with
  | start => exact absurd hlog (by simp)
  | turn _ step ih => exact ih hlog
  | @attempt log s played room ih =>
    rcases List.eq_nil_or_concat later with rfl | ⟨init, last, rfl⟩
    · obtain ⟨rfl, ha⟩ := List.append_inj' hlog rfl
      cases ha
      exact ⟨s, played, rfl⟩
    · rw [List.concat_eq_append, ← List.cons_append, ← List.append_assoc] at hlog
      exact ih (List.append_inj' hlog rfl).1

/-! ## What reads yield -/

/-- How many octets the piece has left that the octet after the first `n` is in. -/
def restAt (source : List Reading) (n : Nat) : Nat := firstSize (after n (pieces source))

/-- What the attempts of a run have been answered, measured against the source. -/
structure Faithful (source : List Reading) (log : List Attempt) : Prop where
  /-- They have yielded the octets of the source in order, as far as they got. -/
  inOrder : got log <+: Reading.content source
  /-- One that was told that there is no more has everything before it. -/
  whole : ∀ a ∈ log, a.Ends → got log = Reading.content source
  /-- Each yields as much of the current piece as it has room for, so nothing without room. -/
  amount : ∀ before a later octets, log = before ++ a :: later → a.answer = .ready octets →
    octets.length = min a.room (restAt source (got before).length)
  /-- None of the octets there is room for means that the stream has ended, with a failure only
  if that has been handed out. -/
  ended : ∀ before a later, log = before ++ a :: later → 0 < a.room → a.answer = .ready [] →
    got before = Reading.content source ∧ (Reading.failure? source = none ∨ Failed before)
  /-- The failure is that of the source and comes once, after all octets and before nothing but
  the end. -/
  failed : ∀ before a later reason, log = before ++ a :: later → a.answer = .failed reason →
    Reading.failure? source = some reason ∧ got before = Reading.content source ∧
      ¬ Failed before ∧ ∀ b ∈ later, b.answer = .pending ∨ b.answer = .ready []

theorem Played.answer_cases (h : Played source (before ++ a :: later) s) :
    ∃ ps, Stands source before ps ∧ (a.answer = .pending ∨ a.answer = answer a.room ps) := by
  obtain ⟨t, played, ha⟩ := h.at_attempt
  have hstands := played.stands
  refine ⟨t.ahead, hstands, ?_⟩
  rw [ha]
  rcases poll_cases hstands.proper a.room with ⟨hpending, -⟩ | ⟨hanswer, -⟩
  · exact .inl (congrArg Prod.fst hpending)
  · exact .inr hanswer

theorem Stands.got_eq (h : Stands source log ps) (hnil : octetsOf ps = []) :
    got log = Reading.content source := by
  rw [← h.conserved, hnil, List.append_nil]

theorem Stands.firstSize_eq (h : Stands source log ps) :
    firstSize ps = restAt source (got log).length := by
  by_cases hfailed : Failed log
  · have hnil := h.emptied hfailed
    have hgot := h.got_eq (by rw [hnil]; rfl)
    have hproper := proper_pieces source
    have hrest : octetsOf (after (got log).length (pieces source)) = [] := by
      rw [octetsOf_after _ hproper, octetsOf_pieces, hgot, List.drop_length]
    rw [hnil, restAt, (firstSize_eq_zero_iff (proper_after _ hproper)).mpr hrest]
    rfl
  · rw [h.place hfailed, restAt]

theorem length_of_answer {octets : Bytes} (h : answer room ps = .ready octets) :
    octets.length = min room (firstSize ps) := by
  match ps, h with
  | [], h => cases h; exact (Nat.min_zero room).symm
  | .ok piece :: more, h => cases h; exact List.length_take

theorem eq_nil_of_answer (h : answer room ps = .ready []) (hroom : 0 < room) (hp : Proper ps) :
    ps = [] := by
  match ps, h, hp with
  | [], _, _ => rfl
  | .ok piece :: more, h, hp =>
    rcases List.take_eq_nil_iff.mp (Poll.ready.inj h) with hzero | hnil
    · exact absurd hzero (Nat.ne_of_gt hroom)
    · exact absurd hnil hp.1

theorem eq_error_of_answer {reason : String} (h : answer room ps = .failed reason)
    (hp : Proper ps) : ps = [.error reason] := by
  match ps, h, hp with
  | .error _ :: more, h, hp => cases h; cases hp; rfl

theorem Stands.failure_eq (h : Stands source log ps) (hnot : ¬ Failed log) :
    Reading.failure? source = failureOf ps := by
  rw [h.place hnot, failureOf_after, failureOf_pieces]

theorem Stands.of_ended (h : Stands source log ps) (hroom : 0 < room)
    (hanswer : answer room ps = .ready []) :
    got log = Reading.content source ∧ (Reading.failure? source = none ∨ Failed log) := by
  have hnil := eq_nil_of_answer hanswer hroom h.proper
  refine ⟨h.got_eq (by rw [hnil]; rfl), ?_⟩
  by_cases hfailed : Failed log
  · exact .inr hfailed
  · left
    rw [h.failure_eq hfailed, hnil]
    rfl

theorem Stands.of_failed {reason : String} (h : Stands source log ps)
    (hanswer : answer room ps = .failed reason) :
    Reading.failure? source = some reason ∧ got log = Reading.content source ∧ ¬ Failed log := by
  have herror := eq_error_of_answer hanswer h.proper
  have hnot : ¬ Failed log := fun hfailed => by simp [h.emptied hfailed] at herror
  refine ⟨?_, h.got_eq (by rw [herror]; rfl), hnot⟩
  rw [h.failure_eq hnot, herror]
  rfl

theorem Played.of_failed_before (h : Played source (before ++ a :: later) s)
    (hfailed : Failed before) : a.answer = .pending ∨ a.answer = .ready [] := by
  obtain ⟨ps, hstands, hanswer⟩ := h.answer_cases
  rwa [hstands.emptied hfailed] at hanswer

theorem Played.ended (h : Played source (before ++ a :: later) s) (hroom : 0 < a.room)
    (ha : a.answer = .ready []) :
    got before = Reading.content source ∧ (Reading.failure? source = none ∨ Failed before) := by
  obtain ⟨ps, hstands, hanswer⟩ := h.answer_cases
  rw [ha] at hanswer
  exact hstands.of_ended hroom (hanswer.resolve_left nofun).symm

theorem Played.failed {reason : String} (h : Played source (before ++ a :: later) s)
    (ha : a.answer = .failed reason) :
    Reading.failure? source = some reason ∧ got before = Reading.content source ∧
      ¬ Failed before := by
  obtain ⟨ps, hstands, hanswer⟩ := h.answer_cases
  rw [ha] at hanswer
  exact hstands.of_failed (hanswer.resolve_left nofun).symm

theorem Played.got_prefix (h : Played source log s) : got log <+: Reading.content source :=
  ⟨_, h.stands.conserved⟩

theorem Played.whole (h : Played source log s) (ha : a ∈ log) (hends : a.Ends) :
    got log = Reading.content source := by
  obtain ⟨before, later, rfl⟩ := List.append_of_mem ha
  have hbefore : got before = Reading.content source := by
    rcases hends with ⟨hroom, hready⟩ | ⟨reason, hfailed⟩
    · exact (h.ended hroom hready).1
    · exact (h.failed hfailed).2.1
  -- the attempts after it have nothing left to yield
  refine h.got_prefix.eq_of_length_le ?_
  rw [← hbefore, got, got, List.flatMap_append, List.length_append]
  exact Nat.le_add_right _ _

theorem content_uninterrupted (source : List Reading) :
    Reading.content (Reading.uninterrupted source) = Reading.content source := by
  rw [← octetsOf_pieces, pieces_uninterrupted, octetsOf_pieces]

theorem failure?_uninterrupted (source : List Reading) :
    Reading.failure? (Reading.uninterrupted source) = Reading.failure? source := by
  rw [← failureOf_pieces, pieces_uninterrupted, failureOf_pieces]

theorem restAt_uninterrupted (source : List Reading) (n : Nat) :
    restAt (Reading.uninterrupted source) n = restAt source n := by
  rw [restAt, pieces_uninterrupted, restAt]

/-- Whatever the order of turns and the room in each attempt, the attempts have been answered
as the source without its interruptions says; and one that finds nothing yet changes nothing
and leaves a reader that can go on, with less to do after each step. -/
theorem Played.answers_faithful (h : Played source log s) :
    Faithful (Reading.uninterrupted source) log ∧
      ∀ room, (s.poll room).1 = .pending →
        (s.poll room).2 = s ∧ ∃ t, s.advance? = some t ∧ t.work < s.work := by
  constructor
  · constructor <;>
      simp only [content_uninterrupted, failure?_uninterrupted, restAt_uninterrupted]
    case inOrder => exact h.got_prefix
    case whole => exact fun a ha hends => h.whole ha hends
    case amount =>
      rintro before a later octets rfl ha
      obtain ⟨ps, hstands, hanswer⟩ := h.answer_cases
      rw [ha] at hanswer
      rw [← hstands.firstSize_eq]
      exact length_of_answer (hanswer.resolve_left nofun).symm
    case ended =>
      rintro before a later rfl hroom ha
      exact h.ended hroom ha
    case failed =>
      rintro before a later reason rfl ha
      obtain ⟨hreason, hgot, hnot⟩ := h.failed ha
      refine ⟨hreason, hgot, hnot, fun b hb => ?_⟩
      obtain ⟨between, rest, rfl⟩ := List.append_of_mem hb
      rw [← List.cons_append, ← List.append_assoc] at h
      exact h.of_failed_before ⟨a, by simp, reason, ha⟩
  · intro room hpending
    rcases poll_cases h.stands.proper room with ⟨hpoll, t, hstep⟩ | ⟨hanswer, -⟩
    · exact ⟨congrArg Prod.snd hpoll, t, hstep, work_lt_of_advance? hstep⟩
    · rw [hanswer] at hpending
      match s.ahead, hpending with
      | [], hpending | .ok _ :: _, hpending | .error _ :: _, hpending => exact absurd hpending nofun

/-- Three octets and a failure, with an interruption between them, read by attempts that come too
early, have too little room or none, or come too late. -/
theorem answers_faithful_smallRoom :
    let source : List Reading := [.octets [97, 98, 99], .interrupted, .failed "lost", .octets [100]]
    let log : List Attempt :=
      [⟨2, .pending⟩, ⟨2, .ready [97, 98]⟩, ⟨0, .ready []⟩, ⟨8, .ready [99]⟩, ⟨4, .pending⟩,
        ⟨4, .failed "lost"⟩, ⟨4, .pending⟩, ⟨4, .ready []⟩]
    ∃ s, Played source log s ∧ Faithful (Reading.uninterrupted source) log := by
  intro source log
  -- the reader hands the octets over after the first attempt
  have early : Played source _ _ := .attempt .start 2
  have octets : Played source _ _ := .turn (.turn early rfl) rfl
  have taken : Played source _ _ := .attempt (.attempt (.attempt octets 2) 0) 8
  -- it is interrupted and fails, and then stops
  have failing : Played source _ _ := .turn (.attempt (.turn taken rfl) 4) rfl
  have failed : Played source _ _ := .attempt (.attempt (.turn failing rfl) 4) 4
  have stopped : Played source log _ := .attempt (.turn failed rfl) 4
  exact ⟨_, stopped, stopped.answers_faithful.1⟩

end InputFeed

end DevVm.Ssh
