import DevVm.Ssh.WindowWatch

/-!
# Giving up the watch

After a session the signals are shut off, and the watcher is waited for while the queue is still
there. Nobody takes anything from the queue any more: a watcher that is then handing over a size
to a full queue never gets rid of it, and the session waits for ever (`Watch.Stuck`).

That is the only way in which the end of a session can fail (`Watch.stops_iff`): in all other
states some party can make a move, and once the signals are shut off, three moves are enough.
Five changes of the window in a row, of which the session takes none before it ends, do lead
there (`Watch.fiveChanges_stuck`).
-/

namespace DevVm.Ssh

/-- The moves by which a session is wound up: those of the watcher, and those of the session
once it has ended. -/
def Move.windsUp : Move → Bool
  | .take _ | .notice | .hand | .shut | .join => true
  | .signal | .receive | .finish => false

namespace Watch

variable {w w' : Watch} {move : Move} {moves : List Move}

/-! ## One move -/

/-- When a move can be made, and where it leads. -/
def Makes (w w' : Watch) : Move → Prop
  | .signal => { w with signals := w.signals + 1 } = w'
  | .take size =>
    (w.watcher = .waiting ∧ w.shutOff = false ∧ 0 < w.signals) ∧
      { w with
        signals := w.signals - 1
        watcher := match size with
          | some size => .handing size
          | none => .waiting } = w'
  | .notice => (w.watcher = .waiting ∧ w.shutOff = true) ∧ { w with watcher := .done } = w'
  | .hand =>
    ∃ size, w.watcher = .handing size ∧ w.queue.length < queueCapacity ∧
      { w with watcher := .waiting, queue := w.queue ++ [size] } = w'
  | .receive =>
    (w.progress = .exchanging ∧ w.queue ≠ []) ∧ { w with queue := w.queue.tail } = w'
  | .finish => w.progress = .exchanging ∧ { w with progress := .ended } = w'
  | .shut => w.progress = .ended ∧ { w with progress := .joining, shutOff := true } = w'
  | .join => (w.progress = .joining ∧ w.watcher = .done) ∧ { w with progress := .left } = w'

theorem step?_eq_some_iff : w.step? move = some w' ↔ w.Makes w' move := by
  cases move with
  | take size => cases size <;> simp [step?, Makes]
  | hand => cases hw : w.watcher <;> simp [step?, Makes, hw]
  | receive => cases hp : w.progress <;> cases hq : w.queue <;> simp [step?, Makes, hp, hq]
  | _ => simp [step?, Makes]

/-- What holds in all states that can be reached: the queue is not overfull, the signals are shut
off by the end of the session and by nothing else, and the watcher stops only after that. -/
structure Sound (w : Watch) : Prop where
  fits : w.queue.length ≤ queueCapacity
  shutOff : w.shutOff = true ↔ w.progress = .joining ∨ w.progress = .left
  done : w.watcher = .done → w.shutOff = true
  left : w.progress = .left → w.watcher = .done

theorem Sound.step (h : w.Sound) (hmove : w.step? move = some w') : w'.Sound := by
  obtain ⟨hfits, hshutOff, hdone, hleft⟩ := h
  rw [step?_eq_some_iff] at hmove
  cases move with
  | signal => cases hmove; exact ⟨hfits, hshutOff, hdone, hleft⟩
  | take size =>
    obtain ⟨⟨hw, hs, -⟩, rfl⟩ := hmove
    refine ⟨hfits, hshutOff, ?_, ?_⟩
    · cases size <;> exact fun h => absurd h nofun
    · intro hp
      exact absurd (hshutOff.mpr (.inr hp)) (by simp [hs])
  | notice =>
    obtain ⟨⟨-, hs⟩, rfl⟩ := hmove
    exact ⟨hfits, hshutOff, fun _ => hs, fun _ => rfl⟩
  | hand =>
    obtain ⟨size, hw, hroom, rfl⟩ := hmove
    refine ⟨?_, hshutOff, fun h => absurd h nofun, ?_⟩
    · rw [List.length_append]
      exact hroom
    · intro hp
      exact absurd (hleft hp) (by simp [hw])
  | receive =>
    obtain ⟨-, rfl⟩ := hmove
    exact ⟨Nat.le_trans (List.tail_sublist w.queue).length_le hfits, hshutOff, hdone, hleft⟩
  | finish =>
    obtain ⟨hp, rfl⟩ := hmove
    refine ⟨hfits, ?_, hdone, fun h => absurd h nofun⟩
    simpa [hp] using hshutOff
  | shut =>
    obtain ⟨hp, rfl⟩ := hmove
    exact ⟨hfits, by simp, fun _ => rfl, fun h => absurd h nofun⟩
  | join =>
    obtain ⟨⟨hp, hw⟩, rfl⟩ := hmove
    exact ⟨hfits, by simpa [hp] using hshutOff, hdone, fun _ => hw⟩

theorem Reachable.sound (h : Reachable w) : w.Sound := by
  induction h with
  | start => exact ⟨Nat.zero_le _, by simp, nofun, nofun⟩
  | step move before moves ih => exact ih.step moves

/-! ## Waiting for ever -/

/-- The session waits for a watcher that waits for room in the queue. -/
structure Stuck (w : Watch) : Prop where
  joining : w.progress = .joining
  handing : ∃ size, w.watcher = .handing size
  full : queueCapacity ≤ w.queue.length

/-- All that can still happen is that more signals come. -/
theorem Stuck.step (h : w.Stuck) (hmove : w.step? move = some w') :
    w'.Stuck ∧ move.windsUp = false := by
  obtain ⟨hp, ⟨size, hw⟩, hfull⟩ := h
  rw [step?_eq_some_iff] at hmove
  cases move with
  | signal => cases hmove; exact ⟨⟨hp, ⟨size, hw⟩, hfull⟩, rfl⟩
  | take _ => exact absurd (hw.symm.trans hmove.1.1) nofun
  | notice => exact absurd (hw.symm.trans hmove.1.1) nofun
  | hand =>
    obtain ⟨_, -, hroom, -⟩ := hmove
    exact absurd hroom (Nat.not_lt.mpr hfull)
  | receive => exact absurd (hp.symm.trans hmove.1.1) nofun
  | finish => exact absurd (hp.symm.trans hmove.1) nofun
  | shut => exact absurd (hp.symm.trans hmove.1) nofun
  | join => exact absurd (hw.symm.trans hmove.1.2) nofun

/-- Some party can make a move by which the session is wound up. -/
def CanWindUp (w : Watch) : Prop := ∃ move w', move.windsUp = true ∧ w.step? move = some w'

theorem Stuck.not_canWindUp (h : w.Stuck) : ¬ w.CanWindUp := by
  rintro ⟨move, w', hwinds, hmove⟩
  exact absurd hwinds (by simp [(h.step hmove).2])

/-- The sizes on their way to the session: those in the queue, and the one that the watcher is
handing over. -/
def underWay (w : Watch) : Nat :=
  w.queue.length + match w.watcher with
    | .handing _ => 1
    | .waiting | .done => 0

/-- A session that waits for the watcher is stuck if one size too many is under way. -/
theorem Sound.stuck_iff (h : w.Sound) (hp : w.progress = .joining) :
    w.Stuck ↔ queueCapacity < w.underWay := by
  have hfits := h.fits
  unfold underWay
  constructor
  · rintro ⟨-, ⟨size, hw⟩, hfull⟩
    rw [hw]
    exact Nat.lt_succ_of_le hfull
  · intro hmany
    cases hw : w.watcher with
    | handing size =>
      rw [hw] at hmany
      exact ⟨hp, ⟨size, hw⟩, Nat.le_of_lt_succ hmany⟩
    | waiting => rw [hw] at hmany; exact absurd hmany (Nat.not_lt.mpr hfits)
    | done => rw [hw] at hmany; exact absurd hmany (Nat.not_lt.mpr hfits)

/-! ## Winding up -/

theorem Sound.canWindUp_iff (h : w.Sound) (hover : w.progress = .ended ∨ w.progress = .joining) :
    w.CanWindUp ↔ ¬ w.Stuck := by
  refine ⟨fun hcan hstuck => hstuck.not_canWindUp hcan, fun hfree => ?_⟩
  rcases hover with hp | hp
  · exact ⟨.shut, _, rfl, step?_eq_some_iff.mpr ⟨hp, rfl⟩⟩
  · cases hw : w.watcher with
    | waiting =>
      have hs := h.shutOff.mpr (.inl hp)
      exact ⟨.notice, _, rfl, step?_eq_some_iff.mpr ⟨⟨hw, hs⟩, rfl⟩⟩
    | handing size =>
      have hroom := Nat.lt_of_not_le fun hfull => hfree ⟨hp, ⟨size, hw⟩, hfull⟩
      exact ⟨.hand, _, rfl, step?_eq_some_iff.mpr ⟨size, hw, hroom, rfl⟩⟩
    | done => exact ⟨.join, _, rfl, step?_eq_some_iff.mpr ⟨⟨hp, hw⟩, rfl⟩⟩

/-- A session that waits for the watcher, and not in vain, or has been left. -/
structure Closing (w : Watch) : Prop where
  sound : w.Sound
  waits : w.progress = .joining ∨ w.progress = .left
  free : ¬ w.Stuck

/-- How many moves it takes to wind up a session that waits for the watcher. -/
def toGo (w : Watch) : Nat :=
  match w.progress, w.watcher with
  | .left, _ => 0
  | _, .done => 1
  | _, .waiting => 2
  | _, .handing _ => 3

theorem Closing.step (h : w.Closing) (hmove : w.step? move = some w') :
    w'.Closing ∧ w'.toGo + (if move.windsUp then 1 else 0) ≤ w.toGo := by
  have hsound := h.sound.step hmove
  obtain ⟨⟨hfits, hshutOff, hdone, hleft⟩, hover, hfree⟩ := h
  have hs := hshutOff.mpr hover
  rw [step?_eq_some_iff] at hmove
  cases move with
  | signal =>
    cases hmove
    exact ⟨⟨hsound, hover, fun hstuck => hfree ⟨hstuck.joining, hstuck.handing, hstuck.full⟩⟩,
      Nat.le_refl _⟩
  | take size =>
    obtain ⟨⟨-, hs', -⟩, -⟩ := hmove
    exact absurd (hs.symm.trans hs') nofun
  | notice =>
    obtain ⟨⟨hw, -⟩, rfl⟩ := hmove
    refine ⟨⟨hsound, hover, fun ⟨_, ⟨_, hw'⟩, _⟩ => absurd hw' nofun⟩, ?_⟩
    rcases hover with hp | hp
    · simp [toGo, hp, hw, Move.windsUp]
    · exact absurd (hw.symm.trans (hleft hp)) nofun
  | hand =>
    obtain ⟨size, hw, -, rfl⟩ := hmove
    refine ⟨⟨hsound, hover, fun ⟨_, ⟨_, hw'⟩, _⟩ => absurd hw' nofun⟩, ?_⟩
    rcases hover with hp | hp
    · simp [toGo, hp, hw, Move.windsUp]
    · exact absurd (hw.symm.trans (hleft hp)) nofun
  | receive =>
    obtain ⟨⟨hp, -⟩, -⟩ := hmove
    rcases hover with hp' | hp' <;> exact absurd (hp.symm.trans hp') nofun
  | finish =>
    obtain ⟨hp, -⟩ := hmove
    rcases hover with hp' | hp' <;> exact absurd (hp.symm.trans hp') nofun
  | shut =>
    obtain ⟨hp, -⟩ := hmove
    rcases hover with hp' | hp' <;> exact absurd (hp.symm.trans hp') nofun
  | join =>
    obtain ⟨⟨hp, hw⟩, rfl⟩ := hmove
    exact ⟨⟨hsound, .inr rfl, fun ⟨hp', _, _⟩ => absurd hp' nofun⟩,
      by simp [toGo, hp, hw, Move.windsUp]⟩

/-! ## Many moves -/

/-- Some moves, one after the other, if they can be made. -/
def follow? (w : Watch) : List Move → Option Watch
  | [] => some w
  | move :: moves => (w.step? move).bind (·.follow? moves)

theorem follow?_cons : w.follow? (move :: moves) = some w' ↔
    ∃ w'', w.step? move = some w'' ∧ w''.follow? moves = some w' := Option.bind_eq_some_iff

theorem Reachable.follow (h : Reachable w) (hmoves : w.follow? moves = some w') :
    Reachable w' := by
  induction moves generalizing w with
  | nil => cases hmoves; exact h
  | cons move moves ih =>
    obtain ⟨w'', hmove, hmoves⟩ := follow?_cons.mp hmoves
    exact ih (.step move h hmove) hmoves

theorem Stuck.follow (h : w.Stuck) (hmoves : w.follow? moves = some w') : w'.Stuck := by
  induction moves generalizing w with
  | nil => cases hmoves; exact h
  | cons move moves ih =>
    obtain ⟨w'', hmove, hmoves⟩ := follow?_cons.mp hmoves
    exact ih (h.step hmove).1 hmoves

theorem Closing.follow (h : w.Closing) (hmoves : w.follow? moves = some w') :
    w'.Closing ∧ w'.toGo + moves.countP Move.windsUp ≤ w.toGo := by
  induction moves generalizing w with
  | nil => cases hmoves; exact ⟨h, Nat.le_refl _⟩
  | cons move moves ih =>
    obtain ⟨w'', hmove, hmoves⟩ := follow?_cons.mp hmoves
    obtain ⟨hclosing, hstep⟩ := h.step hmove
    obtain ⟨hclosing', hrest⟩ := ih hclosing hmoves
    refine ⟨hclosing', ?_⟩
    rw [List.countP_cons]
    omega

theorem toGo_le (w : Watch) : w.toGo ≤ 3 := by
  unfold toGo
  split <;> decide

/-- When a session has ended, some party can go on winding it up, unless the session waits for a
watcher that waits for room in the queue. There it stays for good. Otherwise, once the signals
are shut off, there are three moves to wind it up at most, whatever else happens, and it is only
when the session has been left that none can be made. A session gets stuck if more sizes than
the queue holds are under way when the signals are shut off. -/
theorem stops_iff (h : Reachable w) (hover : w.progress = .ended ∨ w.progress = .joining) :
    (w.CanWindUp ↔ ¬ w.Stuck) ∧
      (w.Stuck → ∀ moves w', w.follow? moves = some w' → w'.Stuck ∧ ¬ w'.CanWindUp) ∧
      (w.progress = .joining → ¬ w.Stuck → ∀ moves w', w.follow? moves = some w' →
        moves.countP Move.windsUp ≤ 3 ∧ (w'.CanWindUp ∨ w'.progress = .left)) ∧
      ∀ w', w.step? .shut = some w' → (w'.Stuck ↔ queueCapacity < w.underWay) := by
  have hsound := h.sound
  refine ⟨hsound.canWindUp_iff hover, ?_, ?_, ?_⟩
  · intro hstuck moves w' hmoves
    have hstuck' := hstuck.follow hmoves
    exact ⟨hstuck', hstuck'.not_canWindUp⟩
  · intro hp hfree moves w' hmoves
    have hclosing : w.Closing := ⟨hsound, .inl hp, hfree⟩
    obtain ⟨⟨hsound', hover', hfree'⟩, hcount⟩ := hclosing.follow hmoves
    have := w.toGo_le
    refine ⟨by omega, ?_⟩
    rcases hover' with hp' | hp'
    · exact .inl ((hsound'.canWindUp_iff (.inr hp')).mpr hfree')
    · exact .inr hp'
  · intro w' hshut
    have hsound' := hsound.step hshut
    obtain ⟨-, rfl⟩ := step?_eq_some_iff.mp hshut
    exact hsound'.stuck_iff rfl

/-! ## Four changes of the window, and five -/

/-- The window changes, and the watcher has the new size. -/
def change : List Move := [.signal, .take (some ⟨120, 50⟩)]

/-- Four changes come through to the queue before the session ends. -/
def fourChanges : List Move :=
  (List.replicate 4 (change ++ [.hand])).flatten ++ [.finish, .shut]

/-- Where four changes lead. -/
def afterFour : Watch where
  shutOff := true
  queue := List.replicate 4 ⟨120, 50⟩
  progress := .joining

theorem stops_iff_afterFour :
    Reachable afterFour ∧ afterFour.progress = .joining ∧ ¬ afterFour.Stuck ∧
      afterFour.CanWindUp ∧
      ∀ moves w', afterFour.follow? moves = some w' →
        moves.countP Move.windsUp ≤ 3 ∧ (w'.CanWindUp ∨ w'.progress = .left) := by
  have hreachable : Reachable afterFour :=
    Reachable.start.follow (show ({} : Watch).follow? fourChanges = some afterFour by decide)
  have hfree : ¬ afterFour.Stuck := fun ⟨_, ⟨_, hw⟩, _⟩ => absurd hw nofun
  have hstops := stops_iff hreachable (.inr rfl)
  exact ⟨hreachable, rfl, hfree, hstops.1.mpr hfree, hstops.2.2.1 rfl hfree⟩

/-- Four changes come through to the queue, and one more is with the watcher when the session
ends. -/
def fiveChanges : List Move :=
  (List.replicate 4 (change ++ [.hand])).flatten ++ change ++ [.finish, .shut]

/-- Where five changes lead. -/
def afterFive : Watch where
  shutOff := true
  watcher := .handing ⟨120, 50⟩
  queue := List.replicate 4 ⟨120, 50⟩
  progress := .joining

/-- After five changes nobody can make a move to wind the session up, which is never left. -/
theorem fiveChanges_stuck :
    ({} : Watch).follow? fiveChanges = some afterFive ∧ Reachable afterFive ∧
      afterFive.progress = .joining ∧ ¬ afterFive.CanWindUp ∧
      ∀ moves w', afterFive.follow? moves = some w' → w'.progress = .joining := by
  have hmoves : ({} : Watch).follow? fiveChanges = some afterFive := by decide
  have hstuck : afterFive.Stuck := ⟨rfl, ⟨_, rfl⟩, Nat.le_refl _⟩
  exact ⟨hmoves, Reachable.start.follow hmoves, rfl, hstuck.not_canWindUp,
    fun moves w' hmoves => (hstuck.follow hmoves).joining⟩

end Watch

end DevVm.Ssh
