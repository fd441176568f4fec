import DevVm.Ssh.Dial
import Mathlib.Logic.Basic

/-!
# What a race comes to

An address `Comes` to an attempt at once, and to another one an interval after each that returned
an error; it gets through when an attempt connects. `begins` and `dialled` say so too
(`mem_begins_iff`, `dialled_eq_connected_iff`).

A race is won exactly if some address gets through before the limit (`race_ok_iff`). So it does
not matter in which order the addresses are given or how often (`race_result_of_same`), more of
them do no harm (`race_ok_of_subset`), and no attempt matters that can only begin at the limit
(`race_take`).
-/

namespace DevVm.Ssh

/-! ## What becomes of one address -/

/-- The attempt returned an error, so another one is made. -/
def Ending.again : Ending → Bool
  | .refused | .handshakeFailed | .keyRejected => true
  | .crashed | .connected => false

/-- An address whose attempts end as in `schedule` comes to the attempts in `rest` at `time`, if
it is let go on: the first attempt begins at once, and another one an interval after each that
returned an error. -/
inductive Comes (schedule : List Attempt) : List Attempt → Nat → Prop
  | first : Comes schedule schedule 0
  | again {attempt rest time} (before : Comes schedule (attempt :: rest) time)
      (failed : attempt.ending.again) :
      Comes schedule rest (time + attempt.length.nanos + retryInterval.nanos)

/-- An attempt at the address begins then, if it is let go on. -/
def BeginsAt (schedule : List Attempt) (time : Nat) : Prop := ∃ rest, Comes schedule rest time

/-- An attempt at the address gets through then, if it is let go on. -/
def GetsThrough (schedule : List Attempt) (time : Nat) : Prop :=
  ∃ attempt rest start, Comes schedule (attempt :: rest) start ∧ attempt.ending = .connected ∧
    time = start + attempt.length.nanos

variable {limit : Duration} {now start time : Nat} {schedule rest more : List Attempt}
  {schedules others : List (List Attempt)} {attempt : Attempt}

theorem begins_again (h : attempt.ending.again) :
    begins start (attempt :: more) =
      start :: begins (start + attempt.length.nanos + retryInterval.nanos) more := by
  cases he : attempt.ending <;> simp_all [begins, Ending.again]

theorem Ending.again_or_over (e : Ending) : e.again ∨ e = .connected ∨ e = .crashed := by
  cases e <;> simp [again]

theorem begins_over (h : attempt.ending = .connected ∨ attempt.ending = .crashed) :
    begins start (attempt :: more) = [start] := by
  rcases h with h | h <;> rw [begins, h]

theorem dialled_again (h : attempt.ending.again) :
    dialled start (attempt :: more) =
      dialled (start + attempt.length.nanos + retryInterval.nanos) more := by
  cases he : attempt.ending <;> simp_all [dialled, Ending.again]

theorem dialled_connected (h : attempt.ending = .connected) :
    dialled start (attempt :: more) = .connected (start + attempt.length.nanos) := by
  rw [dialled, h]

theorem dialled_crashed (h : attempt.ending = .crashed) :
    dialled start (attempt :: more) = .crashed (start + attempt.length.nanos) := by
  rw [dialled, h]

theorem mem_begins_self (start : Nat) (schedule : List Attempt) :
    start ∈ begins start schedule := by
  cases schedule <;> exact List.mem_cons_self

theorem Comes.dialled_eq (h : Comes schedule rest time) :
    dialled 0 schedule = dialled time rest := by
  induction h with
  | first => rfl
  | again before failed ih => rw [ih, dialled_again failed]

theorem Comes.begins_eq (h : Comes schedule rest time) :
    ∃ earlier, begins 0 schedule = earlier ++ begins time rest := by
  induction h with
  | first => exact ⟨[], rfl⟩
  | @again attempt rest time before failed ih =>
    obtain ⟨earlier, hearlier⟩ := ih
    exact ⟨earlier ++ [time], by rw [hearlier, begins_again failed, List.append_assoc]; rfl⟩

theorem Comes.beginsAt (h : Comes schedule rest start) (ht : time ∈ begins start rest) :
    BeginsAt schedule time := by
  induction rest generalizing start with
  | nil =>
    cases List.mem_singleton.mp ht
    exact ⟨_, h⟩
  | cons attempt more ih =>
    rcases attempt.ending.again_or_over with hagain | hover
    · rw [begins_again hagain] at ht
      rcases List.mem_cons.mp ht with rfl | ht
      · exact ⟨_, h⟩
      · exact ih (h.again hagain) ht
    · rw [begins_over hover] at ht
      cases List.mem_singleton.mp ht
      exact ⟨_, h⟩

theorem Comes.getsThrough (h : Comes schedule rest start)
    (hd : dialled start rest = .connected time) : GetsThrough schedule time := by
  induction rest generalizing start with
  | nil => exact absurd hd nofun
  | cons attempt more ih =>
    rcases attempt.ending.again_or_over with hagain | he | he
    · exact ih (h.again hagain) (dialled_again hagain ▸ hd)
    · rw [dialled_connected he] at hd
      cases hd
      exact ⟨attempt, more, start, h, he, rfl⟩
    · rw [dialled_crashed he] at hd
      exact absurd hd nofun

/-- The times listed are those when an attempt begins. -/
theorem mem_begins_iff : time ∈ begins 0 schedule ↔ BeginsAt schedule time := by
  refine ⟨fun ht => Comes.first.beginsAt ht, fun ⟨rest, hcomes⟩ => ?_⟩
  obtain ⟨earlier, hearlier⟩ := hcomes.begins_eq
  rw [hearlier]
  exact List.mem_append_right earlier (mem_begins_self time rest)

/-- An address has got through when one of its attempts has. -/
theorem dialled_eq_connected_iff :
    dialled 0 schedule = .connected time ↔ GetsThrough schedule time := by
  refine ⟨fun hd => Comes.first.getsThrough hd, ?_⟩
  rintro ⟨attempt, rest, start, hcomes, he, rfl⟩
  rw [hcomes.dialled_eq, dialled_connected he]

/-- The address is not through with before `now`. -/
def Dialled.NotBefore (now : Nat) : Dialled → Prop
  | .connected time | .crashed time => now ≤ time
  | .never => True

theorem Dialled.NotBefore.mono {d : Dialled} (h : d.NotBefore now) (hle : start ≤ now) :
    d.NotBefore start := by
  cases d with
  | connected | crashed => exact Nat.le_trans hle h
  | never => trivial

theorem notBefore_dialled_cons (start : Nat) (attempt : Attempt) (more : List Attempt) :
    (dialled start (attempt :: more)).NotBefore (start + attempt.length.nanos) := by
  induction more generalizing start attempt with
  | nil => cases he : attempt.ending <;> simp [dialled, he, Dialled.NotBefore]
  | cons next more ih =>
    rcases attempt.ending.again_or_over with hagain | he | he
    · rw [dialled_again hagain]
      exact (ih _ next).mono (by omega)
    · rw [dialled_connected he]
      exact Nat.le_refl _
    · rw [dialled_crashed he]
      exact Nat.le_refl _

theorem notBefore_dialled (start : Nat) (schedule : List Attempt) :
    (dialled start schedule).NotBefore start := by
  cases schedule with
  | nil => trivial
  | cons attempt more =>
    exact (notBefore_dialled_cons start attempt more).mono (Nat.le_add_right _ _)

theorem le_of_mem_begins (h : time ∈ begins start schedule) : start ≤ time := by
  induction schedule generalizing start with
  | nil => exact Nat.le_of_eq (List.mem_singleton.mp h).symm
  | cons attempt more ih =>
    rcases attempt.ending.again_or_over with hagain | hover
    · rw [begins_again hagain] at h
      rcases List.mem_cons.mp h with rfl | h
      · exact Nat.le_refl _
      · have := ih h
        omega
    · rw [begins_over hover] at h
      exact Nat.le_of_eq (List.mem_singleton.mp h).symm

/-- An attempt begins after those before it. -/
theorem pairwise_begins (start : Nat) (schedule : List Attempt) :
    (begins start schedule).Pairwise (· < ·) := by
  induction schedule generalizing start with
  | nil => exact List.pairwise_singleton _ _
  | cons attempt more ih =>
    rcases attempt.ending.again_or_over with hagain | hover
    · rw [begins_again hagain]
      refine List.Pairwise.cons (fun time ht => ?_) (ih _)
      have := le_of_mem_begins ht
      have : 0 < retryInterval.nanos := by decide
      omega
    · rw [begins_over hover]
      exact List.pairwise_singleton _ _

/-! ## What the race comes to -/

/-- The first of the addresses to get through does so then. -/
def FirstThrough (schedules : List (List Attempt)) (time : Nat) : Prop :=
  (∃ schedule ∈ schedules, dialled 0 schedule = .connected time) ∧
    ∀ schedule ∈ schedules, ∀ later, dialled 0 schedule = .connected later → time ≤ later

/-- All addresses have crashed, the last of them then. -/
def LastCrash (schedules : List (List Attempt)) (time : Nat) : Prop :=
  (∀ schedule ∈ schedules, ∃ earlier ≤ time, dialled 0 schedule = .crashed earlier) ∧
    (time = 0 ∨ ∃ schedule ∈ schedules, dialled 0 schedule = .crashed time)

theorem mem_connected_iff :
    time ∈ (schedules.map (dialled 0)).filterMap Dialled.connectedAt? ↔
      ∃ schedule ∈ schedules, dialled 0 schedule = .connected time := by
  have hsome (d : Dialled) : d.connectedAt? = some time ↔ d = .connected time := by
    cases d <;> simp [Dialled.connectedAt?]
  simp [hsome]

theorem min?_connected_eq_some_iff :
    ((schedules.map (dialled 0)).filterMap Dialled.connectedAt?).min? = some time ↔
      FirstThrough schedules time := by
  rw [List.min?_eq_some_iff]
  refine and_congr mem_connected_iff ⟨fun h schedule hs later hd => ?_, fun h later hmem => ?_⟩
  · exact h later (mem_connected_iff.mpr ⟨schedule, hs, hd⟩)
  · obtain ⟨schedule, hs, hd⟩ := mem_connected_iff.mp hmem
    exact h schedule hs later hd

theorem mapM_crashedAt?_eq_some_iff {ends : List Dialled} {times : List Nat} :
    ends.mapM Dialled.crashedAt? = some times ↔ ends = times.map .crashed := by
  induction ends generalizing times with
  | nil => cases times <;> simp
  | cons d ends ih =>
    rw [List.mapM_cons]
    cases d with
    | connected | never => cases times <;> simp [Dialled.crashedAt?]
    | crashed time =>
      cases times with
      | nil => simp [Dialled.crashedAt?, Option.bind_eq_some_iff]
      | cons first times =>
        cases hm : ends.mapM Dialled.crashedAt? with
        | none => simp [Dialled.crashedAt?, ← ih, hm]
        | some rest => simp [Dialled.crashedAt?, ← ih, hm]

theorem lastCrash_of_allCrashedAt? (h : allCrashedAt? (schedules.map (dialled 0)) = some time) :
    LastCrash schedules time := by
  obtain ⟨times, htimes, rfl⟩ := Option.map_eq_some_iff.mp h
  have hends := mapM_crashedAt?_eq_some_iff.mp htimes
  have hfold : (0 :: times).max? = some (times.foldl max 0) := List.max?_cons'
  obtain ⟨hlast, hmax⟩ := List.max?_eq_some_iff.mp hfold
  refine ⟨fun schedule hs => ?_, ?_⟩
  · obtain ⟨crash, hcrash, hd⟩ := List.mem_map.mp (hends ▸ List.mem_map_of_mem hs)
    exact ⟨crash, hmax crash (List.mem_cons_of_mem 0 hcrash), hd.symm⟩
  · rcases List.mem_cons.mp hlast with hzero | hmem
    · exact .inl hzero
    · exact .inr (List.mem_map.mp (hends ▸ List.mem_map_of_mem hmem))

theorem exists_not_crashed (h : allCrashedAt? (schedules.map (dialled 0)) = none) :
    ∃ schedule ∈ schedules, ∀ crash, dialled 0 schedule ≠ .crashed crash := by
  refine Classical.byContradiction fun hnot => ?_
  have hall : ∀ schedule ∈ schedules, ∃ crash, dialled 0 schedule = .crashed crash :=
    fun schedule hs => Classical.byContradiction fun hno =>
      hnot ⟨schedule, hs, fun crash hd => hno ⟨crash, hd⟩⟩
  have hends : schedules.map (dialled 0) =
      (schedules.map fun schedule => (dialled 0 schedule).crashedAt?.getD 0).map .crashed := by
    rw [List.map_map]
    refine List.map_congr_left fun schedule hs => ?_
    obtain ⟨crash, hd⟩ := hall schedule hs
    rw [Function.comp, hd]
    rfl
  rw [allCrashedAt?, mapM_crashedAt?_eq_some_iff.mpr hends] at h
  exact absurd h nofun

/-- Somebody gets through before the limit. -/
theorem race_of_firstThrough (h : FirstThrough schedules time) (hlt : time < limit.nanos) :
    race limit schedules = ⟨.ok (), time⟩ := by
  rw [race, min?_connected_eq_some_iff.mpr h]
  exact if_pos hlt

/-- Nobody gets through before the limit, and somebody has not been given up until then. -/
theorem race_of_late
    (hlate : ∀ schedule ∈ schedules, ∀ time, dialled 0 schedule = .connected time →
      limit.nanos ≤ time)
    (hleft : ∀ time, LastCrash schedules time → limit.nanos ≤ time) :
    race limit schedules = ⟨.error (.timeout limit), limit.nanos⟩ := by
  dsimp only [race]
  split
  · rename_i time hmin
    obtain ⟨⟨schedule, hs, hd⟩, -⟩ := min?_connected_eq_some_iff.mp hmin
    exact if_neg (Nat.not_lt.mpr (hlate schedule hs time hd))
  · split
    · rename_i time hcrash
      rw [Nat.min_eq_right (hleft time (lastCrash_of_allCrashedAt? hcrash))]
    · rfl

/-- All addresses have been given up, the last of them at `time`. -/
theorem race_of_lastCrash
    (hall : ∀ schedule ∈ schedules, ∃ crash ≤ time, dialled 0 schedule = .crashed crash)
    (hlast : ∀ last, LastCrash schedules last → time ≤ last) (hle : time ≤ limit.nanos) :
    race limit schedules = ⟨.error (.timeout limit), time⟩ := by
  dsimp only [race]
  split
  · rename_i first hmin
    obtain ⟨⟨schedule, hs, hd⟩, -⟩ := min?_connected_eq_some_iff.mp hmin
    obtain ⟨crash, -, hcrash⟩ := hall schedule hs
    exact absurd (hd.symm.trans hcrash) nofun
  · split
    · rename_i last hcrash
      have hlastCrash := lastCrash_of_allCrashedAt? hcrash
      have hlast_le : last ≤ time := by
        rcases hlastCrash.2 with rfl | ⟨schedule, hs, hd⟩
        · exact Nat.zero_le time
        · obtain ⟨crash, hcrash, hd'⟩ := hall schedule hs
          cases hd.symm.trans hd'
          exact hcrash
      rw [Nat.le_antisymm hlast_le (hlast last hlastCrash), Nat.min_eq_left hle]
    · rename_i hnone
      obtain ⟨schedule, hs, hnot⟩ := exists_not_crashed hnone
      obtain ⟨crash, -, hcrash⟩ := hall schedule hs
      exact absurd hcrash (hnot crash)

theorem race_ok_or_timeout (limit : Duration) (schedules : List (List Attempt)) :
    (race limit schedules).result = .ok () ∨
      (race limit schedules).result = .error (.timeout limit) := by
  dsimp only [race]
  split
  · split
    · exact .inl rfl
    · exact .inr rfl
  · split <;> exact .inr rfl

/-- The race is won exactly if somebody gets through before the limit. -/
theorem race_ok_iff : (race limit schedules).result = .ok () ↔
    ∃ schedule ∈ schedules, ∃ time < limit.nanos, GetsThrough schedule time := by
  simp only [← dialled_eq_connected_iff]
  constructor
  · intro hok
    dsimp only [race] at hok
    split at hok
    · rename_i time hmin
      obtain ⟨⟨schedule, hs, hd⟩, -⟩ := min?_connected_eq_some_iff.mp hmin
      split at hok
      · rename_i hlt
        exact ⟨schedule, hs, time, hlt, hd⟩
      · exact absurd hok nofun
    · split at hok <;> exact absurd hok nofun
  · rintro ⟨schedule, hs, time, hlt, hd⟩
    have hmem := mem_connected_iff.mpr ⟨schedule, hs, hd⟩
    obtain ⟨first, hfirst⟩ := Option.isSome_iff_exists.mp (List.isSome_min?_of_mem hmem)
    have hthrough := min?_connected_eq_some_iff.mp hfirst
    have hle := hthrough.2 schedule hs time hd
    rw [race_of_firstThrough hthrough (Nat.lt_of_le_of_lt hle hlt)]

/-- So many attempts begin so many intervals later at the earliest. -/
theorem dialled_take (n : Nat) (h : time < start + n * retryInterval.nanos) :
    dialled start (schedule.take n) = .connected time ↔
      dialled start schedule = .connected time := by
  induction n generalizing start schedule with
  | zero =>
    refine iff_of_false nofun fun hd => ?_
    have hle := notBefore_dialled start schedule
    rw [hd] at hle
    rw [Nat.zero_mul, Nat.add_zero] at h
    exact absurd hle (Nat.not_le.mpr h)
  | succ n ih =>
    cases schedule with
    | nil => rfl
    | cons attempt more =>
      rw [List.take_succ_cons]
      rcases attempt.ending.again_or_over with hagain | he | he
      · rw [dialled_again hagain, dialled_again hagain]
        refine ih ?_
        rw [Nat.add_mul] at h
        omega
      · rw [dialled_connected he, dialled_connected he]
      · rw [dialled_crashed he, dialled_crashed he]

theorem race_take {n : Nat} (h : limit.nanos ≤ n * retryInterval.nanos) :
    (race limit (schedules.map (·.take n))).result = (race limit schedules).result := by
  have hiff : (race limit (schedules.map (·.take n))).result = .ok () ↔
      (race limit schedules).result = .ok () := by
    simp only [race_ok_iff, ← dialled_eq_connected_iff, List.mem_map, exists_exists_and_eq_and]
    refine exists_congr fun schedule => and_congr_right fun _ => exists_congr fun time =>
      and_congr_right fun hlt => dialled_take n ?_
    omega
  rcases race_ok_or_timeout limit schedules with hok | htimeout
  · rw [hok, hiff.mpr hok]
  · have hnot : (race limit (schedules.map (·.take n))).result ≠ .ok () := by
      rw [ne_eq, hiff, htimeout]
      nofun
    rw [htimeout, (race_ok_or_timeout limit _).resolve_left hnot]

theorem race_ok_of_subset (hsub : schedules ⊆ others)
    (hok : (race limit schedules).result = .ok ()) : (race limit others).result = .ok () := by
  obtain ⟨schedule, hs, hthrough⟩ := race_ok_iff.mp hok
  exact race_ok_iff.mpr ⟨schedule, hsub hs, hthrough⟩

theorem race_result_of_same (hsame : ∀ schedule, schedule ∈ others ↔ schedule ∈ schedules) :
    (race limit others).result = (race limit schedules).result := by
  rcases race_ok_or_timeout limit schedules with hok | htimeout
  · rw [hok, race_ok_of_subset (fun schedule => (hsame schedule).mpr) hok]
  · rcases race_ok_or_timeout limit others with hok | htimeout'
    · rw [hok, race_ok_of_subset (fun schedule => (hsame schedule).mp) hok]
    · rw [htimeout, htimeout']

theorem mem_attempts_iff {finish : Nat} :
    time ∈ (begins 0 schedule).filter (fun time => time = 0 || time < finish) ↔
      BeginsAt schedule time ∧ (time = 0 ∨ time < finish) := by
  simp only [List.mem_filter, mem_begins_iff, Bool.or_eq_true, decide_eq_true_eq]

end DevVm.Ssh
