/-!
# Decimal numbers

A number is read from ASCII digits with at most one plus sign in front, and only if it is
below a bound: a number that does not fit is refused, never wrapped. `Spells` says when a text
stands for a number, and `readNat?_eq_some_iff` that just such texts are read.
-/

namespace DevVm.Text

/-- The value of an ASCII digit. -/
def digitValue? (c : Char) : Option Nat :=
  if '0' ≤ c ∧ c ≤ '9' then some (c.toNat - '0'.toNat) else none

/-- The number a list of digits writes on after `acc`. -/
def digitsValue? (acc : Nat) : List Char → Option Nat
  | [] => some acc
  | c :: rest =>
    match digitValue? c with
    | none => none
    | some d => digitsValue? (10 * acc + d) rest

/-- A number below `bound`: one or more digits, after at most one plus sign. -/
def readNat? (bound : Nat) (text : List Char) : Option Nat :=
  let digits := (after? text).getD text
  if digits.isEmpty then none
  else (digitsValue? 0 digits).filter (· < bound)
where
  /-- The text after a plus sign. -/
  after? : List Char → Option (List Char)
    | '+' :: rest => some rest
    | _ => none

/-- A number of 16 bits. -/
def readUInt16? (text : List Char) : Option UInt16 :=
  (readNat? UInt16.size text).map UInt16.ofNat

/-- A number of 32 bits. -/
def readUInt32? (text : List Char) : Option UInt32 :=
  (readNat? UInt32.size text).map UInt32.ofNat

/-- A number of 64 bits. -/
def readUInt64? (text : List Char) : Option UInt64 :=
  (readNat? UInt64.size text).map UInt64.ofNat

/-- The decimal digits of a number. -/
def decimal (n : Nat) : String := String.ofList (Nat.toDigits 10 n)

/-- A text spells a number: in digits, one at least, after at most one plus sign. -/
def Spells (text : List Char) (n : Nat) : Prop :=
  ∃ digits, (text = digits ∨ text = '+' :: digits) ∧ digits ≠ [] ∧
    (∀ c ∈ digits, c.isDigit = true) ∧ Nat.ofDigitChars 10 digits 0 = n

theorem digitValue?_eq (c : Char) :
    digitValue? c = if c.isDigit = true then some (c.toNat - '0'.toNat) else none := by
  unfold digitValue? Char.isDigit
  simp only [Char.le_def, ge_iff_le, Bool.and_eq_true, decide_eq_true_eq]

theorem digitsValue?_eq_some_iff {acc n : Nat} {digits : List Char} :
    digitsValue? acc digits = some n ↔
      (∀ c ∈ digits, c.isDigit = true) ∧ Nat.ofDigitChars 10 digits acc = n := by
  induction digits generalizing acc with
  | nil => simp [digitsValue?, Nat.ofDigitChars]
  | cons c rest ih =>
    rw [digitsValue?, digitValue?_eq, List.forall_mem_cons]
    split
    next hnone =>
      rw [ite_eq_right_iff] at hnone
      exact ⟨nofun, fun h => nomatch hnone h.1.1⟩
    next d hsome =>
      obtain ⟨hdigit, hd⟩ := Option.ite_none_right_eq_some.mp hsome
      rw [ih, ← Option.some.inj hd, Nat.ofDigitChars_cons]
      simp only [hdigit, true_and]

theorem after?_plus_eq_some_iff {text rest : List Char} :
    readNat?.after? text = some rest ↔ text = '+' :: rest := by
  unfold readNat?.after?
  split
  next more => simp
  next hnot => exact ⟨nofun, fun h => absurd h (hnot rest)⟩

/-- A number below a bound is read from what spells it, and from nothing else. -/
theorem readNat?_eq_some_iff {bound n : Nat} {text : List Char} :
    readNat? bound text = some n ↔ Spells text n ∧ n < bound := by
  have hread : ∀ digits : List Char,
      (if digits.isEmpty = true then none else (digitsValue? 0 digits).filter (· < bound)) =
          some n ↔
        (digits ≠ [] ∧ (∀ c ∈ digits, c.isDigit = true) ∧ Nat.ofDigitChars 10 digits 0 = n) ∧
          n < bound := by
    intro digits
    simp only [Option.ite_none_left_eq_some, Option.filter_eq_some_iff, digitsValue?_eq_some_iff,
      List.isEmpty_iff, decide_eq_true_iff, and_assoc, ne_eq]
  unfold readNat?
  rw [hread]
  refine and_congr_left fun _ => ?_
  cases hplus : readNat?.after? text with
  | some rest =>
    obtain rfl := after?_plus_eq_some_iff.mp hplus
    refine ⟨fun h => ⟨rest, .inr rfl, h⟩, ?_⟩
    rintro ⟨digits, rfl | heq, hdigits⟩
    · -- A plus sign is not a digit.
      exact absurd (hdigits.2.1 '+' List.mem_cons_self) (by decide)
    · obtain rfl := (List.cons.inj heq).2
      exact hdigits
  | none =>
    refine ⟨fun h => ⟨text, .inl rfl, h⟩, ?_⟩
    rintro ⟨digits, rfl | rfl, hdigits⟩
    · exact hdigits
    · rw [after?_plus_eq_some_iff.mpr rfl] at hplus
      cases hplus

/-- A text spells one number at most. -/
theorem Spells.unique {text : List Char} {n n' : Nat} (h : Spells text n) (h' : Spells text n') :
    n = n' := by
  have hread := readNat?_eq_some_iff.mpr ⟨h, Nat.lt_succ_of_le (Nat.le_max_left n n')⟩
  have hread' := readNat?_eq_some_iff.mpr ⟨h', Nat.lt_succ_of_le (Nat.le_max_right n n')⟩
  exact Option.some.inj (hread.symm.trans hread')

/-- Digits and plus signs are all there is in what spells a number. -/
theorem Spells.not_mem {text : List Char} {n : Nat} {c : Char} (h : Spells text n)
    (hdigit : c.isDigit = false) (hplus : c ≠ '+') : c ∉ text := by
  obtain ⟨digits, htext, -, hdigits, -⟩ := h
  have hnot : c ∉ digits := fun hmem => by
    rw [hdigits c hmem] at hdigit
    cases hdigit
  rcases htext with rfl | rfl
  · exact hnot
  · exact List.not_mem_cons_of_ne_of_not_mem hplus hnot

theorem Spells.ne_nil {text : List Char} {n : Nat} (h : Spells text n) : text ≠ [] := by
  obtain ⟨digits, rfl | rfl, hne, -⟩ := h
  · exact hne
  · exact List.cons_ne_nil _ _

theorem spells_decimal (n : Nat) : Spells (decimal n).toList n := by
  unfold decimal
  rw [String.toList_ofList]
  exact ⟨_, .inl rfl, Nat.toDigits_ne_nil,
    fun c => Nat.isDigit_of_mem_toDigits (by decide) (by decide),
    Nat.ofDigitChars_toDigits (by decide) (by decide)⟩

theorem spells_decimal_iff {n m : Nat} : Spells (decimal n).toList m ↔ n = m :=
  ⟨(spells_decimal n).unique, fun h => h ▸ spells_decimal n⟩

/-- Reading a number of a type that has all numbers below a bound. -/
theorem map_readNat?_eq_some_iff {α : Type} {bound : Nat} {ofNat : Nat → α} {toNat : α → Nat}
    (hof : ∀ n, n < bound → toNat (ofNat n) = n) (hto : ∀ v, ofNat (toNat v) = v)
    (hlt : ∀ v, toNat v < bound) {text : List Char} {v : α} :
    (readNat? bound text).map ofNat = some v ↔ Spells text (toNat v) := by
  rw [Option.map_eq_some_iff]
  constructor
  · rintro ⟨n, hn, rfl⟩
    obtain ⟨hspells, hbound⟩ := readNat?_eq_some_iff.mp hn
    rwa [hof n hbound]
  · exact fun hspells => ⟨toNat v, readNat?_eq_some_iff.mpr ⟨hspells, hlt v⟩, hto v⟩

theorem readUInt16?_eq_some_iff {text : List Char} {v : UInt16} :
    readUInt16? text = some v ↔ Spells text v.toNat :=
  map_readNat?_eq_some_iff (fun _ h => UInt16.toNat_ofNat_of_lt' h) (fun _ => UInt16.ofNat_toNat)
    UInt16.toNat_lt

theorem readUInt32?_eq_some_iff {text : List Char} {v : UInt32} :
    readUInt32? text = some v ↔ Spells text v.toNat :=
  map_readNat?_eq_some_iff (fun _ h => UInt32.toNat_ofNat_of_lt' h) (fun _ => UInt32.ofNat_toNat)
    UInt32.toNat_lt

theorem readUInt64?_eq_some_iff {text : List Char} {v : UInt64} :
    readUInt64? text = some v ↔ Spells text v.toNat :=
  map_readNat?_eq_some_iff (fun _ h => UInt64.toNat_ofNat_of_lt' h) (fun _ => UInt64.ofNat_toNat)
    UInt64.toNat_lt

theorem isDigit_of_mem_decimal {n : Nat} {c : Char} (h : c ∈ (decimal n).toList) :
    c.isDigit = true := by
  unfold decimal at h
  rw [String.toList_ofList] at h
  exact Nat.isDigit_of_mem_toDigits (by decide) (by decide) h

theorem not_mem_decimal {n : Nat} {c : Char} (h : c.isDigit = false) : c ∉ (decimal n).toList := by
  intro hmem
  rw [isDigit_of_mem_decimal hmem] at h
  cases h

end DevVm.Text
