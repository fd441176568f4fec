/-!
# White space

`isBlank` is the Unicode property `White_Space`, and `trim` strips it from both ends.
-/

namespace DevVm.Text

/-- The code points of the Unicode property `White_Space`, as closed ranges. -/
def blankRanges : List (Nat × Nat) :=
  [(0x09, 0x0D), (0x20, 0x20), (0x85, 0x85), (0xA0, 0xA0), (0x1680, 0x1680),
   (0x2000, 0x200A), (0x2028, 0x2029), (0x202F, 0x202F), (0x205F, 0x205F), (0x3000, 0x3000)]

/-- Whether one of the closed ranges holds the code point. -/
def inRanges (ranges : List (Nat × Nat)) (c : Char) : Bool :=
  ranges.any fun (lo, hi) => lo ≤ c.toNat && c.toNat ≤ hi

/-- Whether a character is white space. -/
def isBlank (c : Char) : Bool := inRanges blankRanges c

/-- A text without the white space it starts with. -/
def trimStart (text : List Char) : List Char := text.dropWhile isBlank

/-- A text without the white space it ends with. -/
def trimEnd (text : List Char) : List Char := (text.reverse.dropWhile isBlank).reverse

/-- A text without the white space around it. -/
def trim (text : List Char) : List Char := trimEnd (trimStart text)

@[simp] theorem trim_nil : trim [] = [] := rfl

theorem trimStart_eq_nil_iff {text : List Char} :
    trimStart text = [] ↔ ∀ c ∈ text, isBlank c = true := by
  unfold trimStart
  induction text with
  | nil => simp
  | cons c text ih => by_cases hc : isBlank c = true <;> simp [hc, ih]

/-- What is left at the front does not start with white space. -/
theorem isBlank_head_trimStart {text : List Char} {c : Char} (h : (trimStart text).head? = some c) :
    isBlank c = false := by
  have hhead := List.head?_dropWhile_not isBlank text
  rw [show text.dropWhile isBlank = trimStart text from rfl, h] at hhead
  exact hhead

/-- Nothing is left of a text that is white space throughout, and only of such a one. -/
theorem trim_eq_nil_iff {text : List Char} : trim text = [] ↔ ∀ c ∈ text, isBlank c = true := by
  rw [← trimStart_eq_nil_iff]
  constructor
  · intro h
    have hblank : ∀ c ∈ (trimStart text).reverse, isBlank c = true :=
      trimStart_eq_nil_iff.mp (List.reverse_eq_nil_iff.mp h)
    cases hleft : trimStart text with
    | nil => rfl
    | cons c more =>
      have hc := isBlank_head_trimStart (hleft ▸ List.head?_cons)
      rw [hblank c (by rw [hleft]; simp)] at hc
      cases hc
  · intro h
    rw [trim, h]
    rfl

/-- Nothing is stripped from a text that neither starts nor ends in white space. -/
theorem trim_eq_self {text : List Char} (hfirst : ∀ c ∈ text.head?, isBlank c = false)
    (hlast : ∀ c ∈ text.getLast?, isBlank c = false) : trim text = text := by
  have hs : trimStart text = text := by
    unfold trimStart
    match text with
    | [] => rfl
    | c :: rest => exact List.dropWhile_cons_of_neg (by simpa using hfirst c (by simp))
  rw [trim, hs, trimEnd]
  have : text.reverse.dropWhile isBlank = text.reverse := by
    match h : text.reverse with
    | [] => rfl
    | c :: rest =>
      refine List.dropWhile_cons_of_neg ?_
      have : text.getLast? = some c := by
        rw [← List.head?_reverse, h]; rfl
      simpa using hlast c (by simp [this])
  rw [this, List.reverse_reverse]

/-- White space in front of a text is stripped from it. -/
theorem trim_blanks_append {blanks : List Char} (h : ∀ c ∈ blanks, isBlank c = true)
    (text : List Char) : trim (blanks ++ text) = trim text := by
  unfold trim trimStart
  rw [List.dropWhile_append_of_pos h]

theorem trimEnd_append_blanks {blanks : List Char} (h : ∀ c ∈ blanks, isBlank c = true)
    (text : List Char) : trimEnd (text ++ blanks) = trimEnd text := by
  unfold trimEnd
  rw [List.reverse_append,
    List.dropWhile_append_of_pos fun c hc => h c (List.mem_reverse.mp hc)]

/-- White space after a text is stripped from it. -/
theorem trim_append_blanks {blanks : List Char} (h : ∀ c ∈ blanks, isBlank c = true)
    (text : List Char) : trim (text ++ blanks) = trim text := by
  unfold trim trimStart
  rw [List.dropWhile_append]
  split
  next hempty =>
    rw [List.isEmpty_iff.mp hempty, show blanks.dropWhile isBlank = [] from trimStart_eq_nil_iff.mpr h]
  next => exact trimEnd_append_blanks h _

/-- Stripping the end of a text leaves a start of it. -/
theorem trimEnd_isPrefix (text : List Char) : trimEnd text <+: text := by
  unfold trimEnd
  rw [← List.reverse_suffix, List.reverse_reverse]
  exact List.dropWhile_suffix _

end DevVm.Text
