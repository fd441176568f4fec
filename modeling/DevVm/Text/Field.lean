/-!
# Fields of a line

Cutting a text at a separator: at every occurrence (`fields`, inverted by `joinWith`) or
at the first one only (`cutAt`), and taking a fixed text off its front or its back.
-/

namespace DevVm.Text

/-- The parts of a text between the occurrences of a separator. There is always at least
one part, and parts may be empty. -/
def fields (sep : Char) : List Char → List (List Char)
  | [] => [[]]
  | c :: rest =>
    if c = sep then [] :: fields sep rest
    else match fields sep rest with
      | [] => [[c]]
      | part :: more => (c :: part) :: more

/-- Parts put together again, with a separator between two neighbours. -/
def joinWith (sep : List Char) : List (List Char) → List Char
  | [] => []
  | [part] => part
  | part :: more => part ++ sep ++ joinWith sep more

theorem fields_ne_nil (sep : Char) (text : List Char) : fields sep text ≠ [] := by
  cases text with
  | nil => simp [fields]
  | cons c rest =>
    rw [fields]
    split
    · simp
    · split <;> simp

/-- Joining the parts gives the text back. -/
theorem joinWith_fields (sep : Char) (text : List Char) :
    joinWith [sep] (fields sep text) = text := by
  induction text with
  | nil => rfl
  | cons c rest ih =>
    have hne := fields_ne_nil sep rest
    rw [fields]
    split
    · rename_i h
      cases hf : fields sep rest with
      | nil => exact absurd hf hne
      | cons part more => rw [hf] at ih; simp [joinWith, ih, h]
    · cases hf : fields sep rest with
      | nil => exact absurd hf hne
      | cons part more =>
        rw [hf] at ih
        cases more with
        | nil => simpa [joinWith] using ih
        | cons next more => simpa [joinWith] using ih

/-- No part holds the separator. -/
theorem sep_not_mem_of_mem_fields {sep : Char} {text part : List Char}
    (h : part ∈ fields sep text) : sep ∉ part := by
  induction text generalizing part with
  | nil => simp_all [fields]
  | cons c rest ih =>
    have hne := fields_ne_nil sep rest
    rw [fields] at h
    split at h
    · rcases List.mem_cons.1 h with rfl | h
      · simp
      · exact ih h
    · rename_i hc
      cases hf : fields sep rest with
      | nil => exact absurd hf hne
      | cons first more =>
        rw [hf] at h ih
        rcases List.mem_cons.1 h with rfl | h
        · have : sep ∉ first := ih List.mem_cons_self
          simp only [List.mem_cons, not_or]
          exact ⟨fun e => hc e.symm, this⟩
        · exact ih (List.mem_cons_of_mem _ h)

theorem fields_of_not_mem {sep : Char} {part : List Char} (h : sep ∉ part) :
    fields sep part = [part] := by
  induction part with
  | nil => rfl
  | cons c part ih =>
    obtain ⟨hc, hpart⟩ := not_or.mp (mt List.mem_cons.mpr h)
    rw [fields, if_neg (Ne.symm hc), ih hpart]

theorem fields_append {sep : Char} {part : List Char} (h : sep ∉ part) (rest : List Char) :
    fields sep (part ++ sep :: rest) = part :: fields sep rest := by
  induction part with
  | nil => rw [List.nil_append, fields, if_pos rfl]
  | cons c part ih =>
    obtain ⟨hc, hpart⟩ := not_or.mp (mt List.mem_cons.mpr h)
    rw [List.cons_append, fields, if_neg (Ne.symm hc), ih hpart]

/-- A separator parts the fields before it from those after it. -/
theorem fields_append_sep (sep : Char) (text rest : List Char) :
    fields sep (text ++ sep :: rest) = fields sep text ++ fields sep rest := by
  induction text with
  | nil => exact if_pos rfl
  | cons c text ih =>
    rw [List.cons_append, fields, fields, ih]
    split
    · rfl
    · cases hf : fields sep text with
      | nil => exact absurd hf (fields_ne_nil sep text)
      | cons part more => rfl

theorem joinWith_eq_intercalate (sep : List Char) (parts : List (List Char)) :
    joinWith sep parts = sep.intercalate parts := by
  induction parts with
  | nil => rfl
  | cons part more ih =>
    cases more with
    | nil => rw [joinWith, List.intercalate_singleton]
    | cons next more => rw [joinWith, ih, List.intercalate_cons_cons]; exact nofun

/-- Cutting up what was put together gives the parts back, if none of them holds the
separator. -/
theorem fields_intercalate {sep : Char} {parts : List (List Char)} (hne : parts ≠ [])
    (h : ∀ part ∈ parts, sep ∉ part) : fields sep ([sep].intercalate parts) = parts := by
  induction parts with
  | nil => exact absurd rfl hne
  | cons part more ih =>
    have hpart := h part List.mem_cons_self
    cases more with
    | nil => rw [List.intercalate_singleton, fields_of_not_mem hpart]
    | cons second more =>
      have hmore := ih (List.cons_ne_nil _ _) fun p hp => h p (List.mem_cons_of_mem _ hp)
      rw [List.intercalate_cons_cons, List.append_assoc, List.singleton_append,
        fields_append hpart, hmore]

/-- What stands before and after the first occurrence of a separator. -/
def cutAt (sep : Char) : List Char → Option (List Char × List Char)
  | [] => none
  | c :: rest =>
    if c = sep then some ([], rest)
    else (cutAt sep rest).map fun (before, after) => (c :: before, after)

/-- The cut is at the first occurrence, so the part before it is free of the separator. -/
theorem cutAt_append {sep : Char} {before : List Char} (h : sep ∉ before) (after : List Char) :
    cutAt sep (before ++ sep :: after) = some (before, after) := by
  induction before with
  | nil => simp [cutAt]
  | cons c before ih =>
    have hc : c ≠ sep := fun e => h (e ▸ List.mem_cons_self)
    simp [cutAt, hc, ih fun m => h (List.mem_cons_of_mem _ m)]

theorem cutAt_eq_some_iff {sep : Char} {text before after : List Char} :
    cutAt sep text = some (before, after) ↔ text = before ++ sep :: after ∧ sep ∉ before := by
  constructor
  · intro h
    induction text generalizing before with
    | nil => cases h
    | cons c rest ih =>
      rw [cutAt] at h
      split at h
      next hc =>
        obtain ⟨rfl, rfl⟩ := Prod.mk.inj (Option.some.inj h)
        rw [hc]
        exact ⟨rfl, List.not_mem_nil⟩
      next hc =>
        obtain ⟨⟨start, stop⟩, hcut, heq⟩ := Option.map_eq_some_iff.mp h
        cases heq
        obtain ⟨rfl, hnot⟩ := ih hcut
        exact ⟨rfl, fun hmem => (List.mem_cons.mp hmem).elim (fun heq => hc heq.symm) hnot⟩
  · rintro ⟨rfl, hnot⟩
    exact cutAt_append hnot after

theorem cutAt_eq_none_iff {sep : Char} {text : List Char} :
    cutAt sep text = none ↔ sep ∉ text := by
  induction text with
  | nil => simp [cutAt]
  | cons c rest ih =>
    by_cases hc : c = sep
    · simp [cutAt, hc]
    · simp [cutAt, hc, ih, Ne.symm hc]

/-- What comes after a text and is free of the separator goes to the part after the cut. -/
theorem cutAt_append_of_not_mem {sep : Char} {more : List Char} (h : sep ∉ more)
    (text : List Char) :
    cutAt sep (text ++ more) = (cutAt sep text).map fun cut => (cut.1, cut.2 ++ more) := by
  cases hcut : cutAt sep text with
  | none =>
    refine cutAt_eq_none_iff.mpr fun hmem => ?_
    exact (List.mem_append.mp hmem).elim (cutAt_eq_none_iff.mp hcut) h
  | some cut =>
    obtain ⟨rfl, hnot⟩ := cutAt_eq_some_iff.mp hcut
    rw [List.append_assoc, List.cons_append, cutAt_append hnot]
    rfl

/-- What follows a fixed text at the front, if the text starts with it. -/
def after? : (lead : List Char) → List Char → Option (List Char)
  | [], text => some text
  | _ :: _, [] => none
  | l :: lead, c :: rest => if l = c then after? lead rest else none

theorem after?_eq_some_iff {lead text rest : List Char} :
    after? lead text = some rest ↔ text = lead ++ rest := by
  fun_induction after? lead text <;> simp_all [eq_comm]

/-- What stands before a fixed text at the back, if the text ends with it. -/
def before? (trail text : List Char) : Option (List Char) :=
  (after? trail.reverse text.reverse).map List.reverse

theorem before?_eq_some_iff {trail text rest : List Char} :
    before? trail text = some rest ↔ text = rest ++ trail := by
  simp only [before?, Option.map_eq_some_iff, after?_eq_some_iff]
  constructor
  · rintro ⟨r, hr, rfl⟩
    rw [← List.reverse_reverse text, hr]; simp
  · rintro rfl
    exact ⟨rest.reverse, by simp, by simp⟩

/-- Whether a text occurs within another one. -/
def occursIn (part : List Char) : List Char → Bool
  | [] => part.isEmpty
  | c :: rest => (after? part (c :: rest)).isSome || occursIn part rest

theorem occursIn_eq_true_iff {part text : List Char} : occursIn part text = true ↔ part <:+: text := by
  induction text with
  | nil => rw [occursIn, List.isEmpty_iff, List.infix_nil]
  | cons c rest ih =>
    rw [occursIn, Bool.or_eq_true, ih, List.infix_cons_iff]
    refine or_congr_left ?_
    rw [Option.isSome_iff_exists]
    exact exists_congr fun trail => after?_eq_some_iff.trans eq_comm

end DevVm.Text
