/-!
# Lines of a text

A line ends at a line feed, and a carriage return just before that line feed
belongs to the line break. Text after the last line feed is a line of its own, with
nothing stripped from it; a text that ends in a line feed has no empty line after it.

`lines_append_newline` and `lines_append_crlf` say how one finished line is peeled off,
which is all that a proof about a text written line by line needs. `lines_closed` puts this
together for lines that are all written the same way.
-/

namespace DevVm.Text

/-- The lines of a text, without their line breaks. -/
def lines : List Char → List (List Char)
  | [] => []
  | '\n' :: rest => [] :: lines rest
  | '\r' :: '\n' :: rest => [] :: lines rest
  | c :: rest =>
    match lines rest with
    | [] => [[c]]
    | line :: more => (c :: line) :: more

@[simp] theorem lines_nil : lines [] = [] := by simp [lines]

@[simp] theorem lines_newline (rest : List Char) :
    lines ('\n' :: rest) = [] :: lines rest := by simp [lines]

@[simp] theorem lines_crlf (rest : List Char) :
    lines ('\r' :: '\n' :: rest) = [] :: lines rest := by simp [lines]

/-- Only the empty text has no lines. -/
theorem lines_eq_nil_iff {text : List Char} : lines text = [] ↔ text = [] := by
  fun_induction lines text <;> simp_all

/-- A character that is neither a line feed nor a carriage return starts the line it
stands before. -/
theorem lines_cons {c : Char} (hn : c ≠ '\n') (hr : c ≠ '\r') (rest : List Char) :
    lines (c :: rest) = match lines rest with
      | [] => [[c]]
      | line :: more => (c :: line) :: more := by
  rw [lines.eq_def]
  split <;> simp_all

/-- A line without line feeds, closed by a line feed and not ending in a carriage
return, comes off the front. -/
theorem lines_append_newline {line : List Char} (h : '\n' ∉ line)
    (hend : line.getLast? ≠ some '\r') (rest : List Char) :
    lines (line ++ '\n' :: rest) = line :: lines rest := by
  induction line with
  | nil => simp
  | cons c line ih =>
    have hc : c ≠ '\n' := fun e => h (e ▸ List.mem_cons_self)
    have hline : '\n' ∉ line := fun m => h (List.mem_cons_of_mem _ m)
    match line with
    | [] =>
      have hr : c ≠ '\r' := by simpa using hend
      simp [lines_cons hc hr]
    | d :: line =>
      have hd : d ≠ '\n' := fun e => hline (e ▸ List.mem_cons_self)
      have := ih hline (by simpa using hend)
      rw [List.cons_append] at *
      rw [lines.eq_def]
      split <;> simp_all

/-- A carriage return before the line feed is part of the line break. -/
theorem lines_append_crlf {line : List Char} (h : '\n' ∉ line) (rest : List Char) :
    lines (line ++ '\r' :: '\n' :: rest) = line :: lines rest := by
  induction line with
  | nil => simp
  | cons c line ih =>
    have hc : c ≠ '\n' := fun e => h (e ▸ List.mem_cons_self)
    have hline : '\n' ∉ line := fun m => h (List.mem_cons_of_mem _ m)
    have := ih hline
    rw [List.cons_append, lines.eq_def]
    split
    · simp_all
    · simp_all
    · rename_i heq
      match line with
      | [] => simp_all
      | d :: line =>
        have hd : d ≠ '\n' := fun e => hline (e ▸ List.mem_cons_self)
        simp_all
    · simp_all

/-- A line as it reads back once it has been closed by a line feed: a carriage return at its end
is taken for a part of the line break. -/
def readBack (line : List Char) : List Char :=
  if line.getLast? = some '\r' then line.dropLast else line

theorem readBack_prefix (line : List Char) : readBack line <+: line := by
  unfold readBack
  split
  · exact List.dropLast_prefix line
  · exact List.prefix_refl line

/-- Any line without line feeds, closed by one, comes off the front as it reads back. -/
theorem lines_append_readBack {line : List Char} (h : '\n' ∉ line) (rest : List Char) :
    lines (line ++ '\n' :: rest) = readBack line :: lines rest := by
  unfold readBack
  split
  next hend =>
    obtain ⟨start, rfl⟩ := List.getLast?_eq_some_iff.mp hend
    rw [List.append_assoc, List.dropLast_concat]
    exact lines_append_crlf (fun hmem => h (List.mem_append_left _ hmem)) rest
  next hend => exact lines_append_newline h hend rest

/-- Text after the last line feed is a line as it stands. -/
theorem lines_unclosed {line : List Char} (h : '\n' ∉ line) (hne : line ≠ []) :
    lines line = [line] := by
  induction line with
  | nil => exact absurd rfl hne
  | cons c line ih =>
    obtain ⟨hc, hline⟩ := not_or.mp (mt List.mem_cons.mpr h)
    cases line with
    | nil =>
      rw [lines.eq_def]
      split <;> simp_all
    | cons d line =>
      have hrest := ih hline (List.cons_ne_nil _ _)
      rw [lines.eq_def]
      split <;> simp_all

/-- Lines as a text, each closed by a line feed. -/
def closed (written : List (List Char)) : List Char := written.flatMap (· ++ ['\n'])

end DevVm.Text
