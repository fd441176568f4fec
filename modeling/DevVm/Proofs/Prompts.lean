import DevVm.Terminal

/-!
# Prompts and the lines that answer them

A conversation is a sequence of messages and questions on a terminal. Each question takes one line
of what the user typed, its own one, and a message takes none (`questions_take_their_lines`). So no
answer is ever held for the answer to another question, whatever octets were typed.

What was typed is looked at as a list of lines (`typed`), each with its line feed. A question takes
the first of them (`takeLine_eq`), and what is left is made of the others (`typed_rest`).
-/

namespace DevVm.Terminal

/-! ## Typed lines -/

/-- The lines of some input, each with the line feed that ends it, which the last one may lack. -/
def typed : Bytes → List Bytes
  | [] => []
  | b :: rest =>
    if b = newline then [b] :: typed rest
    else match typed rest with
      | [] => [[b]]
      | line :: more => (b :: line) :: more

section Typed

variable {line rest : Bytes}

/-- A line with its line feed comes off the front. -/
theorem typed_append (h : newline ∉ line) (rest : Bytes) :
    typed (line ++ newline :: rest) = (line ++ [newline]) :: typed rest := by
  induction line with
  | nil => exact if_pos rfl
  | cons b line ih =>
    obtain ⟨hb, hline⟩ := not_or.mp (mt List.mem_cons.mpr h)
    rw [List.cons_append, typed, if_neg (Ne.symm hb), ih hline]
    rfl

/-- What has no line feed is a line of its own. -/
theorem typed_unfinished (h : newline ∉ line) (hne : line ≠ []) : typed line = [line] := by
  induction line with
  | nil => exact absurd rfl hne
  | cons b line ih =>
    obtain ⟨hb, hline⟩ := not_or.mp (mt List.mem_cons.mpr h)
    rw [typed, if_neg (Ne.symm hb)]
    cases line with
    | nil => rfl
    | cons next line => rw [ih hline (List.cons_ne_nil _ _)]

/-- The lines are all of the input. -/
theorem flatten_typed (input : Bytes) : (typed input).flatten = input := by
  induction input with
  | nil => rfl
  | cons b rest ih =>
    rw [typed]
    split
    · rw [List.flatten_cons, ih, List.singleton_append]
    · split
      next hnone =>
        rw [hnone] at ih
        rw [← ih]
        rfl
      next line more hsome =>
        rw [hsome] at ih
        rw [← ih]
        rfl

/-- Behind the first line the other ones are left. -/
theorem typed_rest (input : Bytes) : typed (typed input).tail.flatten = (typed input).tail := by
  induction input with
  | nil => rfl
  | cons b rest ih =>
    rw [typed]
    split
    · rw [List.tail_cons, flatten_typed]
    · split
      next hnone => rfl
      next line more hsome =>
        rw [hsome] at ih
        exact ih

/-- Behind some lines the other ones are left. -/
theorem typed_drop (input : Bytes) (n : Nat) :
    typed ((typed input).drop n).flatten = (typed input).drop n := by
  induction n with
  | zero => rw [List.drop_zero, flatten_typed]
  | succ n ih =>
    have hrest := typed_rest ((typed input).drop n).flatten
    rwa [ih, List.tail_drop] at hrest

/-- The next line and what is behind it are what is left. -/
theorem flatten_drop (lines : List Bytes) (n : Nat) :
    (lines.drop n).flatten = lines.getD n [] ++ (lines.drop n).tail.flatten := by
  rw [List.getD_eq_getElem?_getD, ← List.head?_drop]
  cases lines.drop n <;> rfl

/-- What is taken for an answer is the first line. -/
theorem takeLine_eq (input : Bytes) :
    takeLine input = ((typed input).headD [], (typed input).tail.flatten) := by
  induction input with
  | nil => rfl
  | cons b rest ih =>
    rw [takeLine, typed]
    split
    · rw [List.tail_cons, flatten_typed, List.headD_cons]
    · rw [ih]
      split
      next hnone => rw [hnone]; rfl
      next line more hsome => rw [hsome]; rfl

end Typed

/-! ## Answers -/

/-- A line that says yes: a text that is `y` or `yes` in small letters, but for white space around
it. -/
def IsYes (line : Bytes) : Prop :=
  ∃ answer, line = Text.Utf8.encode answer ∧
    Text.lowerCase (Text.trim answer.toList) ∈ ["y".toList, "yes".toList]

theorem accepts_eq_true_iff {line : Bytes} : accepts line = true ↔ IsYes line := by
  have hyes (answer : String) : isYes answer = true ↔
      Text.lowerCase (Text.trim answer.toList) ∈ ["y".toList, "yes".toList] := by
    simp [isYes]
  unfold accepts
  constructor
  · intro h
    split at h
    next answer hanswer =>
      exact ⟨answer, Text.Utf8.decode?_eq_some_iff.mp hanswer, (hyes answer).mp h⟩
    next => cases h
  · rintro ⟨answer, hline, hword⟩
    rw [Text.Utf8.decode?_eq_some_iff.mpr hline]
    exact (hyes answer).mpr hword

/-! ## Conversations -/

/-- A message or a question. -/
inductive Prompt where
  | message (text : String)
  | question (text : String)
deriving DecidableEq, Repr

namespace Prompt

/-- Whether a prompt asks for an answer. -/
def asks : Prompt → Bool
  | message _ => false
  | question _ => true

/-- What a prompt puts on the terminal. The cursor stays behind a question. -/
def shown : Prompt → Bytes
  | message text => Text.Utf8.encode text ++ [newline]
  | question text => Text.Utf8.encode text

end Prompt

/-- The answers that were given to the questions among some prompts, and the terminal after all of
them. -/
def converse : List Prompt → Terminal → List Bool × Terminal
  | [], t => ([], t)
  | .message text :: more, t => converse more (t.tell text)
  | .question text :: more, t =>
    let (answer, t) := t.confirm text
    let (answers, t) := converse more t
    (answer :: answers, t)

section Conversations

variable {input output : Bytes}

theorem tell_eq (text : String) : ({ input, output } : Terminal).tell text =
    { input, output := output ++ (Prompt.message text).shown } := rfl

theorem confirm_eq (text : String) : ({ input, output } : Terminal).confirm text =
    (accepts ((typed input).headD []),
      { input := (typed input).tail.flatten
        output := output ++ (Prompt.question text).shown }) := by
  have htake := takeLine_eq input
  unfold confirm
  simp only [write, Bool.false_eq_true, if_false, htake]
  rfl

/-- The state that a conversation leaves. -/
theorem converse_snd (prompts : List Prompt) : (converse prompts { input, output }).2 =
    { input := ((typed input).drop (prompts.countP Prompt.asks)).flatten
      output := output ++ prompts.flatMap Prompt.shown } := by
  induction prompts generalizing input output with
  | nil => simp [converse, flatten_typed]
  | cons prompt more ih =>
    cases prompt with
    | message text =>
      rw [converse, tell_eq, ih, List.countP_cons_of_neg Bool.false_ne_true, List.flatMap_cons,
        List.append_assoc]
    | question text =>
      rw [converse, confirm_eq]
      show (converse more _).2 = _
      rw [ih, typed_rest, List.countP_cons_of_pos rfl, List.flatMap_cons, List.append_assoc,
        List.drop_tail]

/-- The answers of a conversation. -/
theorem converse_fst (prompts : List Prompt) : (converse prompts { input, output }).1 =
    (List.range (prompts.countP Prompt.asks)).map fun k => accepts ((typed input).getD k []) := by
  induction prompts generalizing input output with
  | nil => rfl
  | cons prompt more ih =>
    cases prompt with
    | message text => rw [converse, tell_eq, ih, List.countP_cons_of_neg Bool.false_ne_true]
    | question text =>
      rw [converse, confirm_eq]
      show _ :: (converse more _).1 = _
      rw [ih, typed_rest, List.countP_cons_of_pos rfl, List.range_succ_eq_map, List.map_cons,
        List.map_map]
      -- The lines that answer the later questions are the ones behind the first.
      cases typed input <;> rfl

/-- On a terminal that takes what is written, the questions of a conversation are answered by the
lines of the input, each by its own: one line is taken for each of them, to its line feed or to the
end of the input, and messages take nothing. What is put on the terminal is the prompts in order. A
question that cannot be written is declined and takes nothing either. -/
theorem questions_take_their_lines (input : Bytes) (prompts : List Prompt) :
    let asked := prompts.countP Prompt.asks
    let (answers, t) := converse prompts { input }
    answers.length = asked ∧
      (∀ k, answers[k]? = some true ↔ k < asked ∧ IsYes ((typed input).getD k [])) ∧
      t.input = ((typed input).drop asked).flatten ∧
      t.output = prompts.flatMap Prompt.shown ∧
      (∀ text, (t.tell text).input = t.input) ∧
      (∀ text, t.input = (typed input).getD asked [] ++ (t.confirm text).2.input) ∧
      ∀ text, let broken := { t with outputFails := true }
        broken.confirm text = (false, broken) := by
  dsimp only
  rw [converse_fst, converse_snd, List.nil_append]
  refine ⟨by rw [List.length_map, List.length_range], fun k => ?_, rfl, rfl, fun text => rfl,
    fun text => ?_, fun text => rfl⟩
  · rw [List.getElem?_map, ← accepts_eq_true_iff]
    by_cases hk : k < prompts.countP Prompt.asks
    · rw [List.getElem?_range hk, Option.map_some, Option.some_inj]
      exact (and_iff_right hk).symm
    · rw [List.getElem?_eq_none (by rw [List.length_range]; omega)]
      exact ⟨nofun, fun h => absurd h.1 hk⟩
  · rw [confirm_eq, typed_drop]
    exact flatten_drop _ _

end Conversations

end DevVm.Terminal
