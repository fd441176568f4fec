import DevVm.Proofs.Pages

/-!
# Short answers of the tool

Two of the tool's commands are answered with one line of interest among others: the value of extra
data after `Value: `, and the name of a new interface between single quotes. `extraData?` takes the
first line that has such a value, and `createdInterface?` the first that `Announces` an interface, and
both read back what was written, blanks and all (`answers_readBack`).

A line announces an interface if `successfully created` occurs anywhere behind the quoted name, so a
line that denies it may do so as well (`createdInterface?_denied`).
-/

namespace DevVm.Hypervisor

open Text

/-! ## The first line that is read -/

section FirstRead

variable {β : Type} {read : List Char → Option β}

/-- What is found is what the first line has that is read at all. -/
theorem findSome?_first (h : IgnoresReturn read) {before : List ClosedLine}
    (hbefore : ∀ l ∈ before, read l.chars = none) {line : LineText} (hne : line.chars ≠ []) {b : β}
    (hread : read line.chars = some b) (ending : Ending) :
    (lines (page before ++ (line.chars ++ ending.text))).findSome? read = some b := by
  obtain ⟨more, hmap⟩ := h.map_lines_ending before hne ending
  have hfound := congrArg (List.findSome? id) hmap
  have hnone : before.findSome? (id ∘ (read ·.chars)) = none :=
    List.findSome?_eq_none_iff.mpr hbefore
  rw [List.findSome?_map, Function.id_comp, List.findSome?_append, List.findSome?_map, hnone,
    Option.none_or, List.findSome?_cons, hread] at hfound
  exact hfound

end FirstRead

/-! ## Extra data -/

/-- What stands in front of a value. -/
def valueLead : List Char := "Value: ".toList

/-- A line that does not have a value. -/
structure ValuelessLine extends ClosedLine where
  valueless : ¬valueLead <+: trim chars

/-- A value: it is not empty and does not end in white space. -/
structure ValueText extends LineText where
  nonempty : chars ≠ []
  last : chars.getLast?.any isBlank = false

/-- The line that has a value. -/
def ValueText.line (v : ValueText) : LineText where
  chars := valueLead ++ v.chars
  oneLine := by
    rw [List.mem_append]
    exact fun hmem => hmem.elim (by decide) v.oneLine

theorem after?_eq_none_iff {lead text : List Char} : after? lead text = none ↔ ¬lead <+: text := by
  simp only [Option.eq_none_iff_forall_ne_some, ne_eq, after?_eq_some_iff]
  exact ⟨fun h ⟨rest, hrest⟩ => h rest hrest.symm, fun h rest hrest => h ⟨rest, hrest.symm⟩⟩

/-- Nothing is stripped from the line of a value: it starts with the lead and ends as the value
does. -/
theorem ValueText.after?_line (v : ValueText) :
    after? valueLead (trim v.line.chars) = some v.chars := by
  have hend : (valueLead ++ v.chars).getLast? = v.chars.getLast? :=
    List.getLast?_append_of_ne_nil _ v.nonempty
  have htrim : trim (valueLead ++ v.chars) = valueLead ++ v.chars := by
    refine trim_eq_self (fun c hc => ?_)
      ((Option.any_eq_false _ _).mp (hend.symm ▸ v.last))
    obtain rfl : 'V' = c := Option.some.inj hc
    decide
  exact after?_eq_some_iff.mpr htrim

theorem ignoresReturn_after?_trim {lead : List Char} :
    IgnoresReturn fun line => after? lead (trim line) :=
  fun line => congrArg (after? lead) (trim_append_return line)

theorem extraData?_eq_none_iff {output : String} :
    extraData? output = none ↔ ∀ line ∈ lines output.toList, ¬valueLead <+: trim line := by
  unfold extraData?
  rw [Option.map_eq_none_iff, List.findSome?_eq_none_iff]
  exact forall₂_congr fun line _ => after?_eq_none_iff

example : extraData? "No value set!\n" = none := by decide

theorem extraData?_ofList {text : List Char} : extraData? (String.ofList text) =
    ((lines text).findSome? fun line => after? valueLead (trim line)).map String.ofList := by
  have htext : (String.ofList text).toList = text := String.toList_ofList
  unfold extraData?
  rw [htext]
  rfl

theorem extraData?_line (before : List ValuelessLine) (v : ValueText) (ending : Ending) :
    extraData? (String.ofList
        (page (before.map (·.toClosedLine)) ++ (v.line.chars ++ ending.text))) =
      some (String.ofList v.chars) := by
  have hbefore : ∀ l ∈ before.map (·.toClosedLine), after? valueLead (trim l.chars) = none := by
    intro l hl
    obtain ⟨valueless, -, rfl⟩ := List.mem_map.mp hl
    exact after?_eq_none_iff.mpr valueless.valueless
  have hfirst := findSome?_first ignoresReturn_after?_trim hbefore
    (List.append_ne_nil_of_right_ne_nil _ v.nonempty) v.after?_line ending
  exact extraData?_ofList.trans (congrArg (Option.map String.ofList) hfirst)

/-! ## New interfaces -/

/-- A line announces an interface of a name: after trimming the name is there between single quotes,
behind `Interface `, and `successfully created` occurs further on. -/
def Announces (line name : List Char) : Prop :=
  ∃ tail, trim line = "Interface '".toList ++ (name ++ '\x27' :: tail) ∧ '\x27' ∉ name ∧
    "successfully created".toList <:+: tail

/-- A line that announces no interface. -/
structure SilentLine extends ClosedLine where
  silent : ∀ name, ¬Announces chars name

/-- A name that can be quoted. -/
structure QuotedName extends LineText where
  single : '\x27' ∉ chars

/-- The usual announcement of an interface. -/
def announcement (name : List Char) : List Char :=
  "Interface '".toList ++ (name ++ "' was successfully created".toList)

/-- The line that announces an interface in the usual way. -/
def QuotedName.line (name : QuotedName) : LineText where
  chars := announcement name.chars
  oneLine := by
    unfold announcement
    rw [List.mem_append, List.mem_append]
    exact fun hmem => hmem.elim (by decide) (·.elim name.oneLine (by decide))

theorem createdOfLine?_eq_some_iff {line : List Char} {name : String} :
    createdOfLine? line = some name ↔ Announces line name.toList := by
  unfold createdOfLine? Announces
  simp only [Option.bind_eq_bind, Option.bind_eq_some_iff, after?_eq_some_iff, Prod.exists,
    cutAt_eq_some_iff, Option.ite_none_right_eq_some, occursIn_eq_true_iff, Option.some_inj]
  constructor
  · rintro ⟨rest, hline, before, tail, ⟨rfl, hquote⟩, hcreated, rfl⟩
    have hbefore : (String.ofList before).toList = before := String.toList_ofList
    rw [hbefore]
    exact ⟨tail, hline, hquote, hcreated⟩
  · rintro ⟨tail, hline, hquote, hcreated⟩
    exact ⟨_, hline, _, tail, ⟨rfl, hquote⟩, hcreated, String.ofList_toList⟩

theorem createdOfLine?_eq_none_iff {line : List Char} :
    createdOfLine? line = none ↔ ∀ name, ¬Announces line name := by
  simp only [Option.eq_none_iff_forall_ne_some, ne_eq, createdOfLine?_eq_some_iff]
  refine ⟨fun h name => ?_, fun h name => h name.toList⟩
  have hname := h (String.ofList name)
  rwa [String.toList_ofList] at hname

/-- The usual announcement is one. -/
theorem announces_announcement {name : List Char} (h : '\x27' ∉ name) :
    Announces (announcement name) name := by
  refine ⟨" was successfully created".toList, ?_, h, ⟨" was ".toList, [], by decide⟩⟩
  refine trim_eq_self (fun c hc => ?_) fun c hc => ?_
  · obtain rfl : 'I' = c := Option.some.inj hc
    decide
  · have hend : (announcement name).getLast? = some 'd' := by
      unfold announcement
      rw [List.getLast?_append_of_ne_nil _ (by simp), List.getLast?_append_of_ne_nil _ (by decide)]
      decide
    rw [hend] at hc
    obtain rfl : 'd' = c := Option.some.inj hc
    decide

theorem ignoresReturn_createdOfLine? : IgnoresReturn createdOfLine? := by
  intro line
  unfold createdOfLine?
  rw [trim_append_return]

theorem createdInterface?_eq_none_iff {output : String} :
    createdInterface? output = none ↔
      ∀ line ∈ lines output.toList, ∀ name, ¬Announces line name := by
  unfold createdInterface?
  rw [List.findSome?_eq_none_iff]
  exact forall₂_congr fun line _ => createdOfLine?_eq_none_iff

theorem createdInterface?_line (before : List SilentLine) (name : QuotedName) (ending : Ending) :
    createdInterface? (String.ofList
        (page (before.map (·.toClosedLine)) ++ (name.line.chars ++ ending.text))) =
      some (String.ofList name.chars) := by
  have hbefore : ∀ l ∈ before.map (·.toClosedLine), createdOfLine? l.chars = none := by
    intro l hl
    obtain ⟨silent, -, rfl⟩ := List.mem_map.mp hl
    exact createdOfLine?_eq_none_iff.mpr silent.silent
  have hname : createdOfLine? name.line.chars = some (String.ofList name.chars) := by
    rw [createdOfLine?_eq_some_iff, String.toList_ofList]
    exact announces_announcement name.single
  unfold createdInterface?
  rw [String.toList_ofList]
  exact findSome?_first ignoresReturn_createdOfLine? hbefore (List.cons_ne_nil _ _) hname ending

/-! ## Both answers -/

/-- The value that was set and the interface that was created read back, and nothing is read where
nothing is said. -/
theorem answers_readBack :
    (∀ (before : List ValuelessLine) (v : ValueText) (ending : Ending),
      extraData? (String.ofList
          (page (before.map (·.toClosedLine)) ++ (v.line.chars ++ ending.text))) =
        some (String.ofList v.chars)) ∧
    (∀ output, extraData? output = none ↔
      ∀ line ∈ lines output.toList, ¬valueLead <+: trim line) ∧
    (∀ (before : List SilentLine) (name : QuotedName) (ending : Ending),
      createdInterface? (String.ofList
          (page (before.map (·.toClosedLine)) ++ (name.line.chars ++ ending.text))) =
        some (String.ofList name.chars)) ∧
    ∀ output, createdInterface? output = none ↔
      ∀ line ∈ lines output.toList, ∀ name, ¬Announces line name :=
  ⟨extraData?_line, fun _ => extraData?_eq_none_iff, createdInterface?_line,
    fun _ => createdInterface?_eq_none_iff⟩

/-- A value and a name that look like something else, after lines that look like theirs. -/
theorem answers_readBack_misleading :
    let unset : ClosedLine := ⟨⟨" Value: ".toList, by decide⟩, false⟩
    let value : ValueText := ⟨⟨"  Value: 10.0.0.5".toList, by decide⟩, by decide, by decide⟩
    let begun : ClosedLine := ⟨⟨"Interface 'vboxnet0' is being created".toList, by decide⟩, true⟩
    let name : QuotedName := ⟨⟨" successfully created ".toList, by decide⟩, by decide⟩
    extraData? (String.ofList (page [unset] ++
        (value.line.chars ++ (Ending.closed true "Value: 10.0.0.6".toList).text))) =
        some "  Value: 10.0.0.5" ∧
      extraData? "No value set!\n" = none ∧
      createdInterface? (String.ofList
          (page [begun] ++ (name.line.chars ++ Ending.unclosed.text))) =
        some " successfully created " ∧
      createdInterface? "0%...100%\nInterface 'vboxnet0'\n" = none := by
  intro unset value begun name
  obtain ⟨hvalue, hvalueless, hname, hsilent⟩ := answers_readBack
  refine ⟨hvalue [⟨unset, by decide⟩] value _, (hvalueless _).mpr (by decide),
    hname [⟨begun, createdOfLine?_eq_none_iff.mp (by decide)⟩] name _,
    (hsilent _).mpr ?_⟩
  rw [← createdInterface?_eq_none_iff]
  decide

/-- A line that has the usual announcement nowhere, and denies what it says, is taken for one. -/
theorem createdInterface?_denied :
    let output := "Interface 'vboxnet0' was not successfully created\n"
    (∀ line ∈ lines output.toList, ∀ name, ¬announcement name <:+: line) ∧
      createdInterface? output = some "vboxnet0" := by
  intro output
  have hlines : lines output.toList =
      ["Interface 'vboxnet0' was not successfully created".toList] := by decide +kernel
  refine ⟨fun line hline name hinfix => ?_, by decide +kernel⟩
  rw [hlines, List.mem_singleton] at hline
  have hbehind : "' was successfully created".toList <:+: announcement name :=
    ((List.suffix_append name _).trans (List.suffix_append _ _)).isInfix
  have hend := hbehind.trans hinfix
  rw [hline, ← occursIn_eq_true_iff] at hend
  exact absurd hend (by decide)

end DevVm.Hypervisor
