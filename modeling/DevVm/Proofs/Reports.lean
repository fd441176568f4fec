import DevVm.Proofs.Stopping
import DevVm.Text.Blank

/-!
# What the tool reports about a machine

The tool reports on a machine in lines of `key=value`, among others that are of no interest here. A
`ReportLine` is what a line says, and `printed` is a report in full. Whatever the order of the lines,
the breaks between them and the names in them: a size, a state and the forwarded ports read back as
they were printed (`report_readBack`), and a number that does not fit is refused.

Forwarding entries are of two kinds. Those of this program are the very texts that it hands to the
tool (`Tool.forwarding`); the others are made by hand and may hold anything in their six fields.
-/

namespace DevVm

namespace Hypervisor

open Text

/-- Quotes around a text come off, whatever it holds. -/
theorem unquote_quoted (text : List Char) : unquote ('"' :: text ++ ['"']) = text := by
  have htrim : trim ('"' :: text ++ ['"']) = '"' :: text ++ ['"'] := by
    refine trim_eq_self (fun c hc => ?_) fun c hc => ?_
    · obtain rfl : '"' = c := Option.some.inj hc
      decide
    · rw [List.getLast?_concat] at hc
      obtain rfl : '"' = c := Option.some.inj hc
      decide
  unfold unquote
  rw [htrim]
  dsimp only
  have hafter : after? ['"'] ('"' :: text ++ ['"']) = some (text ++ ['"']) :=
    after?_eq_some_iff.mpr rfl
  have hbefore : before? ['"'] (text ++ ['"']) = some text := before?_eq_some_iff.mpr rfl
  rw [hafter, Option.bind_some, hbefore]

/-- Whether a character is visible, and no quote. -/
def isPlain (c : Char) : Bool := '"' < c && c ≤ '~'

theorem isBlank_of_isPlain {c : Char} (h : isPlain c = true) : isBlank c = false := by
  unfold isPlain at h
  rw [Bool.and_eq_true, decide_eq_true_iff, decide_eq_true_iff] at h
  have hlow : '"'.toNat < c.toNat := h.1
  have hhigh : c.toNat ≤ '~'.toNat := h.2
  unfold isBlank inRanges
  rw [List.any_eq_false]
  intro range hmem
  have hbeside : range.2 ≤ '"'.toNat ∨ '~'.toNat < range.1 := by
    revert range
    decide
  rw [Bool.and_eq_true, decide_eq_true_iff, decide_eq_true_iff]
  omega

/-- A text that is plain throughout is left alone. -/
theorem unquote_plain {text : List Char} (h : text.all isPlain = true) : unquote text = text := by
  rw [List.all_eq_true] at h
  have htrim : trim text = text :=
    trim_eq_self (fun c hc => isBlank_of_isPlain (h c (List.mem_of_mem_head? hc)))
      fun c hc => isBlank_of_isPlain (h c (List.mem_of_mem_getLast? hc))
  have hafter : after? ['"'] text = none := by
    refine Option.eq_none_iff_forall_not_mem.mpr fun rest hrest => ?_
    have heq := after?_eq_some_iff.mp hrest
    exact absurd (h '"' (heq ▸ List.mem_cons_self)) (by decide)
  unfold unquote
  rw [htrim]
  dsimp only
  rw [hafter]
  rfl

/-! ## Reports -/

/-- A text in one line. -/
structure LineText where
  chars : List Char
  oneLine : '\n' ∉ chars

/-- A field of a forwarding entry. -/
structure EntryField extends LineText where
  single : ',' ∉ chars

/-- A forwarding entry: one that this program has made, or one with any six fields. -/
inductive Entry where
  | own (rule : EntryField) (hostPort guestPort : UInt16)
  | foreign (rule protocol hostAddress hostPort guestAddress guestPort : EntryField)

namespace Entry

/-- The name of an entry's rule. -/
def rule : Entry → String
  | own rule _ _ | foreign rule _ _ _ _ _ => String.ofList rule.chars

/-- An entry as it is written: a rule of this program as it was handed to the tool. -/
def text : Entry → List Char
  | own rule hostPort guestPort =>
    (Tool.forwarding (String.ofList rule.chars) hostPort guestPort).toList
  | foreign rule protocol hostAddress hostPort guestAddress guestPort =>
    [','].intercalate [rule.chars, protocol.chars, hostAddress.chars, hostPort.chars,
      guestAddress.chars, guestPort.chars]

/-- The entry forwards a port of the host, which a foreign one may spell in any way. -/
def Forwards (port : UInt16) : Entry → Prop
  | own _ hostPort _ => hostPort = port
  | foreign _ _ _ hostPort _ _ => Spells hostPort.chars port.toNat

end Entry

/-- The keys that are looked up by their names. -/
def namedKeys : List String := ["memory", "cpus", "VMState"]

/-- A line that states nothing of interest: it has no equals sign, or another key. -/
structure OtherLine extends LineText where
  irrelevant : ∀ key value, chars = key ++ '=' :: value → '=' ∉ key →
    String.ofList (unquote key) ∉ namedKeys ∧ ¬"Forwarding(".toList <+: unquote key

/-- A line of a report. -/
inductive ReportLine where
  | memory (amount : Nat)
  | cpus (count : Nat)
  | state (name : LineText)
  | forwarding (index : Nat) (entry : Entry)
  | other (line : OtherLine)

/-- The key of a forwarding entry. -/
def forwardingKey (index : Nat) : List Char :=
  "Forwarding(".toList ++ (decimal index).toList ++ [')']

/-- A line as it is written. -/
def ReportLine.text : ReportLine → List Char
  | memory amount => "memory".toList ++ '=' :: (decimal amount).toList
  | cpus count => "cpus".toList ++ '=' :: (decimal count).toList
  | state name => "VMState".toList ++ '=' :: ('"' :: name.chars ++ ['"'])
  | forwarding index entry => forwardingKey index ++ '=' :: ('"' :: entry.text ++ ['"'])
  | other line => line.chars

/-- A line with the line break after it. -/
structure PrintedLine where
  line : ReportLine
  crlf : Bool := false

def PrintedLine.text (l : PrintedLine) : List Char :=
  l.line.text ++ if l.crlf then ['\r', '\n'] else ['\n']

/-- A report as it is printed. -/
def printed (report : List PrintedLine) : String := String.ofList (report.flatMap PrintedLine.text)

/-! ## Entries -/

namespace Entry

/-- An entry is its six fields. -/
theorem text_eq (e : Entry) :
    ∃ rule protocol hostAddress hostPort guestAddress guestPort,
      e.text = [','].intercalate [rule, protocol, hostAddress, hostPort, guestAddress, guestPort] ∧
      (∀ field ∈ [rule, protocol, hostAddress, hostPort, guestAddress, guestPort],
        '\n' ∉ field ∧ ',' ∉ field) ∧
      e.rule = String.ofList rule ∧ ∀ port, readUInt16? hostPort = some port ↔ e.Forwards port := by
  cases e with
  | own rule hostPort guestPort =>
    refine ⟨rule.chars, "tcp".toList, loopback.toList, (decimal hostPort.toNat).toList, [],
      (decimal guestPort.toNat).toList, ?_, ?_, rfl, fun port => ?_⟩
    · simp [text, Tool.forwarding, List.intercalate]
    · have hdecimal : ∀ n, '\n' ∉ (decimal n).toList ∧ ',' ∉ (decimal n).toList := fun n =>
        ⟨not_mem_decimal (by decide), not_mem_decimal (by decide)⟩
      simp only [List.forall_mem_cons]
      exact ⟨⟨rule.oneLine, rule.single⟩, by decide, by decide, hdecimal _, by decide, hdecimal _,
        nofun⟩
    · exact (readUInt16?_eq_some_iff.trans spells_decimal_iff).trans UInt16.toNat_inj
  | foreign rule protocol hostAddress hostPort guestAddress guestPort =>
    refine ⟨_, _, _, _, _, _, rfl, ?_, rfl, fun port => readUInt16?_eq_some_iff⟩
    have hfield : ∀ field : EntryField, '\n' ∉ field.chars ∧ ',' ∉ field.chars := fun field =>
      ⟨field.oneLine, field.single⟩
    simp only [List.forall_mem_cons]
    exact ⟨hfield _, hfield _, hfield _, hfield _, hfield _, hfield _, nofun⟩

theorem newline_not_mem_text (e : Entry) : '\n' ∉ e.text := by
  obtain ⟨rule, protocol, hostAddress, hostPort, guestAddress, guestPort, htext, hfields, -⟩ :=
    e.text_eq
  rw [htext]
  simp only [List.forall_mem_cons] at hfields
  simp [List.intercalate, hfields]

/-- A rule finds the port that an entry of its name forwards, and no other. -/
theorem hostPort?_text {e : Entry} {rule : String} {port : UInt16} :
    hostPort? rule e.text = some port ↔ e.rule = rule ∧ e.Forwards port := by
  obtain ⟨name, protocol, hostAddress, hostPort, guestAddress, guestPort, htext, hfields, hrule,
    hport⟩ := e.text_eq
  unfold hostPort?
  rw [htext, fields_intercalate (List.cons_ne_nil _ _) fun part h => (hfields part h).2]
  dsimp only
  rw [Option.ite_none_right_eq_some, hport, hrule, ← String.toList_inj, String.toList_ofList]

end Entry

/-! ## Lines -/

/-- A key or a value in a line, and what it reads back as. -/
structure Written (written text : List Char) : Prop where
  oneLine : '\n' ∉ written
  whole : written.getLast? ≠ some '\r'
  unquoted : unquote written = text

theorem written_plain {text : List Char} (h : text.all isPlain = true) : Written text text where
  oneLine hmem := absurd (List.all_eq_true.mp h '\n' hmem) (by decide)
  whole hend := absurd (List.all_eq_true.mp h '\r' (List.mem_of_getLast? hend)) (by decide)
  unquoted := unquote_plain h

theorem written_quoted {text : List Char} (h : '\n' ∉ text) :
    Written ('"' :: text ++ ['"']) text where
  oneLine hmem := by
    rw [List.cons_append, List.mem_cons, List.mem_append, List.mem_singleton] at hmem
    exact hmem.elim (by decide) (·.elim h (by decide))
  whole hend := by
    rw [List.getLast?_concat] at hend
    exact absurd (Option.some.inj hend) (by decide)
  unquoted := unquote_quoted text

theorem decimal_all_isPlain (n : Nat) : (decimal n).toList.all isPlain = true := by
  rw [List.all_eq_true]
  intro c hmem
  have hdigit := isDigit_of_mem_decimal hmem
  rw [Char.isDigit, Bool.and_eq_true, decide_eq_true_iff, decide_eq_true_iff] at hdigit
  unfold isPlain
  rw [Bool.and_eq_true, decide_eq_true_iff, decide_eq_true_iff]
  exact ⟨Nat.lt_of_lt_of_le (by decide : 34 < 48) hdigit.1,
    Nat.le_trans hdigit.2 (by decide : 57 ≤ 126)⟩

theorem written_decimal (n : Nat) : Written (decimal n).toList (decimal n).toList :=
  written_plain (decimal_all_isPlain n)

theorem written_forwardingKey (index : Nat) :
    Written (forwardingKey index) (forwardingKey index) := by
  refine written_plain ?_
  unfold forwardingKey
  rw [List.all_append, List.all_append, decimal_all_isPlain]
  decide

theorem equals_not_mem_forwardingKey (index : Nat) : '=' ∉ forwardingKey index := by
  unfold forwardingKey
  rw [List.mem_append, List.mem_append]
  rintro ((hlead | hdigit) | hend)
  · exact absurd hlead (by decide)
  · exact not_mem_decimal (by decide) hdigit
  · exact absurd hend (by decide)

namespace ReportLine

/-- What a line states, if it is of interest. -/
def fact? : ReportLine → Option Fact
  | memory amount => some ⟨"memory", decimal amount⟩
  | cpus count => some ⟨"cpus", decimal count⟩
  | state name => some ⟨"VMState", String.ofList name.chars⟩
  | forwarding index entry =>
    some ⟨String.ofList (forwardingKey index), String.ofList entry.text⟩
  | other _ => none

/-- A line of interest is its key, an equals sign and its value. -/
theorem text_of_fact? {line : ReportLine} {fact : Fact} (h : line.fact? = some fact) :
    ∃ key value, line.text = key ++ '=' :: value ∧ '=' ∉ key ∧ Written key fact.key.toList ∧
      Written value fact.value.toList := by
  cases line with
  | memory amount =>
    cases h
    exact ⟨_, _, rfl, by decide, written_plain (by decide), written_decimal amount⟩
  | cpus count =>
    cases h
    exact ⟨_, _, rfl, by decide, written_plain (by decide), written_decimal count⟩
  | state name =>
    cases h
    refine ⟨_, _, rfl, by decide, written_plain (by decide), ?_⟩
    rw [String.toList_ofList]
    exact written_quoted name.oneLine
  | forwarding index entry =>
    cases h
    refine ⟨_, _, rfl, equals_not_mem_forwardingKey index, ?_, ?_⟩
    · rw [String.toList_ofList]
      exact written_forwardingKey index
    · rw [String.toList_ofList]
      exact written_quoted entry.newline_not_mem_text
  | other line => cases h

theorem newline_not_mem_text (line : ReportLine) : '\n' ∉ line.text := by
  cases hfact : line.fact? with
  | some fact =>
    obtain ⟨key, value, htext, -, hkey, hvalue⟩ := text_of_fact? hfact
    rw [htext, List.mem_append, List.mem_cons]
    exact fun h => h.elim hkey.oneLine (·.elim (by decide) hvalue.oneLine)
  | none =>
    cases line with
    | other line => exact line.oneLine
    | _ => cases hfact

end ReportLine

namespace PrintedLine

/-- A line as it reads back. -/
def asRead (l : PrintedLine) : List Char := if l.crlf then l.line.text else readBack l.line.text

theorem lines_text_append (l : PrintedLine) (rest : List Char) :
    lines (l.text ++ rest) = l.asRead :: lines rest := by
  unfold PrintedLine.text asRead
  rw [List.append_assoc]
  split
  · exact lines_append_crlf l.line.newline_not_mem_text rest
  · exact lines_append_readBack l.line.newline_not_mem_text rest

theorem asRead_isPrefix (l : PrintedLine) : l.asRead <+: l.line.text := by
  unfold asRead
  split
  · exact List.prefix_refl _
  · exact readBack_prefix _

/-- A line of interest states its fact. -/
theorem factOfLine?_asRead {l : PrintedLine} {fact : Fact} (h : l.line.fact? = some fact) :
    factOfLine? l.asRead = some fact := by
  obtain ⟨key, value, htext, hequals, hkey, hvalue⟩ := ReportLine.text_of_fact? h
  have hend : (key ++ '=' :: value).getLast? ≠ some '\r' := by
    rw [List.getLast?_append, List.getLast?_cons]
    cases hlast : value.getLast? with
    | none => exact fun hend => nomatch hend
    | some c => exact fun hend => hvalue.whole (hlast.trans hend)
  have hread : l.asRead = key ++ '=' :: value := by
    unfold asRead readBack
    rw [htext, if_neg hend, ite_self]
  unfold factOfLine?
  rw [hread, cutAt_append hequals]
  dsimp only [Option.bind_eq_bind, Option.bind_some]
  rw [hkey.unquoted, hvalue.unquoted, String.ofList_toList, String.ofList_toList]
  rfl

end PrintedLine

theorem facts_printed (report : List PrintedLine) :
    facts (printed report) = report.filterMap (factOfLine? ·.asRead) := by
  have hlines : lines (report.flatMap PrintedLine.text) = report.map PrintedLine.asRead := by
    induction report with
    | nil => exact lines_nil
    | cons l more ih => rw [List.flatMap_cons, l.lines_text_append, ih, List.map_cons]
  unfold facts printed
  rw [String.toList_ofList, hlines, List.filterMap_map]
  rfl

/-! ## Readers -/

/-- A fact that a reader of reports may look for. -/
def Fact.OfInterest (fact : Fact) : Prop :=
  fact.key ∈ namedKeys ∨ forwardingLead <+: fact.key.toList

/-- Other lines state nothing of interest, whatever a line break takes away from them. -/
theorem OtherLine.not_ofInterest (line : OtherLine) {read : List Char} (h : read <+: line.chars)
    {fact : Fact} (hfact : factOfLine? read = some fact) : ¬fact.OfInterest := by
  unfold factOfLine? at hfact
  obtain ⟨⟨key, value⟩, hcut, hfact⟩ := Option.bind_eq_some_iff.mp hfact
  obtain ⟨hread, hequals⟩ := cutAt_eq_some_iff.mp hcut
  obtain rfl := Option.some.inj hfact
  obtain ⟨more, hmore⟩ := h
  have hline : line.chars = key ++ '=' :: (value ++ more) := by
    rw [← hmore, hread, List.append_assoc, List.cons_append]
  obtain ⟨hkey, hlead⟩ := line.irrelevant key _ hline hequals
  rintro (hmem | hprefix)
  · exact hkey hmem
  · rw [String.toList_ofList] at hprefix
    exact hlead hprefix

/-- What is found in a report is found by going through its lines. -/
theorem findSome?_printed {α : Type} {read : Fact → Option α}
    (hread : ∀ fact, ¬fact.OfInterest → read fact = none) (report : List PrintedLine) :
    (facts (printed report)).findSome? read = report.findSome? (·.line.fact?.bind read) := by
  rw [facts_printed, ← List.head?_filterMap, List.filterMap_filterMap, List.head?_filterMap]
  congr
  funext l
  cases hfact : l.line.fact? with
  | some fact => rw [PrintedLine.factOfLine?_asRead hfact]
  | none =>
    rw [Option.bind_none, Option.bind_eq_none_iff]
    intro fact hstated
    cases hline : l.line with
    | other line =>
      have hprefix := l.asRead_isPrefix
      rw [hline] at hprefix
      exact hread fact (line.not_ofInterest hprefix hstated)
    | _ =>
      rw [hline] at hfact
      cases hfact

/-! ## What is read -/

namespace ReportLine

/-- The memory a line states. -/
def memory? : ReportLine → Option Nat
  | memory amount => some amount
  | _ => none

/-- The processors a line states. -/
def cpus? : ReportLine → Option Nat
  | cpus count => some count
  | _ => none

/-- The state a line states. -/
def state? : ReportLine → Option String
  | state name => some (String.ofList name.chars)
  | _ => none

/-- The forwarding entry a line states. -/
def entry? : ReportLine → Option Entry
  | forwarding _ entry => some entry
  | _ => none

end ReportLine

/-- The forwarding entries of a report, in order. -/
def entries (report : List PrintedLine) : List Entry := report.filterMap (·.line.entry?)

theorem forwardingLead_isPrefix (index : Nat) : forwardingLead <+: forwardingKey index := by
  unfold forwardingKey
  rw [List.append_assoc]
  exact List.prefix_append _ _

theorem not_forwardingLead_isPrefix (key : String) (h : key ∈ namedKeys) :
    ¬forwardingLead <+: key.toList := by
  revert h key
  decide

theorem forwardingKey_ne {key : String} (h : key ∈ namedKeys) (index : Nat) :
    String.ofList (forwardingKey index) ≠ key := by
  rintro rfl
  have hnot := not_forwardingLead_isPrefix _ h
  rw [String.toList_ofList] at hnot
  exact hnot (forwardingLead_isPrefix index)

/-- The value of a fact about a key. -/
def Fact.valueOf? (key : String) (fact : Fact) : Option String :=
  if fact.key = key then some fact.value else none

/-- The port of a rule in a fact about an entry. -/
def Fact.portOf? (rule : String) (fact : Fact) : Option UInt16 :=
  if forwardingLead <+: fact.key.toList then hostPort? rule fact.value.toList else none

theorem factValue?_eq_findSome? (key : String) (facts : List Fact) :
    factValue? key facts = facts.findSome? (Fact.valueOf? key) := by
  unfold factValue?
  rw [List.find?_eq_findSome?_guard, List.map_findSome?]
  congr
  funext fact
  unfold Fact.valueOf?
  dsimp only [Function.comp_apply, Option.guard]
  split
  next h => rw [if_pos (of_decide_eq_true h), Option.map_some]
  next h => rw [if_neg (of_decide_eq_false (Bool.not_eq_true _ ▸ h)), Option.map_none]

theorem forwardedPort?_eq_findSome? (rule : String) (facts : List Fact) :
    forwardedPort? rule facts = facts.findSome? (Fact.portOf? rule) := by
  unfold forwardedPort? Fact.portOf?
  rw [← List.head?_filterMap, ← List.head?_filterMap, List.filterMap_filter]
  simp only [List.isPrefixOf_iff_prefix]

theorem valueOf?_forwardingKey {value : String} {index : Nat} (key : String)
    (h : key ∈ namedKeys) :
    Fact.valueOf? key ⟨String.ofList (forwardingKey index), value⟩ = none :=
  if_neg (forwardingKey_ne h index)

theorem portOf?_forwardingKey {rule : String} (index : Nat) (entry : List Char) :
    Fact.portOf? rule ⟨String.ofList (forwardingKey index), String.ofList entry⟩ =
      hostPort? rule entry := by
  unfold Fact.portOf?
  dsimp only
  rw [String.toList_ofList, if_pos (forwardingLead_isPrefix index), String.toList_ofList]

theorem portOf?_eq_none {rule value : String} (key : String)
    (h : key ∈ namedKeys) : Fact.portOf? rule ⟨key, value⟩ = none :=
  if_neg (not_forwardingLead_isPrefix key h)

/-- An entry is one for a rule: it has its name and forwards a port. -/
def Entry.IsFor (rule : String) (e : Entry) : Prop := e.rule = rule ∧ ∃ port, e.Forwards port

theorem Entry.hostPort?_eq_none_iff {e : Entry} {rule : String} :
    hostPort? rule e.text = none ↔ ¬e.IsFor rule := by
  simp only [Option.eq_none_iff_forall_ne_some, ne_eq, hostPort?_text, IsFor, not_and, not_exists]
  exact forall_comm

/-- The first entry for a rule forwards a port. -/
def FirstForwards (rule : String) (port : UInt16) (es : List Entry) : Prop :=
  ∃ before entry after, es = before ++ entry :: after ∧ entry.rule = rule ∧ entry.Forwards port ∧
    ∀ earlier ∈ before, ¬earlier.IsFor rule

section Readers

variable {report : List PrintedLine}

/-- The value of a key is what the first line that states one says. -/
theorem factValue?_printed {key : String} (value? : ReportLine → Option String)
    (h : key ∈ namedKeys)
    (hvalue : ∀ line : ReportLine, line.fact?.bind (Fact.valueOf? key) = value? line) :
    factValue? key (facts (printed report)) = report.findSome? (value? ·.line) := by
  rw [factValue?_eq_findSome?, findSome?_printed]
  · simp only [hvalue]
  · intro fact hfact
    refine if_neg ?_
    rintro rfl
    exact hfact (.inl h)

theorem factValue?_memory : factValue? "memory" (facts (printed report)) =
    (report.findSome? (·.line.memory?)).map decimal := by
  rw [List.map_findSome?]
  refine factValue?_printed (·.memory?.map decimal) (by decide) fun line => ?_
  cases line with
  | forwarding index entry =>
    rw [ReportLine.fact?, Option.bind_some, valueOf?_forwardingKey "memory" (by decide)]
    rfl
  | _ => rfl

theorem factValue?_cpus : factValue? "cpus" (facts (printed report)) =
    (report.findSome? (·.line.cpus?)).map decimal := by
  rw [List.map_findSome?]
  refine factValue?_printed (·.cpus?.map decimal) (by decide) fun line => ?_
  cases line with
  | forwarding index entry =>
    rw [ReportLine.fact?, Option.bind_some, valueOf?_forwardingKey "cpus" (by decide)]
    rfl
  | _ => rfl

theorem factValue?_state : factValue? "VMState" (facts (printed report)) =
    report.findSome? (·.line.state?) := by
  refine factValue?_printed ReportLine.state? (by decide) fun line => ?_
  cases line with
  | forwarding index entry =>
    rw [ReportLine.fact?, Option.bind_some, valueOf?_forwardingKey "VMState" (by decide)]
    rfl
  | _ => rfl

theorem forwardedPort?_printed (rule : String) : forwardedPort? rule (facts (printed report)) =
    (entries report).findSome? (hostPort? rule ·.text) := by
  have hentries : (entries report).findSome? (hostPort? rule ·.text) =
      report.findSome? fun l => l.line.entry?.bind (hostPort? rule ·.text) := by
    unfold entries
    rw [← List.head?_filterMap, List.filterMap_filterMap, List.head?_filterMap]
  have hbeside : ∀ fact : Fact, ¬fact.OfInterest → fact.portOf? rule = none :=
    fun fact hfact => if_neg fun h => hfact (.inr h)
  rw [forwardedPort?_eq_findSome?, findSome?_printed hbeside, hentries]
  congr
  funext l
  cases l.line with
  | forwarding index entry =>
    rw [ReportLine.fact?, Option.bind_some, portOf?_forwardingKey]
    rfl
  | other line => rfl
  | memory amount =>
    rw [ReportLine.fact?, Option.bind_some, portOf?_eq_none "memory" (by decide)]
    rfl
  | cpus count =>
    rw [ReportLine.fact?, Option.bind_some, portOf?_eq_none "cpus" (by decide)]
    rfl
  | state name =>
    rw [ReportLine.fact?, Option.bind_some, portOf?_eq_none "VMState" (by decide)]
    rfl

/-- A size is read if there is one, and only if its numbers fit. -/
theorem size?_printed {size : MachineSize} : size? (facts (printed report)) = some size ↔
    report.findSome? (·.line.memory?) = some size.memory.toNat ∧
      report.findSome? (·.line.cpus?) = some size.cpus.toNat := by
  unfold size?
  rw [factValue?_memory, factValue?_cpus]
  simp only [Option.bind_eq_bind, Option.bind_eq_some_iff, Option.map_eq_some_iff]
  constructor
  · rintro ⟨_, ⟨amount, hamount, rfl⟩, memory, hmemory, _, ⟨count, hcount, rfl⟩, cpus, hcpus, hsize⟩
    obtain rfl := Option.some.inj hsize
    rw [hamount, hcount, spells_decimal_iff.mp (readUInt64?_eq_some_iff.mp hmemory),
      spells_decimal_iff.mp (readUInt32?_eq_some_iff.mp hcpus)]
    exact ⟨rfl, rfl⟩
  · rintro ⟨hmemory, hcpus⟩
    exact ⟨_, ⟨_, hmemory, rfl⟩, _, readUInt64?_eq_some_iff.mpr (spells_decimal _), _,
      ⟨_, hcpus, rfl⟩, _, readUInt32?_eq_some_iff.mpr (spells_decimal _), rfl⟩

theorem isSaved_printed : isSaved (facts (printed report)) = true ↔
    report.findSome? (·.line.state?) = some "saved" := by
  unfold isSaved
  rw [factValue?_state, decide_eq_true_iff]

/-- A rule's port is that of the first entry of its name that forwards one. -/
theorem forwardedPort?_eq_some_iff {rule : String} {port : UInt16} :
    forwardedPort? rule (facts (printed report)) = some port ↔
      FirstForwards rule port (entries report) := by
  simp only [forwardedPort?_printed, List.findSome?_eq_some_iff, Entry.hostPort?_text,
    Entry.hostPort?_eq_none_iff, and_assoc, FirstForwards]

theorem forwardedPort?_eq_none_iff {rule : String} :
    forwardedPort? rule (facts (printed report)) = none ↔
      ∀ entry ∈ entries report, ¬entry.IsFor rule := by
  simp only [forwardedPort?_printed, List.findSome?_eq_none_iff, Entry.hostPort?_eq_none_iff]

end Readers

/-! ## Round trips -/

/-- The command that asks for a report about a machine. -/
def Tool.asking (tool : Tool) (name : String) : Command :=
  ⟨tool.program, ["showvminfo", name, "--machinereadable"]⟩

/-- A reply hands over a text: the command succeeded and wrote it. -/
def Hands (text : List Char) (reply : Option Output) : Prop :=
  ∃ output, reply = some output ∧ output.status.isSuccess = true ∧
    output.out = Utf8.encode (String.ofList text)

theorem Hands.verdict_eq {text : List Char} {reply : Option Output} (h : Hands text reply)
    (command : Command) : verdict command reply = .ok (String.ofList text) := by
  obtain ⟨output, rfl, hsuccess, hout⟩ := h
  have hchecked : command.checked (some output) = .ok output := if_pos hsuccess
  unfold verdict Command.text
  rw [hchecked, Except.map, hout, Utf8.decodeLossy_encode]
  rfl

/-- A reply is a report: the command succeeded and wrote it. -/
def Prints (report : List PrintedLine) (reply : Option Output) : Prop :=
  ∃ output, reply = some output ∧ output.status.isSuccess = true ∧
    output.out = Utf8.encode (printed report)

section Asking

variable {σ : Type} {host : Host runnerSignature σ} {tool : Tool} {name : String} {s : σ}
  {report : List PrintedLine}

theorem Prints.verdict_eq {command : Command} {reply : Option Output} (h : Prints report reply) :
    verdict command reply = .ok (printed report) :=
  Hands.verdict_eq h command

/-- What is made of the facts about a machine is made of those in its report. -/
theorem result_describe {α : Type} (h : Prints report (host.answer (.run (tool.asking name)) s).1)
    (f : List Fact → ToolTask α) :
    (Program.run host (ExceptT.run (tool.describe name >>= f)) s).result =
      (Program.run host (ExceptT.run (f (facts (printed report))))
        (host.answer (.run (tool.asking name)) s).2).result := by
  rcases hanswer : host.answer (.run (tool.asking name)) s with ⟨reply, s₁⟩
  rw [hanswer] at h
  have hasked := run_reading facts (run_invoke hanswer)
  rw [show verdict _ reply = _ from h.verdict_eq] at hasked
  rw [show Program.run host (ExceptT.run (tool.describe name >>= f)) s = _ from run_bind_ok hasked]
  rfl

theorem result_size (h : Prints report (host.answer (.run (tool.asking name)) s).1) :
    (Program.run host (ExceptT.run (tool.size name)) s).result =
      some ((size? (facts (printed report))).elim
        (.error (.parse ("VBoxManage showvminfo " ++ name ++ " --machinereadable")
          "missing memory or cpus")) .ok) := by
  unfold Tool.size
  rw [result_describe h]
  cases size? (facts (printed report)) with
  | some size => rfl
  | none => rfl

theorem result_isSaved (h : Prints report (host.answer (.run (tool.asking name)) s).1) :
    (Program.run host (ExceptT.run (tool.perform (.isSaved name))) s).result =
      some (.ok (isSaved (facts (printed report)))) :=
  result_describe h fun facts => pure (isSaved facts)

theorem result_forwardedPort (h : Prints report (host.answer (.run (tool.asking name)) s).1)
    (rule : String) :
    (Program.run host (ExceptT.run (tool.perform (.forwardedPort name rule))) s).result =
      some (.ok (forwardedPort? rule (facts (printed report)))) :=
  result_describe h fun facts => pure (forwardedPort? rule facts)

end Asking

/-- What the tool reports about a machine is what this program finds in it. -/
theorem report_readBack {σ : Type} (host : Host runnerSignature σ) (tool : Tool) (name : String)
    (report : List PrintedLine) (s : σ)
    (h : Prints report (host.answer (.run (tool.asking name)) s).1) :
    let result := fun call : HypervisorCall =>
      (Program.run host (ExceptT.run (tool.perform call)) s).result
    (∀ (memory : UInt64) (cpus : UInt32),
      report.findSome? (·.line.memory?) = some memory.toNat →
      report.findSome? (·.line.cpus?) = some cpus.toNat →
      result (.size name) = some (.ok ⟨memory, cpus⟩)) ∧
    ((∀ memory ∈ report.findSome? (·.line.memory?), UInt64.size ≤ memory) ∨
      (∀ cpus ∈ report.findSome? (·.line.cpus?), UInt32.size ≤ cpus) →
      result (.size name) = some (.error
        (.parse ("VBoxManage showvminfo " ++ name ++ " --machinereadable")
          "missing memory or cpus"))) ∧
    (∃ saved : Bool, result (.isSaved name) = some (.ok saved) ∧
      (saved = true ↔ report.findSome? (·.line.state?) = some "saved")) ∧
    ∀ rule, ∃ port? : Option UInt16, result (.forwardedPort name rule) = some (.ok port?) ∧
      (∀ port, port? = some port ↔ FirstForwards rule port (entries report)) ∧
      (port? = none ↔ ∀ entry ∈ entries report, ¬entry.IsFor rule) := by
  refine ⟨fun memory cpus hmemory hcpus => ?_, fun hunfit => ?_,
    ⟨_, result_isSaved h, isSaved_printed⟩,
    fun rule => ⟨_, result_forwardedPort h rule, fun port => forwardedPort?_eq_some_iff,
      forwardedPort?_eq_none_iff⟩⟩
  · have hsize : size? (facts (printed report)) = some ⟨memory, cpus⟩ :=
      size?_printed.mpr ⟨hmemory, hcpus⟩
    exact (result_size h).trans (hsize ▸ rfl)
  · have hsize : size? (facts (printed report)) = none := by
      refine Option.eq_none_iff_forall_ne_some.mpr fun size hsome => ?_
      obtain ⟨hmemory, hcpus⟩ := size?_printed.mp hsome
      rcases hunfit with hmem | hcpu
      · exact absurd (hmem _ hmemory) (Nat.not_le_of_gt size.memory.toNat_lt)
      · exact absurd (hcpu _ hcpus) (Nat.not_le_of_gt size.cpus.toNat_lt)
    exact (result_size h).trans (hsize ▸ rfl)

/-- An entry by hand whose port is not one. -/
def closedEntry : Entry :=
  .foreign ⟨⟨"ssh".toList, by decide⟩, by decide⟩ ⟨⟨"tcp".toList, by decide⟩, by decide⟩
    ⟨⟨[], by decide⟩, by decide⟩ ⟨⟨"closed".toList, by decide⟩, by decide⟩
    ⟨⟨[], by decide⟩, by decide⟩ ⟨⟨"22".toList, by decide⟩, by decide⟩

/-- A rule with quotes, blanks and an equals sign in its name. -/
def oddEntry : Entry := .own ⟨⟨" a = \"b\" ".toList, by decide⟩, by decide⟩ 8080 80

def sshEntry : Entry := .own ⟨⟨"ssh".toList, by decide⟩, by decide⟩ 50022 22

/-- A line about something else. -/
def nameLine : OtherLine where
  chars := "name=\"dev\"".toList
  oneLine := by decide
  irrelevant key value hline hequals := by
    obtain ⟨rfl, rfl⟩ := Prod.mk.inj (Option.some.inj (cutAt_eq_some_iff.mpr ⟨hline, hequals⟩))
    decide

/-- A report with a given amount of memory. -/
def surveyed (amount : Nat) : List PrintedLine :=
  [⟨.other nameLine, true⟩, ⟨.forwarding 0 closedEntry, false⟩, ⟨.cpus 2, true⟩,
    ⟨.forwarding 1 oddEntry, false⟩, ⟨.memory amount, false⟩,
    ⟨.state ⟨"saved".toList, by decide⟩, false⟩, ⟨.forwarding 2 sshEntry, true⟩]

/-- A script for one question. -/
def surveying (report : List PrintedLine) : World.Script where
  installed := ["VBoxManage"]
  rules := [⟨Tool.asking {} "dev", [{ out := Utf8.encode (printed report) }]⟩]

theorem surveying_prints (report : List PrintedLine) :
    Prints report (World.Script.host.answer (.run (Tool.asking {} "dev")) (surveying report)).1 :=
  ⟨_, rfl, rfl, rfl⟩

theorem report_readBack_surveyed :
    let result := fun (amount : Nat) (call : HypervisorCall) =>
      (Program.run World.Script.host (ExceptT.run (({} : Tool).perform call))
        (surveying (surveyed amount))).result
    result 4096 (.size "dev") = some (.ok ⟨4096, 2⟩) ∧
      result UInt64.size (.size "dev") = some (.error
        (.parse "VBoxManage showvminfo dev --machinereadable" "missing memory or cpus")) ∧
      result 4096 (.isSaved "dev") = some (.ok true) ∧
      result 4096 (.forwardedPort "dev" "ssh") = some (.ok (some 50022)) ∧
      result 4096 (.forwardedPort "dev" " a = \"b\" ") = some (.ok (some 8080)) := by
  obtain ⟨hsize, -, ⟨saved, hsaved, hstate⟩, hports⟩ := report_readBack World.Script.host {} "dev"
    (surveyed 4096) (surveying (surveyed 4096)) (surveying_prints _)
  obtain ⟨-, hunfit, -⟩ := report_readBack World.Script.host {} "dev"
    (surveyed UInt64.size) (surveying (surveyed UInt64.size)) (surveying_prints _)
  have hport {rule : String} {port : UInt16}
      (hfirst : FirstForwards rule port (entries (surveyed 4096))) :
      (Program.run World.Script.host (ExceptT.run (({} : Tool).perform (.forwardedPort "dev" rule)))
        (surveying (surveyed 4096))).result = some (.ok (some port)) := by
    obtain ⟨port?, hresult, hsome, -⟩ := hports rule
    exact hresult.trans ((hsome port).mpr hfirst ▸ rfl)
  refine ⟨hsize 4096 2 rfl rfl, ?_, ?_,
    hport ⟨[closedEntry, oddEntry], sshEntry, [], rfl, rfl, rfl, ?_⟩,
    hport ⟨[closedEntry], oddEntry, [sshEntry], rfl, rfl, rfl, ?_⟩⟩
  · refine hunfit (.inl fun memory hmemory => ?_)
    obtain rfl : UInt64.size = memory := Option.some.inj hmemory
    exact Nat.le_refl _
  · exact hsaved.trans (congrArg (fun b : Bool => some (Except.ok b)) (hstate.mpr rfl))
  all_goals
    simp only [List.forall_mem_cons, ← Entry.hostPort?_eq_none_iff]
    decide

end Hypervisor

end DevVm
