import DevVm.Proofs.Pages

/-!
# The names in a list of machines

The tool lists machines one in a line, the name between double quotes and an identifier in braces
after it. Whatever stands around these lines, the names read back as they were listed, blanks and
all, in order and as often as they are there (`machines_readBack`). So a machine is taken for one that
is there, or that runs, exactly if its very name is in the list, and the machines of this program are
those of the list whose names have its lead.
-/

namespace DevVm

namespace Hypervisor

open Text

/-! ## Lists -/

/-- A machine in a list, behind blanks: its name between double quotes, and its identifier. -/
structure ListedMachine where
  indent : LineText
  name : LineText
  uuid : LineText
  indented : indent.chars.all isBlank = true
  quotable : '"' ∉ name.chars

/-- A line of a list of machines: it lists one, or it does not have a double quote in front. -/
inductive ListLine where
  | machine (m : ListedMachine)
  | other (line : LineText) (unquoted : (trimStart line.chars).head? ≠ some '"')

/-- A line of a list with the line break after it. -/
structure PrintedListLine where
  line : ListLine
  crlf : Bool := false

/-- A listed machine as it is written. -/
def ListedMachine.text (m : ListedMachine) : List Char :=
  m.indent.chars ++ ('"' :: m.name.chars ++ '"' :: ' ' :: '{' :: m.uuid.chars ++ ['}'])

theorem ListedMachine.newline_not_mem_text (m : ListedMachine) : '\n' ∉ m.text := by
  unfold text
  simp [m.indent.oneLine, m.name.oneLine, m.uuid.oneLine]

/-- A line as it is written. -/
def ListLine.text : ListLine → LineText
  | machine m => ⟨m.text, m.newline_not_mem_text⟩
  | other line _ => line

/-- The name that a line lists. -/
def ListLine.name? : ListLine → Option String
  | machine m => some (String.ofList m.name.chars)
  | other _ _ => none

def PrintedListLine.closed (l : PrintedListLine) : ClosedLine :=
  { toLineText := l.line.text, crlf := l.crlf }

/-- A list of machines as it is printed. -/
def printedList (listing : List PrintedListLine) : List Char := page (listing.map (·.closed))

/-- The names in a list of machines, in order and with repeats. -/
def listedNames (listing : List PrintedListLine) : List String := listing.filterMap (·.line.name?)

/-! ## Reading a line -/

theorem ListedMachine.vmNameOfLine?_text (m : ListedMachine) :
    vmNameOfLine? m.text = some (String.ofList m.name.chars) := by
  have htrim : trim m.text = '"' :: m.name.chars ++ '"' :: ' ' :: '{' :: m.uuid.chars ++ ['}'] := by
    unfold text
    rw [trim_blanks_append (List.all_eq_true.mp m.indented)]
    refine trim_eq_self (fun c hc => ?_) fun c hc => ?_
    · obtain rfl : '"' = c := Option.some.inj hc
      decide
    · rw [List.getLast?_concat] at hc
      obtain rfl : '}' = c := Option.some.inj hc
      decide
  have hafter : after? ['"'] ('"' :: m.name.chars ++ '"' :: ' ' :: '{' :: m.uuid.chars ++ ['}']) =
      some (m.name.chars ++ '"' :: (' ' :: '{' :: m.uuid.chars ++ ['}'])) := by
    rw [after?_eq_some_iff]
    simp only [List.cons_append, List.append_assoc, List.nil_append]
  unfold vmNameOfLine?
  rw [htrim, hafter]
  dsimp only [Option.bind_eq_bind, Option.bind_some]
  rw [cutAt_append m.quotable]
  rfl

/-- What stands in front after trimming stood there behind the blanks. -/
theorem vmNameOfLine?_eq_none {line : List Char} (h : (trimStart line).head? ≠ some '"') :
    vmNameOfLine? line = none := by
  have hafter : after? ['"'] (trim line) = none := by
    refine Option.eq_none_iff_forall_ne_some.mpr fun rest hrest => ?_
    obtain ⟨stripped, hstripped⟩ := trimEnd_isPrefix (trimStart line)
    rw [← trim, after?_eq_some_iff.mp hrest] at hstripped
    exact h (hstripped ▸ rfl)
  unfold vmNameOfLine?
  rw [hafter]
  rfl

theorem ListLine.vmNameOfLine?_text (l : ListLine) : vmNameOfLine? l.text.chars = l.name? := by
  cases l with
  | machine m => exact m.vmNameOfLine?_text
  | other line unquoted => exact vmNameOfLine?_eq_none unquoted

theorem ignoresReturn_vmNameOfLine? : IgnoresReturn vmNameOfLine? := by
  intro line
  unfold vmNameOfLine?
  rw [trim_append_return]

/-- The names read back as they were listed. -/
theorem vmNames_printedList (listing : List PrintedListLine) :
    vmNames (String.ofList (printedList listing)) = listedNames listing := by
  have hread := ignoresReturn_vmNameOfLine?.map_lines_page (listing.map (·.closed))
  have hnames : (listing.map (·.closed)).map (vmNameOfLine? ·.chars) =
      listing.map (·.line.name?) := by
    rw [List.map_map]
    exact List.map_congr_left fun l _ => l.line.vmNameOfLine?_text
  calc vmNames (String.ofList (printedList listing))
      = ((lines (printedList listing)).map vmNameOfLine?).filterMap id := by
        unfold vmNames
        rw [String.toList_ofList, List.filterMap_map, Function.id_comp]
    _ = (listing.map (·.line.name?)).filterMap id := by rw [printedList, hread, hnames]
    _ = listedNames listing := by rw [List.filterMap_map, Function.id_comp, listedNames]

end Hypervisor

open Hypervisor

/-! ## Asking for the list -/

/-- The command that lists all machines. -/
def Hypervisor.Tool.listing (tool : Tool) : Command := ⟨tool.program, ["list", "vms"]⟩

section Asking

variable {σ : Type} {host : Host systemSignature σ} {tool : Tool} {listing : List PrintedListLine}
  {s : σ}

theorem asked_listAll
    (h : Hands (printedList listing) (host.answer (.runner (.run tool.listing)) s).1) :
    asked host tool .listAll s = some (.ok (listedNames listing)) := by
  obtain ⟨es, s', hrun⟩ := run_invoke_hands host.runner h
  rw [asked_eq, ← vmNames_printedList]
  exact congrArg Outcome.result (run_reading vmNames hrun)

theorem asked_isRegistered
    (h : Hands (printedList listing) (host.answer (.runner (.run tool.listing)) s).1)
    (name : String) :
    asked host tool (.isRegistered name) s = some (.ok (decide (name ∈ listedNames listing))) := by
  obtain ⟨es, s', hrun⟩ := run_invoke_hands host.runner h
  rw [asked_eq, ← vmNames_printedList, ← List.contains_eq_mem]
  exact congrArg Outcome.result
    (run_reading (fun names : List String => names.contains name) (run_reading vmNames hrun))

theorem asked_isRunning
    (h : Hands (printedList listing) (host.answer (.runner (.run tool.looking)) s).1)
    (name : String) :
    asked host tool (.isRunning name) s = some (.ok (decide (name ∈ listedNames listing))) := by
  obtain ⟨es, s', hrun⟩ := run_invoke_hands host.runner h
  rw [asked_eq, ← vmNames_printedList, ← List.contains_eq_mem]
  exact congrArg Outcome.result
    (run_reading (fun names : List String => names.contains name) (run_reading vmNames hrun))

/-- This program's machines are those of the list that have its lead. -/
theorem result_ownVms
    (h : Hands (printedList listing) (host.answer (.runner (.run tool.listing)) s).1) :
    (Program.run host (ExceptT.run (Task.carryOut tool Machine.ownVms)) s).result =
      some (.ok ((listedNames listing).filter Machine.isOwnName)) :=
  run_carryOut_request (asked_listAll h) fun names : List String =>
    pure (names.filter Machine.isOwnName)

end Asking

/-- A list of machines is read as it was listed, and so is whatever hangs on it. -/
theorem machines_readBack (listing : List PrintedListLine) :
    vmNames (String.ofList (printedList listing)) = listedNames listing ∧
    ∀ (σ : Type) (host : Host systemSignature σ) (tool : Tool) (s : σ),
      (Hands (printedList listing) (host.answer (.runner (.run tool.listing)) s).1 →
        (∀ name, asked host tool (.isRegistered name) s =
          some (.ok (decide (name ∈ listedNames listing)))) ∧
        (Program.run host (ExceptT.run (Task.carryOut tool Machine.ownVms)) s).result =
          some (.ok ((listedNames listing).filter fun name =>
            "pcfdev-".toList.isPrefixOf name.toList))) ∧
      (Hands (printedList listing) (host.answer (.runner (.run tool.looking)) s).1 →
        ∀ name, asked host tool (.isRunning name) s =
          some (.ok (decide (name ∈ listedNames listing)))) :=
  ⟨vmNames_printedList listing, fun _ _ _ _ =>
    ⟨fun h => ⟨asked_isRegistered h, result_ownVms h⟩, asked_isRunning⟩⟩

/-- A list with names that resemble each other, and with lines about something else. -/
def crowdedList : List PrintedListLine :=
  [⟨.other ⟨"Machines: \"dev\"".toList, by decide⟩ (by decide), true⟩,
    ⟨.machine ⟨⟨"\t  ".toList, by decide⟩, ⟨" pcfdev-a ".toList, by decide⟩,
      ⟨"1-2".toList, by decide⟩, by decide, by decide⟩, false⟩,
    ⟨.machine ⟨⟨"  ".toList, by decide⟩, ⟨"pcfdev-b {c}, d".toList, by decide⟩,
      ⟨"".toList, by decide⟩, by decide, by decide⟩, true⟩,
    ⟨.other ⟨"  ".toList, by decide⟩ (by decide), false⟩,
    ⟨.machine ⟨⟨"  ".toList, by decide⟩, ⟨"pcfdev-b {c}, d".toList, by decide⟩,
      ⟨"3-4".toList, by decide⟩, by decide, by decide⟩, false⟩]

theorem machines_readBack_crowded :
    let c := printingComputer [Tool.listing {}, Tool.looking {}] (printedList crowdedList)
    let asked := fun request => asked World.Computer.host {} request c
    vmNames (String.ofList (printedList crowdedList)) =
        [" pcfdev-a ", "pcfdev-b {c}, d", "pcfdev-b {c}, d"] ∧
      asked (.isRegistered " pcfdev-a ") = some (.ok true) ∧
      asked (.isRegistered "pcfdev-a") = some (.ok false) ∧
      (Program.run World.Computer.host (ExceptT.run (Task.carryOut {} Machine.ownVms)) c).result =
        some (.ok ["pcfdev-b {c}, d", "pcfdev-b {c}, d"]) ∧
      asked (.isRunning "pcfdev-b {c}, d") = some (.ok true) ∧
      asked (.isRunning "pcfdev-b") = some (.ok false) := by
  intro c asked
  obtain ⟨hnames, hhost⟩ := machines_readBack crowdedList
  obtain ⟨hall, hrunning⟩ := hhost _ World.Computer.host {} c
  obtain ⟨hregistered, hown⟩ := hall (printingComputer_hands (by decide) (by decide) _)
  have hrunning := hrunning (printingComputer_hands (by decide) (by decide) _)
  exact ⟨hnames, hregistered _, hregistered _, hown, hrunning _, hrunning _⟩

end DevVm
