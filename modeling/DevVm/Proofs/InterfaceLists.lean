import DevVm.Proofs.Pages

/-!
# The interfaces in a list of them

The tool lists each host-only interface as a block of `key: value` lines, with the interface's name
first and its address further down, if it has one. The reader goes through the lines one by one and
gives an address to the interface begun last. In a list of such blocks that is always the interface of
the address's own block (`foldl_block`), whatever else the blocks hold and whatever comes before them,
and so the interfaces read back as they were listed (`interfaces_readBack`). An import takes the first
of them that has the address it needs.
-/

namespace DevVm

namespace Hypervisor

open Text

/-! ## Lists -/

/-- The key of a line: what stands before its first colon, without the blanks around it. -/
def keyOf? (line : List Char) : Option (List Char) := (cutAt ':' line).map fun cut => trim cut.1

/-- A line before the first interface: it does not name one. -/
structure LeadLine extends ClosedLine where
  nameless : keyOf? chars ≠ some "Name".toList

/-- A line about something else than a name or an address. A line without a colon is one, and so is
a blank line. -/
structure AsideLine extends LeadLine where
  placeless : keyOf? chars ≠ some "IPAddress".toList

/-- A text in one line without white space around it. -/
structure CleanText extends LineText where
  first : chars.head?.any isBlank = false
  last : chars.getLast?.any isBlank = false

/-- A value in a line, with blanks in front of it. -/
structure StatedValue where
  blanks : LineText
  value : CleanText
  crlf : Bool := false
  blank : blanks.chars.all isBlank = true

/-- A line that states a value for a key. -/
def StatedValue.line (key : LineText) (v : StatedValue) : ClosedLine where
  chars := key.chars ++ ':' :: (v.blanks.chars ++ v.value.chars)
  oneLine := by simp [key.oneLine, v.blanks.oneLine, v.value.oneLine]
  crlf := v.crlf

/-- What is listed about one interface. -/
structure InterfaceBlock where
  name : StatedValue
  before : List AsideLine := []
  address : Option StatedValue
  after : List AsideLine := []

namespace InterfaceBlock

def nameKey : LineText := ⟨"Name".toList, by decide⟩

def addressKey : LineText := ⟨"IPAddress".toList, by decide⟩

/-- A block as it is written: the name comes first. -/
def lines (b : InterfaceBlock) : List ClosedLine :=
  b.name.line nameKey :: b.before.map (·.toClosedLine) ++
    (b.address.map (·.line addressKey)).toList ++ b.after.map (·.toClosedLine)

/-- The interface a block is about. -/
def interface (b : InterfaceBlock) : HostInterface where
  name := String.ofList b.name.value.chars
  ip := b.address.elim "" fun address => String.ofList address.value.chars

end InterfaceBlock

/-- A list of interfaces as it is printed. -/
def printedInterfaces (lead : List LeadLine) (blocks : List InterfaceBlock) : List Char :=
  page (lead.map (·.toClosedLine) ++ blocks.flatMap InterfaceBlock.lines)

/-! ## Reading line by line -/

theorem ignoresReturn_interfacesStep :
    IgnoresReturn fun line found => interfacesStep found line := by
  intro line
  funext found
  dsimp only
  unfold interfacesStep
  rw [cutAt_append_of_not_mem (by decide)]
  cases cutAt ':' line with
  | none => rfl
  | some cut =>
    dsimp only [Option.map_some]
    rw [trim_append_return]

/-- A page of interfaces is read line by line. -/
theorem hostInterfaces_page (ls : List ClosedLine) :
    hostInterfaces (String.ofList (page ls)) =
      ls.foldl (fun found l => interfacesStep found l.chars) [] := by
  have hread := ignoresReturn_interfacesStep.map_lines_page ls
  have hfold := congrArg (List.foldl (fun found step => step found) []) hread
  rw [List.foldl_map, List.foldl_map] at hfold
  unfold hostInterfaces
  rw [String.toList_ofList]
  exact hfold

section Steps

variable {found : List HostInterface}

/-- A line whose key is of no interest leaves everything as it is. -/
theorem interfacesStep_aside (l : AsideLine) : interfacesStep found l.chars = found := by
  have hname := l.nameless
  have haddress := l.placeless
  unfold keyOf? at hname haddress
  unfold interfacesStep
  cases hcut : cutAt ':' l.chars with
  | none => rfl
  | some cut =>
    rw [hcut, Option.map_some, ne_eq, Option.some_inj] at hname haddress
    dsimp only
    rw [if_neg hname, if_neg haddress]

/-- An address is nobody's as long as no interface has been named. -/
theorem interfacesStep_lead (l : LeadLine) : interfacesStep [] l.chars = [] := by
  have hname := l.nameless
  unfold keyOf? at hname
  unfold interfacesStep
  cases hcut : cutAt ':' l.chars with
  | none => rfl
  | some cut =>
    rw [hcut, Option.map_some, ne_eq, Option.some_inj] at hname
    dsimp only
    rw [if_neg hname]
    split <;> rfl

theorem StatedValue.trim_value (v : StatedValue) :
    trim (v.blanks.chars ++ v.value.chars) = v.value.chars := by
  rw [trim_blanks_append (List.all_eq_true.mp v.blank),
    trim_eq_self ((Option.any_eq_false _ _).mp v.value.first)
      ((Option.any_eq_false _ _).mp v.value.last)]

/-- A name begins an interface. -/
theorem interfacesStep_name (v : StatedValue) :
    interfacesStep found (v.line InterfaceBlock.nameKey).chars =
      found ++ [⟨String.ofList v.value.chars, ""⟩] := by
  have hcut : cutAt ':' (v.line InterfaceBlock.nameKey).chars =
      some ("Name".toList, v.blanks.chars ++ v.value.chars) := cutAt_append (by decide) _
  unfold interfacesStep
  rw [hcut]
  dsimp only
  rw [v.trim_value, if_pos (by decide)]

/-- An address is that of the interface begun last. -/
theorem interfacesStep_address (i : HostInterface) (v : StatedValue) :
    interfacesStep (found ++ [i]) (v.line InterfaceBlock.addressKey).chars =
      found ++ [{ i with ip := String.ofList v.value.chars }] := by
  have hcut : cutAt ':' (v.line InterfaceBlock.addressKey).chars =
      some ("IPAddress".toList, v.blanks.chars ++ v.value.chars) := cutAt_append (by decide) _
  unfold interfacesStep
  rw [hcut]
  dsimp only
  rw [v.trim_value, if_neg (by decide), if_pos (by decide), List.getLast?_concat]
  dsimp only
  rw [List.dropLast_concat]

theorem foldl_asides (ls : List AsideLine) :
    (ls.map (·.toClosedLine)).foldl (fun found l => interfacesStep found l.chars) found = found := by
  induction ls with
  | nil => rfl
  | cons l more ih => rw [List.map_cons, List.foldl_cons, interfacesStep_aside, ih]

theorem foldl_leads (ls : List LeadLine) :
    (ls.map (·.toClosedLine)).foldl (fun found l => interfacesStep found l.chars) [] = [] := by
  induction ls with
  | nil => rfl
  | cons l more ih => rw [List.map_cons, List.foldl_cons, interfacesStep_lead, ih]

/-- A block adds its own interface, and touches no other. -/
theorem foldl_block (b : InterfaceBlock) :
    b.lines.foldl (fun found l => interfacesStep found l.chars) found = found ++ [b.interface] := by
  obtain ⟨name, before, address, after⟩ := b
  unfold InterfaceBlock.lines InterfaceBlock.interface
  rw [List.cons_append, List.cons_append, List.foldl_cons, List.foldl_append, List.foldl_append,
    interfacesStep_name, foldl_asides, foldl_asides]
  cases address with
  | none => rfl
  | some address => exact interfacesStep_address _ address

theorem foldl_blocks (blocks : List InterfaceBlock) :
    (blocks.flatMap InterfaceBlock.lines).foldl (fun found l => interfacesStep found l.chars) found =
      found ++ blocks.map (·.interface) := by
  induction blocks generalizing found with
  | nil => exact (List.append_nil found).symm
  | cons b more ih =>
    rw [List.flatMap_cons, List.foldl_append, foldl_block, ih, List.map_cons, List.append_assoc,
      List.singleton_append]

end Steps

/-- The interfaces read back as they were listed. -/
theorem hostInterfaces_printedInterfaces (lead : List LeadLine) (blocks : List InterfaceBlock) :
    hostInterfaces (String.ofList (printedInterfaces lead blocks)) = blocks.map (·.interface) := by
  unfold printedInterfaces
  rw [hostInterfaces_page, List.foldl_append, foldl_leads, foldl_blocks, List.nil_append]

/-- The command that lists the interfaces. -/
def Tool.listingInterfaces (tool : Tool) : Command := ⟨tool.program, ["list", "hostonlyifs"]⟩

end Hypervisor

open Hypervisor

/-! ## Asking for the list -/

section Asking

variable {σ : Type} {host : Host systemSignature σ} {tool : Tool} {lead : List LeadLine}
  {blocks : List InterfaceBlock} {s : σ}

theorem asked_interfaces (h : Hands (printedInterfaces lead blocks)
      (host.answer (.runner (.run tool.listingInterfaces)) s).1) :
    asked host tool .interfaces s = some (.ok (blocks.map (·.interface))) := by
  obtain ⟨es, s', hrun⟩ := run_invoke_hands host.runner h
  rw [asked_eq, ← hostInterfaces_printedInterfaces lead]
  exact congrArg Outcome.result (run_reading hostInterfaces hrun)

/-- An import takes the first interface that has the address. -/
theorem result_interfaceFor (h : Hands (printedInterfaces lead blocks)
      (host.answer (.runner (.run tool.listingInterfaces)) s).1) {hostIp : String}
    {i : HostInterface} (hfound : (blocks.map (·.interface)).find? (·.ip = hostIp) = some i) :
    (Program.run host (ExceptT.run (Task.carryOut tool (Machine.interfaceFor hostIp))) s).result =
      some (.ok i.name) := by
  unfold Machine.interfaceFor
  refine (run_carryOut_request (asked_interfaces h) _).trans ?_
  rw [hfound]
  rfl

end Asking

/-- A list of interfaces is read as it was listed, each with its own address. -/
theorem interfaces_readBack (lead : List LeadLine) (blocks : List InterfaceBlock) :
    hostInterfaces (String.ofList (printedInterfaces lead blocks)) = blocks.map (·.interface) ∧
    ∀ (σ : Type) (host : Host systemSignature σ) (tool : Tool) (s : σ),
      Hands (printedInterfaces lead blocks)
        (host.answer (.runner (.run tool.listingInterfaces)) s).1 →
      asked host tool .interfaces s = some (.ok (blocks.map (·.interface))) ∧
      ∀ hostIp i, (blocks.map (·.interface)).find? (·.ip = hostIp) = some i →
        (Program.run host (ExceptT.run (Task.carryOut tool (Machine.interfaceFor hostIp))) s).result =
          some (.ok i.name) :=
  ⟨hostInterfaces_printedInterfaces lead blocks, fun _ _ _ _ h =>
    ⟨asked_interfaces h, fun _ _ => result_interfaceFor h⟩⟩

/-- An address that belongs to no interface. -/
def strayAddress : LeadLine := ⟨⟨⟨"IPAddress: 10.0.0.1".toList, by decide⟩, false⟩, by decide⟩

/-- A line that holds an address, but under another key. -/
def maskLine : AsideLine :=
  ⟨⟨⟨⟨"NetworkMask: IPAddress: 10.0.0.2".toList, by decide⟩, true⟩, by decide⟩, by decide⟩

def blankLine : AsideLine := ⟨⟨⟨⟨" \t".toList, by decide⟩, false⟩, by decide⟩, by decide⟩

/-- An interface by the name of a key. -/
def oddBlock : InterfaceBlock where
  name := ⟨⟨"   ".toList, by decide⟩, ⟨⟨"Name: 0".toList, by decide⟩, by decide, by decide⟩, true,
    by decide⟩
  before := [maskLine]
  address := some ⟨⟨"   ".toList, by decide⟩, ⟨⟨"10.0.0.3".toList, by decide⟩, by decide, by decide⟩,
    true, by decide⟩
  after := [blankLine]

/-- An interface without an address. -/
def looseBlock : InterfaceBlock where
  name := ⟨⟨"\t".toList, by decide⟩, ⟨⟨"vboxnet1".toList, by decide⟩, by decide, by decide⟩, false,
    by decide⟩
  before := [maskLine, blankLine]
  address := none

def lastBlock : InterfaceBlock where
  name := ⟨⟨" ".toList, by decide⟩, ⟨⟨"vboxnet2".toList, by decide⟩, by decide, by decide⟩, false,
    by decide⟩
  address := some ⟨⟨" ".toList, by decide⟩, ⟨⟨"fe80::1".toList, by decide⟩, by decide, by decide⟩,
    false, by decide⟩
  after := [maskLine]

theorem interfaces_readBack_loose :
    let text := printedInterfaces [strayAddress] [oddBlock, looseBlock, lastBlock]
    let c := printingComputer [Tool.listingInterfaces {}] text
    let listed : List HostInterface :=
      [⟨"Name: 0", "10.0.0.3"⟩, ⟨"vboxnet1", ""⟩, ⟨"vboxnet2", "fe80::1"⟩]
    hostInterfaces (String.ofList text) = listed ∧
      asked World.Computer.host {} .interfaces c = some (.ok listed) ∧
      (Program.run World.Computer.host
        (ExceptT.run (Task.carryOut {} (Machine.interfaceFor "fe80::1"))) c).result =
          some (.ok "vboxnet2") := by
  intro text c listed
  obtain ⟨hread, hhost⟩ := interfaces_readBack [strayAddress] [oddBlock, looseBlock, lastBlock]
  obtain ⟨hasked, hfor⟩ := hhost _ World.Computer.host {} c
    (printingComputer_hands List.mem_cons_self (by decide) text)
  exact ⟨hread, hasked, hfor "fe80::1" ⟨"vboxnet2", "fe80::1"⟩ (by decide)⟩

end DevVm
