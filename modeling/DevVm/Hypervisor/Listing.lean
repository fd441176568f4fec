import DevVm.Host.Call
import DevVm.Text.Lines

/-!
# Reading what the hypervisor's tool prints

Each reader takes the tool's output as it is and looks for the lines it knows, past
everything else. Names of machines come between double quotes, facts about a machine as
`key=value` lines, facts about interfaces as `key: value` lines.
-/

namespace DevVm.Hypervisor

open DevVm.Text

/-- The name at the start of a line of a list of machines, between its first two double
quotes. -/
def vmNameOfLine? (line : List Char) : Option String := do
  let rest ← after? ['"'] (trim line)
  let (name, _) ← cutAt '"' rest
  return String.ofList name

/-- The names in a list of machines, which has a line with the quoted name for each. -/
def vmNames (output : String) : List String := (lines output.toList).filterMap vmNameOfLine?

/-- A text without blanks around it and without the double quotes around it, if it has
both. -/
def unquote (text : List Char) : List Char :=
  let text := trim text
  match (after? ['"'] text).bind (before? ['"']) with
  | some inner => inner
  | none => text

/-- A key and its value. -/
structure Fact where
  key : String
  value : String
deriving DecidableEq, Repr

/-- The fact a line states, if it has an equals sign. -/
def factOfLine? (line : List Char) : Option Fact := do
  let (key, value) ← cutAt '=' line
  return ⟨String.ofList (unquote key), String.ofList (unquote value)⟩

/-- The facts about a machine, in order. -/
def facts (output : String) : List Fact := (lines output.toList).filterMap factOfLine?

/-- The first value stated for a key. -/
def factValue? (key : String) (facts : List Fact) : Option String :=
  (facts.find? (·.key = key)).map (·.value)

/-- A machine's size, if its memory and its processors are stated as numbers that fit. -/
def size? (facts : List Fact) : Option MachineSize := do
  let memory ← readUInt64? (← factValue? "memory" facts).toList
  let cpus ← readUInt32? (← factValue? "cpus" facts).toList
  return ⟨memory, cpus⟩

/-- Whether a machine's state has been saved. -/
def isSaved (facts : List Fact) : Bool := factValue? "VMState" facts = some "saved"

/-- The host's port in a forwarding entry, if the entry has the rule's name. An entry has
six fields: rule, protocol, host address, host port, guest address, guest port. -/
def hostPort? (rule : String) (entry : List Char) : Option UInt16 :=
  match fields ',' entry with
  | [name, _, _, port, _, _] => if name = rule.toList then readUInt16? port else none
  | _ => none

/-- The text that starts the key of a forwarding entry. -/
def forwardingLead : List Char := "Forwarding(".toList

/-- The host's port of a forwarding rule: that of the first entry of the rule whose port
is one. -/
def forwardedPort? (rule : String) (facts : List Fact) : Option UInt16 :=
  (facts.filter fun fact => forwardingLead.isPrefixOf fact.key.toList).findSome? fun fact =>
    hostPort? rule fact.value.toList

/-- The interfaces listed so far, after one more line. A `Name` line begins an interface,
and an `IPAddress` line is about the interface begun last. -/
def interfacesStep (found : List HostInterface) (line : List Char) : List HostInterface :=
  match cutAt ':' line with
  | none => found
  | some (key, value) =>
    let value := String.ofList (trim value)
    if trim key = "Name".toList then found ++ [⟨value, ""⟩]
    else if trim key = "IPAddress".toList then
      match found.getLast? with
      | some last => found.dropLast ++ [{ last with ip := value }]
      | none => found
    else found

/-- The host-only interfaces in a list of them. -/
def hostInterfaces (output : String) : List HostInterface :=
  (lines output.toList).foldl interfacesStep []

/-- The name of the interface that a line announces as created. -/
def createdOfLine? (line : List Char) : Option String := do
  let rest ← after? "Interface '".toList (trim line)
  let (name, tail) ← cutAt '\x27' rest
  if occursIn "successfully created".toList tail then some (String.ofList name) else none

/-- The name of the interface that was created. -/
def createdInterface? (output : String) : Option String :=
  (lines output.toList).findSome? createdOfLine?

/-- The value of extra data, if some is set. -/
def extraData? (output : String) : Option String :=
  ((lines output.toList).findSome? fun line => after? "Value: ".toList (trim line)).map
    String.ofList

end DevVm.Hypervisor
