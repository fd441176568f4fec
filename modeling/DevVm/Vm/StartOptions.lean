import DevVm.Text.Blank
import DevVm.Text.Decimal
import DevVm.Text.Escaped
import DevVm.Text.Field
import DevVm.Vm.Error

/-!
# What a start asks for

The wishes and flags of one start. An empty text means that nothing was asked for. What
concerns the VM's making can be asked for only as long as there is no VM:
`StartOptions.refuseChange` refuses it from then on.
-/

namespace DevVm

/-- What a user asks for on a start. Memory is in MB. -/
structure StartOptions where
  memory : Option UInt64 := none
  cpus : Option UInt32 := none
  services : String := ""
  domain : String := ""
  ip : String := ""
  registries : String := ""
  masterPassword : String := ""
  provision : Bool := false
  noProvision : Bool := false
  printCa : Bool := false
  target : Bool := false
deriving DecidableEq, Repr

namespace StartOptions

/-- The property of the VM that a request would change, the first one in a fixed order. -/
def change? (opts : StartOptions) : Option Fixed :=
  if opts.memory.isSome then some .memory
  else if opts.cpus.isSome then some .cores
  else if opts.services ≠ "" then some .services
  else if opts.domain ≠ "" then some .domain
  else if opts.ip ≠ "" then some .ip
  else if opts.registries ≠ "" then some .registries
  else none

/-- Refuses a request that would change a VM which has been created. -/
def refuseChange (opts : StartOptions) : Except VmError Unit :=
  match opts.change? with
  | some property => .error (.changed property)
  | none => .ok ()

/-- The private registries asked for, without blanks around them and without empty ones. -/
def registryNames (opts : StartOptions) : List String :=
  (((Text.fields ',' opts.registries.toList).map Text.trim).filter (· ≠ [])).map String.ofList

/-- A text that was asked for, if any was. -/
def asked? (text : String) : Option String := if text = "" then none else some text

/-- A number that may be missing. -/
def shownNumber : Option Nat → String
  | some n => "Some(" ++ Text.decimal n ++ ")"
  | none => "None"

/-- A truth value. -/
def shownFlag (flag : Bool) : String := if flag then "true" else "false"

/-- A request as it is shown in logs. Of the master password only its presence is shown. -/
def shown (opts : StartOptions) : String :=
  let members : List (String × String) :=
    [("memory", shownNumber (opts.memory.map UInt64.toNat)),
     ("cpus", shownNumber (opts.cpus.map UInt32.toNat)),
     ("services", Text.escaped opts.services),
     ("domain", Text.escaped opts.domain),
     ("ip", Text.escaped opts.ip),
     ("registries", Text.escaped opts.registries),
     ("master_password", shownFlag (opts.masterPassword ≠ "")),
     ("provision", shownFlag opts.provision),
     ("no_provision", shownFlag opts.noProvision),
     ("print_ca", shownFlag opts.printCa),
     ("target", shownFlag opts.target)]
  "StartOpts \x7b " ++ ", ".intercalate (members.map fun (name, value) => name ++ ": " ++ value)
    ++ " \x7d"

end StartOptions

end DevVm
