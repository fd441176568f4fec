import DevVm.Text.Decimal
import DevVm.Text.Field

/-!
# The options of the command line

Which options there are, how they are spelled, which of them take a value, and where each
of them may stand. Numbers are checked as soon as they are given.
-/

namespace DevVm.CommandLine

/-- The subcommands. -/
inductive Subcommand where
  | start
  | stop
  | suspend
  | resume
  | status
  | trust
  | ssh
  | target
  | debug
  | destroy
  | help
deriving DecidableEq, Repr

/-- All subcommands. -/
def Subcommand.all : List Subcommand :=
  [.start, .stop, .suspend, .resume, .status, .trust, .ssh, .target, .debug, .destroy, .help]

/-- The spelling of a subcommand. -/
def Subcommand.name : Subcommand → String
  | start => "start"
  | stop => "stop"
  | suspend => "suspend"
  | resume => "resume"
  | status => "status"
  | trust => "trust"
  | ssh => "ssh"
  | target => "target"
  | debug => "debug"
  | destroy => "destroy"
  | help => "help"

/-- The subcommand of a spelling. -/
def Subcommand.ofName? (name : String) : Option Subcommand :=
  Subcommand.all.find? (·.name = name)

/-- The options. -/
inductive Opt where
  | memory
  | cpus
  | services
  | domain
  | ip
  | registries
  | masterPassword
  | noProvision
  | provision
  | target
  | printCa
  | log
  | help
  | version
deriving DecidableEq, Repr

namespace Opt

/-- All options. -/
def all : List Opt :=
  [memory, cpus, services, domain, ip, registries, masterPassword, noProvision, provision,
   target, printCa, log, help, version]

/-- The long spelling of an option, behind two dashes. -/
def long : Opt → String
  | memory => "memory"
  | cpus => "cpus"
  | services => "services"
  | domain => "domain"
  | ip => "ip"
  | registries => "registries"
  | masterPassword => "master-password"
  | noProvision => "no-provision"
  | provision => "provision"
  | target => "target"
  | printCa => "print-ca"
  | log => "log"
  | help => "help"
  | version => "version"

/-- The letter of an option, behind one dash, if it has one. -/
def letter? : Opt → Option Char
  | memory => some 'm'
  | cpus => some 'c'
  | services => some 's'
  | domain => some 'd'
  | ip => some 'i'
  | registries => some 'r'
  | masterPassword => some 'x'
  | noProvision => some 'n'
  | provision => some 'p'
  | target => some 't'
  | printCa | log => none
  | help => some 'h'
  | version => some 'V'

/-- Whether an option takes a value; the others are flags. -/
def takesValue : Opt → Bool
  | memory | cpus | services | domain | ip | registries | masterPassword | log => true
  | noProvision | provision | target | printCa | help | version => false

/-- Where an option may stand: before the subcommand (`none`) or after it. -/
def allowed : Option Subcommand → Opt → Bool
  | _, log | _, help => true
  | none, version => true
  | some .start, o =>
    match o with
    | printCa | version => false
    | _ => true
  | some .trust, printCa => true
  | _, _ => false

/-- The option of a long spelling, among those allowed. -/
def ofLong? (place : Option Subcommand) (name : List Char) : Option Opt :=
  (all.filter (allowed place)).find? (·.long.toList = name)

/-- The option of a letter, among those allowed. -/
def ofLetter? (place : Option Subcommand) (c : Char) : Option Opt :=
  (all.filter (allowed place)).find? (·.letter? = some c)

end Opt

/-- A number of 32 bits, which may also be spelled as minus zero. -/
def readSmallNumber? (text : List Char) : Option UInt32 :=
  match text with
  | '-' :: digits =>
    if digits ≠ [] ∧ digits.all (· = '0') then some 0 else none
  | text => Text.readUInt32? text

/-- Whether an option can have a value. -/
def Opt.accepts (o : Opt) (value : String) : Bool :=
  match o with
  | .memory => (Text.readUInt64? value.toList).isSome
  | .cpus => (readSmallNumber? value.toList).isSome
  | _ => true

/-- What an argument looks like. -/
inductive Shape where
  /-- Two dashes: no options from here on. -/
  | dashes
  /-- Two dashes and a name, perhaps with a value behind an equals sign. -/
  | long (name : List Char) (value : Option (List Char))
  /-- One dash and one or more letters. -/
  | cluster (letters : List Char)
  /-- Anything else. -/
  | plain
deriving DecidableEq, Repr

/-- The shape of an argument. A single dash is a plain one. -/
def Shape.of (arg : List Char) : Shape :=
  match arg with
  | ['-', '-'] => .dashes
  | '-' :: '-' :: name =>
    match Text.cutAt '=' name with
    | some (name, value) => .long name (some value)
    | none => .long name none
  | '-' :: c :: rest => .cluster (c :: rest)
  | _ => .plain

end DevVm.CommandLine
