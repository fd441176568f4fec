import DevVm.UserCommand
import DevVm.CommandLine.Option
import DevVm.Text.Utf8

/-!
# Reading the command line

Arguments are taken one by one, first up to the subcommand and then behind it. An option's
value is attached to it or follows as the next argument; it counts only once it is clear
what comes next, so a mistake in the following argument's spelling is found before a
mistake in the value. No option may be given twice on the same side of the subcommand.

`read` is the whole: it gives the level of logging and the command, or the kind of the
mistake.
-/

namespace DevVm.CommandLine

/-- Why there is no command to carry out: help or the version was asked for, or something
is wrong with the arguments. -/
inductive UsageError where
  | helpWanted
  | versionWanted
  | nothingGiven
  | noSuchCommand
  | unknownArgument
  | conflict
  | valueMissing
  | badValue
  | valueUnwanted
  | commandMissing
  | illFormedText
deriving DecidableEq, Repr

/-- An option with a separate value: still without it, or with a value that does not count
yet. -/
inductive Pending where
  | nothing
  | awaiting (o : Opt)
  | holding (o : Opt) (value : String)
deriving DecidableEq, Repr

/-- What has been read on one side of the subcommand: the options given, in order, flags
with an empty value. -/
structure Given where
  options : List (Opt × String) := []
  pending : Pending := .nothing
deriving DecidableEq, Repr

/-- The value of an option that was given. -/
def Given.value? (given : Given) (o : Opt) : Option String := given.options.lookup o

/-- Whether an option was given. -/
def Given.has (given : Given) (o : Opt) : Bool := (given.value? o).isSome

/-- Counts an option as given. -/
def Given.assign (o : Opt) (value : String) (given : Given) : Except UsageError Given :=
  match o with
  | .help => .error .helpWanted
  | .version => .error .versionWanted
  | o =>
    if given.has o then .error .conflict
    else if !o.accepts value then .error .badValue
    else .ok { given with options := given.options ++ [(o, value)] }

/-- Makes an option that is pending count. -/
def Given.settle (given : Given) : Except UsageError Given :=
  match given.pending with
  | .nothing => .ok given
  | .awaiting _ => .error .valueMissing
  | .holding o value => assign o value { given with pending := .nothing }

/-- Takes an option with its value, or a flag. -/
def Given.take (o : Opt) (value : String) (given : Given) : Except UsageError Given := do
  assign o value (← given.settle)

/-- Takes an option whose value is to follow. -/
def Given.leaveOpen (o : Opt) (given : Given) : Except UsageError Given := do
  return { (← given.settle) with pending := .awaiting o }

/-- Takes a long option. -/
def Given.takeLong (place : Option Subcommand) (name : List Char) (value : Option (List Char))
    (given : Given) : Except UsageError Given :=
  match Opt.ofLong? place name, value with
  | none, _ => .error .unknownArgument
  | some o, some value =>
    if o.takesValue then given.take o (String.ofList value) else .error .valueUnwanted
  | some o, none => if o.takesValue then given.leaveOpen o else given.take o ""

/-- Takes a cluster of letters. The first one whose option takes a value has the rest of
the cluster for its value, if there is a rest. -/
def Given.takeCluster (place : Option Subcommand) :
    List Char → Given → Except UsageError Given
  | [], given => .ok given
  | c :: rest, given =>
    match Opt.ofLetter? place c with
    | none => .error .unknownArgument
    | some o =>
      if o.takesValue then
        match rest with
        | [] => given.leaveOpen o
        | '=' :: value => given.take o (String.ofList value)
        | value => given.take o (String.ofList value)
      else do takeCluster place rest (← given.take o "")

/-- Whether the next argument is the value of an option, whatever it spells. -/
def Given.awaitsValue (given : Given) : Bool :=
  match given.pending with
  | .awaiting _ => true
  | _ => false

/-- Takes a plain argument, which must be the value of an option. `stray` is the mistake
it is otherwise. -/
def Given.takePlain (arg : String) (stray : UsageError) (given : Given) :
    Except UsageError Given :=
  match given.pending with
  | .awaiting o => .ok { given with pending := .holding o arg }
  | _ => .error stray

/-- Takes one argument other than a subcommand or two dashes. -/
def Given.takeArgument (place : Option Subcommand) (arg : String) (stray : UsageError)
    (given : Given) : Except UsageError Given :=
  match Shape.of arg.toList with
  | .long name value => given.takeLong place name value
  | .cluster letters => given.takeCluster place letters
  | .plain | .dashes => given.takePlain arg stray

/-- Takes the arguments behind a subcommand. Behind two dashes there may be none. -/
def takeBehind (sub : Subcommand) : Given → List String → Except UsageError Given
  | given, [] => given.settle
  | given, arg :: rest =>
    if arg = "--" then
      if rest.isEmpty then given.settle else .error .unknownArgument
    else do takeBehind sub (← given.takeArgument (some sub) arg .unknownArgument) rest

/-- What is wrong with an argument behind two dashes, where no subcommand may stand. -/
def strayBehindDashes (arg : String) : UsageError :=
  if (Subcommand.ofName? arg).isSome then .unknownArgument else .noSuchCommand

/-- What is wrong if the arguments end without a subcommand. -/
def missing (given : Given) : UsageError :=
  match given.settle with
  | .error e => e
  | .ok given => if given.options.isEmpty then .nothingGiven else .commandMissing

/-- The arguments up to the subcommand, the subcommand, and the arguments behind it. -/
def takeFront : Given → List String → Except UsageError (Given × Subcommand × List String)
  | given, [] => .error (missing given)
  | given, arg :: rest =>
    match (if given.awaitsValue then none else Subcommand.ofName? arg) with
    | some sub => .ok (given, sub, rest)
    | none =>
      if arg = "--" then
        match rest with
        | [] => .error (missing given)
        | next :: _ => .error (strayBehindDashes next)
      else do takeFront (← given.takeArgument none arg .noSuchCommand) rest

/-- The answer to a request for help: about the program, or about one subcommand. -/
def helpAbout : List String → UsageError
  | [] => .helpWanted
  | [topic] => if (Subcommand.ofName? topic).isSome then .helpWanted else .noSuchCommand
  | _ => .noSuchCommand

/-- The master password: the one given, or else the one in the environment. -/
def masterPassword (given : Given) (env : Option Bytes) : Except UsageError String :=
  match given.value? .masterPassword, env with
  | some password, _ => .ok password
  | none, none => .ok ""
  | none, some octets =>
    match Text.Utf8.decode? octets with
    | some password => .ok password
    | none => .error .illFormedText

/-- What a start asks for. -/
def startOptions (given : Given) (env : Option Bytes) : Except UsageError StartOptions := do
  let masterPassword ← masterPassword given env
  if given.has .noProvision && given.has .provision then throw .conflict
  let text (o : Opt) : String := (given.value? o).getD ""
  return {
    memory := (given.value? .memory).bind fun v => Text.readUInt64? v.toList
    cpus := (given.value? .cpus).bind fun v => readSmallNumber? v.toList
    services := text .services
    domain := text .domain
    ip := text .ip
    registries := text .registries
    masterPassword
    provision := given.has .provision
    noProvision := given.has .noProvision
    printCa := false
    target := given.has .target
  }

/-- The command of a subcommand and its options. -/
def command (sub : Subcommand) (given : Given) (env : Option Bytes) :
    Except UsageError UserCommand :=
  match sub with
  | .start => (startOptions given env).map .start
  | .stop => .ok .stop
  | .suspend => .ok .suspend
  | .resume => .ok .resume
  | .status => .ok .status
  | .trust => .ok (.trust (given.has .printCa))
  | .ssh => .ok .ssh
  | .target => .ok .target
  | .debug => .ok .debug
  | .destroy => .ok .destroy
  | .help => .error .helpWanted

/-- The level of logging unless another one is asked for. -/
def defaultLog : String := "warn"

/-- What the arguments come to. -/
structure Request where
  log : String
  command : UserCommand
deriving DecidableEq, Repr

/-- Reads the arguments behind the program's name. `env` is the master password in the
environment. Of two levels of logging, the one behind the subcommand counts. -/
def read (args : List String) (env : Option Bytes) : Except UsageError Request := do
  let (front, sub, rest) ← takeFront {} args
  if sub = .help then throw (helpAbout rest)
  let given ← takeBehind sub {} rest
  let command ← command sub given env
  let front ← front.settle
  let log := (given.value? .log).getD ((front.value? .log).getD defaultLog)
  return { log, command }

end DevVm.CommandLine
