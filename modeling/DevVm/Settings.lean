import DevVm.Path
import DevVm.Text.Utf8
import DevVm.Toml.Reader

/-!
# Settings

Where things are kept on the host, what the VM is called and how large it is made by
default. The settings start from fixed defaults, and a file `config.toml` in the program's
own directory may replace the VM's name and its sizes.

Which directory that is comes from the environment, which is captured once at the start.
-/

namespace DevVm

/-- Every VM of this program has a name that starts like this. -/
def ownNameLead : String := "pcfdev-"

/-- The parts of the process environment that matter. An empty or undecodable value counts
as unset. -/
structure Environment where
  home : Option String
  homeOverride : Option String
  term : Option String
deriving DecidableEq, Repr

/-- The value of an environment variable, if it is set to some well-formed text. -/
def Environment.value? (octets : Option Bytes) : Option String :=
  (octets.bind Text.Utf8.decode?).filter (· ≠ "")

/-- The environment of a process, from the values of its variables. -/
def Environment.ofValues (home homeOverride term : Option Bytes) : Environment :=
  ⟨value? home, value? homeOverride, value? term⟩

/-- Why the settings could not be had. -/
inductive SettingsError where
  | missingHome
  | read (path reason : String)
  | parse (path : String)
deriving DecidableEq, Repr

/-- The wording of an error. The reason why a file is not well formed is left to whoever
reads the file. -/
def SettingsError.message : SettingsError → String
  | .missingHome => "neither PCFDEV_HOME nor HOME is set"
  | .read path reason => "failed to read config file " ++ path ++ ": " ++ reason
  | .parse path => "failed to parse config file " ++ path

/-- The directory that holds the program's files: the one set for it, or `.pcfdev` below
the user's home. -/
def Environment.baseDir (env : Environment) : Except SettingsError String :=
  match env.homeOverride, env.home with
  | some dir, _ => .ok dir
  | none, some home => .ok (Path.join home ".pcfdev")
  | none, none => .error .missingHome

/-- The settings of one invocation. Sizes of memory are in MB. -/
structure Settings where
  baseDir : String
  vmName : String
  defaultMemory : UInt64
  minMemory : UInt64
  defaultCpus : UInt32
  freeMemory : UInt64
deriving DecidableEq, Repr

namespace Settings

/-- The defaults for a directory of the program's own, on a host with some free memory. -/
def default (baseDir : String) (freeMemory : UInt64) : Settings where
  baseDir
  vmName := ownNameLead ++ "v0.1.0"
  defaultMemory := 4096
  minMemory := 3072
  defaultCpus := 2
  freeMemory

/-- The appliance that a new VM is imported from. -/
def imagePath (settings : Settings) : String :=
  Path.join (Path.join settings.baseDir "ova") "pcfdev.ova"

/-- The private key that opens the guest once it has been set up. -/
def privateKeyPath (settings : Settings) : String := Path.join settings.baseDir "key.pem"

/-- The key built into the appliance, good only until the guest has been set up. -/
def insecureKeyPath (settings : Settings) : String := Path.join settings.baseDir "insecure.key"

/-- Where the VM's certificate is put. -/
def certificatePath (settings : Settings) : String := Path.join settings.baseDir "ca.pem"

/-- The file that collects diagnostics, in the working directory. -/
def logsPath (_ : Settings) : String := "pcfdev-debug.log"

/-- The file of settings in that directory. -/
def filePath (baseDir : String) : String := Path.join baseDir "config.toml"

/-- The settings with one entry of the file applied, if there is such a setting and it can
have that value. -/
def set? (settings : Settings) : String × Toml.Value → Option Settings
  | ("vm_name", .text name) => some { settings with vmName := name }
  | ("default_memory", .integer n) => return { settings with defaultMemory := ← word64? n }
  | ("min_memory", .integer n) => return { settings with minMemory := ← word64? n }
  | ("default_cpus", .integer n) => return { settings with defaultCpus := ← word32? n }
  | _ => none
where
  /-- A number of 64 bits. -/
  word64? (n : Int) : Option UInt64 :=
    if 0 ≤ n ∧ n.toNat < UInt64.size then some (UInt64.ofNat n.toNat) else none
  /-- A number of 32 bits. -/
  word32? (n : Int) : Option UInt32 :=
    if 0 ≤ n ∧ n.toNat < UInt32.size then some (UInt32.ofNat n.toNat) else none

/-- The settings with those of a document applied. -/
def override? (settings : Settings) (document : String) : Option Settings := do
  (← Toml.entries? document).foldlM set? settings

/-- What reading the settings file came to. -/
inductive FileReply where
  | missing
  | failed (reason : String)
  | content (octets : Bytes)
deriving DecidableEq, Repr

/-- The settings for an environment, given what the settings file holds. -/
def gather (env : Environment) (freeMemory : UInt64) (readFile : String → FileReply) :
    Except SettingsError Settings := do
  let baseDir ← env.baseDir
  let path := filePath baseDir
  let defaults := default baseDir freeMemory
  match readFile path with
  | .missing => return defaults
  | .failed reason => throw (.read path reason)
  | .content octets =>
    match Text.Utf8.decode? octets with
    | none => throw (.read path "stream did not contain valid UTF-8")
    | some document =>
      match defaults.override? document with
      | some settings => return settings
      | none => throw (.parse path)

end Settings

end DevVm
