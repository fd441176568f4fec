import DevVm.Text.Lines
import DevVm.Text.Lower
import DevVm.Vm.Start

/-!
# What else is done with the VM

Stopping, suspending and resuming it, trusting its certificate, opening a shell in it,
logging in to its platform, and collecting diagnostics. Where the VM's state does not
allow something, the user is told so, and that is not an error.
-/

namespace DevVm.Vm

/-- What the user is told whatever was to be done with a VM that is not there. -/
def notCreatedText : String := "PCF Dev VM has not been created."

/-- Stops the VM. -/
def stop (vm : Vm) : Task VmError Unit :=
  match vm.phase with
  | .notCreated => Task.tell notCreatedText
  | .stopped => Task.tell "PCF Dev is stopped."
  | .saved =>
    Task.tell ("Your VM is currently suspended. You must resume your VM with `pcfdev resume` "
      ++ "to shut it down.")
  | .unprovisioned | .running => switchOff vm.profile .stop

/-- Suspends the VM. -/
def suspend (vm : Vm) : Task VmError Unit :=
  match vm.phase with
  | .notCreated => Task.tell notCreatedText
  | .stopped => Task.tell "Your VM is currently stopped and cannot be suspended."
  | .saved => Task.tell "Your VM is suspended."
  | .unprovisioned => Task.tell "Your VM is currently unprovisioned and cannot be suspended."
  | .running => do
    Task.tell "Suspending VM..."
    (Machine.suspend vm.profile.name).mapError (.ofMachine .suspend)
    Task.tell "PCF Dev is now suspended."

/-- Resumes the VM. -/
def resume (settings : Settings) (vm : Vm) : Task VmError Unit :=
  match vm.phase with
  | .notCreated => Task.tell notCreatedText
  | .stopped =>
    Task.tell "Your VM is currently stopped. Only a suspended VM can be resumed."
  | .saved => restore settings vm.profile
  | .unprovisioned =>
    Task.tell "Your VM is currently unprovisioned. Only a suspended VM can be resumed."
  | .running => Task.tell "PCF Dev is running."

/-- Puts the VM's certificate where the user's tools find it, or prints it. -/
def trust (settings : Settings) (vm : Vm) (print : Bool) : Task VmError Unit :=
  match vm.phase with
  | .notCreated => Task.tell notCreatedText
  | .stopped =>
    Task.tell "Your VM is currently stopped. Start VM to trust VM certificates."
  | .saved => Task.tell "Your VM is suspended. Resume to trust VM certificates."
  | .unprovisioned =>
    Task.tell ("Your VM is currently unprovisioned. Start VM to provision it before trusting VM "
      ++ "certificates.")
  | .running => do
    let key ← readKey settings (.during .trust ∘ .files)
    let certificate : String ← Task.need
      (.ssh (.capture .showCertificate vm.profile.endpoints key sshLimit))
      (.during .trust ∘ .ssh)
    if print then
      Task.tell certificate
    else
      Task.need (.writePrivate settings.certificatePath (Text.Utf8.encode certificate))
        (.during .trust ∘ .files)
      Task.tell ("***Warning: a self-signed certificate for *." ++ vm.profile.domain
        ++ " has been inserted into your certificate store.***")

/-- Opens a shell in the guest. -/
def shell (settings : Settings) (vm : Vm) (stdin : Bytes) : Task VmError Unit :=
  match vm.phase with
  | .notCreated => Task.tell notCreatedText
  | .stopped => Task.tell "Your VM is currently stopped. Start VM to SSH to PCF Dev."
  | .saved => Task.tell "Your VM is suspended. Resume to SSH to PCF Dev."
  | .unprovisioned | .running => do
    let key ← readKey settings .files
    Task.need (.ssh (.session vm.profile.endpoints key sshLimit stdin)) .ssh

/-- Logs in to the platform in the guest. A login that follows a start on its own is not
announced. -/
def target (vm : Vm) (auto : Bool) : Task VmError Unit :=
  match vm.phase with
  | .notCreated => Task.tell notCreatedText
  | .stopped => Task.tell "Your VM is currently stopped. Start VM to target PCF Dev."
  | .saved => Task.tell "Your VM is suspended. Resume to target PCF Dev."
  | .unprovisioned =>
    Task.tell ("Your VM is currently unprovisioned. Start VM to provision it before targeting "
      ++ "PCF Dev.")
  | .running => do
    let api := "api." ++ vm.profile.domain
    Task.need
      (.runProgram "cf" ["login", "-a", api, "--skip-ssl-validation", "-u", "user", "-p", "pass",
        "-o", "pcfdev-org", "-s", "pcfdev-space"])
      (.during .target ∘ .command)
    if !auto then Task.tell ("Successfully logged in to " ++ api ++ " as user.")

/-- What stands in for a line that looks as if it held a password. -/
def redaction : String := "[REDACTED]"

/-- One line of a diagnostic, as it may be shown to others. -/
def redactLine (line : List Char) : List Char :=
  if Text.mentions "password" line then redaction.toList else line

/-- A diagnostic with every line that looks as if it held a password blanked out. -/
def redact (output : String) : List Char :=
  (Text.lines output.toList).flatMap fun line => redactLine line ++ ['\n']

/-- What a diagnostic contributes to the logs: its output, or a note that it failed. -/
def diagnosticText (what : Diagnostic) : Except SshError String → String
  | .ok output => output
  | .error e => "failed to run `" ++ what.command ++ "`: " ++ e.message ++ "\n"

/-- The section of a diagnostic in the logs. -/
def logSection (what : Diagnostic) (reply : Except SshError String) : List Char :=
  ("==> " ++ what.title ++ " (" ++ what.command ++ ") <==\n").toList
    ++ redact (diagnosticText what reply) ++ ['\n']

/-- The sections of diagnostics, collected from the guest in order. One that fails is noted
and does not stop the rest. -/
def collect (addresses : List Endpoint) (key : Bytes) :
    List Diagnostic → Task VmError (List Char)
  | [] => return []
  | what :: more => do
    let reply : Except SshError String ←
      Task.attempt (.ssh (.capture (.diagnose what) addresses key healthLimit))
    return logSection what reply ++ (← collect addresses key more)

/-- Collects all diagnostics from the guest into the file of logs. -/
def collectLogs (settings : Settings) (vm : VmProfile) : Task VmError Unit := do
  let key ← readKey settings .files
  let logs ← collect vm.endpoints key Diagnostic.all
  Task.need (.writePrivate settings.logsPath (Text.Utf8.encodeChars logs)) .files

/-- Collects diagnostics for a bug report. -/
def diagnose (settings : Settings) (vm : Vm) : Task VmError Unit :=
  match vm.phase with
  | .notCreated => Task.tell notCreatedText
  | .stopped => Task.tell "Your VM is currently stopped. Start VM to retrieve debug logs."
  | .saved => Task.tell "Your VM is suspended. Resume to retrieve debug logs."
  | .unprovisioned | .running => do
    (collectLogs settings vm.profile).mapError (.during .collectLogs)
    Task.tell ("Debug logs written to " ++ settings.logsPath ++ ". While some scrubbing has "
      ++ "taken place, please remove any remaining sensitive information from these logs before "
      ++ "sharing.")

end DevVm.Vm
