import DevVm.Text.Decimal

/-!
# How a program on the host ends

A program exits with a code or is killed by a signal. `ExitStatus.shown` words that, and
`CommandError` is what becomes of a command line that could not be run to success.
-/

namespace DevVm

/-- How a program ended. -/
inductive ExitStatus where
  | exited (code : UInt8)
  | killed (signal : UInt8)
deriving DecidableEq, Repr

/-- The names of the signals of a Linux host, from number 1 on. -/
def signalNames : List String :=
  ["SIGHUP", "SIGINT", "SIGQUIT", "SIGILL", "SIGTRAP", "SIGABRT", "SIGBUS", "SIGFPE",
   "SIGKILL", "SIGUSR1", "SIGSEGV", "SIGUSR2", "SIGPIPE", "SIGALRM", "SIGTERM", "SIGSTKFLT",
   "SIGCHLD", "SIGCONT", "SIGSTOP", "SIGTSTP", "SIGTTIN", "SIGTTOU", "SIGURG", "SIGXCPU",
   "SIGXFSZ", "SIGVTALRM", "SIGPROF", "SIGWINCH", "SIGIO", "SIGPWR", "SIGSYS"]

/-- The name of a signal, if it has one. -/
def signalName? (signal : UInt8) : Option String :=
  if signal = 0 then none else signalNames[signal.toNat - 1]?

namespace ExitStatus

/-- Whether the program did what it was run for. -/
def isSuccess (status : ExitStatus) : Bool := status = .exited 0

/-- The wording of a status. -/
def shown : ExitStatus → String
  | .exited code => "exit status: " ++ Text.decimal code.toNat
  | .killed signal =>
    let name := match signalName? signal with
      | some name => " (" ++ name ++ ")"
      | none => ""
    "signal: " ++ Text.decimal signal.toNat ++ name

end ExitStatus

/-- Why a command line did not do what it was run for: the program could not be started,
or it ended without success. -/
inductive CommandError where
  | notStarted (command : String)
  | unsuccessful (command : String) (status : ExitStatus) (stderr : String)
deriving DecidableEq, Repr

/-- The wording of an error. -/
def CommandError.message : CommandError → String
  | .notStarted command => "failed to spawn command: " ++ command
  | .unsuccessful command status stderr =>
    "`" ++ command ++ "` failed with " ++ status.shown ++ "\n" ++ stderr

end DevVm
