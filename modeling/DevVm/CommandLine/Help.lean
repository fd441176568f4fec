import DevVm.CommandLine.Reader

/-!
# Help on the command line

What is printed when there is no command to carry out, and with which code the program
then exits: asking for help or for the version is no mistake.
-/

namespace DevVm.CommandLine

/-- The name and the version of the program. -/
def versionText : String := "pcfdev 0.1.0\n"

/-- What a subcommand does, in a few words. -/
def Subcommand.summary : Subcommand → String
  | start => "Import if needed, boot and provision the VM"
  | stop => "Power the VM off"
  | suspend => "Save the VM state to disk"
  | resume => "Restore a suspended VM"
  | status => "Print the VM state"
  | trust => "Trust the VM's certificate authority"
  | ssh => "Open an interactive shell in the VM"
  | target => "Log the cf CLI in to PCF Dev"
  | debug => "Collect debug logs from the VM"
  | destroy => "Remove every PCF Dev VM"
  | help => "Print this message"

/-- How the program is used. -/
def usageText : String :=
  let row (sub : Subcommand) : String :=
    "  " ++ sub.name ++ String.ofList (List.replicate (9 - sub.name.length) ' ') ++ sub.summary
      ++ "\n"
  "Usage: pcfdev [OPTIONS] <COMMAND>\n\nCommands:\n" ++ String.join (Subcommand.all.map row)

namespace UsageError

/-- The code the program exits with. -/
def exitCode : UsageError → UInt8
  | helpWanted | versionWanted => 0
  | nothingGiven | noSuchCommand | unknownArgument | conflict | valueMissing
  | badValue | valueUnwanted | commandMissing | illFormedText => 2

/-- What is printed. -/
def text : UsageError → String
  | versionWanted => versionText
  | helpWanted | nothingGiven => usageText
  | noSuchCommand => "error: there is no such command\n\n" ++ usageText
  | unknownArgument => "error: unexpected argument\n\n" ++ usageText
  | conflict => "error: arguments cannot be used together\n\n" ++ usageText
  | valueMissing => "error: an option lacks its value\n\n" ++ usageText
  | badValue => "error: a value is not a number that fits\n\n" ++ usageText
  | valueUnwanted => "error: an option takes no value\n\n" ++ usageText
  | commandMissing => "error: a command is required\n\n" ++ usageText
  | illFormedText => "error: an argument is not well-formed text\n\n" ++ usageText

end UsageError

end DevVm.CommandLine
