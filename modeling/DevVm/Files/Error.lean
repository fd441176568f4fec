/-!
# What can go wrong with a file

An error names the step that failed, the path it was about, and the reason the operating
system gave.
-/

namespace DevVm

/-- The steps of reading a file and of writing a private one. -/
inductive FileStep where
  | createDir
  | createFile
  | writeFile
  | read
  | setPermissions
deriving DecidableEq, Repr

/-- A step that failed on a path. -/
structure FileError where
  step : FileStep
  path : String
  reason : String
deriving DecidableEq, Repr

/-- What a step was about to do. -/
def FileStep.purpose : FileStep → String
  | .createDir => "create directory"
  | .createFile => "create file"
  | .writeFile => "write file"
  | .read => "read file"
  | .setPermissions => "set permissions on"

/-- The wording of an error. -/
def FileError.message (e : FileError) : String :=
  "Cannot " ++ e.step.purpose ++ " '" ++ e.path ++ "': " ++ e.reason

end DevVm
