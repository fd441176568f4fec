import DevVm.Files.Error
import DevVm.Path
import DevVm.Program
import DevVm.Text.Utf8

/-!
# Reading files, and writing private ones

A private file is one that only its owner may read. `writePrivate` makes one in five
steps, each of them a call of its own: the directories above it, the file, emptied, the
content, everything handed to the system, and last the permissions, which a file that was
there before does not get from being opened.
-/

namespace DevVm

/-- Why the operating system refused a step. -/
inductive Refusal where
  | notPermitted
  | notFound
  | alreadyExists
  | notADirectory
  | isADirectory
  | nameTooLong
  /-- A path with a NUL, which no name can hold. -/
  | nulInPath
  | other (reason : String)
deriving DecidableEq, Repr

/-- The wording of a refusal. -/
def Refusal.reason : Refusal → String
  | notPermitted => "Operation not permitted (os error 1)"
  | notFound => "No such file or directory (os error 2)"
  | alreadyExists => "File exists (os error 17)"
  | notADirectory => "Not a directory (os error 20)"
  | isADirectory => "Is a directory (os error 21)"
  | nameTooLong => "File name too long (os error 36)"
  | nulInPath => "file name contained an unexpected NUL byte"
  | other reason => reason

/-- What can be done with files. -/
inductive FileCall where
  /-- Reads a whole file. -/
  | read (path : String)
  /-- Creates a directory and those above it, unless they are there. -/
  | createDirs (path : String)
  /-- Opens a file for writing and empties it. A file that is created is its owner's
  alone. -/
  | openEmpty (path : String)
  /-- Writes to the file opened last. -/
  | write (path : String) (octets : Bytes)
  /-- Hands everything written to the system. -/
  | flush (path : String)
  /-- Takes a file's permissions away from everybody but its owner. -/
  | restrict (path : String)
deriving DecidableEq, Repr

/-- What it is answered with. -/
def FileCall.Value : FileCall → Type
  | read _ => Bytes
  | createDirs _ | openEmpty _ | write _ _ | flush _ | restrict _ => Unit

/-- The calls of working with files. -/
def fileSignature : Signature := ⟨FileCall, fun c => Except Refusal c.Value⟩

/-- A task that works with files. -/
abbrev FileTask (α : Type) := ExceptT FileError (Program fileSignature) α

namespace FileTask

/-- One call, whose refusal is the failure of a step on a path. -/
def need (c : FileCall) (step : FileStep) (path : String) : FileTask c.Value :=
  ExceptT.mk (.call (S := fileSignature) c fun reply =>
    .done (reply.mapError fun refusal => ⟨step, path, refusal.reason⟩))

/-- Reads a file. -/
def read (path : String) : FileTask Bytes := need (.read path) .read path

/-- Writes a file that only its owner may read. -/
def writePrivate (path : String) (content : Bytes) : FileTask Unit := do
  if let some dir := Path.parent? path then
    need (.createDirs dir) .createDir dir
  need (.openEmpty path) .createFile path
  need (.write path content) .writeFile path
  need (.flush path) .writeFile path
  need (.restrict path) .setPermissions path

end FileTask

end DevVm
