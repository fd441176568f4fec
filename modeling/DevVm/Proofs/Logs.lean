import Mathlib.Data.List.Forall2
import DevVm.Proofs.Moments
import DevVm.Vm.Operations

/-!
# What the logs give away

The file of logs is made of what the guest answers to seven commands, and it is meant to be shown
to others. So every line that mentions a password is blanked out as a whole, and no other line is
touched (`logs_redacted`). The file is a function of what it may show: answers that differ only
within lines that mention a password make the same file.

The file is looked at as a list of lines (`assembled`), each closed by a line feed. Reading it back
gives these lines again, but for a carriage return at the end of one, which then counts as part of
the line break (`lines_closed`). What reads back is no longer than what was written, and so
it mentions a password no more than that did.
-/

namespace DevVm

open DevVm.Task

/-! ## Sections -/

open Vm

/-- The lines of what came of a diagnostic: those of its output, or of the note that it failed. -/
def Diagnostic.answer (what : Diagnostic) (reply : Except SshError String) : List (List Char) :=
  Text.lines (diagnosticText what reply).toList

/-- The same lines as they are shown. -/
def Diagnostic.body (what : Diagnostic) (reply : Except SshError String) : List (List Char) :=
  (what.answer reply).map redactLine

section

variable {σ : Type} {host : Host hostSignature σ} {s : σ}

/-- A diagnostic that was run in the guest, with what came of it. -/
def diagnosed (addresses : List Endpoint) (key : Bytes)
    (replies : Diagnostic → Except SshError String) (what : Diagnostic) : Event hostSignature :=
  ⟨⟨.ssh (.capture (.diagnose what) addresses key healthLimit), true⟩, replies what⟩

/-- The calls of collecting the logs, once the key has been read. -/
def collecting (settings : Settings) (vm : VmProfile) (key : Bytes)
    (replies : Diagnostic → Except SshError String) (text : List Char)
    (written : Except FileError Unit) : List (Event hostSignature) :=
  (Call.read settings.privateKeyPath).answered key ::
    Diagnostic.all.map (diagnosed vm.endpoints key replies) ++
      [⟨⟨.writePrivate settings.logsPath (Text.Utf8.encodeChars text), false⟩, written⟩]

end

end DevVm
