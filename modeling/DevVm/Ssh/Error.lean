import DevVm.Duration

/-!
# What can go wrong over SSH

A connection is not had in time, a command ends without success, or something underneath
fails. Texts that come from the operating system or from the protocol are carried as they
are.
-/

namespace DevVm

/-- Why something over SSH failed. A command that ended with a status other than zero
brings along what it wrote, where that was captured. -/
inductive SshError where
  | badPrivateKey (reason : String)
  | timeout (limit : Duration)
  | exitStatus (status : UInt32) (output : String)
  | missingExitStatus
  | authFailed
  | signals (reason : String)
  | rawMode (reason : String)
  | key (reason : String)
  | io (reason : String)
  | protocol (reason : String)
deriving DecidableEq, Repr

/-- The wording of an error. -/
def SshError.message : SshError → String
  | .badPrivateKey reason => "could not parse private key: " ++ reason
  | .timeout limit => "ssh connection timed out after " ++ limit.shown
  | .exitStatus status _ => "Process exited with status " ++ Text.decimal status.toNat
  | .missingExitStatus => "remote process exited without reporting a status"
  | .authFailed => "SSH authentication (public key) failed"
  | .signals reason => "failed to create signals stream: " ++ reason
  | .rawMode reason => "failed to put terminal into raw mode: " ++ reason
  | .key reason => "SSH keys error: " ++ reason
  | .io reason => reason
  | .protocol reason => reason

end DevVm
