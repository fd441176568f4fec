import DevVm.Command.Error

/-!
# What can go wrong with the hypervisor's tool

The tool is not installed, one of its commands fails, or it prints something that cannot
be made sense of.
-/

namespace DevVm

/-- Why a request to the hypervisor failed. -/
inductive HypervisorError where
  | missingExecutable (reason : String)
  | command (cause : CommandError)
  | parse (command output : String)
deriving DecidableEq, Repr

/-- The wording of an error. -/
def HypervisorError.message : HypervisorError → String
  | .missingExecutable reason => "could not find VBoxManage on PATH: " ++ reason
  | .command cause => cause.message
  | .parse line output => "unexpected output from `" ++ line ++ "`: " ++ output

end DevVm
