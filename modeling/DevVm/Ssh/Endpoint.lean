import DevVm.Vm.Profile
import DevVm.Text.Decimal

/-!
# Where a guest's SSH daemon is found

A guest is reached through a port forwarded from the host, and at its own address.
-/

namespace DevVm

/-- A host, by name or by address, and a port. -/
structure Endpoint where
  host : String
  port : UInt16
deriving DecidableEq, Repr

/-- An address as text. -/
def Endpoint.shown (address : Endpoint) : String :=
  address.host ++ ":" ++ Text.decimal address.port.toNat

/-- The host itself. -/
def loopback : String := "127.0.0.1"

/-- The port the guest's SSH daemon listens on. -/
def daemonPort : UInt16 := 22

/-- Where to dial a guest: the forwarded port first, then the guest's own address. -/
def VmProfile.endpoints (vm : VmProfile) : List Endpoint :=
  (vm.sshPort.map fun port => ⟨loopback, port⟩).toList ++ [⟨vm.ip, daemonPort⟩]

end DevVm
