import DevVm.Machine.Error
import DevVm.Network.Ipv4

/-!
# The host-only network

A guest's second network card shares a network of 256 addresses with the host, and the
host has the address ending in `.1` there.
-/

namespace DevVm.Machine

/-- The name of the forwarding rule to the guest's SSH daemon. -/
def forwardingRule : String := "ssh"

/-- The host's address in the network of a guest. -/
def hostAddress (guestIp : String) : Except MachineError String :=
  match Network.Ipv4.ofText? guestIp.toList with
  | some ip => .ok ip.gateway.toText
  | none => .error (.invalidIp guestIp)

end DevVm.Machine
