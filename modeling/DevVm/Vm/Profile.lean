import DevVm.Settings

/-!
# What a VM is

The identity and the static facts of one VM: its name, its size, and how it is reached. A
VM that is still to be imported gets them from the settings and from what was asked for.
-/

namespace DevVm

/-- The guest's address unless another one was asked for. -/
def usualIp : String := "192.168.11.11"

/-- The domain that belongs to that address. -/
def usualDomain : String := "local.pcfdev.io"

/-- The hypervisor's name, as the guest knows it. -/
def hypervisorName : String := "virtualbox"

/-- One VM. Memory is in MB, and the port is the host's end of the forwarding to the
guest's SSH daemon, if there is one. -/
structure VmProfile where
  name : String
  domain : String
  ip : String
  sshPort : Option UInt16
  memory : UInt64
  cpus : UInt32
  provider : String
deriving DecidableEq, Repr

/-- The domain of a guest that has an address and was given no domain: a name below it
resolves to the address itself. -/
def impliedDomain (ip : String) : String :=
  if ip = usualIp then usualDomain else ip ++ ".xip.io"

/-- The VM that an import would make, with what was asked for in place of the defaults. -/
def VmProfile.planned (settings : Settings) (memory : Option UInt64) (cpus : Option UInt32)
    (ip domain : Option String) : VmProfile where
  name := settings.vmName
  domain := domain.getD (impliedDomain (ip.getD usualIp))
  ip := ip.getD usualIp
  sshPort := none
  memory := memory.getD settings.defaultMemory
  cpus := cpus.getD settings.defaultCpus
  provider := hypervisorName

end DevVm
