import DevVm.Json.Writer
import DevVm.Shell.Quote
import DevVm.Vm.Services
import DevVm.Vm.StartOptions
import DevVm.Vm.Profile

/-!
# What the guest is told

Every command that is ever sent to a guest, and its text. A user's words reach a command
line only through `Shell.quote`, with one exception: the address of the second network
card, which is an IPv4 address wherever it comes from a user.
-/

namespace DevVm

/-- What the guest's provisioning script reads. -/
structure GuestOptions where
  domain : String
  ip : String
  services : String
  registries : List String
  provider : String
deriving DecidableEq, Repr

/-- The options for a VM and a request. -/
def GuestOptions.ofStart (vm : VmProfile) (opts : StartOptions) : GuestOptions where
  domain := vm.domain
  ip := vm.ip
  services := Service.normalize opts.services
  registries := opts.registryNames
  provider := vm.provider

/-- The options as a JSON document. -/
def GuestOptions.document (o : GuestOptions) : String :=
  String.ofList (Json.writtenObject
    [("domain", .text o.domain), ("ip", .text o.ip), ("services", .text o.services),
     ("registries", .texts o.registries), ("provider", .text o.provider)])

/-- What is collected from a guest for its diagnosis. -/
inductive Diagnostic where
  | provisionLog
  | provisionOptions
  | networkInterfaces
  | routes
  | diskUsage
  | memory
  | kernelLog
deriving DecidableEq, Repr

namespace Diagnostic

/-- All diagnostics, in the order in which they are collected. -/
def all : List Diagnostic :=
  [provisionLog, provisionOptions, networkInterfaces, routes, diskUsage, memory, kernelLog]

/-- The heading of a diagnostic. -/
def title : Diagnostic → String
  | provisionLog => "provision log"
  | provisionOptions => "provision options"
  | networkInterfaces => "network interfaces"
  | routes => "routes"
  | diskUsage => "disk usage"
  | memory => "memory"
  | kernelLog => "kernel log"

/-- The command that prints a diagnostic. -/
def command : Diagnostic → String
  | provisionLog => "sudo cat /var/pcfdev/provision.log"
  | provisionOptions => "sudo cat /var/pcfdev/provision-options.json"
  | networkInterfaces => "ip addr"
  | routes => "ip route"
  | diskUsage => "df -h"
  | memory => "free -m"
  | kernelLog => "sudo dmesg | tail -n 500"

end Diagnostic

/-- A command for the guest. -/
inductive GuestCommand where
  /-- Gives the second network card a fixed address, unless it has one already. -/
  | configureNetwork (ip : String)
  /-- Lets the holder of a key log in. -/
  | authorizeKey (publicKey : String)
  /-- Hands over the options for provisioning. -/
  | writeOptions (options : GuestOptions)
  /-- Provisions the guest. -/
  | provision (masterPassword : String)
  /-- Succeeds if the guest has been provisioned. -/
  | checkHealth
  /-- Makes the guest count as not provisioned. -/
  | forgetHealth
  /-- Prints the certificate of the guest's certificate authority. -/
  | showCertificate
  /-- Prints a diagnostic. -/
  | diagnose (what : Diagnostic)
deriving DecidableEq, Repr

namespace GuestCommand

/-- The guest's list of network interfaces. -/
def interfacesFile : String := "/etc/network/interfaces"

/-- The guest's provisioning script, run with an administrator's rights. -/
def provisioner : String := "sudo -H /var/pcfdev/provision"

/-- The text of a command. -/
def text : GuestCommand → String
  | configureNetwork ip =>
    "grep -q '^auto eth1$' " ++ interfacesFile ++ " 2>/dev/null || echo -e \"auto eth1\n"
      ++ "iface eth1 inet static\naddress " ++ ip ++ "\nnetmask 255.255.255.0\" | sudo tee -a "
      ++ interfacesFile
  | authorizeKey publicKey =>
    "mkdir -p ~/.ssh && echo '" ++ publicKey ++ "' >> ~/.ssh/authorized_keys"
      ++ " && chmod 600 ~/.ssh/authorized_keys"
  | writeOptions options =>
    "echo " ++ Shell.quote options.document
      ++ " | sudo tee /var/pcfdev/provision-options.json >/dev/null"
  | provision masterPassword =>
    if masterPassword = "" then provisioner
    else provisioner ++ " " ++ Shell.quote masterPassword
  | checkHealth => "test -f /run/pcfdev-healthcheck"
  | forgetHealth => "sudo rm -f /run/pcfdev-healthcheck"
  | showCertificate => "cat /var/pcfdev/openssl/ca_cert.pem"
  | diagnose what => what.command

end GuestCommand

end DevVm
