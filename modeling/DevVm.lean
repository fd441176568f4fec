import DevVm.Text.Lines
import DevVm.Text.Blank
import DevVm.Text.Field
import DevVm.Text.Base64
import DevVm.Text.Decimal
import DevVm.Text.Lower
import DevVm.Text.Escaped
import DevVm.Duration
import DevVm.Json.Writer
import DevVm.Json.Reader
import DevVm.Network.Ipv4
import DevVm.Path
import DevVm.Shell.Quote
import DevVm.Shell.Token
import DevVm.Toml.Reader
import DevVm.Settings
import DevVm.Command.Error
import DevVm.Hypervisor.Error
import DevVm.Files.Error
import DevVm.Machine.Error
import DevVm.Program
import DevVm.Ssh.Endpoint
import DevVm.Vm.Error
import DevVm.Guest.Command
import DevVm.Host.Call
import DevVm.Machine.Network
import DevVm.Machine.Operations
import DevVm.UserCommand
import DevVm.Terminal
import DevVm.World.Guest
import DevVm.World.Host
import DevVm.Hypervisor.Listing
import DevVm.CommandLine.Option
import DevVm.CommandLine.Reader
import DevVm.Command.Basic
import DevVm.Hypervisor.Tool
import DevVm.World.Script
import DevVm.Files.Private
import DevVm.World.FileTree
import DevVm.Ssh.Dial
import DevVm.Ssh.Contest
import DevVm.Ssh.PublicKey
import DevVm.Ssh.InputFeed
import DevVm.Ssh.Exec
import DevVm.Ssh.WindowWatch
import DevVm.Ssh.Session
import DevVm.Host.System
import DevVm.Invocation
import DevVm.World.Computer
import DevVm.CommandLine.Help
import DevVm.Host.Memory
import DevVm.Main
import DevVm.Proofs.JsonText
import DevVm.Proofs.CommandLines
import DevVm.Proofs.Runs
import DevVm.Proofs.FailStop
import DevVm.Proofs.Tolerance
import DevVm.Proofs.Guest
import DevVm.Proofs.Standing
import DevVm.Proofs.Calm
import DevVm.Proofs.Machines
import DevVm.Proofs.Starting
import DevVm.Proofs.Commands
import DevVm.Proofs.Lasting
import DevVm.Proofs.Episodes
import DevVm.Proofs.Retry
import DevVm.Proofs.Identity
import DevVm.Proofs.Lifecycle
import DevVm.Proofs.Moments
import DevVm.Proofs.Routine
import DevVm.Proofs.Conduct
import DevVm.Proofs.Refusals
import DevVm.Proofs.FirstBoots
import DevVm.Proofs.Imports
import DevVm.Proofs.Choices
import DevVm.Proofs.Connections
import DevVm.Proofs.Provisioning
import DevVm.Proofs.Inventory
import DevVm.Proofs.Destroying
import DevVm.Proofs.Frame
import DevVm.Proofs.Undoing
import DevVm.Proofs.Secrets
import DevVm.Proofs.Relays
import DevVm.Proofs.Sessions
import DevVm.Proofs.Watching
import DevVm.Proofs.InputFeeds
import DevVm.Proofs.Races
import DevVm.Proofs.Dialling
import DevVm.Proofs.Captures
import DevVm.Proofs.Restoring
import DevVm.Proofs.Stopping
import DevVm.Proofs.Selecting
import DevVm.Proofs.Denials
import DevVm.Proofs.Networking
import DevVm.Proofs.Logs
import DevVm.Proofs.Reports
import DevVm.Proofs.Prompts
import DevVm.Proofs.Selectors
import DevVm.Proofs.Arguments
import DevVm.Proofs.FileTrees
import DevVm.Proofs.PrivateFiles
import DevVm.Proofs.Pages
import DevVm.Proofs.MachineLists
import DevVm.Proofs.InterfaceLists
import DevVm.Proofs.ToolAnswers
import DevVm.Proofs.DottedQuads
