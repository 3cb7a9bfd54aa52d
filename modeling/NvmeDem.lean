import NvmeDem.Lib.Keyed
import NvmeDem.Lib.Json
import NvmeDem.Lib.Table
import NvmeDem.Lib.Run
import NvmeDem.Lib.Bytes
import NvmeDem.Lib.Pairs
import NvmeDem.Store.Basic
import NvmeDem.Store.Groups
import NvmeDem.Store.Hosts
import NvmeDem.Store.Subsystems
import NvmeDem.Store.Targets
import NvmeDem.Store.Ops
import NvmeDem.Lemmas.Groups
import NvmeDem.Lemmas.Hosts
import NvmeDem.Lemmas.Subsystems
import NvmeDem.Lemmas.Targets
import NvmeDem.Lemmas.Effects
import NvmeDem.Theorems.Atomic
import NvmeDem.Theorems.Names
import NvmeDem.Lemmas.Members
import NvmeDem.Theorems.Groups
import NvmeDem.Theorems.Ports
import NvmeDem.Theorems.Access
import NvmeDem.Dem.State
import NvmeDem.Dem.Load
import NvmeDem.Dem.Logpages
import NvmeDem.Dem.Notify
import NvmeDem.Ac.Cache
import NvmeDem.Ac.Protocol
import NvmeDem.Theorems.Load
import NvmeDem.Theorems.Notify
import NvmeDem.Dem.World
import NvmeDem.Dem.Groups
import NvmeDem.Dem.HostView
import NvmeDem.Dem.Hosts
import NvmeDem.Dem.Inventory
import NvmeDem.Dem.Subsystems
import NvmeDem.Dem.Targets
import NvmeDem.Dem.Requests
import NvmeDem.Lemmas.Records
import NvmeDem.Lemmas.Inventory
import NvmeDem.Lemmas.Requests
import NvmeDem.Lemmas.Copies
import NvmeDem.Lemmas.Loaded
import NvmeDem.Lemmas.LoadedGroups
import NvmeDem.Theorems.GroupLinks
import NvmeDem.Theorems.HostRecords
import NvmeDem.Theorems.HostView
import NvmeDem.Theorems.Membership
import NvmeDem.Theorems.NsRecords
import NvmeDem.Theorems.PortRecords
import NvmeDem.Theorems.Restart
import NvmeDem.Theorems.Views
import NvmeDem.Theorems.Aliases
import NvmeDem.Lemmas.Paired
import NvmeDem.Theorems.Inventory
import NvmeDem.Theorems.Modes
import NvmeDem.Theorems.PortLinks
import NvmeDem.Theorems.Replaced
import NvmeDem.Theorems.HostObjects
import NvmeDem.Theorems.Queues
import NvmeDem.Theorems.Coverage
import NvmeDem.Lemmas.Spdk
import NvmeDem.Theorems.Spdk
import NvmeDem.Dem.PseudoTarget
import NvmeDem.Dem.HostThread
import NvmeDem.Theorems.HostThread
import NvmeDem.Lemmas.LogBytes
import NvmeDem.Theorems.LogBytes
import NvmeDem.Fabric.Logpages
import NvmeDem.Theorems.Fetch
import NvmeDem.Fabric.Tcp
import NvmeDem.Theorems.Framing
import NvmeDem.Endpoint.Target
import NvmeDem.Fabric.Exchange
import NvmeDem.Fabric.Session
import NvmeDem.Theorems.Exchange
import NvmeDem.Theorems.Session
import NvmeDem.Lib.Total
import NvmeDem.Endpoint.SpdkOps
import NvmeDem.Endpoint.Nvmet
import NvmeDem.Endpoint.Configfs
import NvmeDem.Dem.BackEnds
import NvmeDem.Lemmas.BackEnds
import NvmeDem.Lemmas.SpdkPorts
import NvmeDem.Theorems.PortEdits
import NvmeDem.Ac.Updates
import NvmeDem.Theorems.Caches
import NvmeDem.Dem.Connections
import NvmeDem.Theorems.Configfs
import NvmeDem.Theorems.Connections
import NvmeDem.Theorems.KernelTarget
import NvmeDem.Dem.Rest
import NvmeDem.Lemmas.Refusals
import NvmeDem.Theorems.Durable
import NvmeDem.Lemmas.Walks
import NvmeDem.Lemmas.Cli
import NvmeDem.Lemmas.Configfs
import NvmeDem.Lemmas.Nvmet
import NvmeDem.Theorems.HostNames
import NvmeDem.Theorems.Partial
import NvmeDem.Lib.Ring
import NvmeDem.Dem.HandOver
import NvmeDem.Theorems.HandOver
import NvmeDem.Lib.Local
import NvmeDem.Lemmas.Local
import NvmeDem.Theorems.Commute
import NvmeDem.Ac.Monitor
import NvmeDem.Theorems.Monitor
import NvmeDem.Dem.Periodic
import NvmeDem.Theorems.Periodic
import NvmeDem.Ac.Connect
import NvmeDem.Theorems.Connects
import NvmeDem.Theorems.Recipients
import NvmeDem.Theorems.Rejected
import NvmeDem.Theorems.Revocation
import NvmeDem.Theorems.GroupRename
import NvmeDem.Lib.Merge
import NvmeDem.Theorems.Refresh
import NvmeDem.Lib.Buffer
import NvmeDem.Store.Listing
import NvmeDem.Theorems.Listing
import NvmeDem.Dem.PageReports
import NvmeDem.Theorems.PageReports
import NvmeDem.Lib.Ends
import NvmeDem.Theorems.RequestCopies
import NvmeDem.Lib.JsonText
import NvmeDem.Theorems.ListText
import NvmeDem.Dem.UriTexts
import NvmeDem.Theorems.UriSizes
import NvmeDem.Dem.Router
import NvmeDem.Theorems.Router
import NvmeDem.Theorems.Commands
import NvmeDem.Dem.UriScan
import NvmeDem.Theorems.UriScan
import NvmeDem.Lemmas.Asked
import NvmeDem.Theorems.Methods
import NvmeDem.Theorems.OobInterface
import NvmeDem.Theorems.PortList
import NvmeDem.Lib.Stdio
import NvmeDem.Dem.IfaceFile
import NvmeDem.Theorems.IfaceLines
import NvmeDem.Theorems.Comments
import NvmeDem.Lib.Rings
import NvmeDem.Cli.Commands
import NvmeDem.Cli.Main
import NvmeDem.Cli.Asks
import NvmeDem.Common.LinkedList
import NvmeDem.Theorems.LinkedList
import NvmeDem.Dem.AddrWrites
import NvmeDem.Theorems.AddrWrites
import NvmeDem.Fabric.InlineRead
import NvmeDem.Theorems.InlineRead
import NvmeDem.Fabric.LogSizes
import NvmeDem.Theorems.LogSizes
import NvmeDem.Theorems.KeepAlive
import NvmeDem.Endpoint.SpdkJson
import NvmeDem.Theorems.DecodeObject
import NvmeDem.Dem.Signature
import NvmeDem.Theorems.Signature
import NvmeDem.Fabric.Handshake
import NvmeDem.Theorems.Handshake
import NvmeDem.Fabric.Rdma
import NvmeDem.Theorems.Rdma
import NvmeDem.Common.Curl
import NvmeDem.Theorems.Curl
import NvmeDem.Lemmas.Settled
import NvmeDem.Lemmas.Repeats
import NvmeDem.Theorems.Repeats
import NvmeDem.Theorems.Undo
