import MonitorMerlin.Binlog.Failure
import MonitorMerlin.Binlog.Wipe
import MonitorMerlin.Binlog.Close
import MonitorMerlin.Node.Saved
import MonitorMerlin.Node.Limits
import MonitorMerlin.Node.SendAll
import MonitorMerlin.Node.Conservation
import MonitorMerlin.Codec.RoundTrip
import MonitorMerlin.Net.Accepted
import MonitorMerlin.Net.Verified
import MonitorMerlin.Net.SourcePort
import MonitorMerlin.Module.Bounds
import MonitorMerlin.Module.Tasks
import MonitorMerlin.Module.EventFilter
import MonitorMerlin.Module.Runcmd
import MonitorMerlin.Tiers.Notification
import MonitorMerlin.Tiers.Propagation
import MonitorMerlin.Tiers.Routing
import MonitorMerlin.Tiers.Recipients
import MonitorMerlin.Tiers.Coverage
import MonitorMerlin.Oconfsplit.Hosts
import MonitorMerlin.Csync.Running
import MonitorMerlin.Csync.Files
import MonitorMerlin.Hooks.Timestamps
import MonitorMerlin.Hooks.Notifications
import MonitorMerlin.Hooks.Duplicates
import MonitorMerlin.Expiry.Accounting
import MonitorMerlin.Tools.LparseBackward
import MonitorMerlin.Tools.RenameDb
import MonitorMerlin.Tools.Duration
import MonitorMerlin.Tools.ShowlogObjects
import MonitorMerlin.Tools.ImportIncremental
import MonitorMerlin.Tools.LogFiles
import MonitorMerlin.Config.RoundTrip
import MonitorMerlin.Config.Locality
import MonitorMerlin.Config.Agreement
import MonitorMerlin.Config.ReadFile
import MonitorMerlin.Apps.Push
import MonitorMerlin.Apps.Cluster
import MonitorMerlin.Daemon.StringUtils
