import TurboPanel.Billing.Landing
import TurboPanel.Billing.ProjectionOrder
import TurboPanel.Billing.QuantityLock
import TurboPanel.Billing.SeatChange
import TurboPanel.Commands.DeployWait
import TurboPanel.Commands.Frames
import TurboPanel.Commands.Lanes
import TurboPanel.Commands.Turns
import TurboPanel.Commands.Waiting
import TurboPanel.Compose.AuthoredSettings
import TurboPanel.Compose.EnvAgreement
import TurboPanel.Compose.ListMapForms
import TurboPanel.Compose.Noninterference
import TurboPanel.Compose.SecretSources
import TurboPanel.Compose.TagLeaks
import TurboPanel.Daemon.Challenge
import TurboPanel.Daemon.RateLimiters
import TurboPanel.Daemon.WholeCalls
import TurboPanel.Deploy.CronCommand
import TurboPanel.Deploy.CronGrammar
import TurboPanel.Deploy.NodeRangeMeaning
import TurboPanel.Deploy.RolloutOrder
import TurboPanel.DockerRun.Quoting
import TurboPanel.DockerRun.Spellings
import TurboPanel.Fabric.PathHysteresis
import TurboPanel.Firewall.Opened
import TurboPanel.Folders.Settle
import TurboPanel.Lib.FreeHosts
import TurboPanel.Managed.FreshStandby
import TurboPanel.Managed.SourcesKept
import TurboPanel.Managed.WildcardGrants
import TurboPanel.Metrics.HostFactsAgree
import TurboPanel.Metrics.IngestGate
import TurboPanel.Metrics.IngressLatency
import TurboPanel.Metrics.LiveOverlay
import TurboPanel.Metrics.LiveSession
import TurboPanel.Metrics.Uptime
import TurboPanel.Net.PrivateLadder
import TurboPanel.Notifications.Windows
import TurboPanel.Principals.SameIds
import TurboPanel.Recovery.IngressGate
import TurboPanel.Recovery.Restart
import TurboPanel.Recovery.Settlements
import TurboPanel.Schedule.GlobalMode
import TurboPanel.Schedule.PublishedPorts
import TurboPanel.Tiers.Accounting
import TurboPanel.Tls.ObjectIds
import TurboPanel.Tls.Signature
import TurboPanel.Transcripts.Acknowledged
import TurboPanel.Transcripts.Retention
import TurboPanel.Upgrades.Dispatches
import TurboPanel.Upgrades.FinishedRuns
import TurboPanel.Upgrades.Planner
import TurboPanel.Upgrades.Restarts
import TurboPanel.Upgrades.SettledSteps
import TurboPanel.Upgrades.VersionOrder
import TurboPanel.Schedule.Colocation
