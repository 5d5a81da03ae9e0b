import NetOrchestrator.Proofs.Marks
import NetOrchestrator.Proofs.ManualRoundTrip
import NetOrchestrator.Proofs.IntentsAgree
import NetOrchestrator.Proofs.PolicyManager
import NetOrchestrator.Proofs.AlwaysOnAgree
import NetOrchestrator.Proofs.BypassMigration
import NetOrchestrator.Proofs.CondEdits
import NetOrchestrator.Proofs.CondConverges
import NetOrchestrator.Proofs.ClientSessions
import NetOrchestrator.Proofs.XrayReload
import NetOrchestrator.Proofs.CryptokeyRouting
import NetOrchestrator.Proofs.OnePrimary
import NetOrchestrator.Proofs.Failover
import NetOrchestrator.Proofs.UplinkProtection
import NetOrchestrator.Proofs.IntentOwnership
import NetOrchestrator.Proofs.ForeignRoutes
import NetOrchestrator.Proofs.GuardsReplayed
import NetOrchestrator.Proofs.ResolvedNames
import NetOrchestrator.Proofs.SplitDns
import NetOrchestrator.Proofs.Watchdog
import NetOrchestrator.Proofs.OpenVpnCredentials
import NetOrchestrator.Proofs.FullCoverage
import NetOrchestrator.Proofs.WireGuardSetconf
import NetOrchestrator.Proofs.XrayIsolation
import NetOrchestrator.Proofs.XrayBalancers
import NetOrchestrator.Proofs.StaticApart
import NetOrchestrator.Proofs.ProxyRestored
import NetOrchestrator.Proofs.ListenerPorts
import NetOrchestrator.Proofs.LostUpdates
import NetOrchestrator.Proofs.SubscriptionEdits
import NetOrchestrator.Proofs.NetlinkCodec
import NetOrchestrator.Proofs.Conflicts
import NetOrchestrator.Proofs.PoolReport
import NetOrchestrator.Proofs.Ipv6Coverage
import NetOrchestrator.Proofs.IntentEdits
import NetOrchestrator.Proofs.IntentDoctor
import NetOrchestrator.Proofs.TailscaleConverges
import NetOrchestrator.Proofs.PortMoves
import NetOrchestrator.Proofs.DnsKept
import NetOrchestrator.Proofs.TunnelServices
import NetOrchestrator.Proofs.RemotePins
import NetOrchestrator.Proofs.LinkNames
import NetOrchestrator.Proofs.RoutePlan
import NetOrchestrator.Proofs.GeoDamage
import NetOrchestrator.Proofs.GlobMatch
import NetOrchestrator.Proofs.ByteLines
import NetOrchestrator.Proofs.DnsNames
import NetOrchestrator.Proofs.StartupRecovery
import NetOrchestrator.Core.OpenVpnTokens
