import FerrumProxy.ProxyChainGrammar
import FerrumProxy.HostAmbiguity
import FerrumProxy.Redirects
import FerrumProxy.Http3Routes
import FerrumProxy.DdosAccounting
import FerrumProxy.DdosRates
import FerrumProxy.DdosPruning
import FerrumProxy.UdpVerdicts
import FerrumProxy.IpBlockForms
import FerrumProxy.IpBlockAgreement
import FerrumProxy.IpBlockFailures
import FerrumProxy.SecretsInvariant
import FerrumProxy.RelayTcpTunnels
import FerrumProxy.RelayUdpPorts
import FerrumProxy.UdpStrangers
import FerrumProxy.RelayWaiting
import FerrumProxy.GuiTokens
import FerrumProxy.RelayHalfClose
import FerrumProxy.UdpFrames
import FerrumProxy.DesktopSessions
import FerrumProxy.ConnectionTotals
import FerrumProxy.TimestampMatching
import FerrumProxy.PortRangeArithmetic
import FerrumProxy.TokenExpiry
import FerrumProxy.RewrittenRequests
import FerrumProxy.GuiRateLimit
import FerrumProxy.PongStability
import FerrumProxy.UdpFailover
import FerrumProxy.TunnelPool
import FerrumProxy.SdpPlacement
import FerrumProxy.ProcessTable
import FerrumProxy.FirewallPorts
import FerrumProxy.DerCodec
import FerrumProxy.AutoRestart
import FerrumProxy.LogLines
