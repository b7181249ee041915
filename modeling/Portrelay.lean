import Portrelay.Theory.Machine
import Portrelay.Theory.Tally
import Portrelay.Relay.Socket
import Portrelay.Relay.CopyDirection
import Portrelay.Relay.SpliceDirection
import Portrelay.Relay.BufferPool
import Portrelay.Relay.PooledConnections
import Portrelay.Relay.HalfClose
import Portrelay.Relay.Timed
import Portrelay.Relay.IdleFairness
import Portrelay.Relay.IdleCoverage
import Portrelay.Relay.Scripts
import Portrelay.Metrics.RelayMetrics
import Portrelay.Relay.Forward
import Portrelay.Server.Admission
import Portrelay.Server.Permits
import Portrelay.Server.AdmissionSafety
import Portrelay.Server.Accounting
import Portrelay.Server.Bytes
import Portrelay.Server.Attribution
import Portrelay.Server.Shutdown
import Portrelay.Server.Outcomes
import Portrelay.Metrics.HistogramRace
import Portrelay.Theory.Double
import Portrelay.Theory.Exposition
import Portrelay.Server.MetricsRequest
import Portrelay.Server.BearerToken
import Portrelay.Server.MetricsConnection
import Portrelay.Config.Endpoint
import Portrelay.Config.IpAddr
import Portrelay.Config.Listeners
import Portrelay.Server.Bind
import Portrelay.Server.MetricsToken
import Portrelay.Config.RoundTrip
import Portrelay.Config.FileConfig
import Portrelay.Config.FrontEnds
import Portrelay.Config.RelayNames
import Portrelay.Metrics.Buckets
import Portrelay.Metrics.Families
import Portrelay.Relay.SpliceRuns
import Portrelay.Server.RequestReader
import Portrelay.Relay.WatchdogClock
import Portrelay.Relay.TargetResolver
import Portrelay.Server.ForcedShutdown
import Portrelay.Metrics.PrintedSum
import Portrelay.Metrics.Loads
import Portrelay.Server.Scrapes
import Portrelay.Server.ScrapeExchange
import Portrelay.Server.Deadlines
import Portrelay.Server.Work
import Portrelay.Server.AcceptErrors
import Portrelay.Server.ConnectingPermits
import Portrelay.Relay.Routing
import Portrelay.Server.ConnectionIds
import Portrelay.Server.CacheAge
import Portrelay.Config.Explicit
import Portrelay.Config.LoadSettings
import Portrelay.Server.BindIsolation
import Portrelay.Server.Configured
import Portrelay.Server.Process
import Portrelay.Relay.IdleReaping
import Portrelay.Server.Capacity
