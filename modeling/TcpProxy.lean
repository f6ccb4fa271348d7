import TcpProxy.Lib.Run
import TcpProxy.Lib.Program
import TcpProxy.Errors
import TcpProxy.State
import TcpProxy.Balancer.RoundRobin
import TcpProxy.Balancer.SimpleCooldownHandler
import TcpProxy.Ingest
import TcpProxy.Balancer.Attempt
import TcpProxy.Balancer.Passes
import TcpProxy.Balancer.Selection
import TcpProxy.Balancer.Stack
import TcpProxy.Balancer.Concurrent
import TcpProxy.Balancer.Isolation
import TcpProxy.Balancer.Consistency
import TcpProxy.Balancer.History
import TcpProxy.Balancer.Distribution
import TcpProxy.Balancer.Draining
import TcpProxy.Lib.Semaphore
import TcpProxy.Proxy.Admission
import TcpProxy.Proxy.Accounting
import TcpProxy.Proxy.Server
import TcpProxy.Proxy.Permits
import TcpProxy.Proxy.Steps
import TcpProxy.Proxy.Rejection
import TcpProxy.Proxy.Queue
import TcpProxy.Proxy.Outcome
import TcpProxy.Balancer.Races
import TcpProxy.Balancer.Tickets
import TcpProxy.Lib.Simulation
import TcpProxy.Balancer.Expiry
import TcpProxy.Balancer.Repeats
import TcpProxy.Proxy.FirstJoined
import TcpProxy.Network.Resolver
import TcpProxy.Proxy.JoinSets
import TcpProxy.Balancer.Reporting
import TcpProxy.Lib.Hiding
import TcpProxy.Lib.Contract
import TcpProxy.Proxy.Lifecycle
import TcpProxy.Proxy.Forwarding
import TcpProxy.Balancer.Routes
import TcpProxy.Proxy.Routing
import TcpProxy.Proxy.Dispatch
import TcpProxy.Proxy.Cancellation
import TcpProxy.Proxy.Shutdown
import TcpProxy.Lib.Fair
import TcpProxy.Proxy.Progress
import TcpProxy.Balancer.Cooling
import TcpProxy.Proxy.Outages
import TcpProxy.Lib.Credits
import TcpProxy.Balancer.Work
import TcpProxy.Proxy.Stopping
import TcpProxy.Proxy.Work
import TcpProxy.Balancer.Exhaustion
import TcpProxy.Network.Tokio
import TcpProxy.Proxy.Production
import TcpProxy.Proxy.Availability
import TcpProxy.Proxy.Recovery
import TcpProxy.Balancer.Breaker
import TcpProxy.Proxy.Breaker
import TcpProxy.Proxy.Equivalence
import TcpProxy.Main
