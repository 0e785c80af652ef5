import Ekafleet.Agent.CurrentUnits
import Ekafleet.Agent.Health
import Ekafleet.Agent.Rollbacks
import Ekafleet.Agent.Template
import Ekafleet.Attestation.RateLimit
import Ekafleet.Ca.Lifetime
import Ekafleet.Dns.Resolver
import Ekafleet.Fleet.Migrations
import Ekafleet.Fleet.Overlay
import Ekafleet.Fleet.Policies
import Ekafleet.Fleet.Steady
import Ekafleet.Gossip.Attacker
import Ekafleet.Gossip.Withdrawal
import Ekafleet.Mesh.KernelPeers
import Ekafleet.Mesh.Relay
import Ekafleet.Metrics.Prometheus
import Ekafleet.Oci.Base64
import Ekafleet.Oci.Gc
import Ekafleet.Oci.Integrity
import Ekafleet.Oci.Keyless
import Ekafleet.Oci.Reference
import Ekafleet.Policy.Updates
import Ekafleet.Proxy.Authorization
import Ekafleet.Proxy.CircuitTraces
import Ekafleet.Proxy.RouteOrder
import Ekafleet.Raft.Log
import Ekafleet.Raft.Replay
import Ekafleet.Scheduler.Isolation
import Ekafleet.Scheduler.Spreads
import Ekafleet.Secrets.Distribution
import Ekafleet.Secrets.Statements
import Ekafleet.Secrets.Versioned
import Ekafleet.Server.Actuator
import Ekafleet.Server.CaBoot
import Ekafleet.Server.CloudImages
import Ekafleet.Server.DeployOrder
import Ekafleet.Server.PendingCanaries
import Ekafleet.Server.ReadOnly
import Ekafleet.Server.Reports
import Ekafleet.Server.Rolling
import Ekafleet.Server.Rotations
import Ekafleet.Server.Scaling
import Ekafleet.Server.Streams
import Ekafleet.Server.TokenLife
import Ekafleet.Spiffe.WorkloadServer
