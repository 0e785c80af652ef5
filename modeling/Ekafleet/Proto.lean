import Ekafleet.Lib.HashMap

/-! Messages from the server to its agents | source: proto/fleet.proto

    The payloads that the reconcile cycle sends. -/

namespace Ekafleet.Proto

/-- Resources in a specification. -/
structure ResourceRequirements where
  cpuRequest : UInt64
  memoryRequest : UInt64
  cpuLimit : UInt64
  memoryLimit : UInt64
  deriving DecidableEq, Repr

/-- A probe over HTTP. -/
structure HttpProbe where
  path : String
  port : UInt32
  deriving DecidableEq, Repr

/-- The health check in a specification. -/
structure HealthCheckSpec where
  probe : Option HttpProbe
  intervalSeconds : UInt32
  timeoutSeconds : UInt32
  healthyThreshold : UInt32
  unhealthyThreshold : UInt32
  deriving DecidableEq, Repr

/-- A port in a specification. -/
structure PortSpec where
  name : String
  port : UInt32
  protocol : String
  hostname : String
  deriving DecidableEq, Repr

/-- Commands and times around start and stop. -/
structure LifecycleHooks where
  preStop : List String
  postStart : List String
  stopSignal : String
  terminationGracePeriodSeconds : UInt32
  deriving DecidableEq, Repr

/-- A volume in a specification. -/
structure VolumeMount where
  name : String
  mountPath : String
  sizeMb : UInt64
  storageClass : String
  accessMode : String
  reclaimRetain : Bool
  deriving DecidableEq, Repr

/-- Zero and the empty text mean unset. -/
structure CgroupControls where
  cpuWeight : UInt32
  memoryHighMb : UInt64
  memoryMaxMb : UInt64
  ioWeight : UInt32
  tasksMax : UInt32
  oomPolicy : String
  cpuQuotaPercent : UInt32
  deriving DecidableEq, Repr

/-- What an agent has to run. -/
structure ServiceSpec where
  name : String
  storePath : String
  command : String
  environment : HashMap String String
  resources : Option ResourceRequirements
  healthCheck : Option HealthCheckSpec
  ports : List PortSpec
  livenessProbe : Option HealthCheckSpec
  readinessProbe : Option HealthCheckSpec
  startupProbe : Option HealthCheckSpec
  lifecycle : Option LifecycleHooks
  volumes : List VolumeMount
  cgroupControls : Option CgroupControls
  containerImage : String
  ns : String
  namespaceIp : String

/-- Specifications by the name of their service. -/
abbrev Specs := HashMap String ServiceSpec

/-- Services of the default namespace use the network of the host. -/
def isDefaultNamespace (ns : String) : Bool := ns == "" || ns == "default"

/-- A service on another node of the namespace. -/
structure RemoteServiceEndpoint where
  serviceName : String
  ip : String
  ports : List UInt32
  deriving DecidableEq, Repr

/-- Another node of the namespace. -/
structure NamespaceRemotePeer where
  nodeId : String
  tunnelEndpoint : String
  services : List RemoteServiceEndpoint
  deriving DecidableEq, Repr

/-- The network of a namespace on a node. -/
structure NamespaceNetworkConfig where
  ns : String
  subnet : String
  gateway : String
  vni : UInt32
  remotePeers : List NamespaceRemotePeer
  deriving DecidableEq, Repr

/-- Everything a node is to run. -/
structure DesiredState where
  services : List ServiceSpec
  namespaceNetworks : List NamespaceNetworkConfig := []

/-- How a new version is rolled out. -/
inductive DeployStrategy where | rolling | canary | blueGreen
  deriving DecidableEq, Repr

/-- Deploy one version of a service. -/
structure DeployCommand where
  deploymentId : String
  serviceName : String
  storePath : String
  strategy : DeployStrategy
  deriving DecidableEq, Repr

/-- Kinds of DNS records. -/
inductive DnsRecordType where | a | aaaa | srv | cname
  deriving DecidableEq, Repr

/-- A DNS record the server pushes. -/
structure DnsRecord where
  name : String
  recordType : DnsRecordType
  values : List String
  ttl : UInt32
  ns : String
  deriving DecidableEq, Repr

/-- Move a volume to this node. -/
structure MigrateVolumeCommand where
  correlationId : String
  serviceName : String
  sourceHost : String
  sourcePath : String
  destPath : String
  deriving DecidableEq, Repr

/-- The messages of the server to an agent. -/
inductive ServerMessage where
  | desiredState (ds : DesiredState)
  | deploy (cmd : DeployCommand)
  | dns (records : List DnsRecord)
  | migrateVolume (cmd : MigrateVolumeCommand)

end Ekafleet.Proto
