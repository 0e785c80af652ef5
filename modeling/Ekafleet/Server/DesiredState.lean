import Ekafleet.Proto
import Ekafleet.Server.Reconciler

/-! The desired state of each node | source: server/reconciler.rs, config/mod.rs

    From a plan, one message per node that has placements, with the specification of every service
    placed there, followed by the DNS records of the namespaces. -/

namespace Ekafleet.Server
open Raft Scheduler Proto

/-! ### Specifications -/

/-- Explicit controls first, then limits derived from the declared resources; `none` when nothing is
    declared. -/
def toCgroupControls (resources : ResourceConfig) : Option CgroupControls :=
  let explicit := resources.cgroupControls
  let derivedCpuQuota : Option UInt32 :=
    ((resources.cpu.bind (·.limit)).filter (0 < ·)).map fun mc =>
      (UInt64.ofNat (max ((mc.toNat + 9) / 10) 1)).toUInt32
  let derivedMemMax := (resources.memory.bind (·.limit)).filter (0 < ·)
  let controls : CgroupControls := {
    cpuWeight := (explicit.map (·.cpuWeight)).getD 0
    memoryHighMb := (explicit.bind (·.memoryHigh)).getD 0
    memoryMaxMb := ((explicit.bind (·.memoryMax)).or derivedMemMax).getD 0
    ioWeight := (explicit.map (·.ioWeight)).getD 0
    tasksMax := (explicit.bind (·.tasksMax)).getD 0
    oomPolicy := (explicit.map (·.oomPolicy)).getD ""
    cpuQuotaPercent := derivedCpuQuota.getD 0 }
  if controls = ⟨0, 0, 0, 0, 0, "", 0⟩ then none else some controls

/-- Every probe is an HTTP one, without a port of its own. -/
def healthCheckToProto (hc : HealthCheckConfig) : HealthCheckSpec where
  probe := hc.path.map fun path => ⟨path, 0⟩
  intervalSeconds := hc.interval
  timeoutSeconds := hc.timeout
  healthyThreshold := hc.healthyThreshold
  unhealthyThreshold := hc.unhealthyThreshold

def accessModeDebug : VolumeAccessMode → String
  | .readWriteOnce => "ReadWriteOnce"
  | .readWriteMany => "ReadWriteMany"

/-- The specification of a configured service. The store path is left empty, and so is the namespace
    address; the probes are those of whichever port comes first. -/
def serviceConfigToSpec (name : String) (cfg : ServiceConfig) : ServiceSpec :=
  let firstPort := (HashMap.values cfg.ports).head?
  { name
    storePath := ""
    command := cfg.command.getD ""
    environment := cfg.environment
    resources := some {
      cpuRequest := (cfg.resources.cpu.map (·.request)).getD 0
      memoryRequest := (cfg.resources.memory.map (·.request)).getD 0
      cpuLimit := (cfg.resources.cpu.bind (·.limit)).getD 0
      memoryLimit := (cfg.resources.memory.bind (·.limit)).getD 0 }
    healthCheck := (firstPort.bind (·.healthCheck)).map healthCheckToProto
    ports := cfg.ports.entries.map fun p =>
      ⟨p.1, p.2.port.toUInt32, p.2.protocol.getD "", p.2.hostname.getD ""⟩
    livenessProbe := (firstPort.bind (·.liveness)).map healthCheckToProto
    readinessProbe := (firstPort.bind (·.readiness)).map healthCheckToProto
    startupProbe := (firstPort.bind (·.startup)).map healthCheckToProto
    lifecycle := some {
      preStop := cfg.lifecycle.preStop.getD []
      postStart := cfg.lifecycle.postStart.getD []
      stopSignal := cfg.lifecycle.stopSignal
      terminationGracePeriodSeconds := cfg.lifecycle.terminationGracePeriodSeconds.toUInt32 }
    volumes := cfg.volumes.map fun v =>
      ⟨v.name, v.mountPath, v.sizeMb, v.storageClass, accessModeDebug v.accessMode,
        v.reclaimRetain⟩
    cgroupControls := toCgroupControls cfg.resources
    containerImage := (cfg.container.map (·.image)).getD ""
    ns := cfg.ns
    namespaceIp := "" }

def displayIp (ip : Ipv4Addr) : String :=
  s!"{ip.a.toNat}.{ip.b.toNat}.{ip.c.toNat}.{ip.d.toNat}"

/-- The address the server has assigned to a service in its namespace. -/
def namespaceIpForService (raft : StateMachineInner) (ns serviceName : String) : Option Ipv4Addr :=
  (raft.namespaceIps.lookup ns).bind (·.lookup serviceName)

/-- The specification as it is sent: with the assigned address, outside the default namespace. -/
def sentSpec (raft : StateMachineInner) (name : String) (cfg : ServiceConfig) : ServiceSpec :=
  let spec := serviceConfigToSpec name cfg
  if isDefaultNamespace cfg.ns then spec
  else match namespaceIpForService raft cfg.ns name with
    | some ip => { spec with namespaceIp := displayIp ip }
    | none => spec

/-! ### Messages -/

/-- Node and specification for every placement of a configured service. -/
def nodeSpecs (desired : FleetConfig) (raft : StateMachineInner) (plan : ReconcilePlan) :
    List (String × ServiceSpec) :=
  plan.ops.flatMap fun op =>
    match desired.services.lookup op.serviceName with
    | none => []
    | some cfg => op.placements.map fun p => (p.machineName, sentSpec raft op.serviceName cfg)

/-- The specifications by node, as they are walked through. -/
def perNode (order : HashMap.Order) (desired : FleetConfig) (raft : StateMachineInner)
    (plan : ReconcilePlan) : List (Σ _ : String, List ServiceSpec) :=
  order.arrange (HashMap.groupBy Prod.fst Prod.snd (nodeSpecs desired raft plan)).entries

/-- The namespaces of each node, each listed once. -/
def perNodeNamespaces (order : HashMap.Order) (specs : List (String × ServiceSpec)) :
    List (Σ _ : String, List String) :=
  (order.arrange (HashMap.groupBy Prod.fst (·.2.ns)
    (specs.filter (!isDefaultNamespace ·.2.ns))).entries).map fun e =>
      ⟨e.1, order.arrange e.2.dedup⟩

/-- The services of a namespace, by the nodes that have some with an address. -/
def nsToNodes (nodes : List (Σ _ : String, List ServiceSpec)) (ns : String) :
    List (String × List RemoteServiceEndpoint) :=
  nodes.filterMap fun n =>
    match n.2.filter fun svc => svc.ns == ns && svc.namespaceIp != "" with
    | [] => none
    | svcs => some (n.1, svcs.map fun svc => ⟨svc.name, svc.namespaceIp, svc.ports.map (·.port)⟩)

/-- Derive the third octet (1 to 254) of a namespace's subnet. -/
def namespaceSubnetOctet (ns : String) : UInt8 :=
  let hash : UInt64 := (ns.toList.flatMap String.utf8EncodeChar).foldl
    (fun h b => h * 31 + b.toUInt64) 0
  (hash % 254 + 1).toUInt8

def namespaceNetwork (state : FleetState) (nodes : List (Σ _ : String, List ServiceSpec))
    (node ns : String) : NamespaceNetworkConfig :=
  let octet := namespaceSubnetOctet ns
  { ns
    subnet := s!"10.200.{octet.toNat}.0/24"
    gateway := s!"10.200.{octet.toNat}.1"
    vni := octet.toUInt32
    remotePeers := ((nsToNodes nodes ns).filter (·.1 != node)).filterMap fun other =>
      (state.meshIpForNode other.1).map fun endpoint => ⟨other.1, displayIp endpoint, other.2⟩ }

/-- The desired state of one node. -/
def desiredStateOf (state : FleetState) (nodes : List (Σ _ : String, List ServiceSpec))
    (namespaces : List (Σ _ : String, List String)) (node : Σ _ : String, List ServiceSpec) :
    DesiredState where
  services := node.2
  namespaceNetworks := (((namespaces.find? (·.1 == node.1)).map (·.2)).getD []).map
    (namespaceNetwork state nodes node.1)

/-- The DNS records of one node's namespaces. -/
def dnsRecordsOf (nodes : List (Σ _ : String, List ServiceSpec)) (namespaces : List String) :
    List DnsRecord :=
  namespaces.flatMap fun ns => (nsToNodes nodes ns).flatMap fun n => n.2.map fun svc =>
    ⟨svc.serviceName, .a, [svc.ip], 30, ns⟩

/-- What is sent to which node, in order: the desired states, then the DNS updates that are not
    empty. -/
def desiredStateMessages (order : HashMap.Order) (desired : FleetConfig) (plan : ReconcilePlan)
    (state : FleetState) (raft : StateMachineInner) : List (String × ServerMessage) :=
  let nodes := perNode order desired raft plan
  let namespaces := perNodeNamespaces order (nodeSpecs desired raft plan)
  nodes.map (fun node => (node.1, .desiredState (desiredStateOf state nodes namespaces node))) ++
    namespaces.filterMap fun n =>
      match dnsRecordsOf nodes n.2 with
      | [] => none
      | records => some (n.1, .dns records)

end Ekafleet.Server
