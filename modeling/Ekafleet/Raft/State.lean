import Ekafleet.Lib.HashMap
import Ekafleet.Lib.Codec

/-! The fleet state machine | source: raft/state.rs

    Commands and what they do to the replicated state. Reads of the wall clock are an argument
    `now`. Indices and generations are counters and stay natural numbers. -/

namespace Ekafleet.Raft

/-- An IPv4 address. -/
structure Ipv4Addr where
  (a b c d : UInt8)
  deriving DecidableEq, Repr, Countable

/-- Where an instance runs. -/
structure PlacementRecord where
  instanceId : String
  machineName : String
  deriving DecidableEq, Repr, Countable

/-- The last deployment of a service. -/
structure DeploymentState where
  serviceName : String
  storePath : String
  placements : List PlacementRecord
  generation : ℕ
  deployedAt : ℕ
  deriving DecidableEq, Repr, Countable

/-- A machine created at a cloud provider. -/
structure TrackedCloudInstance where
  cloudInstanceId : String
  provider : String
  pool : String
  privateIp : Option String
  createdAt : ℕ
  /-- Set when the agent on the instance joins the fleet. -/
  fleetNodeId : Option String
  joinedAt : Option ℕ
  deriving DecidableEq, Repr, Countable

/-- A DNS entry. -/
structure DnsEntry where
  name : String
  recordType : String
  values : List String
  ttl : UInt32
  deriving DecidableEq, Repr, Countable

/-- The replicated state. -/
structure StateMachineInner where
  deployments : HashMap String DeploymentState := ∅
  /-- Encrypted secrets by service and name. -/
  secrets : HashMap String (HashMap String Bytes) := ∅
  dnsZones : HashMap String (List DnsEntry) := ∅
  kv : HashMap String Bytes := ∅
  cloudInstances : HashMap String TrackedCloudInstance := ∅
  /-- Namespace to service to assigned address. -/
  namespaceIps : HashMap String (HashMap String Ipv4Addr) := ∅
  lastApplied : ℕ := 0
  deriving Countable

/-- The commands of the log. -/
inductive Command where
  | deploy (serviceName storePath : String) (placements : List PlacementRecord)
  | undeploy (serviceName : String)
  | putSecret (serviceName secretName : String) (encryptedValue : Bytes)
  | deleteSecret (serviceName secretName : String)
  | updateDns (zone : String) (entries : List (String × String × List String × UInt32))
  | kvPut (key : String) (value : Bytes)
  | kvDelete (key : String)
  | trackCloudInstance (instanceId provider pool : String) (privateIp : Option String)
      (createdAt : ℕ)
  | updateCloudInstance (instanceId fleetNodeId : String)
  | untrackCloudInstance (instanceId : String)
  | allocateNamespaceIp (ns serviceName : String) (ip : Ipv4Addr)
  | releaseNamespaceIp (ns serviceName : String)
  deriving DecidableEq, Repr, Countable

/-- The state changes of `applyLocked`, command by command. -/
def applyCommand (now : ℕ) (state : StateMachineInner) : Command → StateMachineInner
  | .deploy serviceName storePath placements =>
    let generation := ((state.deployments.lookup serviceName).map (·.generation + 1)).getD 1
    { state with
      deployments := state.deployments.insert serviceName
        { serviceName, storePath, placements, generation, deployedAt := now } }
  | .undeploy serviceName => { state with deployments := state.deployments.erase serviceName }
  | .putSecret serviceName secretName encryptedValue =>
    { state with
      secrets := HashMap.upsert serviceName ∅ (·.insert secretName encryptedValue) state.secrets }
  | .deleteSecret serviceName secretName =>
    { state with secrets := HashMap.adjust serviceName (·.erase secretName) state.secrets }
  | .updateDns zone entries =>
    { state with
      dnsZones := state.dnsZones.insert zone
        (entries.map fun (name, recordType, values, ttl) => { name, recordType, values, ttl }) }
  | .kvPut key value => { state with kv := state.kv.insert key value }
  | .kvDelete key => { state with kv := state.kv.erase key }
  | .trackCloudInstance instanceId provider pool privateIp createdAt =>
    { state with
      cloudInstances := state.cloudInstances.insert instanceId
        { cloudInstanceId := instanceId, provider, pool, privateIp, createdAt
          fleetNodeId := none, joinedAt := none } }
  | .updateCloudInstance instanceId fleetNodeId =>
    { state with
      cloudInstances := HashMap.adjust instanceId
        (fun inst => { inst with fleetNodeId := some fleetNodeId, joinedAt := some now })
        state.cloudInstances }
  | .untrackCloudInstance instanceId =>
    { state with cloudInstances := state.cloudInstances.erase instanceId }
  | .allocateNamespaceIp ns serviceName ip =>
    { state with
      namespaceIps := HashMap.upsert ns ∅ (·.insert serviceName ip) state.namespaceIps }
  | .releaseNamespaceIp ns serviceName =>
    match state.namespaceIps.lookup ns with
    | none => state
    | some nsIps =>
      let nsIps := nsIps.erase serviceName
      -- a namespace without allocations is dropped
      if nsIps.entries = [] then { state with namespaceIps := state.namespaceIps.erase ns }
      else { state with namespaceIps := HashMap.adjust ns (fun _ => nsIps) state.namespaceIps }

/-- Carry out a command and record its index. -/
def applyLocked (now : ℕ) (state : StateMachineInner) (index : ℕ) (command : Command) :
    StateMachineInner :=
  { applyCommand now state command with lastApplied := index }

/-- Apply a command at the next index, which is returned as the acknowledgement. -/
def applyNext (now : ℕ) (state : StateMachineInner) (command : Command) : StateMachineInner × ℕ :=
  let index := state.lastApplied + 1
  (applyLocked now state index command, index)

/-- Apply a command at an explicit index; an index that was applied before is skipped. -/
def apply (now : ℕ) (state : StateMachineInner) (index : ℕ) (command : Command) :
    StateMachineInner :=
  if index ≤ state.lastApplied then state else applyLocked now state index command

/-! ### The data, as functions

    What a client can read: every map as a function of its keys, without iteration orders and
    without the log index. Each command has an effect on the data, and `applyLocked` has exactly
    that effect. -/

/-- The state without iteration orders. -/
structure FleetData where
  deployments : String → Option DeploymentState
  secrets : String → Option (String → Option Bytes)
  dnsZones : String → Option (List DnsEntry)
  kv : String → Option Bytes
  cloudInstances : String → Option TrackedCloudInstance
  namespaceIps : String → Option (String → Option Ipv4Addr)

def FleetData.empty : FleetData :=
  ⟨fun _ => none, fun _ => none, fun _ => none, fun _ => none, fun _ => none, fun _ => none⟩

def StateMachineInner.data (s : StateMachineInner) : FleetData where
  deployments := HashMap.get s.deployments
  secrets k := (HashMap.get s.secrets k).map HashMap.get
  dnsZones := HashMap.get s.dnsZones
  kv := HashMap.get s.kv
  cloudInstances := HashMap.get s.cloudInstances
  namespaceIps k := (HashMap.get s.namespaceIps k).map HashMap.get

theorem data_init : ({} : StateMachineInner).data = FleetData.empty := rfl

open Classical Function in
/-- What a command does to the data. -/
noncomputable def Command.effect (now : ℕ) (d : FleetData) : Command → FleetData
  | .deploy serviceName storePath placements =>
    let generation := ((d.deployments serviceName).map (·.generation + 1)).getD 1
    { d with
      deployments := update d.deployments serviceName
        (some { serviceName, storePath, placements, generation, deployedAt := now }) }
  | .undeploy serviceName => { d with deployments := update d.deployments serviceName none }
  | .putSecret serviceName secretName value =>
    let svc := (d.secrets serviceName).getD fun _ => none
    { d with secrets := update d.secrets serviceName (some (update svc secretName (some value))) }
  | .deleteSecret serviceName secretName =>
    { d with
      secrets := update d.secrets serviceName
        ((d.secrets serviceName).map fun svc => update svc secretName none) }
  | .updateDns zone entries =>
    { d with
      dnsZones := update d.dnsZones zone
        (some (entries.map fun e => ⟨e.1, e.2.1, e.2.2.1, e.2.2.2⟩)) }
  | .kvPut key value => { d with kv := update d.kv key (some value) }
  | .kvDelete key => { d with kv := update d.kv key none }
  | .trackCloudInstance instanceId provider pool privateIp createdAt =>
    { d with
      cloudInstances := update d.cloudInstances instanceId
        (some ⟨instanceId, provider, pool, privateIp, createdAt, none, none⟩) }
  | .updateCloudInstance instanceId fleetNodeId =>
    { d with
      cloudInstances := update d.cloudInstances instanceId
        ((d.cloudInstances instanceId).map fun inst =>
          { inst with fleetNodeId := some fleetNodeId, joinedAt := some now }) }
  | .untrackCloudInstance instanceId =>
    { d with cloudInstances := update d.cloudInstances instanceId none }
  | .allocateNamespaceIp ns serviceName ip =>
    let ips := (d.namespaceIps ns).getD fun _ => none
    { d with namespaceIps := update d.namespaceIps ns (some (update ips serviceName (some ip))) }
  | .releaseNamespaceIp ns serviceName =>
    { d with
      namespaceIps := update d.namespaceIps ns ((d.namespaceIps ns).bind fun ips =>
        if update ips serviceName none = fun _ => none then none
        else some (update ips serviceName none)) }

theorem map_update {V W : Type} (f : V → W) (g : String → Option V) (k : String) (v : Option V) :
    (fun k' => (Function.update g k v k').map f) =
      Function.update (fun k' => (g k').map f) k (v.map f) := by
  funext k'
  by_cases h : k' = k
  · subst h; simp
  · simp [h]

/-- REFINEMENT: a command changes the data by its effect, whatever the iteration orders are. -/
theorem data_applyCommand (now : ℕ) (s : StateMachineInner) (c : Command) :
    (applyCommand now s c).data = c.effect now s.data := by
  cases c with
  | putSecret serviceName secretName value =>
    simp only [applyCommand, Command.effect, StateMachineInner.data, HashMap.get_upsert, map_update]
    cases HashMap.get s.secrets serviceName <;> simp
  | deleteSecret serviceName secretName =>
    simp only [applyCommand, Command.effect, StateMachineInner.data, HashMap.get_adjust, map_update]
    cases HashMap.get s.secrets serviceName <;> simp
  | allocateNamespaceIp ns serviceName ip =>
    simp only [applyCommand, Command.effect, StateMachineInner.data, HashMap.get_upsert, map_update]
    cases HashMap.get s.namespaceIps ns <;> simp
  | releaseNamespaceIp ns serviceName =>
    simp only [applyCommand, Command.effect, StateMachineInner.data]
    cases h : s.namespaceIps.lookup ns with
    | none =>
      have hget : HashMap.get s.namespaceIps ns = none := h
      simp [hget]
    | some ips =>
      have hget : HashMap.get s.namespaceIps ns = some ips := h
      -- both sides drop the namespace exactly when the last allocation goes
      have hempty : (ips.erase serviceName).entries = [] ↔
          Function.update (HashMap.get ips) serviceName none = fun _ => none := by
        rw [HashMap.isEmpty_iff_get, HashMap.get_erase]
      by_cases he : (ips.erase serviceName).entries = []
      · simp [he, hempty.mp he, hget, map_update]
      · simp [he, mt hempty.mpr he, hget, map_update]
  | deploy =>
    simp only [applyCommand, Command.effect, StateMachineInner.data, HashMap.get_insert]
    rfl
  | undeploy | updateDns | kvPut | kvDelete | trackCloudInstance | updateCloudInstance
  | untrackCloudInstance =>
    simp only [applyCommand, Command.effect, StateMachineInner.data, HashMap.get_insert,
      HashMap.get_erase, HashMap.get_adjust]

@[simp] theorem data_applyLocked (now : ℕ) (s : StateMachineInner) (index : ℕ) (c : Command) :
    (applyLocked now s index c).data = c.effect now s.data :=
  data_applyCommand now s c

end Ekafleet.Raft
