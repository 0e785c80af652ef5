import Ekafleet.Lib.Loop
import Ekafleet.Raft.State
import Ekafleet.Server.Rbac

/-! Connected agents | source: server/state.rs, server/api.rs

    What the server knows about the agents: a node is registered while its stream is open, carries
    the services it last reported, and a flag that says whether it may take new ones. Instants are
    nanoseconds. -/

namespace Ekafleet.Server
open Raft (Ipv4Addr)

/-- The state of a service on a node. -/
inductive ServiceState where | unknown | running | stopped | failed | starting
  deriving DecidableEq, Repr

/-- The health of a service on a node. -/
inductive HealthStatus where | unknown | healthy | unhealthy | degraded
  deriving DecidableEq, Repr

/-- One line of an agent's status report. -/
structure ServiceInstance where
  serviceName : String
  instanceId : String
  storePath : String
  state : ServiceState
  deriving DecidableEq, Repr

/-- One line of an agent's health report. -/
structure ServiceHealth where
  serviceName : String
  status : HealthStatus
  deriving DecidableEq, Repr

/-- What a node reports of a service. -/
structure AgentServiceInfo where
  instanceId : String
  storePath : String
  state : ServiceState
  health : HealthStatus
  deriving DecidableEq, Repr

/-- What the server knows of a node. -/
structure NodeInfo where
  lastHeartbeat : ℕ
  services : HashMap String AgentServiceInfo := ∅
  /-- Whether this node is eligible for new scheduling. -/
  schedulable : Bool := true
  meshIp : Option Ipv4Addr := none

/-- What the server knows of its nodes. -/
structure FleetState where
  nodes : HashMap String NodeInfo := ∅

namespace FleetState

/-- A connecting agent starts afresh, eligible and without services. -/
def registerAgent (now : ℕ) (nodeId : String) (s : FleetState) : FleetState :=
  ⟨s.nodes.insert nodeId { lastHeartbeat := now }⟩

def deregisterAgent (nodeId : String) (s : FleetState) : FleetState := ⟨s.nodes.erase nodeId⟩

/-- The nodes whose last heartbeat is longer ago than the timeout. -/
def deadNodes (now timeoutSecs : ℕ) (s : FleetState) : List String :=
  (s.nodes.entries.filter fun n => timeoutSecs * 10 ^ 9 < now - n.2.lastHeartbeat).map Sigma.fst

/-- Remove nodes without heartbeat. -/
def evictDeadNodes (now timeoutSecs : ℕ) (s : FleetState) : FleetState :=
  (s.deadNodes now timeoutSecs).foldl (fun s id => s.deregisterAgent id) s

def updateHeartbeat (now : ℕ) (nodeId : String) (s : FleetState) : FleetState :=
  ⟨HashMap.adjust nodeId (fun n => { n with lastHeartbeat := now }) s.nodes⟩

def updateMeshIp (nodeId : String) (ip : Ipv4Addr) (s : FleetState) : FleetState :=
  ⟨HashMap.adjust nodeId (fun n => { n with meshIp := some ip }) s.nodes⟩

def meshIpForNode (s : FleetState) (nodeId : String) : Option Ipv4Addr :=
  (s.nodes.lookup nodeId).bind (·.meshIp)

/-- Health reports count for services the node has reported. -/
def updateHealth (nodeId : String) (services : List ServiceHealth) (s : FleetState) : FleetState :=
  ⟨HashMap.adjust nodeId (fun n => { n with
    services := services.foldl (fun m svc =>
      HashMap.adjust svc.serviceName (fun i => { i with health := svc.status }) m) n.services })
    s.nodes⟩

/-- A status report replaces the services of the node; their health is unknown again. -/
def updateStatus (nodeId : String) (services : List ServiceInstance) (s : FleetState) :
    FleetState :=
  ⟨HashMap.adjust nodeId (fun n => { n with
    services := services.foldl (fun m svc => m.insert svc.serviceName
      ⟨svc.instanceId, svc.storePath, svc.state, .unknown⟩) ∅ }) s.nodes⟩

/-- Set whether a node is eligible for new scheduling. -/
def setSchedulable (nodeId : String) (schedulable : Bool) (s : FleetState) : FleetState :=
  ⟨HashMap.adjust nodeId (fun n => { n with schedulable := schedulable }) s.nodes⟩

/-- Whether a node is registered and eligible for scheduling. -/
def isSchedulable (s : FleetState) (nodeId : String) : Bool :=
  (s.nodes.lookup nodeId).any (·.schedulable)

end FleetState

/-! ### The status of the fleet -/

/-- An instance in the status of the fleet. -/
structure InstanceStatus where
  instanceId : String
  nodeId : String
  state : ServiceState
  health : HealthStatus
  deriving DecidableEq, Repr

/-- A service in the status of the fleet. -/
structure ServiceStatus where
  name : String
  instances : List InstanceStatus
  deriving DecidableEq, Repr

namespace FleetState

/-- Every reported service, node by node. -/
def reports (s : FleetState) : List (String × InstanceStatus) :=
  s.nodes.entries.flatMap fun n => n.2.services.entries.map fun svc =>
    (svc.1, ⟨svc.2.instanceId, n.1, svc.2.state, svc.2.health⟩)

/-- The services part of `fleet_status`: reports collected by service name. -/
def fleetStatus (order : HashMap.Order) (s : FleetState) : List ServiceStatus :=
  (order.arrange (HashMap.groupBy Prod.fst Prod.snd s.reports).entries).map fun e => ⟨e.1, e.2⟩

/-- The reported instances of a service. -/
def reportsOf (s : FleetState) (serviceName : String) : List InstanceStatus :=
  (s.reports.filter (·.1 = serviceName)).map Prod.snd

variable {s : FleetState} {serviceName : String}

theorem mem_reports {i : InstanceStatus} :
    (serviceName, i) ∈ s.reports ↔ ∃ n info, s.nodes.lookup i.nodeId = some n ∧
      n.services.lookup serviceName = some info ∧
        i = ⟨info.instanceId, i.nodeId, info.state, info.health⟩ := by
  simp only [reports, List.mem_flatMap, List.mem_map, Prod.mk.injEq]
  constructor
  · grind [HashMap.lookup_of_mem]
  · rintro ⟨n, info, hn, hinfo, hi⟩
    exact ⟨_, HashMap.mem_of_lookup hn, _, HashMap.mem_of_lookup hinfo, rfl, hi.symm⟩

theorem mem_reportsOf {i : InstanceStatus} :
    i ∈ s.reportsOf serviceName ↔ (serviceName, i) ∈ s.reports := by
  simp [reportsOf]

/-- EXACT: a service is listed if it is reported, with all its instances. -/
theorem mem_fleetStatus {order : HashMap.Order} {svc : ServiceStatus} :
    svc ∈ s.fleetStatus order ↔
      s.reportsOf svc.name ≠ [] ∧ svc.instances = s.reportsOf svc.name := by
  rw [fleetStatus, List.mem_map]
  constructor
  · rintro ⟨e, he, rfl⟩
    obtain ⟨hne, heq⟩ := HashMap.mem_entries_groupBy.mp (order.mem_arrange.mp he)
    exact ⟨fun hnil => hne (List.map_eq_nil_iff.mp hnil), heq⟩
  · rintro ⟨hne, heq⟩
    refine ⟨⟨svc.name, svc.instances⟩, order.mem_arrange.mpr ?_, rfl⟩
    exact HashMap.mem_entries_groupBy.mpr ⟨fun hnil => hne (List.map_eq_nil_iff.mpr hnil), heq⟩

theorem find?_fleetStatus (s : FleetState) (order : HashMap.Order) (serviceName : String) :
    (s.fleetStatus order).find? (·.name == serviceName) =
      if s.reportsOf serviceName = [] then none
      else some ⟨serviceName, s.reportsOf serviceName⟩ := by
  rcases hfind : (s.fleetStatus order).find? (·.name == serviceName) with _ | svc
  · by_cases hnil : s.reportsOf serviceName = []
    · rw [if_pos hnil, hfind]
    grind [mem_fleetStatus, List.find?_eq_none]
  · obtain rfl : svc.name = serviceName := by simpa using List.find?_some hfind
    obtain ⟨hne, heq⟩ := mem_fleetStatus.mp (List.mem_of_find?_eq_some hfind)
    rw [hfind, if_neg hne, ← heq]

end FleetState

/-! ### RPCs that change eligibility -/

/-- The answer to a drain. -/
structure DrainResponse where
  success : Bool
  rescheduledServices : List String
  deriving DecidableEq, Repr

/-- The drain RPC. The last component says whether the agent is sent an empty desired state. -/
def drain (order : HashMap.Order) (ext : Extensions) (machine : String) (s : FleetState) :
    Except Status (DrainResponse × FleetState × Bool) := do
  requirePermission ext .drain
  let s' := s.setSchedulable machine false
  let servicesOnNode := ((s'.fleetStatus order).filter fun svc =>
    svc.instances.any (·.nodeId == machine)).map (·.name)
  return (⟨true, servicesOnNode⟩, s', !servicesOnNode.isEmpty)

/-! ### Histories -/

/-- What changes the server's view of its agents. Eligibility is set by the drain RPC, the node
    update RPC and the scale-down of a cloud pool. -/
inductive FleetEvent where
  | register (now : ℕ) (nodeId : String)
  | deregister (nodeId : String)
  | evict (now timeoutSecs : ℕ)
  | heartbeat (now : ℕ) (nodeId : String)
  | meshIp (nodeId : String) (ip : Ipv4Addr)
  | health (nodeId : String) (services : List ServiceHealth)
  | status (nodeId : String) (services : List ServiceInstance)
  | setSchedulable (nodeId : String) (schedulable : Bool)
  | drain (order : HashMap.Order) (ext : Extensions) (machine : String)

/-- One event; a refused drain changes nothing. -/
def FleetState.step (s : FleetState) : FleetEvent → FleetState
  | .register now nodeId => s.registerAgent now nodeId
  | .deregister nodeId => s.deregisterAgent nodeId
  | .evict now timeoutSecs => s.evictDeadNodes now timeoutSecs
  | .heartbeat now nodeId => s.updateHeartbeat now nodeId
  | .meshIp nodeId ip => s.updateMeshIp nodeId ip
  | .health nodeId services => s.updateHealth nodeId services
  | .status nodeId services => s.updateStatus nodeId services
  | .setSchedulable nodeId schedulable => s.setSchedulable nodeId schedulable
  | .drain order ext machine =>
    match Server.drain order ext machine s with
    | .ok (_, s', _) => s'
    | .error _ => s

/-- The fleet after a history, from a server that has just started. -/
def FleetState.after (events : List FleetEvent) : FleetState :=
  events.foldl FleetState.step {}

/-! ### Eligibility over histories -/

namespace FleetState

/-- The node is registered and may take services. -/
def Eligible (s : FleetState) (nodeId : String) : Prop := s.isSchedulable nodeId = true

instance (s : FleetState) : DecidablePred s.Eligible := fun _ => inferInstanceAs (Decidable (_ = _))

/-- The events that make a node eligible: it connects again, or an operator says so. -/
def Restores (m : String) : FleetEvent → Prop
  | .register _ nodeId => nodeId = m
  | .setSchedulable nodeId schedulable => nodeId = m ∧ schedulable = true
  | _ => False

theorem step_drain (s : FleetState) (order : HashMap.Order) (ext : Extensions) (machine : String) :
    s.step (.drain order ext machine) = s.setSchedulable machine false ∨
      s.step (.drain order ext machine) = s := by
  simp only [step]
  split
  · next hd =>
    obtain ⟨-, -, hret⟩ := Loop.bind_eq_ok hd
    cases hret
    exact Or.inl rfl
  · exact Or.inr rfl

theorem eligible_iff (s : FleetState) (m : String) :
    s.Eligible m ↔ ∃ n, s.nodes.lookup m = some n ∧ n.schedulable = true := by
  rw [Eligible, isSchedulable, Option.any_eq_true]

variable {m : String}

theorem not_eligible_adjust {f : NodeInfo → NodeInfo} (s : FleetState) {nodeId : String}
    (hf : nodeId = m → ∀ n, (f n).schedulable = true → n.schedulable = true) (h : ¬ s.Eligible m)
    : ¬ Eligible ⟨HashMap.adjust nodeId f s.nodes⟩ m := by
  rw [eligible_iff] at h ⊢
  rintro ⟨n, hn, hsched⟩
  by_cases hm : nodeId = m
  · grind [HashMap.lookup_adjust_self, Option.map_eq_some_iff]
  · rw [HashMap.lookup_adjust_ne (Ne.symm hm)] at hn
    exact h ⟨n, hn, hsched⟩

theorem not_eligible_deregister (s : FleetState) (nodeId : String) (h : ¬ s.Eligible m)
    : ¬ (s.deregisterAgent nodeId).Eligible m := by
  grind [eligible_iff, deregisterAgent, AList.lookup_erase,
    AList.lookup_erase_ne]

/-- STEP: only connecting again or an operator's word makes a node eligible. -/
theorem not_eligible_step {s : FleetState} {e : FleetEvent} (h : ¬ s.Eligible m)
    (he : ¬ Restores m e) : ¬ (s.step e).Eligible m := by
  cases e with
  | register now nodeId =>
    simp only [Eligible, isSchedulable, step, registerAgent] at h ⊢
    rwa [AList.lookup_insert_ne (Ne.symm he)]
  | deregister nodeId => exact not_eligible_deregister s nodeId h
  | evict now timeoutSecs =>
    exact List.foldlRecOn (motive := fun s => ¬ s.Eligible m) _ _ h fun s hs id _ =>
      not_eligible_deregister s id hs
  | heartbeat now nodeId => exact not_eligible_adjust s (fun _ _ hn => hn) h
  | meshIp nodeId ip => exact not_eligible_adjust s (fun _ _ hn => hn) h
  | health nodeId services => exact not_eligible_adjust s (fun _ _ hn => hn) h
  | status nodeId services => exact not_eligible_adjust s (fun _ _ hn => hn) h
  | setSchedulable nodeId schedulable =>
    refine not_eligible_adjust s (fun hm n hn => ?_) h
    exact absurd ⟨hm, hn⟩ he
  | drain order ext machine =>
    rcases s.step_drain order ext machine with hdrain | hrefused
    · rw [hdrain]
      exact not_eligible_adjust s (fun _ n hn => by cases hn) h
    · rwa [hrefused]

theorem not_eligible_drain {order : HashMap.Order} {ext : Extensions}
    (hperm : requirePermission ext .drain = .ok ()) (s : FleetState) :
    ¬ (s.step (.drain order ext m)).Eligible m := by
  have hstep : s.step (.drain order ext m) = s.setSchedulable m false := by
    simp only [step, Server.drain, hperm]; rfl
  rw [hstep, eligible_iff]
  rintro ⟨n, hn, hsched⟩
  rw [setSchedulable, HashMap.lookup_adjust_self] at hn
  obtain ⟨n₀, -, rfl⟩ := Option.map_eq_some_iff.mp hn
  cases hsched

/-- RUN: a drained node stays ineligible until an event restores it. -/
theorem not_eligible_after_drain {order : HashMap.Order} {ext : Extensions}
    (hperm : requirePermission ext .drain = .ok ()) (before later : List FleetEvent)
    (hlater : ∀ e ∈ later, ¬ Restores m e) :
    ¬ (after (before ++ .drain order ext m :: later)).Eligible m := by
  rw [after, List.foldl_append, List.foldl_cons]
  exact List.foldlRecOn (motive := fun s : FleetState => ¬ s.Eligible m)
    _ _ (not_eligible_drain hperm _)
    fun s hs e he => not_eligible_step hs (hlater e he)

end FleetState

end Ekafleet.Server
