import Ekafleet.Scheduler.Placements
import Ekafleet.Server.FleetState
import Ekafleet.Server.Policy

/-! The reconcile plan | source: server/reconciler.rs

    `computePlan` compares the desired configuration with what the agents report and says what has
    to be done. It is `none` where the scheduler panics. Maps that it builds iterate in an arbitrary
    order. -/

namespace Ekafleet.Server
open Raft Scheduler

/-- A volume move that a reschedule of a stateful instance needs. -/
structure MigrationOp where
  instanceId : String
  sourceMachine : String
  destMachine : String
  deriving DecidableEq, Repr

/-- What the plan does to a service. -/
structure ServiceOp where
  serviceName : String
  placements : List Placement
  description : String
  migrations : List MigrationOp := []
  deriving DecidableEq, Repr

/-- A service kept from deployment by a policy rule. -/
structure PolicyBlock where
  serviceName : String
  ruleName : String
  message : String
  deriving DecidableEq, Repr

/-- The differences a cycle has to remove. -/
structure ReconcilePlan where
  creates : List ServiceOp
  updates : List ServiceOp
  destroys : List ServiceOp
  reschedules : List ServiceOp
  hasChanges : Bool
  policyBlocked : List PolicyBlock
  deriving DecidableEq, Repr

/-- The operations that are carried out, in the order in which they are looked at. -/
def ReconcilePlan.ops (plan : ReconcilePlan) : List ServiceOp :=
  plan.creates ++ plan.updates ++ plan.reschedules

def ReconcilePlan.placements (plan : ReconcilePlan) : List Placement :=
  plan.ops.flatMap (·.placements)

/-! ### Machines -/

/-- The machine a joined cloud instance stands for. -/
def cloudMachine (config : FleetConfig) (nodeId : String) (inst : TrackedCloudInstance) :
    MachineConfig where
  targetHost := inst.privateIp.getD nodeId
  capacity := (((config.nodePools.lookup inst.pool).bind (·.cloud)).map (·.machineCapacity)).getD {}
  pool := inst.pool

/-- Add one tracked instance, unless it has not joined or the name is taken. -/
def mergeInstance (config : FleetConfig) (machines : Machines)
    (inst : TrackedCloudInstance) : Machines :=
  match inst.fleetNodeId with
  | none => machines
  | some nodeId =>
    if nodeId ∈ machines then machines
    else machines.insert nodeId (cloudMachine config nodeId inst)

/-- Merge declared machines with the cloud instances that joined the fleet; without a tracker there
    are none. -/
def mergeDynamicMachines (config : FleetConfig)
    (tracked : Option (HashMap String TrackedCloudInstance)) : Machines :=
  match tracked with
  | none => config.machines
  | some tracked => (HashMap.values tracked).foldl (mergeInstance config) config.machines

/-! ### The plan -/

/-- Where the replicated state says instances are. -/
def currentPlacements (raft : StateMachineInner) : CurrentPlacements :=
  (HashMap.values raft.deployments).foldl (fun m d => d.placements.foldl (fun m record =>
    m.insert (d.serviceName, record.instanceId) record.machineName) m) ∅

/-- The runtime replica count of a service, four little-endian bytes in the key-value store. -/
def getReplicaOverride (raft : StateMachineInner) (serviceName : String) : Option UInt32 :=
  match raft.kv.lookup s!"replica-override/{serviceName}" with
  | some [a, b, c, d] =>
    some (a.toUInt32 ||| (b.toUInt32 <<< 8) ||| (c.toUInt32 <<< 16) ||| (d.toUInt32 <<< 24))
  | _ => none

/-- Runtime replica counts take the place of configured ones. -/
def applyOverrides (raft : StateMachineInner) (services : Services) :
    Services :=
  HashMap.mapVal (fun name cfg =>
    match getReplicaOverride raft name with
    | some count => { cfg with scheduling := { cfg.scheduling with replicas := count } }
    | none => cfg) services

/-- Whether volume data has to follow the instances of a service. -/
def migratesVolumes (cfg : ServiceConfig) : Bool :=
  cfg.scheduling.jobType == .stateful &&
    (cfg.volumes.any fun v => v.storageClass == "local" && v.accessMode == .readWriteOnce) &&
    cfg.scheduling.migrate.migrateOnReschedule

/-- The moves of a rescheduled service: instances whose recorded machine is another one. -/
def findMigrations (desired : FleetConfig) (current : CurrentPlacements) (serviceName : String)
    (placements : List Placement) : List MigrationOp :=
  if (desired.services.lookup serviceName).any migratesVolumes then
    placements.filterMap fun p =>
      match current.lookup (serviceName, p.instanceId) with
      | some oldMachine =>
        if oldMachine ≠ p.machineName then some ⟨p.instanceId, oldMachine, p.machineName⟩ else none
      | none => none
  else []

/-- The reschedule of a service whose instances run on other nodes than the desired ones. -/
def rescheduleOp (desired : FleetConfig) (current : CurrentPlacements)
    (currentServices : List ServiceStatus) (group : Σ _ : String, List Placement) :
    Option ServiceOp :=
  match currentServices.find? (·.name == group.1) with
  | none => none
  | some svc =>
    let currentNodes : List String := svc.instances.map (·.nodeId)
    let desiredNodes : List String := group.2.map (·.machineName)
    if currentNodes.insertionSort (· ≤ ·) ≠ desiredNodes.insertionSort (· ≤ ·) ∧ currentNodes ≠ []
    then some {
      serviceName := group.1
      placements := group.2
      description :=
        s!"Reschedule {group.1} ({currentNodes.length} → {desiredNodes.length} instances)"
      migrations := findMigrations desired current group.1 group.2 }
    else none

/-- The violations of enforcing policies, service by service. -/
def policyErrors (desired : FleetConfig) : List (String × List PolicyViolation) :=
  desired.services.entries.filterMap fun svc =>
    match checkPolicies desired.policies svc.1 svc.2 with
    | .error violations => some (svc.1, violations)
    | .ok _ => none

/-- The services that enforcing policies keep from deployment. -/
def blockedServices (desired : FleetConfig) : List String := (policyErrors desired).map Prod.fst

/-- The operation for a service that runs already, or does not. -/
def deployOp (verb : String) (group : Σ _ : String, List Placement) : ServiceOp where
  serviceName := group.1
  placements := group.2
  description := s!"{verb} {group.1} ({group.2.length} instances)"

/-- What has to be done for given placements, against the services that run now. -/
def diffPlan (desired : FleetConfig) (current : CurrentPlacements)
    (currentServices : List ServiceStatus) (groups : List (Σ _ : String, List Placement)) :
    ReconcilePlan :=
  let running (name : String) : Bool := (currentServices.map (·.name)).contains name
  let allowed (op : ServiceOp) : Bool := !(blockedServices desired).contains op.serviceName
  let creates := ((groups.filter (!running ·.1)).map (deployOp "Create")).filter allowed
  let updates := ((groups.filter (running ·.1)).map (deployOp "Update")).filter allowed
  let destroys := (currentServices.filter fun svc => !(groups.map (·.1)).contains svc.name).map
    fun svc =>
      { serviceName := svc.name, placements := [],
        description := s!"Destroy {svc.name} (no longer in desired state)" }
  let reschedules := groups.filterMap (rescheduleOp desired current currentServices)
  { creates, updates, destroys, reschedules
    hasChanges := !creates.isEmpty || !updates.isEmpty || !destroys.isEmpty || !reschedules.isEmpty
    policyBlocked := (policyErrors desired).flatMap fun e => e.2.map fun v =>
      ⟨v.serviceName, v.ruleName, v.message⟩ }

/-- Compare desired state with actual state to produce operations. -/
def computePlan (F : Type) [F64 F] (re : RegexEngine) (order : HashMap.Order)
    (desired : FleetConfig) (state : FleetState)
    (tracked : Option (HashMap String TrackedCloudInstance)) (raft : StateMachineInner) :
    Option ReconcilePlan :=
  let current := currentPlacements raft
  (schedule F re (applyOverrides raft desired.services) (mergeDynamicMachines desired tracked)
    desired.nodePools current).map fun placementPlan =>
      diffPlan desired current (state.fleetStatus order)
        (order.arrange
          (HashMap.groupBy Placement.serviceName id placementPlan.placements).entries)

/-! ### Where the operations come from -/

variable {desired : FleetConfig} {current : CurrentPlacements}

variable {currentServices : List ServiceStatus} {groups : List (Σ _ : String, List Placement)}

theorem rescheduleOp_eq_some {group : Σ _ : String, List Placement} {op : ServiceOp}
    (h : rescheduleOp desired current currentServices group = some op) :
    op.serviceName = group.1 ∧ op.placements = group.2 ∧
      op.migrations = findMigrations desired current group.1 group.2 := by
  grind [rescheduleOp]

theorem findMigrations_ne_nil {serviceName : String} {placements : List Placement}
    (h : findMigrations desired current serviceName placements ≠ []) :
    placements ≠ [] ∧ ∃ cfg, desired.services.lookup serviceName = some cfg ∧
      migratesVolumes cfg = true := by
  grind [findMigrations, Option.any_eq_true]

theorem mem_ops_diffPlan

    {op : ServiceOp} (h : op ∈ (diffPlan desired current currentServices groups).ops) :
    ∃ g ∈ groups, op.serviceName = g.1 ∧ op.placements = g.2 := by
  simp only [ReconcilePlan.ops, diffPlan, List.mem_append, List.mem_filter, List.mem_map,
    List.mem_filterMap] at h
  rcases h with (⟨⟨g, ⟨hg, -⟩, rfl⟩, -⟩ | ⟨⟨g, ⟨hg, -⟩, rfl⟩, -⟩) | ⟨g, hg, hop⟩
  · exact ⟨g, hg, rfl, rfl⟩
  · exact ⟨g, hg, rfl, rfl⟩
  · obtain ⟨hname, hplaced, -⟩ := rescheduleOp_eq_some hop
    exact ⟨g, hg, hname, hplaced⟩

theorem exists_op_diffPlan (current : CurrentPlacements) (currentServices : List ServiceStatus)
    {g : Σ _ : String, List Placement} (hg : g ∈ groups)
      (hallowed : g.1 ∉ blockedServices desired) :
    ∃ op ∈ (diffPlan desired current currentServices groups).ops,
      op.serviceName = g.1 ∧ op.placements = g.2 := by
  have hop : ∀ verb, (deployOp verb g).serviceName = g.1 ∧ (deployOp verb g).placements = g.2 :=
    fun _ => ⟨rfl, rfl⟩
  by_cases hrun : (currentServices.map (·.name)).contains g.1 = true
  · refine ⟨deployOp "Update" g, ?_, hop _⟩
    grind [ReconcilePlan.ops, diffPlan, deployOp]
  · refine ⟨deployOp "Create" g, ?_, hop _⟩
    grind [ReconcilePlan.ops, diffPlan, deployOp]

theorem blockedServices_nil {config : FleetConfig} (h : config.policies = []) :
    blockedServices config = [] := by
  simp [blockedServices, policyErrors, checkPolicies, evaluatePolicies, h]

section Plan
variable {F : Type} [F64 F] {re : RegexEngine} {order : HashMap.Order} {desired : FleetConfig}
  {state : FleetState} {tracked : Option (HashMap String TrackedCloudInstance)}
  {raft : StateMachineInner} {plan : ReconcilePlan}

theorem mem_arrange_groups {ps : List Placement} {g : Σ _ : String, List Placement} :
    g ∈ order.arrange (HashMap.groupBy Placement.serviceName id ps).entries ↔
      ps.filter (·.serviceName = g.1) ≠ [] ∧ g.2 = ps.filter (·.serviceName = g.1) := by
  rw [HashMap.Order.mem_arrange, HashMap.mem_entries_groupBy, List.map_id]

/-- EXACT: the operations of a plan carry, service by service, all placements that the schedule has
    for the service; only services held back by a policy may be missing. -/
theorem computePlan_ops (h : computePlan F re order desired state tracked raft = some plan) :
    ∃ sched, schedule F re (applyOverrides raft desired.services)
        (mergeDynamicMachines desired tracked) desired.nodePools (currentPlacements raft) =
          some sched ∧
      (∀ op ∈ plan.ops,
        op.placements = sched.placements.filter (·.serviceName = op.serviceName)) ∧
      ∀ p ∈ sched.placements, p.serviceName ∉ blockedServices desired →
        ∃ op ∈ plan.ops, op.serviceName = p.serviceName ∧ p ∈ op.placements := by
  obtain ⟨sched, hsched, rfl⟩ := Option.map_eq_some_iff.mp h
  refine ⟨sched, hsched, fun op hop => ?_, fun p hp hallowed => ?_⟩
  · obtain ⟨g, hg, hname, hplaced⟩ := mem_ops_diffPlan hop
    rw [hplaced, hname]
    exact (mem_arrange_groups.mp hg).2
  · have hmem : p ∈ sched.placements.filter (·.serviceName = p.serviceName) :=
      List.mem_filter.mpr ⟨hp, by simp⟩
    have hg : ⟨p.serviceName, sched.placements.filter (·.serviceName = p.serviceName)⟩ ∈
        order.arrange (HashMap.groupBy Placement.serviceName id sched.placements).entries :=
      mem_arrange_groups.mpr ⟨List.ne_nil_of_mem hmem, rfl⟩
    obtain ⟨op, hop, hname, hplaced⟩ := exists_op_diffPlan (currentPlacements raft)
      (state.fleetStatus order) hg hallowed
    exact ⟨op, hop, hname, hplaced ▸ hmem⟩

theorem computePlan_subset (h : computePlan F re order desired state tracked raft = some plan) :
    ∃ sched, schedule F re (applyOverrides raft desired.services)
        (mergeDynamicMachines desired tracked) desired.nodePools (currentPlacements raft) =
          some sched ∧ ∀ p ∈ plan.placements, p ∈ sched.placements := by
  obtain ⟨sched, hsched, hops, -⟩ := computePlan_ops h
  refine ⟨sched, hsched, fun p hp => ?_⟩
  obtain ⟨op, hop, hp⟩ := List.mem_flatMap.mp hp
  exact (List.mem_filter.mp (hops op hop ▸ hp)).1

theorem hasChanges_of_op (hplan : computePlan F re order desired state tracked raft = some plan)
    {op : ServiceOp} (hop : op ∈ plan.ops) : plan.hasChanges = true := by
  obtain ⟨sched, -, rfl⟩ := Option.map_eq_some_iff.mp hplan
  simp only [diffPlan, Bool.or_eq_true, Bool.not_eq_true', List.isEmpty_eq_false_iff]
  rcases List.mem_append.mp hop with hop | hop
  · rcases List.mem_append.mp hop with hop | hop
    · exact .inl (.inl (.inl (List.ne_nil_of_mem hop)))
    · exact .inl (.inl (.inr (List.ne_nil_of_mem hop)))
  · exact .inr (List.ne_nil_of_mem hop)

theorem computePlan_migrations
    (hplan : computePlan F re order desired state tracked raft = some plan) {op : ServiceOp}
    (hop : op ∈ plan.reschedules) (hmigrations : op.migrations ≠ []) :
    op.placements ≠ [] ∧ ∃ cfg, desired.services.lookup op.serviceName = some cfg ∧
      migratesVolumes cfg = true := by
  obtain ⟨sched, -, rfl⟩ := Option.map_eq_some_iff.mp hplan
  obtain ⟨g, -, hg⟩ := List.mem_filterMap.mp hop
  obtain ⟨hname, hplaced, hfound⟩ := rescheduleOp_eq_some hg
  rw [hplaced, hname]
  exact findMigrations_ne_nil (hfound ▸ hmigrations)

end Plan

end Ekafleet.Server
