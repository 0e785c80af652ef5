import Ekafleet.Agent.Running
import Ekafleet.Fleet.Cycle

/-! From placements to instances | source: server/scheduler/mod.rs, server/reconciler.rs,
    agent/handlers.rs, agent/supervisor.rs

    The message to a node repeats the specification of a service for each of its placements; the
    agent keeps the services by name and runs one unit per name. -/

namespace Ekafleet.Fleet
open Raft Scheduler Proto Server Agent

/-- How often a service is placed on a node. -/
def placementCount (placements : List Placement) (name node : String) : ℕ :=
  (placements.filter fun p => p.serviceName = name ∧ p.machineName = node).length

theorem placementCount_pos {placements : List Placement} {name node : String} :
    0 < placementCount placements name node ↔
      ∃ p ∈ placements, p.serviceName = name ∧ p.machineName = node := by
  rw [placementCount, List.length_pos_iff_exists_mem]
  simp [List.mem_filter]

section Plan
variable {F : Type} [F64 F] {re : RegexEngine} {order : HashMap.Order} {config : FleetConfig}
  {state : FleetState} {tracked : Option (HashMap String TrackedCloudInstance)}
  {raft : StateMachineInner} {plan : ReconcilePlan} {sched : PlacementPlan}

theorem not_blocked_of_mem {current : CurrentPlacements} {currentServices : List ServiceStatus}
    {groups : List (Σ _ : String, List Placement)} {op : ServiceOp}
    (h : op ∈ (diffPlan config current currentServices groups).creates ++
      (diffPlan config current currentServices groups).updates) :
    op.serviceName ∉ blockedServices config := by
  simp only [diffPlan, List.mem_append, List.mem_filter] at h
  rcases h with ⟨-, h⟩ | ⟨-, h⟩ <;> simpa using h

/-- A service may be sent out: no policy holds it back, or it is rescheduled. -/
def SentOut (config : FleetConfig) (plan : ReconcilePlan) (name : String) : Prop :=
  name ∉ blockedServices config ∨ ∃ op ∈ plan.reschedules, op.serviceName = name

theorem delivered_of_placed (hplan : computePlan F re order config state tracked raft = some plan)
    {op : ServiceOp} (hop : op ∈ plan.ops) {p : Placement} (hp : p ∈ op.placements) :
    Delivered config plan p.machineName op.serviceName := by
  obtain ⟨sched, hsched, hops, -⟩ := computePlan_ops hplan
  have hmem := hp
  rw [hops op hop] at hmem
  obtain ⟨hsched_mem, hname⟩ := List.mem_filter.mp hmem
  have hconf := (schedule_known F re hsched p hsched_mem).1
  rw [AList.mem_keys, applyOverrides, HashMap.keys_mapVal, ← AList.mem_keys,
    of_decide_eq_true hname] at hconf
  exact ⟨hconf, op, hop, rfl, p, hp, rfl⟩

section Scheduled
variable (hplan : computePlan F re order config state tracked raft = some plan)
  (hsched : schedule F re (applyOverrides raft config.services)
    (mergeDynamicMachines config tracked) config.nodePools (currentPlacements raft) = some sched)
  {node name : String}
include hplan hsched

/-- EXACT: a node is sent the services that are scheduled for it and have an operation. -/
theorem delivered_iff_op :
    Delivered config plan node name ↔
      0 < placementCount sched.placements name node ∧ ∃ op ∈ plan.ops, op.serviceName = name := by
  obtain ⟨sched', hsched', hops, -⟩ := computePlan_ops hplan
  obtain rfl := Option.some.inj (hsched.symm.trans hsched')
  rw [placementCount_pos]
  constructor
  · rintro ⟨-, op, hop, rfl, p, hp, rfl⟩
    rw [hops op hop] at hp
    obtain ⟨hmem, hname⟩ := List.mem_filter.mp hp
    exact ⟨⟨p, hmem, of_decide_eq_true hname, rfl⟩, op, hop, rfl⟩
  · rintro ⟨⟨p, hp, rfl, rfl⟩, op, hop, hname⟩
    have hmem : p ∈ op.placements := by
      rw [hops op hop, hname]
      exact List.mem_filter.mpr ⟨hp, by simp⟩
    exact hname ▸ delivered_of_placed hplan hop hmem

theorem delivered_iff :
    Delivered config plan node name ↔
      0 < placementCount sched.placements name node ∧ SentOut config plan name := by
  rw [delivered_iff_op hplan hsched, and_congr_right_iff]
  intro hplaced
  obtain ⟨p, hp, rfl, -⟩ := placementCount_pos.mp hplaced
  constructor
  · rintro ⟨op, hop, hname⟩
    rcases List.mem_append.mp hop with hop | hop
    · obtain ⟨_, -, rfl⟩ := Option.map_eq_some_iff.mp hplan
      exact .inl (hname ▸ not_blocked_of_mem hop)
    · exact .inr ⟨op, hop, hname⟩
  · rintro (hallowed | ⟨op, hop, hname⟩)
    · obtain ⟨sched', hsched', -, hexists⟩ := computePlan_ops hplan
      obtain rfl := Option.some.inj (hsched.symm.trans hsched')
      obtain ⟨op, hop, hname, -⟩ := hexists p hp hallowed
      exact ⟨op, hop, hname⟩
    · exact ⟨op, List.mem_append_right _ hop, hname⟩

end Scheduled

theorem services_of_mem_desiredStateMessages {node : String} {ds : DesiredState}
    (h : (node, .desiredState ds) ∈ desiredStateMessages order config plan state raft) :
    ds.services = specsFor config raft plan node := by
  rw [desiredStateMessages] at h
  rcases List.mem_append.mp h with h | h
  · obtain ⟨e, he, heq⟩ := List.mem_map.mp h
    cases heq
    exact (HashMap.mem_entries_groupBy.mp (order.mem_arrange.mp he)).2
  · obtain ⟨e, -, he⟩ := List.mem_filterMap.mp h
    split at he <;> cases he

theorem exists_desiredState (order : HashMap.Order) (state : FleetState)
    (raft : StateMachineInner) {node name : String} (h : Delivered config plan node name) :
    ∃ ds, (node, .desiredState ds) ∈ desiredStateMessages order config plan state raft := by
  have hne : specsFor config raft plan node ≠ [] := specsFor_ne_nil.mpr ⟨name, h⟩
  have hmem : (⟨node, specsFor config raft plan node⟩ : Σ _ : String, List ServiceSpec) ∈
      perNode order config raft plan :=
    order.mem_arrange.mpr (HashMap.mem_entries_groupBy.mpr
      ⟨fun hnil => hne (by rw [specsFor, hnil, List.map_nil]), rfl⟩)
  exact ⟨_, List.mem_append_left _ (List.mem_map.mpr ⟨_, hmem, rfl⟩)⟩

theorem instances_le_one (a : AgentState) (name : String) :
    a.instances name = 0 ∨ a.instances name = 1 := by
  unfold AgentState.instances
  split
  · exact .inr rfl
  · exact .inl rfl

theorem instances_sent (dataDir : String) (agentOrder : HashMap.Order)
    (history : List (HashMap.Order × ServerMessage)) {node : String} {ds : DesiredState}
    (hds : ds.services = specsFor config raft plan node) (name : String) :
    (handleServerMessage noFaults dataDir agentOrder (.after dataDir history)
      (.desiredState ds)).instances name = 1 ↔ Delivered config plan node name := by
  have hsent : name ∈ servicesByName ds.services ↔ Delivered config plan node name := by
    rw [hds, mem_servicesByName, exists_specsFor_name]
  rw [instances_desiredState, ← hsent]
  simp

end Plan

/-- EXACT: after an agent with any history has handled the desired state of its node, the running
    instances of every service are as many as its placements there if and only if every service
    placed there is placed once and may be sent out. -/
theorem instances_eq_placements_iff (F : Type) [F64 F] (re : RegexEngine) (order : HashMap.Order)
    (config : FleetConfig) (state : FleetState)
    (tracked : Option (HashMap String TrackedCloudInstance)) (raft : StateMachineInner)
    (plan : ReconcilePlan) (sched : PlacementPlan)
    (hplan : computePlan F re order config state tracked raft = some plan)
    (hsched : schedule F re (applyOverrides raft config.services)
      (mergeDynamicMachines config tracked) config.nodePools (currentPlacements raft) = some sched)
    (node : String) (ds : DesiredState)
    (hds : (node, .desiredState ds) ∈ desiredStateMessages order config plan state raft)
    (dataDir : String) (agentOrder : HashMap.Order)
    (history : List (HashMap.Order × ServerMessage)) :
    (∀ name, (handleServerMessage noFaults dataDir agentOrder (.after dataDir history)
        (.desiredState ds)).instances name = placementCount sched.placements name node) ↔
      ∀ name, 0 < placementCount sched.placements name node →
        placementCount sched.placements name node = 1 ∧ SentOut config plan name := by
  have hinstances : ∀ name, (handleServerMessage noFaults dataDir agentOrder
      (.after dataDir history) (.desiredState ds)).instances name =
        if name ∈ servicesByName ds.services then 1 else 0 :=
    instances_desiredState dataDir agentOrder history ds
  have hdelivered : ∀ name, name ∈ servicesByName ds.services ↔
      0 < placementCount sched.placements name node ∧ SentOut config plan name := fun name => by
    rw [services_of_mem_desiredStateMessages hds, mem_servicesByName, exists_specsFor_name,
      delivered_iff hplan hsched]
  refine forall_congr' fun name => ?_
  rw [hinstances name]
  by_cases hdel : name ∈ servicesByName ds.services
  · obtain ⟨hpos, hout⟩ := (hdelivered name).mp hdel
    rw [if_pos hdel]
    exact ⟨fun h _ => ⟨h.symm, hout⟩, fun h => (h hpos).1.symm⟩
  · rw [if_neg hdel]
    refine ⟨fun h hpos => absurd h hpos.ne, fun h => ?_⟩
    by_contra hne
    have hpos : 0 < placementCount sched.placements name node := by omega
    exact hdel ((hdelivered name).mpr ⟨hpos, (h hpos).2⟩)

/-! ### Replicas on one machine -/

namespace Stacked

/-- One service with a number of replicas, and one machine with room for them. -/
def config (replicas : UInt32) : FleetConfig where
  services := [⟨"web", { command := some "web", scheduling := { replicas := replicas }
    : ServiceConfig }⟩].toAList
  machines := [⟨"m1", { capacity := { cpu := 1000, memory := 1000 } : MachineConfig }⟩].toAList

def state : FleetState := .after [.register 0 "m1"]

/-- The plan for one replica. -/
def plan : ReconcilePlan where
  creates := [⟨"web", [⟨"web", "web-0", "m1"⟩], "Create web (1 instances)", []⟩]
  updates := []
  destroys := []
  reschedules := []
  hasChanges := true
  policyBlocked := []

end Stacked

/-- With one replica the counts agree. -/
theorem one_replica_one_instance : ∃ ds : DesiredState,
    computePlan Ratio noRegex .asBuilt (Stacked.config 1) Stacked.state none {} =
      some Stacked.plan ∧
    ("m1", .desiredState ds) ∈
      desiredStateMessages .asBuilt (Stacked.config 1) Stacked.plan Stacked.state {} ∧
    ∀ name, (handleServerMessage noFaults "/var/lib/ekafleet" .asBuilt
        (.after "/var/lib/ekafleet" []) (.desiredState ds)).instances name =
      placementCount [⟨"web", "web-0", "m1"⟩] name "m1" := by
  have hplan : computePlan Ratio noRegex .asBuilt (Stacked.config 1)
    Stacked.state none {} =
      some Stacked.plan := by decide +kernel
  have hsched : schedule Ratio noRegex (applyOverrides {} (Stacked.config 1).services)
      (mergeDynamicMachines (Stacked.config 1) none) (Stacked.config 1).nodePools
      (currentPlacements {}) = some { placements := [⟨"web", "web-0", "m1"⟩] } := by decide +kernel
  have hout : ∀ name, SentOut (Stacked.config 1) Stacked.plan name := fun name => .inl (by
    rw [blockedServices_nil rfl]; exact List.not_mem_nil)
  have hdel : Delivered (Stacked.config 1) Stacked.plan "m1" "web" :=
    (delivered_iff hplan hsched).mpr ⟨by decide, hout "web"⟩
  obtain ⟨ds, hds⟩ := exists_desiredState .asBuilt Stacked.state {} hdel
  refine ⟨ds, hplan, hds, (instances_eq_placements_iff Ratio noRegex .asBuilt _ _ _ _ _ _
    hplan hsched "m1" ds hds _ .asBuilt []).mpr fun name hpos => ⟨?_, hout name⟩⟩
  by_cases hname : "web" = name <;> simp [placementCount, hname] at hpos ⊢

/-- Two replicas on the one machine: the schedule has two placements there and the message has the
    specification twice, but one instance runs. -/
theorem two_replicas_one_instance :
    (schedule Ratio noRegex (applyOverrides {} (Stacked.config 2).services)
      (mergeDynamicMachines (Stacked.config 2) none) (Stacked.config 2).nodePools
      (currentPlacements {})).map (placementCount ·.placements "web" "m1") = some 2 ∧
    (computePlan Ratio noRegex .asBuilt (Stacked.config 2) Stacked.state none {}).map
      (fun plan => (desiredStateMessages .asBuilt (Stacked.config 2) plan Stacked.state {}).map
        fun m => (m.1, (handleServerMessage noFaults "/var/lib/ekafleet" .asBuilt {} m.2).instances
          "web")) = some [("m1", 1)] := by
  decide +kernel

end Ekafleet.Fleet
