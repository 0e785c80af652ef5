import Ekafleet.Server.Reconciler

/-! What a plan should say | source: server/reconciler.rs

    A plan that is computed for a fleet in the desired state should be empty, its lists should have
    no service in common, and only services that are no longer configured should be destroyed. -/

namespace Ekafleet.Server
open Raft Scheduler

/-! ### Nodes of a service -/

/-- The nodes that report an instance of the service. -/
def FleetState.reportedNodes (s : FleetState) (serviceName : String) : List String :=
  (s.reportsOf serviceName).map (·.nodeId)

/-- The machines the service is placed on. -/
def placedNodes (placements : List Placement) (serviceName : String) : List String :=
  (placements.filter (·.serviceName = serviceName)).map (·.machineName)

/-- The agents report the placed instances and no others, all of them healthy and at the version of
    their service. -/
structure RunsExactly (version : String → String) (placements : List Placement)
    (state : FleetState) : Prop where
  reports : state.reports.Perm
    (placements.map fun p => (p.serviceName, ⟨p.instanceId, p.machineName, .running, .healthy⟩))
  versions : ∀ n ∈ state.nodes.entries, ∀ svc ∈ n.2.services.entries,
    svc.2.storePath = version svc.1

/-- A service is in at most one of the four lists. -/
def ReconcilePlan.ListsDisjoint (plan : ReconcilePlan) : Prop :=
  [plan.creates, plan.updates, plan.destroys, plan.reschedules].Pairwise
    fun ops ops' => ∀ op ∈ ops, ∀ op' ∈ ops', op.serviceName ≠ op'.serviceName

/-- Nothing has to be done. -/
def ReconcilePlan.IsEmpty (plan : ReconcilePlan) : Prop :=
  plan.creates = [] ∧ plan.updates = [] ∧ plan.destroys = [] ∧ plan.reschedules = [] ∧
    plan.hasChanges = false

theorem perm_iff_insertionSort_eq {l l' : List String} :
    l.insertionSort (· ≤ ·) = l'.insertionSort (· ≤ ·) ↔ l.Perm l' := by
  grind [List.perm_insertionSort, List.Perm.eq_of_pairwise, List.pairwise_insertionSort,
    String.le_antisymm]

section Lists
variable {desired : FleetConfig} {current : CurrentPlacements} {state : FleetState}
  {order : HashMap.Order} {placements : List Placement}

/-- The groups of a plan. -/
def planGroups (order : HashMap.Order) (placements : List Placement) :
    List (Σ _ : String, List Placement) :=
  order.arrange (HashMap.groupBy Placement.serviceName id placements).entries

theorem mem_planGroups {g : Σ _ : String, List Placement} :
    g ∈ planGroups order placements ↔
      placedNodes placements g.1 ≠ [] ∧ g.2 = placements.filter (·.serviceName = g.1) := by
  rw [planGroups, mem_arrange_groups, placedNodes, ne_eq, ne_eq, List.map_eq_nil_iff]

theorem group_mem_planGroups (order : HashMap.Order) {name : String}
    (h : placedNodes placements name ≠ []) :
    ⟨name, placements.filter (·.serviceName = name)⟩ ∈ planGroups order placements :=
  mem_planGroups.mpr ⟨h, rfl⟩

theorem mem_names_planGroups {name : String} :
    name ∈ (planGroups order placements).map (·.1) ↔ placedNodes placements name ≠ [] := by
  rw [List.mem_map]
  constructor
  · rintro ⟨g, hg, rfl⟩
    exact (mem_planGroups.mp hg).1
  · intro h
    exact ⟨_, group_mem_planGroups order h, rfl⟩

theorem mem_names_fleetStatus {name : String} :
    name ∈ (state.fleetStatus order).map (·.name) ↔ state.reportedNodes name ≠ [] := by
  rw [FleetState.reportedNodes, ne_eq, List.map_eq_nil_iff, List.mem_map]
  constructor
  · rintro ⟨svc, hsvc, rfl⟩
    exact (FleetState.mem_fleetStatus.mp hsvc).1
  · intro h
    exact ⟨⟨name, state.reportsOf name⟩, FleetState.mem_fleetStatus.mpr ⟨h, rfl⟩, rfl⟩

/-- The plan for given placements. -/
abbrev planFor (desired : FleetConfig) (current : CurrentPlacements) (state : FleetState)
    (order : HashMap.Order) (placements : List Placement) : ReconcilePlan :=
  diffPlan desired current (state.fleetStatus order) (planGroups order placements)

/-- EXACT (creates): placed, not running, allowed. -/
theorem mem_creates {name : String} :
    (∃ op ∈ (planFor desired current state order placements).creates, op.serviceName = name) ↔
      placedNodes placements name ≠ [] ∧ state.reportedNodes name = [] ∧
        name ∉ blockedServices desired := by
  simp only [planFor, diffPlan, List.mem_filter, List.mem_map, Bool.not_eq_true',
    List.contains_eq_mem, decide_eq_false_iff_not]
  constructor
  · rintro ⟨_, ⟨⟨g, ⟨hg, hrunning⟩, rfl⟩, hallowed⟩, rfl⟩
    refine ⟨(mem_planGroups.mp hg).1, ?_, hallowed⟩
    rw [← List.mem_map, mem_names_fleetStatus, not_not] at hrunning
    exact hrunning
  · rintro ⟨hplaced, hnot, hallowed⟩
    refine ⟨_, ⟨⟨_, ⟨group_mem_planGroups order hplaced, ?_⟩, rfl⟩, hallowed⟩, rfl⟩
    rw [← List.mem_map, mem_names_fleetStatus, not_not]
    exact hnot

/-- EXACT (updates): placed, running, allowed. Versions are not looked at. -/
theorem mem_updates {name : String} :
    (∃ op ∈ (planFor desired current state order placements).updates, op.serviceName = name) ↔
      placedNodes placements name ≠ [] ∧ state.reportedNodes name ≠ [] ∧
        name ∉ blockedServices desired := by
  simp only [planFor, diffPlan, List.mem_filter, List.mem_map, Bool.not_eq_true',
    List.contains_eq_mem, decide_eq_false_iff_not, decide_eq_true_eq]
  constructor
  · rintro ⟨_, ⟨⟨g, ⟨hg, hrunning⟩, rfl⟩, hallowed⟩, rfl⟩
    refine ⟨(mem_planGroups.mp hg).1, ?_, hallowed⟩
    rwa [← List.mem_map, mem_names_fleetStatus] at hrunning
  · rintro ⟨hplaced, hrunning, hallowed⟩
    refine ⟨_, ⟨⟨_, ⟨group_mem_planGroups order hplaced, ?_⟩, rfl⟩, hallowed⟩, rfl⟩
    rwa [← List.mem_map, mem_names_fleetStatus]

/-- EXACT (destroys): running, not placed. The configuration is not looked at. -/
theorem mem_destroys {name : String} :
    (∃ op ∈ (planFor desired current state order placements).destroys, op.serviceName = name) ↔
      state.reportedNodes name ≠ [] ∧ placedNodes placements name = [] := by
  simp only [planFor, diffPlan, List.mem_filter, List.mem_map, Bool.not_eq_true',
    List.contains_eq_mem, decide_eq_false_iff_not]
  constructor
  · rintro ⟨_, ⟨svc, ⟨hsvc, hplaced⟩, rfl⟩, rfl⟩
    rw [← List.mem_map, mem_names_planGroups, not_not] at hplaced
    exact ⟨mem_names_fleetStatus.mp (List.mem_map_of_mem hsvc), hplaced⟩
  · rintro ⟨hrunning, hplaced⟩
    obtain ⟨svc, hsvc, rfl⟩ := List.mem_map.mp (mem_names_fleetStatus.mpr hrunning)
    refine ⟨_, ⟨svc, ⟨hsvc, ?_⟩, rfl⟩, rfl⟩
    rw [← List.mem_map, mem_names_planGroups, not_not]
    exact hplaced

/-- EXACT (reschedules): placed and running, on other nodes. Policies are not looked at. -/
theorem mem_reschedules {name : String} :
    (∃ op ∈ (planFor desired current state order placements).reschedules, op.serviceName = name) ↔
      placedNodes placements name ≠ [] ∧ state.reportedNodes name ≠ [] ∧
        ¬ (state.reportedNodes name).Perm (placedNodes placements name) := by
  have hop : ∀ g ∈ planGroups order placements,
      (∃ op, rescheduleOp desired current (state.fleetStatus order) g = some op) ↔
        state.reportedNodes g.1 ≠ [] ∧
          ¬ (state.reportedNodes g.1).Perm (placedNodes placements g.1) := by
    intro g hg
    have hdesired : g.2.map (·.machineName) = placedNodes placements g.1 := by
      rw [(mem_planGroups.mp hg).2, placedNodes]
    rw [rescheduleOp, FleetState.find?_fleetStatus]
    by_cases hnil : state.reportsOf g.1 = []
    · simp [hnil, FleetState.reportedNodes]
    · rw [if_neg hnil]
      dsimp only
      rw [hdesired, ← FleetState.reportedNodes, ← perm_iff_insertionSort_eq]
      constructor
      · grind
      · intro hdiff
        rw [if_pos hdiff.symm]
        exact ⟨_, rfl⟩
  simp only [planFor, diffPlan, List.mem_filterMap]
  constructor
  · rintro ⟨op, ⟨g, hg, hsome⟩, rfl⟩
    rw [(rescheduleOp_eq_some hsome).1]
    exact ⟨(mem_planGroups.mp hg).1, (hop g hg).mp ⟨op, hsome⟩⟩
  · rintro ⟨hplaced, hdiff⟩
    have hg := group_mem_planGroups order hplaced
    obtain ⟨op, hsome⟩ := (hop _ hg).mpr hdiff
    exact ⟨op, ⟨_, hg, hsome⟩, (rescheduleOp_eq_some hsome).1⟩

/-! ### The laws -/

theorem eq_nil_iff_names {ops : List ServiceOp} :
    ops = [] ↔ ∀ name, ¬ ∃ op ∈ ops, op.serviceName = name := by
  simp [List.eq_nil_iff_forall_not_mem]

theorem disjoint_names_iff {ops ops' : List ServiceOp} :
    (∀ op ∈ ops, ∀ op' ∈ ops', op.serviceName ≠ op'.serviceName) ↔
      ∀ name, ¬ ((∃ op ∈ ops, op.serviceName = name) ∧ ∃ op ∈ ops', op.serviceName = name) := by
  constructor
  · grind
  · intro h op hop op' hop' heq
    exact h op.serviceName ⟨⟨op, hop, rfl⟩, op', hop', heq.symm⟩

theorem RunsExactly.perm {version : String → String} (h : RunsExactly version placements state)
    (name : String) : (state.reportedNodes name).Perm (placedNodes placements name) := by
  have hfilter := ((h.reports.filter (·.1 = name)).map Prod.snd).map InstanceStatus.nodeId
  rw [List.filter_map] at hfilter
  simpa [FleetState.reportedNodes, FleetState.reportsOf, placedNodes,
    Function.comp_def] using hfilter

theorem RunsExactly.isEmpty_iff {version : String → String}
    (h : RunsExactly version placements state) :
    (planFor desired current state order placements).IsEmpty ↔
      ∀ p ∈ placements, p.serviceName ∈ blockedServices desired := by
  have hsame : ∀ name, state.reportedNodes name = [] ↔ placedNodes placements name = [] := by
    intro name
    constructor
    · intro hnil
      exact List.nil_perm.mp (hnil ▸ h.perm name)
    · intro hnil
      exact List.perm_nil.mp (hnil ▸ h.perm name)
  have hcreates : (planFor desired current state order placements).creates = [] := by
    rw [eq_nil_iff_names]
    intro name hname
    obtain ⟨hplaced, hnot, -⟩ := mem_creates.mp hname
    exact hplaced ((hsame name).mp hnot)
  have hdestroys : (planFor desired current state order placements).destroys = [] := by
    rw [eq_nil_iff_names]
    intro name hname
    obtain ⟨hrunning, hnot⟩ := mem_destroys.mp hname
    exact hrunning ((hsame name).mpr hnot)
  have hreschedules : (planFor desired current state order placements).reschedules = [] := by
    rw [eq_nil_iff_names]
    intro name hname
    obtain ⟨-, -, hdiff⟩ := mem_reschedules.mp hname
    exact hdiff (h.perm name)
  have hupdates : (planFor desired current state order placements).updates = [] ↔
      ∀ p ∈ placements, p.serviceName ∈ blockedServices desired := by
    rw [eq_nil_iff_names]
    constructor
    · intro hnone p hp
      have hplaced : placedNodes placements p.serviceName ≠ [] := by
        rw [placedNodes, ne_eq, List.map_eq_nil_iff]
        exact List.ne_nil_of_mem (List.mem_filter.mpr ⟨hp, by simp⟩)
      by_contra hallowed
      exact hnone p.serviceName (mem_updates.mpr ⟨hplaced, mt (hsame _).mp hplaced, hallowed⟩)
    · intro hall name hname
      obtain ⟨hplaced, -, hallowed⟩ := mem_updates.mp hname
      obtain ⟨node, hnode⟩ := List.exists_mem_of_ne_nil _ hplaced
      obtain ⟨p, hp, -⟩ := List.mem_map.mp hnode
      grind
  rw [← hupdates]
  constructor
  · rintro ⟨-, hnil, -⟩
    exact hnil
  · intro hnil
    refine ⟨hcreates, hnil, hdestroys, hreschedules, ?_⟩
    have hchanges : (planFor desired current state order placements).hasChanges =
      (!(planFor desired current state order placements).creates.isEmpty ||
        !(planFor desired current state order placements).updates.isEmpty ||
        !(planFor desired current state order placements).destroys.isEmpty ||
        !(planFor desired current state order placements).reschedules.isEmpty) := rfl
    rw [hchanges, hcreates, hnil, hdestroys, hreschedules]
    rfl

theorem listsDisjoint_iff :
    (planFor desired current state order placements).ListsDisjoint ↔
      ∀ name, placedNodes placements name ≠ [] → state.reportedNodes name ≠ [] →
        name ∉ blockedServices desired →
          (state.reportedNodes name).Perm (placedNodes placements name) := by
  rw [ReconcilePlan.ListsDisjoint]
  simp only [List.pairwise_cons, List.forall_mem_cons, List.not_mem_nil, false_imp_iff,
    implies_true, and_true, List.Pairwise.nil, disjoint_names_iff, mem_creates, mem_updates,
    mem_destroys, mem_reschedules]
  grind

theorem destroys_unconfigured_iff :
    (∀ op ∈ (planFor desired current state order placements).destroys,
        op.serviceName ∉ desired.services) ↔
      ∀ name ∈ desired.services, state.reportedNodes name ≠ [] →
        placedNodes placements name ≠ [] := by
  constructor
  · intro h name hname hrunning hplaced
    obtain ⟨op, hop, rfl⟩ := mem_destroys.mpr ⟨hrunning, hplaced⟩
    exact h op hop hname
  · intro h op hop hname
    obtain ⟨hrunning, hplaced⟩ := mem_destroys.mp ⟨op, hop, rfl⟩
    exact h op.serviceName hname hrunning hplaced

end Lists

/-- EXACT: a plan is empty for a fleet that runs exactly what is scheduled, has no service in two of
    its lists and destroys only what is not configured, if and only if such a fleet runs nothing but
    services that a policy keeps back, no service that may be updated runs on other nodes than it is
    scheduled on, and every configured service that runs is scheduled somewhere. -/
theorem plan_laws_iff (F : Type) [F64 F] (re : RegexEngine) (order : HashMap.Order)
    (desired : FleetConfig) (state : FleetState)
    (tracked : Option (HashMap String TrackedCloudInstance)) (raft : StateMachineInner)
    (version : String → String) (sched : PlacementPlan) (plan : ReconcilePlan)
    (hsched : schedule F re (applyOverrides raft desired.services)
      (mergeDynamicMachines desired tracked) desired.nodePools (currentPlacements raft) =
        some sched)
    (hplan : computePlan F re order desired state tracked raft = some plan) :
    ((RunsExactly version sched.placements state → plan.IsEmpty) ∧ plan.ListsDisjoint ∧
      ∀ op ∈ plan.destroys, op.serviceName ∉ desired.services) ↔
    ((RunsExactly version sched.placements state →
        ∀ p ∈ sched.placements, p.serviceName ∈ blockedServices desired) ∧
      (∀ name, placedNodes sched.placements name ≠ [] → state.reportedNodes name ≠ [] →
        name ∉ blockedServices desired →
          (state.reportedNodes name).Perm (placedNodes sched.placements name)) ∧
      ∀ name ∈ desired.services, state.reportedNodes name ≠ [] →
        placedNodes sched.placements name ≠ []) := by
  obtain ⟨sched', hsched', rfl⟩ := Option.map_eq_some_iff.mp hplan
  obtain rfl := Option.some.inj (hsched.symm.trans hsched')
  refine and_congr ?_ (and_congr listsDisjoint_iff destroys_unconfigured_iff)
  exact forall_congr' fun h => h.isEmpty_iff

/-! ### A fleet in its desired state -/

namespace Settled

/-- One service, on one machine. -/
def config (replicas : UInt32) : FleetConfig where
  services := [⟨"web", { command := some "web", scheduling := { replicas := replicas }
    : ServiceConfig }⟩].toAList
  machines := [⟨"m1", { capacity := { cpu := 1000, memory := 1000 } : MachineConfig }⟩].toAList

/-- The service runs on a node and is healthy. -/
def running (node : String) : FleetState := .after [.register 0 node,
  .status node [⟨"web", "web-0", "/nix/store/web", .running⟩], .health node [⟨"web", .healthy⟩]]

def plan (replicas : UInt32) (state : FleetState) : Option ReconcilePlan :=
  computePlan Ratio noRegex .asBuilt (config replicas) state none {}

/-- The first plan of a fleet keeps to the laws. -/
theorem first_plan_lawful :
    ∃ plan', plan 1 (.after [.register 0 "m1"]) = some plan' ∧ plan'.ListsDisjoint := by
  have hsched : schedule Ratio noRegex (applyOverrides {} (config 1).services)
      (mergeDynamicMachines (config 1) none) (config 1).nodePools
      (currentPlacements {}) = some { placements := [⟨"web", "web-0", "m1"⟩] } := by decide +kernel
  have hnone : ∀ name, (FleetState.after [.register 0 "m1"]).reportedNodes name = [] := fun _ => rfl
  obtain ⟨plan', hplan⟩ : ∃ plan', plan 1 (.after [.register 0 "m1"]) = some plan' :=
    Option.isSome_iff_exists.mp (by decide +kernel)
  refine ⟨plan', hplan, ((plan_laws_iff Ratio noRegex .asBuilt (config 1)
    (.after [.register 0 "m1"]) none {} (fun _ => "/nix/store/web") _ plan' hsched hplan).mpr
      ⟨fun h => ?_, fun name _ h => absurd (hnone name) h,
        fun name _ h => absurd (hnone name) h⟩).2.1⟩
  exact absurd (List.nil_perm.mp h.reports) (by simp)

/-- What is scheduled runs, and is updated nevertheless. On another node it is updated and
    rescheduled; scaled to zero it is destroyed as if it were not configured. -/
theorem settled_fleet_has_changes :
    RunsExactly (fun _ => "/nix/store/web") [⟨"web", "web-0", "m1"⟩] (running "m1") ∧
    (schedule Ratio noRegex (applyOverrides {} (config 1).services)
      (mergeDynamicMachines (config 1) none) (config 1).nodePools
      (currentPlacements {})).map (·.placements) = some [⟨"web", "web-0", "m1"⟩] ∧
    (plan 1 (running "m1")).map (fun p => (p.updates.map (·.serviceName), p.hasChanges)) =
      some (["web"], true) ∧
    (plan 1 (running "m2")).map (fun p =>
      (p.updates.map (·.serviceName), p.reschedules.map (·.serviceName))) =
        some (["web"], ["web"]) ∧
    (plan 0 (running "m1")).map (·.destroys.map (·.serviceName)) = some ["web"] := by
  refine ⟨⟨?_, by decide⟩, by decide +kernel, by decide +kernel,
    by decide +kernel, by decide +kernel⟩
  exact List.Perm.of_eq (by decide)

end Settled

end Ekafleet.Server
