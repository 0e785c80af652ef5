import Ekafleet.Fleet.Replicas
import Ekafleet.Server.PlanLaws

/-! Services that violate a policy | source: server/reconciler.rs, server/policy.rs

    An enforcing policy is to keep a service from being deployed, and what runs of it running.
    Policies are checked on the configuration as written; the plan is made with runtime replica
    counts. -/

namespace Ekafleet.Fleet
open Raft Scheduler Proto Server Agent Effect

/-- The service violates an enforcing policy, with the runtime replica count in place. -/
def Violates (config : FleetConfig) (raft : StateMachineInner) (name : String) : Prop :=
  ∃ cfg violations, (applyOverrides raft config.services).lookup name = some cfg ∧
    checkPolicies config.policies name cfg = .error violations

/-! ### Which services are in the plan -/

/-- The service is reported, by other nodes than the scheduled ones. -/
def Moves (state : FleetState) (sched : PlacementPlan) (name : String) : Prop :=
  state.reportedNodes name ≠ [] ∧
    ¬ (state.reportedNodes name).Perm (placedNodes sched.placements name)

/-- The service is let through: no policy on the written configuration holds it back, or it moves.
    -/
def LetThrough (config : FleetConfig) (state : FleetState) (sched : PlacementPlan) (name : String) :
    Prop :=
  name ∉ blockedServices config ∨ Moves state sched name

section Plan
variable {F : Type} [F64 F] {re : RegexEngine} {order : HashMap.Order} {config : FleetConfig}
  {state : FleetState} {tracked : Option (HashMap String TrackedCloudInstance)}
  {raft : StateMachineInner} {plan : ReconcilePlan} {sched : PlacementPlan} {name : String}
variable (hplan : computePlan F re order config state tracked raft = some plan)
  (hsched : schedule F re (applyOverrides raft config.services)
    (mergeDynamicMachines config tracked) config.nodePools (currentPlacements raft) = some sched)
include hplan hsched

/-- EXACT: the services with an operation in the plan are the scheduled ones that are let through.
    -/
theorem exists_op_iff :
    (∃ op ∈ plan.ops, op.serviceName = name) ↔
      placedNodes sched.placements name ≠ [] ∧ LetThrough config state sched name := by
  obtain ⟨sched', hsched', rfl⟩ := Option.map_eq_some_iff.mp hplan
  obtain rfl := Option.some.inj (hsched.symm.trans hsched')
  change (∃ op ∈ (planFor config (currentPlacements raft) state order sched.placements).ops, _) ↔ _
  simp only [ReconcilePlan.ops, List.mem_append, or_and_right, exists_or, mem_creates, mem_updates,
    mem_reschedules, LetThrough, Moves]
  tauto

/-- EXACT: a node is sent the services scheduled for it that are let through. -/
theorem delivered_iff_letThrough {node : String} :
    Delivered config plan node name ↔
      0 < placementCount sched.placements name node ∧ LetThrough config state sched name := by
  rw [delivered_iff_op hplan hsched, exists_op_iff hplan hsched]
  refine and_congr_right fun hplaced => and_iff_right ?_
  obtain ⟨p, hp, rfl, -⟩ := placementCount_pos.mp hplaced
  exact List.ne_nil_of_mem (List.mem_map_of_mem (List.mem_filter.mpr ⟨hp, by simp⟩))

end Plan

/-! ### What runs after a cycle -/

section Run
variable {F : Type} [F64 F] {re : RegexEngine} {c : Cycle} {plan : ReconcilePlan}
  {dataDir : String} {order : HashMap.Order}

theorem instances_foldl_later {a : AgentState} (h : a.Regular) (name : String) :
    ∀ {later : List ServerMessage}, (∀ m ∈ later, Quiet m ∨ ∃ cmd, m = .deploy cmd) →
      (later.foldl (handleServerMessage noFaults dataDir order) a).instances name = a.instances name
  | [], _ => rfl
  | m :: later, hlater => by
    have hstep : (handleServerMessage noFaults dataDir order a m).instances name =
        a.instances name := by
      rcases hlater m List.mem_cons_self with hquiet | ⟨cmd, rfl⟩
      · cases m with
        | dns records => rfl
        | migrateVolume cmd => rfl
        | _ => exact hquiet.elim
      · exact instances_deploy h cmd name
    rw [List.foldl_cons, instances_foldl_later (regular_handle h m) name
      fun m' hm' => hlater m' (List.mem_cons_of_mem _ hm'), hstep]

/-- EXACT: after a cycle, a reached node that the plan has services for runs these. -/
theorem instances_run_served (hplan : c.plan F re = some plan)
    (history : String → List (HashMap.Order × ServerMessage)) {node : String}
    (hup : c.up node = true) (hdel : ∃ other, Delivered c.config plan node other) (name : String) :
    (c.run F re dataDir (fun node => .after dataDir (history node)) node).instances name = 1 ↔
      Delivered c.config plan node name := by
  have hchanges : plan.hasChanges = true := by
    obtain ⟨other, -, op, hop, -⟩ := hdel
    exact hasChanges_of_op hplan hop
  obtain ⟨ds, later, hin, hds, hlater⟩ := inbox_of_served hplan hchanges hup hdel
  rw [Cycle.run, foldl_deliver_apply, hin, List.foldl_cons,
    instances_foldl_later (regular_handle (regular_after dataDir _) _) name
      fun m hm => (hlater m hm).imp_right fun ⟨cmd, heq, _⟩ => ⟨cmd, heq⟩]
  exact instances_sent dataDir c.agentOrder (history node) hds name

theorem instances_run_idle (hplan : c.plan F re = some plan)
    (history : String → List (HashMap.Order × ServerMessage)) {node : String}
    (hidle : ¬ (c.up node = true ∧ ∃ other, Delivered c.config plan node other)) (name : String) :
    (c.run F re dataDir (fun node => .after dataDir (history node)) node).instances name =
      (AgentState.after dataDir (history node)).instances name := by
  have hquiet : ∀ m ∈ inbox node (c.sent F re), Quiet m := inbox_of_unserved
    fun ⟨plan', hplan', _, hup, hdel⟩ => hidle ⟨hup, by
      rwa [Option.some.inj (hplan.symm.trans hplan')] at *⟩
  rw [Cycle.run, foldl_deliver_apply,
    instances_foldl_later (regular_after dataDir _) name fun m hm => .inl (hquiet m hm)]

/-- What the cycle does to a service: it has no operation in the plan, and the instances that run go
    on running. -/
structure LeftAlone (F : Type) [F64 F] (re : RegexEngine) (c : Cycle) (plan : ReconcilePlan)
    (dataDir : String) (history : String → List (HashMap.Order × ServerMessage)) (name : String) :
    Prop where
  notPlanned : ∀ op ∈ plan.creates ++ plan.updates ++ plan.reschedules, op.serviceName ≠ name
  stillRuns : ∀ node, (AgentState.after dataDir (history node)).instances name = 1 →
    (c.run F re dataDir (fun node => .after dataDir (history node)) node).instances name = 1

/-- EXACT: a service is left alone exactly if it is not scheduled or not let through, and no reached
    node that runs it is to run a service that is let through. -/
theorem leftAlone_iff {sched : PlacementPlan} (hplan : c.plan F re = some plan)
    (hsched : schedule F re (applyOverrides c.raft c.config.services)
      (mergeDynamicMachines c.config c.tracked) c.config.nodePools (currentPlacements c.raft) =
        some sched)
    (history : String → List (HashMap.Order × ServerMessage)) (name : String) :
    LeftAlone F re c plan dataDir history name ↔
      (placedNodes sched.placements name = [] ∨ ¬ LetThrough c.config c.state sched name) ∧
      ∀ node, c.up node = true → (AgentState.after dataDir (history node)).instances name = 1 →
        ∀ other, 0 < placementCount sched.placements other node →
          ¬ LetThrough c.config c.state sched other := by
  have hplanned : (∀ op ∈ plan.ops, op.serviceName ≠ name) ↔
      placedNodes sched.placements name = [] ∨ ¬ LetThrough c.config c.state sched name := by
    rw [← not_iff_not, not_or, not_not, ← ne_eq, ← exists_op_iff hplan hsched]
    push Not
    rfl
  have hdelivered : ∀ node other, Delivered c.config plan node other ↔
      0 < placementCount sched.placements other node ∧ LetThrough c.config c.state sched other :=
    fun _ _ => delivered_iff_letThrough hplan hsched
  constructor
  · rintro ⟨hnot, hruns⟩
    refine ⟨hplanned.mp hnot, fun node hup hrun other hplaced hthrough => ?_⟩
    have hdel := (hdelivered node other).mpr ⟨hplaced, hthrough⟩
    obtain ⟨-, op, hop, hname, -⟩ :=
      (instances_run_served hplan history hup ⟨other, hdel⟩ name).mp (hruns node hrun)
    exact hnot op hop hname
  · rintro ⟨hnot, hnodes⟩
    refine ⟨hplanned.mpr hnot, fun node hrun => ?_⟩
    have hidle : ¬ (c.up node = true ∧ ∃ other, Delivered c.config plan node other) := by
      grind
    rw [instances_run_idle hplan history hidle name, hrun]

end Run

/-- CORRECT: a cycle leaves alone every service that violates an enforcing policy, with the runtime
    replica counts in place, exactly if each of them is not scheduled, or is held back on its
    written configuration and does not move, and no reached node that runs one is to run a service
    that is let through. -/
theorem violating_left_alone_iff (F : Type) [F64 F] (re : RegexEngine) (c : Cycle)
    (plan : ReconcilePlan) (sched : PlacementPlan) (hplan : c.plan F re = some plan)
    (hsched : schedule F re (applyOverrides c.raft c.config.services)
      (mergeDynamicMachines c.config c.tracked) c.config.nodePools (currentPlacements c.raft) =
        some sched)
    (dataDir : String) (history : String → List (HashMap.Order × ServerMessage)) :
    (∀ name, Violates c.config c.raft name → LeftAlone F re c plan dataDir history name) ↔
      ∀ name, Violates c.config c.raft name →
        (placedNodes sched.placements name = [] ∨
          name ∈ blockedServices c.config ∧ ¬ Moves c.state sched name) ∧
        ∀ node, c.up node = true → (AgentState.after dataDir (history node)).instances name = 1 →
          ∀ other, 0 < placementCount sched.placements other node →
            other ∈ blockedServices c.config ∧ ¬ Moves c.state sched other := by
  refine forall_congr' fun name => imp_congr_right fun _ => ?_
  rw [leftAlone_iff hplan hsched]
  simp only [LetThrough, not_or, not_not]

/-! ### Two services that violate a policy -/

namespace Forbidden

/-- A database whose priority is too low, and a service whose replica count is fine as written. -/
def config : FleetConfig where
  services := [⟨"db", { command := some "/nix/store/db", scheduling := { priority := 10 }
      : ServiceConfig }⟩,
    ⟨"web", { command := some "/nix/store/web" : ServiceConfig }⟩].toAList
  machines := [⟨"n1", { capacity := { cpu := 1000, memory := 1000 } : MachineConfig }⟩].toAList
  policies := [⟨"priority", "service.priority >= 50", "priority too low", .enforce⟩,
    ⟨"replicas", "service.replicas <= 2", "too many replicas", .enforce⟩]

/-- Three replicas of the second service were asked for at runtime. -/
def raft : StateMachineInner where
  kv := [⟨"replica-override/web", [3, 0, 0, 0]⟩].toAList
  deployments := [⟨"db", ⟨"db", "/nix/store/db", [⟨"db-0", "n1"⟩], 1, 0⟩⟩].toAList

/-- The database runs on the only node. -/
def cycle : Cycle where
  order := .asBuilt
  agentOrder := .asBuilt
  config := config
  state := .after [.register 0 "n1", .status "n1" [⟨"db", "db-0", "/nix/store/db", .running⟩]]
  raft := raft
  env := ⟨fun _ _ => true, fun _ _ _ => true, fun _ => false, fun _ => "d-1", fun _ _ => none⟩

def history : String → List (HashMap.Order × ServerMessage)
  | "n1" => [(.asBuilt, .desiredState ⟨[sentSpec raft "db"
      { command := some "/nix/store/db", scheduling := { priority := 10 } }], []⟩)]
  | _ => []

end Forbidden

/-- The service with three replicas is created. The database has no operation, so the desired state
    for the first service leaves it out, and the agent stops it. -/
theorem forbidden_created_and_stopped :
    Violates Forbidden.config Forbidden.raft "web" ∧ Violates Forbidden.config Forbidden.raft "db" ∧
    (Forbidden.cycle.plan Ratio noRegex).map
      (fun plan => plan.ops.map (·.serviceName)) = some ["web"] ∧
    (AgentState.after "/d" (Forbidden.history "n1")).instances "db" = 1 ∧
    (Forbidden.cycle.run Ratio noRegex "/d"
      (fun node => .after "/d" (Forbidden.history node)) "n1").instances "db" = 0 := by
  refine ⟨⟨_, _, rfl, rfl⟩, ⟨_, _, rfl, rfl⟩, by decide +kernel, by decide +kernel,
    by decide +kernel⟩

/-- The condition fails for the service with three replicas. -/
theorem violating_not_left_alone_forbidden :
    ∃ plan sched, Forbidden.cycle.plan Ratio noRegex = some plan ∧
      schedule Ratio noRegex (applyOverrides Forbidden.raft Forbidden.config.services)
        (mergeDynamicMachines Forbidden.config none) Forbidden.config.nodePools
        (currentPlacements Forbidden.raft) = some sched ∧
      ¬ ∀ name, Violates Forbidden.config Forbidden.raft name →
        LeftAlone Ratio noRegex Forbidden.cycle plan "/d" Forbidden.history name := by
  have hsome : (Forbidden.cycle.plan Ratio noRegex).isSome = true := by decide +kernel
  obtain ⟨plan, hplan⟩ := Option.isSome_iff_exists.mp hsome
  obtain ⟨sched, hsched, -⟩ := computePlan_ops hplan
  have hnodes : (schedule Ratio noRegex
      (applyOverrides Forbidden.raft Forbidden.config.services)
      (mergeDynamicMachines Forbidden.config none) Forbidden.config.nodePools
      (currentPlacements Forbidden.raft)).map (fun sched => placedNodes sched.placements "web") =
        some ["n1", "n1", "n1"] := by
    decide +kernel
  replace hnodes : some (placedNodes sched.placements "web") = some ["n1", "n1", "n1"] :=
    (congrArg (Option.map fun s : PlacementPlan => placedNodes s.placements "web")
      hsched).symm.trans hnodes
  refine ⟨plan, sched, hplan, hsched, fun hall => ?_⟩
  rcases ((violating_left_alone_iff Ratio noRegex Forbidden.cycle plan sched
    hplan hsched "/d"
    Forbidden.history).mp hall "web" ⟨_, _, rfl, rfl⟩).1 with hnil | ⟨hblocked, -⟩
  · simp [hnil] at hnodes
  · exact absurd hblocked (by decide +kernel)

end Ekafleet.Fleet
