import Ekafleet.Server.Reconciler

/-! Plans and drained nodes | source: server/reconciler.rs, server/api.rs

    The plan is made for the offered machines: the declared ones and the cloud instances that have
    joined. The eligibility flags and the set of connected agents, which a drain and a disconnect
    change, are not read, so plans stay on eligible nodes exactly when every offered machine is
    one. -/

namespace Ekafleet.Server
open Raft Scheduler

section Plans
variable {F : Type} [F64 F] {re : RegexEngine} {order : HashMap.Order} {config : FleetConfig}
  {state : FleetState} {tracked : Option (HashMap String TrackedCloudInstance)}
  {raft : StateMachineInner}

theorem computePlan_offered {plan : ReconcilePlan}
    (h : computePlan F re order config state tracked raft = some plan) :
    ∀ p ∈ plan.placements, p.machineName ∈ mergeDynamicMachines config tracked := by
  obtain ⟨sched, hsched, hsub⟩ := computePlan_subset h
  exact fun p hp => (schedule_known F re hsched p (hsub p hp)).2

theorem applyOverrides_undemanding (raft : StateMachineInner) (name : String) {cfg : ServiceConfig}
    (hcfg : Undemanding cfg) : ∃ cfg', Undemanding cfg' ∧
      applyOverrides raft (AList.singleton name cfg) = AList.singleton name cfg' := by
  unfold applyOverrides
  rcases h : getReplicaOverride raft name with _ | count
  · exact ⟨cfg, hcfg, AList.ext (by simp [HashMap.mapVal, h])⟩
  · obtain ⟨⟨replicas, update, hscheduling⟩, hresources⟩ := hcfg
    refine ⟨{ cfg with scheduling := { cfg.scheduling with replicas := count } },
      ⟨⟨count, update, ?_⟩, hresources⟩, AList.ext (by simp [HashMap.mapVal, h])⟩
    simp only [hscheduling]
    rfl

variable (F re order config state tracked raft) in
theorem computePlan_reaches (name : String) {cfg : ServiceConfig} (hcfg : Undemanding cfg) :
    ∃ plan, computePlan F re order { config with
        services := AList.singleton name cfg, policies := [] } state tracked raft = some plan ∧
      ∀ m ∈ mergeDynamicMachines config tracked,
        ∃ op ∈ plan.ops, op.serviceName = name ∧ ∃ p ∈ op.placements, p.machineName = m := by
  obtain ⟨cfg', hcfg', hover⟩ := applyOverrides_undemanding raft name hcfg
  obtain ⟨sched, hsched, hall⟩ := schedule_undemanding F re hcfg' name
    (mergeDynamicMachines config tracked) config.nodePools (currentPlacements raft)
  rw [← hover] at hsched
  have hplan : computePlan F re order { config with
      services := AList.singleton name cfg, policies := [] } state tracked raft =
      some _ := congrArg (Option.map _) hsched
  refine ⟨_, hplan, fun m hm => ?_⟩
  obtain ⟨sched', hsched', -, hops⟩ := computePlan_ops hplan
  obtain rfl := Option.some.inj (hsched.symm.trans hsched')
  obtain ⟨p, hp, hname, rfl⟩ := hall m hm
  obtain ⟨op, hop, hopName, hpop⟩ :=
    hops p hp (by rw [blockedServices_nil rfl]; exact List.not_mem_nil)
  exact ⟨op, hop, hopName.trans hname, p, hpop, rfl⟩

variable (F re order config state tracked raft) in
/-- EXACT: plans for every choice of services and policies stay on machines with a property exactly
    when all offered machines have it. -/
theorem computePlan_confined_iff (Q : String → Prop) :
    (∀ services policies plan, computePlan F re order { config with
        services := services, policies := policies } state tracked raft = some plan →
        ∀ p ∈ plan.placements, Q p.machineName) ↔
      ∀ m ∈ mergeDynamicMachines config tracked, Q m := by
  constructor
  · intro h m hm
    obtain ⟨plan, hplan, hall⟩ := computePlan_reaches F re order config state tracked raft "probe"
      (undemanding_unrestricted 1)
    obtain ⟨op, hop, -, p, hp, rfl⟩ := hall m hm
    exact h _ _ plan hplan p (List.mem_flatMap.mpr ⟨op, hop, hp⟩)
  · intro h services policies plan hplan p hp
    exact h _ (computePlan_offered hplan p hp)

end Plans

/-- EXACT: after any history of the fleet, the plans (for every choice of services and policies) lie
    on registered and schedulable nodes only if and only if every offered machine is such a node.
    And after a successful drain of `m`, as long as nothing makes it schedulable again, `m` is no
    such node, while the plans avoid it if and only if it is not offered at all: the drain itself
    keeps nothing away. -/
theorem plans_avoid_ineligible_iff (F : Type) [F64 F] (re : RegexEngine) (order : HashMap.Order)
    (config : FleetConfig) (tracked : Option (HashMap String TrackedCloudInstance))
    (raft : StateMachineInner) :
    (∀ events : List FleetEvent,
      (∀ services policies plan, computePlan F re order { config with
          services := services, policies := policies } (.after events) tracked raft = some plan →
          ∀ p ∈ plan.placements, (FleetState.after events).Eligible p.machineName) ↔
        ∀ m ∈ mergeDynamicMachines config tracked, (FleetState.after events).Eligible m) ∧
    ∀ (before later : List FleetEvent) (drainOrder : HashMap.Order) (ext : Extensions) (m : String),
      requirePermission ext .drain = .ok () →
      (∀ e ∈ later, ¬ FleetState.Restores m e) →
      ¬ (FleetState.after (before ++ .drain drainOrder ext m :: later)).Eligible m ∧
      ((∀ services policies plan, computePlan F re order { config with
          services := services, policies := policies }
          (.after (before ++ .drain drainOrder ext m :: later)) tracked raft = some plan →
          ∀ p ∈ plan.placements, p.machineName ≠ m) ↔
        m ∉ mergeDynamicMachines config tracked) := by
  refine ⟨fun events => computePlan_confined_iff F re order config _ tracked raft _,
    fun before later drainOrder ext m hperm hlater => ⟨?_, ?_⟩⟩
  · exact FleetState.not_eligible_after_drain hperm before later hlater
  · rw [computePlan_confined_iff F re order config _ tracked raft (· ≠ m)]
    exact ⟨fun h hm => h m hm rfl, fun h m' hm' heq => h (heq ▸ hm')⟩

/-- One machine, registered and then drained by an administrator: the next plan creates the service
    on it. -/
theorem drained_machine_gets_placement :
    let events : List FleetEvent :=
      [.register 0 "m1", .drain .asBuilt { role := some .admin } "m1"]
    requirePermission { role := some .admin } .drain = .ok () ∧
    ¬ (FleetState.after events).Eligible "m1" ∧
    (computePlan Ratio noRegex .asBuilt
      { services := [⟨"web", { command := some "web" : ServiceConfig }⟩].toAList
        machines := [⟨"m1", { : MachineConfig }⟩].toAList }
      (.after events) none {}).map (·.creates) =
        some [⟨"web", [⟨"web", "web-0", "m1"⟩], "Create web (1 instances)", []⟩] := by
  decide +kernel

end Ekafleet.Server
