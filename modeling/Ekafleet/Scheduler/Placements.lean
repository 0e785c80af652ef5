import Ekafleet.Scheduler.Capacity

/-! Where placements lie | source: server/scheduler/mod.rs

    Whenever `schedule` returns, each placement is of a configured service on an offered machine
    (`schedule_known`). The bound is sharp: a system job without requirements is placed on every
    offered machine (`schedule_undemanding`). -/

namespace Ekafleet.Scheduler

/-- Jobs that run `replicas` instances, as opposed to one on every machine. -/
def replicated : JobType → Bool
  | .service | .stateful | .batch => true
  | .system | .sysbatch => false

/-! ### Placements are known -/

section Known
variable {services : Services} {machines : Machines}

/-- The candidates are the machines, and every placement names a service and a machine. -/
structure Known (services : Services) (machines : Machines)
    (s : SchedState) : Prop where
  names : s.candidates.map (·.name) = machines.keys
  placed : ∀ p ∈ s.plan.placements, p.serviceName ∈ services ∧ p.machineName ∈ machines

variable {reqs : ResourceRequirements} {name : String} {s s' : SchedState}
  {scheduling : SchedulingConfig} {affinities : List AffinityConfig}
  {poolAlgorithm : Option SchedulerAlgorithm} {currentPlacements : CurrentPlacements}

theorem Candidate.allocate_name {c c' : Candidate} (h : c.allocate reqs name = some c') :
    c'.name = c.name := by
  simp only [allocate, Option.bind_eq_bind, Option.bind_eq_some_iff, Option.pure_def,
    Option.some.injEq] at h
  obtain ⟨_, _, _, _, _, _, _, _, rfl⟩ := h
  rfl

variable {idx : ℕ} {instanceId : String → String} {nodePools : NodePools}

theorem placeOn_eq_some (h : placeOn s idx reqs name instanceId = some s') :
    ∃ c c', s.candidates[idx]? = some c ∧ c.allocate reqs name = some c' ∧
      s' = s.record idx c' ⟨name, instanceId c.name, c.name⟩ := by
  simp only [placeOn, Option.bind_eq_bind, Option.bind_eq_some_iff, Option.pure_def,
    Option.some.injEq] at h
  obtain ⟨c, hc, c', hc', rfl⟩ := h
  exact ⟨c, c', hc, hc', rfl⟩

/-- STEP: a placement keeps the candidates' names and adds a known placement. -/
theorem Known.placeOn (h : Known services machines s) (hname : name ∈ services)
    (hs' : placeOn s idx reqs name instanceId = some s') : Known services machines s' := by
  obtain ⟨c, c', hc, hc', rfl⟩ := placeOn_eq_some hs'
  refine ⟨(map_set_of_eq hc (Candidate.allocate_name hc')).trans h.names, fun p hp => ?_⟩
  rcases List.mem_append.mp hp with hp | hp
  · exact h.placed p hp
  grind [List.mem_singleton, AList.mem_keys, names, List.mem_of_getElem?]

/-- STEP: an eviction changes a ledger and no placement. -/
theorem Known.evict {ev : Preemption} (h : Known services machines s)
    (hs' : evict services idx s ev = some s') :
    Known services machines s' := by
  simp only [Scheduler.evict, Option.bind_eq_bind, Option.bind_eq_some_iff, Option.pure_def,
    Option.some.injEq] at hs'
  obtain ⟨cfg, -, c, hc, rfl⟩ := hs'
  refine ⟨(map_set_of_eq hc ?_).trans h.names, h.placed⟩
  rfl

variable (F : Type) [F64 F] (re : RegexEngine)

theorem rankCandidates_ne_nil {serviceName : String}
        {currentMachine : Option String} {all : List Candidate}
    (h : filterCandidates F re scheduling serviceName reqs all ≠ []) :
    rankCandidates F re serviceName scheduling affinities poolAlgorithm currentMachine all
      (filterCandidates F re scheduling serviceName reqs all) ≠ [] := by
  obtain ⟨idx, hidx⟩ := List.exists_mem_of_ne_nil _ h
  grind [mem_filterCandidates, List.length_eq_zero_iff, rankCandidates,
    List.length_insertionSort, List.filterMap_eq_nil_iff]

/-- The state after an instance was refused. -/
def SchedState.block (s : SchedState) (b : BlockedPlacement) : SchedState :=
  { s with plan := { s.plan with blocked := s.plan.blocked ++ [b] } }

/-- CASES: a replica goes to a machine that passes the filters; if there is none it is blocked, or
    goes to a machine from which services were evicted. -/
theorem scheduleReplica_cases
        {replica : ℕ}
    (h : scheduleReplica F re services currentPlacements poolAlgorithm affinities name scheduling
      reqs s replica = some s') :
    (∃ idx ∈ filterCandidates F re scheduling name reqs s.candidates,
      placeOn s idx reqs name (fun _ => s!"{name}-{replica}") = some s') ∨
    filterCandidates F re scheduling name reqs s.candidates = [] ∧
      (s' = s.block ⟨name, s!"{name}-{replica}", "no feasible machines"⟩ ∨
      ∃ idx evicted s₁, findPreemptionCandidate F re s.candidates scheduling.constraints
          scheduling.tolerations name scheduling.priority reqs services =
            some (some (idx, evicted)) ∧
        evicted.foldlM (Scheduler.evict services idx) s = some s₁ ∧
        placeOn s₁ idx reqs name (fun _ => s!"{name}-{replica}") = some s') := by
  unfold scheduleReplica at h
  dsimp only at h
  split at h
  · next hempty =>
    refine .inr ⟨List.isEmpty_iff.mp hempty, ?_⟩
    obtain ⟨found, hfound, h⟩ := Option.bind_eq_some_iff.mp h
    rcases found with _ | ⟨idx, evicted⟩
    · exact .inl (Option.some.inj h).symm
    grind [Option.bind_eq_some_iff]
  · next hfiltered =>
    rw [List.isEmpty_iff] at hfiltered
    split at h
    · next hrank => exact absurd hrank (rankCandidates_ne_nil F re hfiltered)
    · next hrank =>
      exact .inl ⟨_, mem_rankCandidates F re (hrank ▸ List.mem_cons_self), h⟩

theorem Known.scheduleReplica
        {replica : ℕ}
    (h : Known services machines s) (hname : name ∈ services)
    (hs' : scheduleReplica F re services currentPlacements poolAlgorithm affinities name scheduling
      reqs s replica = some s') : Known services machines s' := by
  rcases scheduleReplica_cases F re hs' with
    ⟨idx, -, hplace⟩ | ⟨-, rfl | ⟨idx, evicted, s₁, -, hevict, hplace⟩⟩
  · exact h.placeOn hname hplace
  · exact ⟨h.names, h.placed⟩
  · have hevicted := Loop.foldlM_invariant (Known services machines)
      (fun _ _ _ _ hk hev => hk.evict hev) h hevict
    exact hevicted.placeOn hname hplace

theorem Known.scheduleService {service : Σ _ : String, ServiceConfig}
    (h : Known services machines s) (hname : service.1 ∈ services)
    (hs' : scheduleService F re services nodePools currentPlacements s service = some s') :
    Known services machines s' := by
  unfold Scheduler.scheduleService at hs'
  cases hj : service.2.scheduling.jobType <;> simp only [hj] at hs'
  case system | sysbatch =>
    exact Loop.foldlM_invariant (Known services machines)
      (fun _ _ _ _ hk hplace => hk.placeOn hname hplace) h hs'
  all_goals
    exact Loop.foldlM_invariant (Known services machines)
      (fun _ _ _ _ hk hreplica => hk.scheduleReplica F re hname hreplica) h hs'

/-- RUN: a returned plan places configured services on offered machines, whatever the
    priorities. -/
theorem schedule_known {plan : PlacementPlan}
    (h : schedule F re services machines nodePools currentPlacements = some plan) :
    ∀ p ∈ plan.placements, p.serviceName ∈ services ∧ p.machineName ∈ machines := by
  obtain ⟨s, hs, hplan⟩ := Option.bind_eq_some_iff.mp h
  cases hplan
  have hinit : Known services machines (initState machines nodePools) :=
    ⟨initState_names nodePools, fun p hp => by simp [initState] at hp⟩
  refine (Loop.foldlM_invariant (Known services machines) (fun svc hsvc _ _ hk hstep => ?_)
    hinit hs).placed
  exact hk.scheduleService F re
    (AList.mem_keys.mpr (List.mem_map.mpr ⟨svc, (List.mem_insertionSort _).mp hsvc, rfl⟩)) hstep

end Known

/-! ### A service without requirements goes everywhere -/

/-- A system job that asks for nothing and tolerates every taint. -/
def unrestricted (replicas : UInt32) : ServiceConfig where
  command := some "true"
  scheduling := { replicas := replicas, jobType := .system, tolerations := [{ op := .exists }] }

/-- Such a job, however it is updated. -/
structure Undemanding (cfg : ServiceConfig) : Prop where
  scheduling : ∃ replicas update,
    cfg.scheduling = { (unrestricted replicas).scheduling with update := update }
  resources : cfg.resources = {}

theorem undemanding_unrestricted (replicas : UInt32) : Undemanding (unrestricted replicas) :=
  ⟨⟨replicas, _, rfl⟩, rfl⟩

section Undemanding
variable (F : Type) [F64 F] (re : RegexEngine) {cfg : ServiceConfig} (hcfg : Undemanding cfg)
include hcfg

theorem passesFilters_undemanding (name : String) (all : List Candidate) (c : Candidate) :
    passesFilters F re cfg.scheduling name (.fromConfig cfg.resources) all c = true := by
  obtain ⟨⟨replicas, update, hscheduling⟩, hresources⟩ := hcfg
  simp [hscheduling, hresources, passesFilters, unrestricted, passesConstraints, passesTaints,
    passesRequiredSpreads, tolerates, ResourceRequirements.fromConfig, Candidate.hasResourcesFor]

theorem filterCandidates_undemanding (name : String) (all : List Candidate) :
    filterCandidates F re cfg.scheduling name (.fromConfig cfg.resources) all =
      List.range all.length := by
  rw [filterCandidates, List.filter_eq_self.mpr fun ci _ =>
    passesFilters_undemanding F re hcfg name all ci.1, List.zipIdx_map_snd, List.range_eq_range']

omit hcfg in
/-- RUN: placing at a list of indices leaves a placement on each of their machines. -/
theorem foldlM_placeOn_machines {reqs : ResourceRequirements} {name : String}
    {instanceId : String → String} : ∀ {idxs : List ℕ} {s s' : SchedState},
    idxs.foldlM (fun s idx => placeOn s idx reqs name instanceId) s = some s' →
      (∀ p ∈ s.plan.placements, p ∈ s'.plan.placements) ∧
      ∀ i ∈ idxs, ∀ m, (s.candidates.map (·.name))[i]? = some m →
        ∃ p ∈ s'.plan.placements, p.serviceName = name ∧ p.machineName = m
  | [], s, s', h => by
    cases h
    exact ⟨fun _ hp => hp, fun i hi => by cases hi⟩
  | idx :: rest, s, s', h => by
    rw [List.foldlM_cons] at h
    obtain ⟨s₁, hs₁, hrest⟩ := Option.bind_eq_some_iff.mp h
    obtain ⟨c, c', hc, hc', rfl⟩ := placeOn_eq_some hs₁
    obtain ⟨hkeep, hplaced⟩ := foldlM_placeOn_machines hrest
    refine ⟨fun p hp => hkeep p (List.mem_append_left _ hp), fun i hi m hm => ?_⟩
    rcases List.mem_cons.mp hi with rfl | hi
    · obtain rfl : c.name = m := by simpa [hc] using hm
      exact ⟨_, hkeep _ (List.mem_append_right _ (List.mem_singleton_self _)), rfl, rfl⟩
    · refine hplaced i hi m ?_
      rwa [SchedState.record, map_set_of_eq hc (Candidate.allocate_name hc')]

theorem schedule_undemanding (name : String) (machines : Machines) (nodePools : NodePools)
    (currentPlacements : CurrentPlacements) :
    ∃ plan, schedule F re (AList.singleton name cfg) machines nodePools currentPlacements =
        some plan ∧
      ∀ m ∈ machines, ∃ p ∈ plan.placements, p.serviceName = name ∧ p.machineName = m := by
  obtain ⟨replicas, update, hscheduling⟩ := hcfg.scheduling
  have hb : PrioritiesBounded (AList.singleton name cfg) := by
    intro e he
    obtain rfl := List.mem_singleton.mp he
    rw [hscheduling]
    exact (by decide : (50 : UInt32).toNat ≤ 2 ^ 32 - 1 - 10)
  obtain ⟨s, hs, -⟩ : ∃ s : SchedState, schedule F re _ machines _ _ = some s.plan ∧ _ :=
    schedule_packs F re nodePools currentPlacements hb
  refine ⟨s.plan, hs, fun m hm => ?_⟩
  obtain ⟨s', hs', hplan⟩ := Option.bind_eq_some_iff.mp hs
  rw [← Option.some.inj hplan]
  -- the only service is a system job, and it passes the filters of every candidate
  obtain ⟨s'', hs'', hend⟩ := Option.bind_eq_some_iff.mp hs'
  cases hend
  have hjob : cfg.scheduling.jobType = .system := by rw [hscheduling]; rfl
  simp only [scheduleService, hjob] at hs''
  have hall := (foldlM_placeOn_machines hs'').2
  grind [filterCandidates_undemanding, initState_names, List.mem_iff_getElem?, AList.mem_keys,
    List.getElem?_eq_some_iff]

end Undemanding

end Ekafleet.Scheduler
