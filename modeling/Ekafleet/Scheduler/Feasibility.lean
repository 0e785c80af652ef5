import Ekafleet.Scheduler.Conjunction
import Ekafleet.Scheduler.Moves

/-! Feasible placements, justified blocks | source: server/scheduler/mod.rs,
    server/scheduler/constraints.rs

    A candidate has a part that scheduling never changes and a ledger. The first decides all
    constraints over static attributes and the taints, so what passed when an instance was placed
    still passes in the final plan. The ledger only grows (`Ledger`), and a machine that was not
    eligible for an instance does not become so by what is placed later. -/

namespace Ekafleet.Scheduler

/-! ### The static part of a candidate -/

/-- The candidate as it was before anything was placed on it. -/
def Candidate.blank (c : Candidate) : Candidate :=
  { c with
    allocatedCpu := 0, allocatedMemory := 0, allocatedDisk := 0
    allocatedExtended := ∅, assignedServices := [] }

/-- Attributes other than what is still available. -/
def IsStatic (attr : String) : Prop := ∀ rest, Text.splitFirst '.' attr ≠ ("available", some rest)

/-- What an attribute of a machine should be: its own labels come before those of its pool, and
    what is schedulable is its capacity without the reserved part. -/
def staticAttribute (nodePools : NodePools) (name : String) (m : MachineConfig)
    (attr : String) : Option String :=
  match Text.splitFirst '.' attr with
  | ("pool", _) => some m.pool
  | ("name", _) => some name
  | ("labels", some key) =>
    (m.labels.lookup key).or ((nodePools.lookup m.pool).bind fun pool => pool.labels.lookup key)
  | ("capacity", some "cpu") => some (toString m.capacity.cpu.toNat)
  | ("capacity", some "memory") => some (toString m.capacity.memory.toNat)
  | ("capacity", some "disk") => some (toString m.capacity.disk.toNat)
  | ("schedulable", some "cpu") => some (toString (machineCapacity m .cpu))
  | ("schedulable", some "memory") => some (toString (machineCapacity m .memory))
  | ("schedulable", some "disk") => some (toString (machineCapacity m .disk))
  | _ => none

theorem getAttribute_blank {attr : String} (h : IsStatic attr) (c : Candidate) :
    getAttribute c.blank attr = getAttribute c attr := by
  unfold getAttribute
  split
  case h_10 hattr | h_11 hattr | h_12 hattr => exact absurd hattr (h _)
  all_goals rfl

theorem lookup_mergeLabels (poolLabels machineLabels : HashMap String String) (key : String) :
    (mergeLabels poolLabels machineLabels).lookup key =
      (machineLabels.lookup key).or (poolLabels.lookup key) := by
  grind [mergeLabels, HashMap.mem_iff_exists_lookup, AList.lookup_union_left,
    AList.lookup_union_right, AList.lookup_eq_none]

theorem getAttribute_mkCandidate (nodePools : NodePools) (name : String) (m : MachineConfig)
    {attr : String} (h : IsStatic attr) :
    getAttribute (mkCandidate nodePools name m) attr = staticAttribute nodePools name m attr := by
  unfold IsStatic at h
  unfold getAttribute staticAttribute
  generalize Text.splitFirst '.' attr = path at h
  split
  case h_10 | h_11 | h_12 => exact absurd rfl (h _)
  case h_2 key =>
    simp only [mkCandidate, lookup_mergeLabels]
    rcases nodePools.lookup m.pool with _ | pool <;> simp
  case h_7 | h_8 | h_9 =>
    rw [mkCandidate, machineCapacity, Word.toNat_saturatingSub]
    rfl
  case h_13 hpool hlabels hcpu hmemory hdisk hname hcpu' hmemory' hdisk' _ _ _ =>
    -- what has no value here has none there
    simp
  all_goals rfl

section Constraints
variable (F : Type) [F64 F] (re : RegexEngine)

variable {c d : Candidate} {serviceName : String}

theorem constraintPasses_congr (hblank : c.blank = d.blank) {k : Constraint} (hk : IsStatic k.attr)
    (hassigned : k.op = "distinct_hosts" → c.assignedServices = d.assignedServices)
    (serviceName : String) :
    constraintPasses F re c serviceName k = constraintPasses F re d serviceName k := by
  have hattr : getAttribute c k.attr = getAttribute d k.attr := by
    rw [← getAttribute_blank hk, hblank, getAttribute_blank hk]
  unfold constraintPasses
  dsimp only
  rw [hattr]
  split
  case h_5 hop => rw [hassigned hop]
  all_goals rfl

theorem constraintPasses_of_subset (hblank : c.blank = d.blank) {k : Constraint}
    (hk : IsStatic k.attr) (hassigned : c.assignedServices ⊆ d.assignedServices)
    (h : constraintPasses F re d serviceName k ≠ some false) :
    constraintPasses F re c serviceName k = constraintPasses F re d serviceName k := by
  by_cases hop : k.op = "distinct_hosts"
  · simp only [constraintPasses, hop] at h ⊢
    grind
  · exact constraintPasses_congr F re hblank hk (fun h => absurd h hop) serviceName

/-- RUN: constraints that accept the fuller machine accept the emptier one. -/
theorem passesConstraints_of_subset (hblank : c.blank = d.blank)
    (hassigned : c.assignedServices ⊆ d.assignedServices) {ks : List Constraint}
    (hks : ∀ k ∈ ks, IsStatic k.attr) (h : passesConstraints F re d serviceName ks = true) :
    passesConstraints F re c serviceName ks = true := by
  induction ks with
  | nil => rfl
  | cons k ks ih =>
    obtain ⟨hk, hrest⟩ := List.forall_mem_cons.mp hks
    rw [passesConstraints] at h ⊢
    rcases hv : constraintPasses F re d serviceName k with _ | _ | _ <;> rw [hv] at h
    · rw [constraintPasses_of_subset F re hblank hk hassigned (by rw [hv]; simp), hv]
    · cases h
    · rw [constraintPasses_of_subset F re hblank hk hassigned (by rw [hv]; simp), hv]
      exact ih hrest h

end Constraints

/-- Every hard taint of the machine is tolerated. -/
def TaintsTolerated (m : MachineConfig) (tolerations : List Toleration) : Prop :=
  ∀ taint ∈ m.taints, taint.effect ≠ .preferNoSchedule →
    ∃ t ∈ tolerations, tolerates taint t = true

theorem passesTaints_iff (c : Candidate) (tolerations : List Toleration) :
    passesTaints c tolerations = true ↔ TaintsTolerated c.config tolerations := by
  simp only [passesTaints, TaintsTolerated, List.all_eq_true, Bool.or_eq_true, beq_iff_eq,
    List.any_eq_true, or_iff_not_imp_left]

/-! ### The ledger -/

theorem allocateExtended_le : ∀ {l : List (Σ _ : String, UInt64)} {m m' : HashMap String UInt64},
    Candidate.allocateExtended m l = some m' → ∀ key,
      ((m.lookup key).getD 0).toNat ≤ ((m'.lookup key).getD 0).toNat
  | [], _, _, h, key => Option.some.inj h ▸ le_refl _
  | ⟨k, v⟩ :: rest, m, m', h, key => by
    obtain ⟨total, htotal, hrest⟩ := Option.bind_eq_some_iff.mp h
    refine le_trans ?_ (allocateExtended_le hrest key)
    have hval := Word.toNat_of_checkedAdd htotal
    by_cases hkey : key = k
    · subst hkey
      rw [AList.lookup_insert, Option.getD_some]
      omega
    · rw [AList.lookup_insert_ne hkey]

theorem allocate_ledger {c c' : Candidate} {reqs : ResourceRequirements} {name : String}
    (h : c.allocate reqs name = some c') :
    c'.blank = c.blank ∧ c'.assignedServices = c.assignedServices ++ [name] ∧
      ∀ r, c.allocated r ≤ c'.allocated r := by
  simp only [Candidate.allocate, Option.bind_eq_bind, Option.bind_eq_some_iff, Option.pure_def,
    Option.some.injEq] at h
  obtain ⟨cpu, hcpu, memory, hmemory, disk, hdisk, ext, hext, rfl⟩ := h
  refine ⟨rfl, rfl, ?_⟩
  rintro (_ | _ | _ | key)
  · exact Nat.le.intro (Word.toNat_of_checkedAdd hcpu).symm
  · exact Nat.le.intro (Word.toNat_of_checkedAdd hmemory).symm
  · exact Nat.le.intro (Word.toNat_of_checkedAdd hdisk).symm
  · exact allocateExtended_le hext key

/-- The services of the placements on a machine, in order. -/
def servicesOn (plan : PlacementPlan) (machine : String) : List String :=
  (plan.placements.filter (·.machineName == machine)).map (·.serviceName)

/-- The candidates are the machines, and the services on each are those of its placements. -/
structure Ledger (machines : Machines)
    (nodePools : NodePools) (s : SchedState) : Prop where
  static : s.candidates.map Candidate.blank = (initState machines nodePools).candidates
  assigned : ∀ c ∈ s.candidates, c.assignedServices = servicesOn s.plan c.name

section Run
variable {F : Type} [F64 F] {re : RegexEngine} {services : Services}
  {machines : Machines} {nodePools : NodePools}
  {s s' : SchedState}

namespace Ledger

theorem init : Ledger machines nodePools (initState machines nodePools) where
  static := by
    rw [initState, List.map_map]
    rfl
  assigned c hc := by
    obtain ⟨m, -, rfl⟩ := List.mem_map.mp hc
    rfl

theorem nodup (h : Ledger machines nodePools s) : (s.candidates.map (·.name)).Nodup := by
  have hnames : s.candidates.map (·.name) = (s.candidates.map Candidate.blank).map (·.name) := by
    rw [List.map_map]
    rfl
  rw [hnames, h.static, initState_names]
  exact machines.nodupKeys

theorem machine (h : Ledger machines nodePools s) {c : Candidate} (hc : c ∈ s.candidates) :
    ∃ m, machines.lookup c.name = some m ∧ c.blank = mkCandidate nodePools c.name m := by
  have hmem : c.blank ∈ (initState machines nodePools).candidates :=
    h.static ▸ List.mem_map_of_mem hc
  obtain ⟨⟨name, m⟩, hm, hblank⟩ := List.mem_map.mp hmem
  obtain rfl : name = c.name := congrArg Candidate.name hblank
  exact ⟨m, HashMap.lookup_of_mem hm, hblank.symm⟩

theorem candidate (h : Ledger machines nodePools s) {name : String} {m : MachineConfig}
    (hm : machines.lookup name = some m) :
    ∃ c ∈ s.candidates, c.name = name ∧ c.blank = mkCandidate nodePools name m := by
  have hmem : mkCandidate nodePools name m ∈ s.candidates.map Candidate.blank := by
    rw [h.static]
    exact List.mem_map.mpr ⟨⟨name, m⟩, HashMap.mem_of_lookup hm, rfl⟩
  obtain ⟨c, hc, hblank⟩ := List.mem_map.mp hmem
  exact ⟨c, hc, congrArg Candidate.name hblank, hblank⟩

/-- STEP: a move keeps the ledger. -/
theorem step {service : Σ _ : String, ServiceConfig} (h : Ledger machines nodePools s)
    (hmove : Move F re service s s') : Ledger machines nodePools s' := by
  cases hmove with
  | @place _ c c' id hc heligible hc' =>
    obtain ⟨hblank, hassigned, -⟩ := allocate_ledger hc'
    refine ⟨(map_set_of_eq hc hblank).trans h.static, fun d hd => ?_⟩
    rcases mem_set_cases h.nodup hc d hd with rfl | ⟨hd, hne⟩
    · rw [hassigned, h.assigned c (List.mem_of_getElem? hc), Candidate.allocate_name hc']
      simp [servicesOn, SchedState.record]
    · rw [h.assigned d hd]
      simp [servicesOn, SchedState.record, hne]
  | block => exact ⟨h.static, h.assigned⟩

end Ledger

/-- RUN: what every move keeps on top of the ledger holds in every state reached. -/
theorem invariant_of_moves {I : SchedState → Prop} (hinit : I (initState machines nodePools))
    (hstep : ∀ name svc s s', services.lookup name = some svc → Ledger machines nodePools s →
      I s → Move F re ⟨name, svc⟩ s s' → I s')
    (hrun : Relation.ReflTransGen (AnyMove F re services) (initState machines nodePools) s) :
    Ledger machines nodePools s ∧ I s := by
  induction hrun with
  | refl => exact ⟨Ledger.init, hinit⟩
  | tail _ hmove ih =>
    obtain ⟨name, svc, hsvc, hmove⟩ := hmove
    exact ⟨ih.1.step hmove, hstep name svc _ _ hsvc ih.1 ih.2 hmove⟩

/-! ### Placements are feasible -/

variable (F re nodePools) in
/-- A machine meets what a service asks of it, whatever else is placed there. -/
structure Suits (serviceName : String) (svc : ServiceConfig) (machineName : String)
    (m : MachineConfig) : Prop where
  constraints : ∀ k ∈ svc.scheduling.constraints, IsStatic k.attr → k.op ≠ "distinct_hosts" →
    getAttribute (mkCandidate nodePools machineName m) k.attr =
        staticAttribute nodePools machineName m k.attr ∧
      constraintPasses F re (mkCandidate nodePools machineName m) serviceName k = some true
  taints : TaintsTolerated m svc.scheduling.tolerations

/-- The placements of a service on one machine. -/
def instancesOn (plan : PlacementPlan) (serviceName machine : String) : List Placement :=
  plan.placements.filter fun p => p.serviceName == serviceName && p.machineName == machine

theorem instancesOn_eq_nil {plan : PlacementPlan} {serviceName machine : String}
    (h : serviceName ∉ servicesOn plan machine) : instancesOn plan serviceName machine = [] := by
  rw [instancesOn, List.filter_eq_nil_iff]
  intro p hp hmatch
  rw [Bool.and_eq_true, beq_iff_eq, beq_iff_eq] at hmatch
  refine h (List.mem_map.mpr ⟨p, List.mem_filter.mpr ⟨hp, ?_⟩, hmatch.1⟩)
  rw [hmatch.2, beq_self_eq_true]

variable (F re services machines nodePools) in
/-- INVARIANT: placements suit their machines, and hosts are distinct where asked. -/
structure Feasible (s : SchedState) : Prop where
  suits : ∀ p ∈ s.plan.placements, ∃ svc m, services.lookup p.serviceName = some svc ∧
    machines.lookup p.machineName = some m ∧ Suits F re nodePools p.serviceName svc p.machineName m
  distinct : ∀ name svc, services.lookup name = some svc →
    (∃ k ∈ svc.scheduling.constraints, k.op = "distinct_hosts") →
    ∀ machine, (instancesOn s.plan name machine).length ≤ 1

variable {c : Candidate} {name : String} {svc : ServiceConfig}

variable {service : Σ _ : String, ServiceConfig}

theorem eligible_spec (h : eligible F re service c = true) :
    passesConstraints F re c service.1 service.2.scheduling.constraints = true ∧
      passesTaints c service.2.scheduling.tolerations = true ∧
      c.hasResourcesFor (.fromConfig service.2.resources) = true := by
  simp only [eligible, Bool.and_eq_true] at h
  exact ⟨h.1.1, h.1.2, h.2⟩

theorem suits_of_eligible {m : MachineConfig}
    (hknown : ∀ k ∈ svc.scheduling.constraints, k.op ∈ knownOperators)
    (hblank : c.blank = mkCandidate nodePools c.name m)
    (heligible : eligible F re ⟨name, svc⟩ c = true) : Suits F re nodePools name svc c.name m := by
  obtain ⟨hconstraints, htaints, -⟩ := eligible_spec heligible
  refine ⟨fun k hk hstatic hop => ⟨getAttribute_mkCandidate nodePools c.name m hstatic, ?_⟩, ?_⟩
  · rw [← (passesConstraints_iff_of_known hknown).mp hconstraints k hk]
    exact constraintPasses_congr (c := mkCandidate nodePools c.name m) F re hblank.symm hstatic
      (fun h => absurd h hop) name
  · have hconfig : c.config = m := congrArg Candidate.config hblank
    exact hconfig ▸ (passesTaints_iff c _).mp htaints

theorem not_assigned_of_eligible (hknown : ∀ k ∈ svc.scheduling.constraints, k.op ∈ knownOperators)
    (heligible : eligible F re ⟨name, svc⟩ c = true) {k : Constraint}
    (hk : k ∈ svc.scheduling.constraints) (hop : k.op = "distinct_hosts") :
    name ∉ c.assignedServices := by
  have hpasses := (passesConstraints_iff_of_known hknown).mp (eligible_spec heligible).1 k hk
  simpa [constraintPasses, hop] using hpasses

/-- STEP: a move adds a placement on a machine that suits, and a second instance only to services
    that allow it. -/
theorem Feasible.step (hknown : ∀ k ∈ svc.scheduling.constraints, k.op ∈ knownOperators)
    (hsvc : services.lookup name = some svc) (hledger : Ledger machines nodePools s)
    (h : Feasible F re services machines nodePools s) (hmove : Move F re ⟨name, svc⟩ s s') :
    Feasible F re services machines nodePools s' := by
  cases hmove with
  | @place _ c c' id hc heligible hc' =>
    have hmem := List.mem_of_getElem? hc
    refine ⟨fun p hp => ?_, fun other cfg hcfg hdistinct machine => ?_⟩
    · rcases List.mem_append.mp hp with hp | hp
      · exact h.suits p hp
      · obtain rfl := List.mem_singleton.mp hp
        obtain ⟨m, hm, hblank⟩ := hledger.machine hmem
        exact ⟨svc, m, hsvc, hm, suits_of_eligible hknown hblank heligible⟩
    · have hold := h.distinct other cfg hcfg hdistinct machine
      rw [instancesOn] at hold ⊢
      rw [SchedState.record, List.filter_append, List.length_append]
      by_cases hhere : other = name ∧ machine = c.name
      · -- the first instance of the service on this machine
        obtain ⟨rfl, rfl⟩ := hhere
        obtain rfl := Option.some.inj (hsvc.symm.trans hcfg)
        obtain ⟨k, hk, hop⟩ := hdistinct
        have hnone := not_assigned_of_eligible hknown heligible hk hop
        rw [hledger.assigned c hmem] at hnone
        have hempty := instancesOn_eq_nil hnone
        rw [instancesOn] at hempty
        rw [hempty]
        simp
      grind
  | block => exact ⟨h.suits, h.distinct⟩

/-! ### Blocks are justified -/

theorem eligible_of_allocate {c' : Candidate} {reqs : ResourceRequirements}
    (hstatic : ∀ k ∈ service.2.scheduling.constraints, IsStatic k.attr)
    (hc' : c.allocate reqs name = some c') (h : eligible F re service c' = true) :
    eligible F re service c = true := by
  obtain ⟨hblank, hassigned, hallocated⟩ := allocate_ledger hc'
  obtain ⟨hconstraints, htaints, hroom⟩ := eligible_spec h
  have hsubset : c.assignedServices ⊆ c'.assignedServices := by
    rw [hassigned]
    exact List.subset_append_left _ _
  have hconfig : c'.config = c.config := by
    have hsame : c'.blank.config = c.blank.config := congrArg Candidate.config hblank
    exact hsame
  have hcapacity : ∀ r, c'.capacity r = c.capacity r := by
    have hsame : c'.blank.capacity = c.blank.capacity := congrArg Candidate.capacity hblank
    intro r
    exact congrFun hsame r
  simp only [eligible, Bool.and_eq_true]
  refine ⟨⟨passesConstraints_of_subset F re hblank.symm hsubset hstatic hconstraints, ?_⟩, ?_⟩
  · rw [passesTaints_iff] at htaints ⊢
    exact hconfig ▸ htaints
  grind [Candidate.hasResourcesFor_iff]

/-- Neither required spreads nor constraints on what is available. -/
structure Unconditional (svc : ServiceConfig) : Prop where
  spread : ∀ sp ∈ svc.scheduling.spread, sp.required = false
  static : ∀ k ∈ svc.scheduling.constraints, IsStatic k.attr

theorem Unconditional.passesRequiredSpreads {svc : ServiceConfig} (h : Unconditional svc)
    (c : Candidate) (name : String) (all : List Candidate) :
    passesRequiredSpreads c svc.scheduling.spread name all = true := by
  rw [Scheduler.passesRequiredSpreads, List.all_eq_true]
  intro sp hsp
  simp [spreadPasses, h.spread sp hsp]

variable (F re services) in
/-- For every blocked entry there is no eligible machine. -/
def Justified (s : SchedState) : Prop :=
  ∀ b ∈ s.plan.blocked, ∃ svc, services.lookup b.serviceName = some svc ∧
    (Unconditional svc → ∀ c ∈ s.candidates, eligible F re ⟨b.serviceName, svc⟩ c = false)

/-- STEP: a block is made when no machine is eligible, and no move makes one eligible. -/
theorem Justified.step (hsvc : services.lookup name = some svc)
    (hledger : Ledger machines nodePools s) (h : Justified F re services s)
    (hmove : Move F re ⟨name, svc⟩ s s') :
    Justified F re services s' := by
  cases hmove with
  | @place _ c c' id hc heligible hc' =>
    intro b hb
    obtain ⟨cfg, hcfg, hnone⟩ := h b hb
    refine ⟨cfg, hcfg, fun huncond d hd => ?_⟩
    rcases mem_set_cases hledger.nodup hc d hd with rfl | ⟨hd, -⟩
    · rw [← Bool.not_eq_true]
      intro hnow
      have hbefore := eligible_of_allocate huncond.static hc' hnow
      rw [hnone huncond c (List.mem_of_getElem? hc)] at hbefore
      cases hbefore
    · exact hnone huncond d hd
  | block id reason hnone =>
    intro b hb
    rcases List.mem_append.mp hb with hb | hb
    · exact h b hb
    · obtain rfl := List.mem_singleton.mp hb
      refine ⟨svc, hsvc, fun huncond c hc => ?_⟩
      have hfails := hnone c hc
      simp only [passesFilters, huncond.passesRequiredSpreads, Bool.and_true] at hfails
      exact hfails

end Run

/-- CORRECT: with bounded priorities and known operators, every placement of the plan is on a
    machine that satisfies the static constraints of its service and whose hard taints it tolerates,
    and no machine holds two instances of a service that asks for distinct hosts. -/
theorem placements_feasible (F : Type) [F64 F] (re : RegexEngine) (services : Services)
    (machines : Machines) (nodePools : NodePools) (currentPlacements : CurrentPlacements)
    (hb : PrioritiesBounded services)
    (hknown : ∀ name svc, services.lookup name = some svc →
      ∀ k ∈ svc.scheduling.constraints, k.op ∈ knownOperators) :
    ∃ plan, schedule F re services machines nodePools currentPlacements = some plan ∧
      (∀ p ∈ plan.placements, ∃ svc m, services.lookup p.serviceName = some svc ∧
        machines.lookup p.machineName = some m ∧
        Suits F re nodePools p.serviceName svc p.machineName m) ∧
      ∀ name svc, services.lookup name = some svc →
        (∃ k ∈ svc.scheduling.constraints, k.op = "distinct_hosts") →
        ∀ machine, (instancesOn plan name machine).length ≤ 1 := by
  obtain ⟨s, hs, hrun, -⟩ := schedule_moves F re services machines nodePools currentPlacements hb
  have hinit : Feasible F re services machines nodePools (initState machines nodePools) :=
    ⟨fun _ hp => absurd hp List.not_mem_nil, fun _ _ _ _ _ => Nat.zero_le 1⟩
  obtain ⟨-, hfeasible⟩ := invariant_of_moves hinit
    (fun name svc s s' hsvc hledger h hmove => h.step (hknown name svc hsvc) hsvc hledger hmove)
      hrun
  exact ⟨s.plan, schedule_of_finalState F re hs, hfeasible.suits, hfeasible.distinct⟩

/-- Two replicas on distinct hosts of the pool `cpu`. -/
def distinctWeb : ServiceConfig where
  scheduling := {
    replicas := 2, constraints := [⟨"pool", "=", "cpu"⟩, ⟨"", "distinct_hosts", ""⟩] }

theorem distinctWeb_feasible :
    ∃ plan, schedule Ratio noRegex [⟨"web", distinctWeb⟩].toAList
        [⟨"m1", { pool := "cpu" : MachineConfig }⟩, ⟨"m2", { pool := "gpu" }⟩].toAList ∅ ∅ =
        some plan ∧
      plan.placements = [⟨"web", "web-0", "m1"⟩] ∧
      ∀ machine, (instancesOn plan "web" machine).length ≤ 1 := by
  obtain ⟨plan, hplan, -, hdistinct⟩ := placements_feasible Ratio noRegex
    [⟨"web", distinctWeb⟩].toAList
    [⟨"m1", { pool := "cpu" : MachineConfig }⟩, ⟨"m2", { pool := "gpu" }⟩].toAList ∅ ∅
    (by unfold PrioritiesBounded; decide) (fun name svc hsvc => by
      obtain rfl : distinctWeb = svc := by
        rcases List.mem_singleton.mp (HashMap.mem_of_lookup hsvc) with ⟨rfl⟩
        rfl
      decide)
  refine ⟨plan, hplan, ?_, hdistinct "web" distinctWeb rfl
    ⟨⟨"", "distinct_hosts", ""⟩, by decide, rfl⟩⟩
  have hcomputed : (schedule Ratio noRegex [⟨"web", distinctWeb⟩].toAList
      [⟨"m1", { pool := "cpu" : MachineConfig }⟩, ⟨"m2", { pool := "gpu" }⟩].toAList ∅ ∅).map
      (·.placements) = some [⟨"web", "web-0", "m1"⟩] := by decide +kernel
  rw [hplan] at hcomputed
  exact Option.some.inj hcomputed

/-- CORRECT: with bounded priorities, if an instance of a service without required spreads and
    without constraints on what is available is blocked, then in the final plan no machine passes
    the constraints of the service, tolerates the taints and has room for one more instance. -/
theorem blocked_justified (F : Type) [F64 F] (re : RegexEngine) (services : Services)
    (machines : Machines) (nodePools : NodePools) (currentPlacements : CurrentPlacements)
    (hb : PrioritiesBounded services) :
    ∃ plan, schedule F re services machines nodePools currentPlacements = some plan ∧
      ∀ b ∈ plan.blocked, ∃ svc, services.lookup b.serviceName = some svc ∧
        (Unconditional svc → ∀ name m, machines.lookup name = some m →
          ¬ (passesConstraints F re
              { mkCandidate nodePools name m with assignedServices := servicesOn plan name }
              b.serviceName svc.scheduling.constraints = true ∧
            TaintsTolerated m svc.scheduling.tolerations ∧
            ∀ r, ((plan.placements.filter (·.machineName = name)).map (request services · r)).sum +
              (ResourceRequirements.fromConfig svc.resources).demand r ≤ machineCapacity m r)) := by
  obtain ⟨s, hs, hrun, P, hP⟩ :=
    schedule_moves F re services machines nodePools currentPlacements hb
  have hinit : Justified F re services (initState machines nodePools) := fun _ hb =>
    absurd hb List.not_mem_nil
  obtain ⟨hledger, hjustified⟩ := invariant_of_moves hinit
    (fun name svc s s' hsvc hledger h hmove => h.step hsvc hledger hmove) hrun
  refine ⟨s.plan, schedule_of_finalState F re hs, fun b hb => ?_⟩
  obtain ⟨svc, hsvc, hnone⟩ := hjustified b hb
  refine ⟨svc, hsvc, fun huncond name m hm => ?_⟩
  rintro ⟨hconstraints, htaints, hroom⟩
  obtain ⟨c, hc, rfl, hblank⟩ := hledger.candidate hm
  have hconfig : c.config = m := congrArg Candidate.config hblank
  -- the candidate of the machine would be eligible
  have heligible : eligible F re ⟨b.serviceName, svc⟩ c = true := by
    simp only [eligible, Bool.and_eq_true]
    refine ⟨⟨passesConstraints_of_subset F re hblank ?_ huncond.static hconstraints, ?_⟩, ?_⟩
    · rw [hledger.assigned c hc]
      exact List.Subset.refl _
    · exact (passesTaints_iff c _).mpr (hconfig ▸ htaints)
    · rw [Candidate.hasResourcesFor_iff]
      intro r
      have hr := hroom r
      have hcapacity := hP.capacity c hc r
      have hallocated := hP.allocated c hc r
      rw [hP.items] at hallocated
      rw [capacityOf, hm] at hcapacity
      rw [hcapacity, hallocated]
      exact Nat.le_sub_of_add_le' hr
  rw [hnone huncond c hc] at heligible
  cases heligible

/-- Two replicas of 300. -/
def heavyWeb : ServiceConfig where
  resources := { cpu := some { request := 300 } }
  scheduling := { replicas := 2 }

/-- On a machine of 500 the second replica is blocked, and it is the room that is missing. -/
theorem heavyWeb_blocked_justified :
    ∃ plan, schedule Ratio noRegex [⟨"web", heavyWeb⟩].toAList
        [⟨"m1", { capacity := { cpu := 500 } : MachineConfig }⟩].toAList ∅ ∅ = some plan ∧
      plan.blocked = [⟨"web", "web-1", "no feasible machines"⟩] ∧
      ¬ ∀ r, ((plan.placements.filter (·.machineName = "m1")).map
          (request [⟨"web", heavyWeb⟩].toAList · r)).sum +
        (ResourceRequirements.fromConfig heavyWeb.resources).demand r ≤
          machineCapacity { capacity := { cpu := 500 } } r := by
  obtain ⟨plan, hplan, hjustified⟩ := blocked_justified Ratio noRegex
    [⟨"web", heavyWeb⟩].toAList
    [⟨"m1", { capacity := { cpu := 500 } : MachineConfig }⟩].toAList ∅ ∅
    (by unfold PrioritiesBounded; decide)
  have hcomputed : (schedule Ratio noRegex [⟨"web", heavyWeb⟩].toAList
      [⟨"m1", { capacity := { cpu := 500 } : MachineConfig }⟩].toAList ∅ ∅).map
      (·.blocked) = some [⟨"web", "web-1", "no feasible machines"⟩] := by decide +kernel
  rw [hplan] at hcomputed
  have hblocked : plan.blocked = [⟨"web", "web-1", "no feasible machines"⟩] :=
    Option.some.inj hcomputed
  obtain ⟨svc, hsvc, hnone⟩ := hjustified ⟨"web", "web-1", "no feasible machines"⟩
    (by rw [hblocked]; exact List.mem_singleton_self _)
  obtain rfl : heavyWeb = svc := Option.some.inj hsvc
  refine ⟨plan, hplan, hblocked, fun hroom => ?_⟩
  have huncond : Unconditional heavyWeb :=
    ⟨fun _ h => absurd h List.not_mem_nil, fun _ h => absurd h List.not_mem_nil⟩
  exact hnone huncond "m1" _ rfl ⟨rfl, fun _ h => absurd h List.not_mem_nil, hroom⟩

end Ekafleet.Scheduler
