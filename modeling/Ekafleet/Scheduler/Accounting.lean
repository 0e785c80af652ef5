import Ekafleet.Scheduler.Placements

/-! Every replica is accounted for | source: server/scheduler/mod.rs

    Each service has one turn. What its turn adds to the plan (`Extends`) carries the service's own
    name, so the share of a service in the final plan is what its turn added. A replicated job adds
    each of its instance ids once, as a placement or as a blocked entry. A system job adds one
    placement for each machine that passes the filters when its turn comes. -/

namespace Ekafleet.Scheduler

/-- The entries of a plan whose service is kept. -/
def PlacementPlan.share (plan : PlacementPlan) (keep : String → Bool) :
    List Placement × List BlockedPlacement :=
  (plan.placements.filter fun p => keep p.serviceName,
    plan.blocked.filter fun b => keep b.serviceName)

/-- The instance ids of one service in a plan, placed or blocked. -/
def PlacementPlan.instances (plan : PlacementPlan) (name : String) : List String :=
  (plan.share (· == name)).1.map (·.instanceId) ++ (plan.share (· == name)).2.map (·.instanceId)

/-! ### What a turn adds -/

/-- The run from `s` to `s'` adds these entries of one service to the plan, and keeps the machines.
    -/
structure Extends (name : String) (s s' : SchedState) (ps : List Placement)
    (bs : List BlockedPlacement) : Prop where
  names : s'.candidates.map (·.name) = s.candidates.map (·.name)
  placements : s'.plan.placements = s.plan.placements ++ ps
  blocked : s'.plan.blocked = s.plan.blocked ++ bs
  placed : ∀ p ∈ ps, p.serviceName = name
  refused : ∀ b ∈ bs, b.serviceName = name

namespace Extends
variable {name : String} {s s₁ s' : SchedState} {ps ps' : List Placement}
  {bs bs' : List BlockedPlacement}

theorem refl (name : String) (s : SchedState) : Extends name s s [] [] :=
  ⟨rfl, by simp, by simp, by simp, by simp⟩

theorem trans (h : Extends name s s₁ ps bs) (h' : Extends name s₁ s' ps' bs') :
    Extends name s s' (ps ++ ps') (bs ++ bs') where
  names := h'.names.trans h.names
  placements := by rw [h'.placements, h.placements, List.append_assoc]
  blocked := by rw [h'.blocked, h.blocked, List.append_assoc]
  placed p hp := (List.mem_append.mp hp).elim (h.placed p) (h'.placed p)
  refused b hb := (List.mem_append.mp hb).elim (h.refused b) (h'.refused b)

/-- FRAME: the share of other services stays. -/
theorem share_of_ne {keep : String → Bool} (h : Extends name s s' ps bs) (hname : keep name = false)
    : s'.plan.share keep = s.plan.share keep := by
  have hps : (ps.filter fun p => keep p.serviceName) = [] := by
    rw [List.filter_eq_nil_iff]
    intro p hp
    simp [h.placed p hp, hname]
  have hbs : (bs.filter fun b => keep b.serviceName) = [] := by
    rw [List.filter_eq_nil_iff]
    intro b hb
    simp [h.refused b hb, hname]
  simp [PlacementPlan.share, h.placements, h.blocked, hps, hbs]

theorem share_of_eq (h : Extends name s s' ps bs) (keep : String → Bool)
    (hname : keep name = true) :
    s'.plan.share keep = ((s.plan.share keep).1 ++ ps, (s.plan.share keep).2 ++ bs) := by
  have hps : (ps.filter fun p => keep p.serviceName) = ps := by
    rw [List.filter_eq_self]
    intro p hp
    rw [h.placed p hp, hname]
  have hbs : (bs.filter fun b => keep b.serviceName) = bs := by
    rw [List.filter_eq_self]
    intro b hb
    rw [h.refused b hb, hname]
  simp [PlacementPlan.share, h.placements, h.blocked, hps, hbs]

theorem placeOn {idx : ℕ} {reqs : ResourceRequirements} {instanceId : String → String}
    (h : placeOn s idx reqs name instanceId = some s') :
    ∃ c, s.candidates[idx]? = some c ∧
      Extends name s s' [⟨name, instanceId c.name, c.name⟩] [] := by
  obtain ⟨c, c', hc, hc', rfl⟩ := placeOn_eq_some h
  refine ⟨c, hc, map_set_of_eq hc (Candidate.allocate_name hc'), rfl, by simp [SchedState.record],
    ?_, by simp⟩
  intro p hp
  rw [List.mem_singleton.mp hp]

theorem evict {services : Services} {idx : ℕ} {ev : Preemption} (name : String)
    (h : evict services idx s ev = some s') : Extends name s s' [] [] := by
  simp only [Scheduler.evict, Option.bind_eq_bind, Option.bind_eq_some_iff, Option.pure_def,
    Option.some.injEq] at h
  obtain ⟨cfg, -, c, hc, rfl⟩ := h
  refine ⟨map_set_of_eq hc ?_, by simp, by simp, by simp, by simp⟩
  rfl

end Extends

section Turn
variable (F : Type) [F64 F] (re : RegexEngine) {services : Services}
  {machines : Machines} {nodePools : NodePools}
  {currentPlacements : CurrentPlacements}

variable {name : String} {scheduling : SchedulingConfig} {reqs : ResourceRequirements}
  {s s' : SchedState}

variable {pool : Option SchedulerAlgorithm} {affinities : List AffinityConfig}

/-- STEP: a replica ends up in exactly one place, whichever branch it takes. -/
theorem scheduleReplica_extends {replica : ℕ}
    (h : scheduleReplica F re services currentPlacements pool affinities name scheduling reqs s
      replica = some s') :
    ∃ ps bs, Extends name s s' ps bs ∧
      ps.map (·.instanceId) ++ bs.map (·.instanceId) = [s!"{name}-{replica}"] := by
  rcases scheduleReplica_cases F re h with
    ⟨idx, -, hplace⟩ | ⟨-, rfl | ⟨idx, evicted, s₁, -, hevict, hplace⟩⟩
  · obtain ⟨c, -, hext⟩ := Extends.placeOn hplace
    exact ⟨_, _, hext, rfl⟩
  · refine ⟨[], [⟨name, _, _⟩], ⟨rfl, by simp [SchedState.block], rfl, by simp, ?_⟩, rfl⟩
    intro b hb
    rw [List.mem_singleton.mp hb]
  · have hevicted := Loop.foldlM_invariant (fun t => Extends name s t [] [])
      (fun _ _ _ _ ht hev => ht.trans (Extends.evict name hev)) (Extends.refl name s) hevict
    obtain ⟨c, -, hext⟩ := Extends.placeOn hplace
    exact ⟨_, _, hevicted.trans hext, rfl⟩

/-- RUN: the replicas of a turn are placed or blocked, each under its own id. -/
theorem scheduleReplicas_extends (replicas : List ℕ)
    (h : replicas.foldlM (scheduleReplica F re services currentPlacements pool affinities name
      scheduling reqs) s = some s') :
    ∃ ps bs, Extends name s s' ps bs ∧
      (ps.map (·.instanceId) ++ bs.map (·.instanceId)).Perm
        (replicas.map fun i => s!"{name}-{i}") := by
  induction replicas generalizing s with
  | nil =>
    cases h
    exact ⟨[], [], Extends.refl name _, List.Perm.refl _⟩
  | cons replica rest ih =>
    rw [List.foldlM_cons] at h
    obtain ⟨s₁, hfirst, hrest⟩ := Option.bind_eq_some_iff.mp h
    obtain ⟨ps, bs, hext, hid⟩ := scheduleReplica_extends F re hfirst
    obtain ⟨ps', bs', hext', hids⟩ := ih hrest
    refine ⟨ps ++ ps', bs ++ bs', hext.trans hext', ?_⟩
    -- the entry of this replica comes before the entries of the others
    have hfront : ((ps ++ ps').map (·.instanceId) ++ (bs ++ bs').map (·.instanceId)).Perm
        ((ps.map (·.instanceId) ++ bs.map (·.instanceId)) ++
          (ps'.map (·.instanceId) ++ bs'.map (·.instanceId))) := by
      rw [List.map_append, List.map_append, List.append_assoc, List.append_assoc]
      exact List.Perm.append_left _ (List.perm_append_comm_assoc ..)
    rw [hid] at hfront
    exact hfront.trans (hids.cons _)

/-- The placement of a system job on a machine. -/
def systemPlacement (name machine : String) : Placement := ⟨name, s!"{name}-{machine}", machine⟩

/-- RUN: a system job is placed on the machines at the given indices. -/
theorem foldlM_placeOn_extends (idxs : List ℕ)
    (h : idxs.foldlM (fun s idx => placeOn s idx reqs name fun machine =>
      s!"{name}-{machine}") s = some s') :
    Extends name s s' (idxs.filterMap fun i =>
      (s.candidates.map (·.name))[i]?.map (systemPlacement name)) [] := by
  induction idxs generalizing s with
  | nil =>
    cases h
    exact Extends.refl name _
  | cons idx rest ih =>
    rw [List.foldlM_cons] at h
    obtain ⟨s₁, hfirst, hrest⟩ := Option.bind_eq_some_iff.mp h
    obtain ⟨c, hc, hext⟩ := Extends.placeOn hfirst
    have hlater := ih hrest
    rw [hext.names] at hlater
    have hall := hext.trans hlater
    simpa [hc, systemPlacement] using hall

theorem filterMap_filterCandidates (scheduling : SchedulingConfig) (name : String)
    (reqs : ResourceRequirements) (all : List Candidate) :
    ((filterCandidates F re scheduling name reqs all).filterMap fun i =>
      (all.map (·.name))[i]?.map (systemPlacement name)) =
    (all.filter (passesFilters F re scheduling name reqs all)).map fun c =>
      systemPlacement name c.name := by
  rw [filterCandidates, List.filterMap_map]
  have hhere : ∀ ci ∈ all.zipIdx.filter fun ci => passesFilters F re scheduling name reqs all ci.1,
      ((fun i => (all.map (·.name))[i]?.map (systemPlacement name)) ∘ Prod.snd) ci =
        some (systemPlacement name ci.1.name) := by
    grind
  rw [List.filterMap_congr hhere, List.filterMap_eq_map']
  -- forget the indices again
  have hfst : ∀ p : Candidate → Bool,
      all.filter p = (all.zipIdx.filter fun ci => p ci.1).map Prod.fst := by
    intro p
    conv_lhs => rw [← List.zipIdx_map_fst 0 all, List.filter_map]
    rfl
  rw [hfst, List.map_map]
  rfl

theorem scheduleSystem_extends (h : scheduleSystem F re name scheduling reqs s = some s') :
    Extends name s s' ((s.candidates.filter
      (passesFilters F re scheduling name reqs s.candidates)).map fun c =>
        systemPlacement name c.name) [] := by
  have hext := foldlM_placeOn_extends _ h
  rwa [filterMap_filterCandidates] at hext

theorem scheduleService_extends {service : Σ _ : String, ServiceConfig}
    (h : scheduleService F re services nodePools currentPlacements s service = some s') :
    ∃ ps bs, Extends service.1 s s' ps bs := by
  unfold scheduleService at h
  cases hj : service.2.scheduling.jobType <;> simp only [hj] at h
  case system | sysbatch => exact ⟨_, _, scheduleSystem_extends F re h⟩
  all_goals
    obtain ⟨ps, bs, hext, -⟩ := scheduleReplicas_extends F re _ h
    exact ⟨ps, bs, hext⟩

/-! ### The share of one service -/

/-- RUN: turns of services that are not kept leave the share as it is. -/
theorem share_of_turns {keep : String → Bool} (turns : List (Σ _ : String, ServiceConfig))
    (hkeep : ∀ x ∈ turns, keep x.1 = false)
    (h : turns.foldlM (scheduleService F re services nodePools currentPlacements) s = some s') :
    s'.plan.share keep = s.plan.share keep := by
  refine Loop.foldlM_invariant (fun t => t.plan.share keep = s.plan.share keep)
    (fun x hx t t' ht hturn => ?_) rfl h
  obtain ⟨ps, bs, hext⟩ := scheduleService_extends F re hturn
  rw [hext.share_of_ne (hkeep x hx), ht]

theorem names_of_turns (turns : List (Σ _ : String, ServiceConfig))
    (h : turns.foldlM (scheduleService F re services nodePools currentPlacements) s = some s') :
    s'.candidates.map (·.name) = s.candidates.map (·.name) := by
  refine Loop.foldlM_invariant
    (fun t => t.candidates.map (·.name) = s.candidates.map (·.name)) (fun x _ t t' ht hturn => ?_)
    rfl h
  obtain ⟨ps, bs, hext⟩ := scheduleService_extends F re hturn
  rw [hext.names, ht]

variable (services machines nodePools currentPlacements)

/-- `s` is the state of the run when the turn of `service` comes. -/
def AtTurn (service : Σ _ : String, ServiceConfig) (s : SchedState) : Prop :=
  ∃ before after, serviceList services = before ++ service :: after ∧
    before.foldlM (scheduleService F re services nodePools currentPlacements)
      (initState machines nodePools) = some s

variable {services machines nodePools currentPlacements}

theorem nodup_serviceList (services : Services) :
    ((serviceList services).map Sigma.fst).Nodup := by
  have hperm := (List.perm_insertionSort scheduledBefore services.entries).map Sigma.fst
  exact hperm.nodup_iff.mpr services.nodupKeys

variable {plan : PlacementPlan} {svc : ServiceConfig}

theorem exists_turn (h : schedule F re services machines nodePools currentPlacements = some plan)
    (hsvc : services.lookup name = some svc) :
    ∃ s s', AtTurn F re services machines nodePools currentPlacements ⟨name, svc⟩ s ∧
      scheduleService F re services nodePools currentPlacements s ⟨name, svc⟩ = some s' ∧
      s.candidates.map (·.name) = machines.keys ∧
      ∀ ps bs, Extends name s s' ps bs → plan.share (· == name) = (ps, bs) := by
  have hmem : (⟨name, svc⟩ : Σ _ : String, ServiceConfig) ∈ serviceList services :=
    (List.mem_insertionSort _).mpr (HashMap.mem_of_lookup hsvc)
  obtain ⟨before, after, hlist⟩ := List.append_of_mem hmem
  have hnd := nodup_serviceList services
  rw [hlist, List.map_append, List.map_cons, List.nodup_middle, List.nodup_cons,
    List.mem_append, not_or] at hnd
  obtain ⟨⟨hbefore, hafter⟩, -⟩ := hnd
  obtain ⟨final, hrun, hplan⟩ := Option.bind_eq_some_iff.mp h
  rw [hlist, List.foldlM_append] at hrun
  obtain ⟨s, hs, hrun⟩ := Option.bind_eq_some_iff.mp hrun
  rw [List.foldlM_cons] at hrun
  obtain ⟨s', hs', hfinal⟩ := Option.bind_eq_some_iff.mp hrun
  refine ⟨s, s', ⟨before, after, hlist, hs⟩, hs', ?_, fun ps bs hext => ?_⟩
  · rw [names_of_turns F re before hs, initState_names]
  · have hother : ∀ turns : List (Σ _ : String, ServiceConfig), name ∉ turns.map Sigma.fst →
        ∀ x ∈ turns, (x.1 == name) = false := by
      grind
    rw [← Option.some.inj hplan, share_of_turns F re after (hother after hafter) hfinal,
      hext.share_of_eq (· == name) (beq_self_eq_true name),
      share_of_turns F re before (hother before hbefore) hs]
    rfl

theorem share_of_unknown
    (h : schedule F re services machines nodePools currentPlacements = some plan)
    (hname : services.lookup name = none) : plan.share (· == name) = ([], []) := by
  obtain ⟨final, hrun, hplan⟩ := Option.bind_eq_some_iff.mp h
  rw [← Option.some.inj hplan]
  refine share_of_turns F re _ (fun x hx => ?_) hrun
  rw [beq_eq_false_iff_ne]
  rintro rfl
  rw [HashMap.lookup_of_mem ((List.mem_insertionSort _).mp hx)] at hname
  cases hname

theorem instances_of_replicated
    (h : schedule F re services machines nodePools currentPlacements = some plan)
    (hsvc : services.lookup name = some svc) (hjob : replicated svc.scheduling.jobType = true) :
    (plan.instances name).Perm
      ((List.range svc.scheduling.replicas.toNat).map fun i => s!"{name}-{i}") := by
  obtain ⟨s, s', -, hturn, -, hshare⟩ := exists_turn F re h hsvc
  unfold scheduleService at hturn
  cases hj : svc.scheduling.jobType <;> simp only [hj] at hturn hjob
  case system | sysbatch => cases hjob
  all_goals
    obtain ⟨ps, bs, hext, hids⟩ := scheduleReplicas_extends F re _ hturn
    rw [PlacementPlan.instances, hshare ps bs hext]
    exact hids

theorem share_of_system
    (h : schedule F re services machines nodePools currentPlacements = some plan)
    (hsvc : services.lookup name = some svc) (hjob : replicated svc.scheduling.jobType = false) :
    ∃ s, AtTurn F re services machines nodePools currentPlacements ⟨name, svc⟩ s ∧
      s.candidates.map (·.name) = machines.keys ∧
      plan.share (· == name) = ((s.candidates.filter (passesFilters F re svc.scheduling name
        (.fromConfig svc.resources) s.candidates)).map fun c =>
          systemPlacement name c.name, []) := by
  obtain ⟨s, s', hat, hturn, hnames, hshare⟩ := exists_turn F re h hsvc
  refine ⟨s, hat, hnames, ?_⟩
  unfold scheduleService at hturn
  cases hj : svc.scheduling.jobType <;> simp only [hj] at hturn hjob
  case system | sysbatch => exact hshare _ _ (scheduleSystem_extends F re hturn)
  all_goals cases hjob

/-! ### Counting -/

theorem nodup_instanceNames (name : String) (n : ℕ) :
    ((List.range n).map fun i => s!"{name}-{i}").Nodup := by
  refine List.nodup_range.map fun i j hij => ?_
  simpa using hij

theorem instances_nodup
    (h : schedule F re services machines nodePools currentPlacements = some plan) (name : String) :
    (plan.instances name).Nodup := by
  rcases hsvc : services.lookup name with _ | svc
  · simp [PlacementPlan.instances, share_of_unknown F re h hsvc]
  rcases hjob : replicated svc.scheduling.jobType with _ | _
  · obtain ⟨s, -, hnames, hshare⟩ := share_of_system F re h hsvc hjob
    have hnd : (s.candidates.map (·.name)).Nodup := hnames ▸ machines.nodupKeys
    rw [PlacementPlan.instances, hshare, List.map_nil, List.append_nil, List.map_map]
    have hmap : (fun c : Candidate => s!"{name}-{c.name}") =
        (fun m : String => s!"{name}-{m}") ∘ (·.name) := rfl
    change (List.map (fun c : Candidate => s!"{name}-{c.name}") _).Nodup
    rw [hmap, ← List.map_map]
    refine ((List.filter_sublist.map _).nodup hnd).map fun m m' hmm => ?_
    have hsame : toString m = toString m' := by simpa using hmm
    exact hsame
  · exact (instances_of_replicated F re h hsvc hjob).nodup_iff.mpr (nodup_instanceNames _ _)

theorem nodup_pairs {ps : List Placement}
    (h : ∀ name, ((ps.filter fun p => p.serviceName == name).map (·.instanceId)).Nodup) :
    (ps.map fun p => (p.serviceName, p.instanceId)).Nodup := by
  rw [List.nodup_iff_count_le_one]
  rintro ⟨name, id⟩
  have hcount := List.nodup_iff_count_le_one.mp (h name) id
  rw [List.count_eq_countP, List.countP_map] at hcount ⊢
  rw [List.countP_filter] at hcount
  refine le_trans (le_of_eq (List.countP_congr fun p _ => ?_)) hcount
  simp [and_comm]

theorem count_chosen {all : List Candidate} (hnd : (all.map (·.name)).Nodup)
    (chosen : Candidate → Bool) {c : Candidate} (hc : c ∈ all) :
    ((all.filter chosen).map (·.name)).count c.name = if chosen c then 1 else 0 := by
  grind [List.count_eq_one_of_mem, List.filter_sublist, List.mem_map_of_mem,
    List.count_eq_zero, List.inj_on_of_nodup_map]

end Turn

/-- CORRECT: with priorities that leave room for the margin a plan is returned, and every plan that
    is returned accounts for all instances. A replicated job has each of its instances once, placed
    or blocked. A system job has one placement on each machine that passes the filters when its turn
    comes, and none on the others. No two placements share service and instance id. -/
theorem schedule_accounts (F : Type) [F64 F] (re : RegexEngine) (services : Services)
    (machines : Machines) (nodePools : NodePools) (currentPlacements : CurrentPlacements) :
    (PrioritiesBounded services →
      ∃ plan, schedule F re services machines nodePools currentPlacements = some plan) ∧
    ∀ plan, schedule F re services machines nodePools currentPlacements = some plan →
      (∀ name svc, services.lookup name = some svc → replicated svc.scheduling.jobType = true →
        (plan.instances name).Nodup ∧ (plan.instances name).Perm
          ((List.range svc.scheduling.replicas.toNat).map fun i => s!"{name}-{i}")) ∧
      (∀ name svc, services.lookup name = some svc → replicated svc.scheduling.jobType = false →
        ∃ s, AtTurn F re services machines nodePools currentPlacements ⟨name, svc⟩ s ∧
          s.candidates.map (·.name) = machines.keys ∧
          ∀ c ∈ s.candidates, (plan.placements.filter fun p =>
              p.serviceName == name && p.machineName == c.name).length =
            if passesFilters F re svc.scheduling name (.fromConfig svc.resources) s.candidates c
              then 1 else 0) ∧
      (plan.placements.map fun p => (p.serviceName, p.instanceId)).Nodup := by
  refine ⟨fun hb => ?_, fun plan hplan => ⟨fun name svc hsvc hjob => ?_,
    fun name svc hsvc hjob => ?_, ?_⟩⟩
  · obtain ⟨s, hs, -⟩ : ∃ s, schedule F re services machines nodePools currentPlacements =
        some s.plan ∧ ∃ P : SchedulePacking services machines, Tracks s P :=
      schedule_packs F re nodePools currentPlacements hb
    exact ⟨s.plan, hs⟩
  · exact ⟨instances_nodup F re hplan name, instances_of_replicated F re hplan hsvc hjob⟩
  · obtain ⟨s, hat, hnames, hshare⟩ := share_of_system F re hplan hsvc hjob
    refine ⟨s, hat, hnames, fun c hc => ?_⟩
    have hplaced := congrArg Prod.fst hshare
    simp only [PlacementPlan.share] at hplaced
    rw [← count_chosen (hnames ▸ machines.nodupKeys) _ hc, ← List.filter_filter, List.filter_comm,
      hplaced, List.count_eq_countP, List.countP_map, ← List.countP_eq_length_filter,
      List.countP_map]
    rfl
  · refine nodup_pairs fun name => ?_
    exact (List.nodup_append.mp (instances_nodup F re hplan name)).1

/-- Two replicas and room for one: both are in the plan. -/
theorem schedule_accounts_two_replicas :
    ∃ plan, schedule Ratio noRegex
        [⟨"web", { resources := { cpu := some { request := 300 } }, scheduling := { replicas := 2 }
                   : ServiceConfig }⟩].toAList
        [⟨"m1", { capacity := { cpu := 500 } : MachineConfig }⟩].toAList ∅ ∅ = some plan ∧
      (plan.instances "web").Perm ["web-0", "web-1"] := by
  obtain ⟨hreturns, haccounts⟩ := schedule_accounts Ratio noRegex
    [⟨"web", { resources := { cpu := some { request := 300 } }, scheduling := { replicas := 2 }
               : ServiceConfig }⟩].toAList
    [⟨"m1", { capacity := { cpu := 500 } : MachineConfig }⟩].toAList ∅ ∅
  obtain ⟨plan, hplan⟩ := hreturns (by unfold PrioritiesBounded; decide)
  exact ⟨plan, hplan, ((haccounts plan hplan).1 "web" _ rfl rfl).2⟩

end Ekafleet.Scheduler
