import Ekafleet.Scheduler.Placements

/-! A run as a sequence of moves | source: server/scheduler/mod.rs

    While priorities leave room for the margin, preemption never fires, so the run is the one in
    which no service can be looked up for eviction (`schedule_calm`). Such a run only makes moves of
    two kinds: an instance goes to a machine that is eligible at that moment, or it is blocked while
    no machine passes the filters. -/

namespace Ekafleet.Scheduler

section Calm
variable (F : Type) [F64 F] (re : RegexEngine) {services : Services}
  {machines : Machines} {nodePools : NodePools}
  {currentPlacements : CurrentPlacements}

/-- The state after the last service. -/
def finalState (services : Services) (machines : Machines)
    (nodePools : NodePools) (currentPlacements : CurrentPlacements) :
    Option SchedState :=
  (serviceList services).foldlM (scheduleService F re services nodePools currentPlacements)
    (initState machines nodePools)

variable {s : SchedState} {service : Σ _ : String, ServiceConfig}

theorem schedule_of_finalState
    (h : finalState F re services machines nodePools currentPlacements = some s) :
    schedule F re services machines nodePools currentPlacements = some s.plan := by
  rw [finalState] at h
  rw [schedule, h]
  rfl

/-! ### Without preemption -/

theorem prioritiesBounded_empty : PrioritiesBounded ∅ := by
  intro e he
  cases he

theorem senior_empty (p : UInt32) (s : SchedState) : Senior ∅ p s := by
  intro c _ name _ svc hsvc
  simp at hsvc

variable {pool : Option SchedulerAlgorithm} {affinities : List AffinityConfig} {name : String}
  {scheduling : SchedulingConfig} {reqs : ResourceRequirements} {s' : SchedState}

theorem scheduleReplica_calm (replica : ℕ) (hb : PrioritiesBounded services)
    (hsenior : Senior services scheduling.priority s) :
    scheduleReplica F re services currentPlacements pool affinities name scheduling reqs s replica =
      scheduleReplica F re ∅ currentPlacements pool affinities name scheduling reqs s replica := by
  grind [scheduleReplica, findPreemptionCandidate_eq_none, prioritiesBounded_empty, senior_empty]

theorem scheduleService_calm {svc : ServiceConfig} (hb : PrioritiesBounded services)
    (hsvc : services.lookup name = some svc)
    (hgood : Good services machines svc.scheduling.priority s) :
    scheduleService F re services nodePools currentPlacements s ⟨name, svc⟩ =
      scheduleService F re ∅ nodePools currentPlacements s ⟨name, svc⟩ := by
  have hreplicas : ∀ pool affinities, (List.range svc.scheduling.replicas.toNat).foldlM
      (scheduleReplica F re services currentPlacements pool affinities name svc.scheduling
        (.fromConfig svc.resources)) s =
      (List.range svc.scheduling.replicas.toNat).foldlM
        (scheduleReplica F re ∅ currentPlacements pool affinities name svc.scheduling
          (.fromConfig svc.resources)) s := by
    intro pool affinities
    refine Loop.foldlM_congr (fun _ => Good services machines svc.scheduling.priority)
      (fun replica _ s hg => ?_) hgood
    refine ⟨scheduleReplica_calm F re replica hb hg.senior, fun s' hs' => ?_⟩
    obtain ⟨s'', hs'', hg''⟩ := scheduleReplica_spec F re currentPlacements pool affinities
      replica hb hsvc hg
    exact Option.some.inj (hs'.symm.trans hs'') ▸ hg''
  unfold scheduleService
  cases hj : svc.scheduling.jobType <;> simp only [hj]
  all_goals exact hreplicas _ _

variable (machines nodePools currentPlacements) in
/-- RUN: the schedule is returned, by a run that never looks at a service to evict. -/
theorem schedule_calm (hb : PrioritiesBounded services) :
    ∃ s, finalState F re services machines nodePools currentPlacements = some s ∧
      (serviceList services).foldlM (scheduleService F re ∅ nodePools currentPlacements)
        (initState machines nodePools) = some s ∧
      ∃ P : SchedulePacking services machines, Tracks s P := by
  obtain ⟨s, hs, hend⟩ := Loop.foldlM_total (Upcoming services machines)
    (fun _ _ _ h => h.step F re nodePools currentPlacements hb) (serviceList services)
    (initState machines nodePools) (Upcoming.init nodePools)
  have hcalm : (serviceList services).foldlM
      (scheduleService F re services nodePools currentPlacements) (initState machines nodePools) =
      (serviceList services).foldlM (scheduleService F re ∅ nodePools currentPlacements)
        (initState machines nodePools) := by
    refine Loop.foldlM_congr (Upcoming services machines) (fun x rest s hup =>
      ⟨?_, fun s' hs' => ?_⟩)
      (Upcoming.init nodePools)
    · exact scheduleService_calm F re hb (hup.mem x List.mem_cons_self)
        ⟨hup.tracks, hup.senior x List.mem_cons_self⟩
    · obtain ⟨s'', hs'', hup''⟩ := hup.step F re nodePools currentPlacements hb
      exact Option.some.inj (hs'.symm.trans hs'') ▸ hup''
  exact ⟨s, hs, hcalm ▸ hs, hend.tracks⟩

/-! ### Moves -/

/-- What a machine must offer an instance, apart from the spread over the other machines. -/
def eligible (service : Σ _ : String, ServiceConfig) (c : Candidate) : Bool :=
  passesConstraints F re c service.1 service.2.scheduling.constraints &&
    passesTaints c service.2.scheduling.tolerations &&
    c.hasResourcesFor (.fromConfig service.2.resources)

/-- What a replicated job also asks of a machine: the spread over all of them. -/
def Spread (service : Σ _ : String, ServiceConfig) (all : List Candidate) (c : Candidate) : Prop :=
  replicated service.2.scheduling.jobType = true →
    passesRequiredSpreads c service.2.scheduling.spread service.1 all = true

theorem eligible_of_passesFilters {all : List Candidate} {c : Candidate}
    (h : passesFilters F re service.2.scheduling service.1
      (.fromConfig service.2.resources) all c = true) : eligible F re service c = true := by
  simp only [passesFilters, eligible, Bool.and_eq_true] at h ⊢
  grind

/-- What the scheduler does with one instance of a service when nothing is evicted. -/
inductive Move (service : Σ _ : String, ServiceConfig) : SchedState → SchedState → Prop
  | place {s : SchedState} {idx : ℕ} {c c' : Candidate} (id : String)
      (hc : s.candidates[idx]? = some c) (heligible : eligible F re service c = true)
      (hc' : c.allocate (.fromConfig service.2.resources) service.1 = some c')
      (hspread : Spread service s.candidates c) :
      Move service s (s.record idx c' ⟨service.1, id, c.name⟩)
  | block {s : SchedState} (id reason : String)
      (hnone : ∀ c ∈ s.candidates, passesFilters F re service.2.scheduling service.1
        (.fromConfig service.2.resources) s.candidates c = false) :
      Move service s (s.block ⟨service.1, id, reason⟩)

variable {F re}

theorem Move.of_placeOn {idx : ℕ} {c : Candidate} {instanceId : String → String}
    (hc : s.candidates[idx]? = some c) (heligible : eligible F re service c = true)
    (hspread : Spread service s.candidates c)
    (h : placeOn s idx (.fromConfig service.2.resources) service.1 instanceId = some s') :
    Move F re service s s' ∧ ∀ j, j ≠ idx → s'.candidates[j]? = s.candidates[j]? := by
  obtain ⟨d, c', hd, hc', rfl⟩ := placeOn_eq_some h
  obtain rfl := Option.some.inj (hc.symm.trans hd)
  exact ⟨.place _ hc heligible hc' hspread, fun j hj => List.getElem?_set_ne hj.symm⟩

theorem filterCandidates_eq_nil {all : List Candidate}
    (h : filterCandidates F re scheduling name reqs all = []) :
    ∀ c ∈ all, passesFilters F re scheduling name reqs all c = false := by
  intro c hc
  obtain ⟨i, hi⟩ := List.mem_iff_getElem?.mp hc
  rw [filterCandidates, List.map_eq_nil_iff, List.filter_eq_nil_iff] at h
  simpa using h (c, i) (List.mem_zipIdx_iff_getElem?.mpr hi)

/-- STEP: a replica makes one move. -/
theorem Move.of_scheduleReplica {replica : ℕ}
    (h : scheduleReplica F re ∅ currentPlacements pool affinities service.1
      service.2.scheduling (.fromConfig service.2.resources) s replica = some s') :
    Move F re service s s' := by
  rcases scheduleReplica_cases F re h with
    ⟨idx, hidx, hplace⟩ | ⟨hempty, rfl | ⟨idx, evicted, s₁, hfound, -, -⟩⟩
  · obtain ⟨c, hc, hpass⟩ := mem_filterCandidates F re hidx
    refine (Move.of_placeOn hc (eligible_of_passesFilters F re hpass) (fun _ => ?_) hplace).1
    grind [passesFilters]
  · exact .block _ _ (filterCandidates_eq_nil hempty)
  · rw [findPreemptionCandidate_eq_none F re _ _ _ _ _ prioritiesBounded_empty
      (senior_empty _ s)] at hfound
    cases hfound

/-- RUN: a turn is a sequence of moves. The matches of a system job are different machines, so each
    is still as it was when its placement is made. -/
theorem moves_of_scheduleService
    (h : scheduleService F re ∅ nodePools currentPlacements s service = some s') :
    Relation.ReflTransGen (Move F re service) s s' := by
  unfold scheduleService at h
  cases hj : service.2.scheduling.jobType <;> simp only [hj] at h
  case system | sysbatch =>
    refine (Loop.foldlM_invariant_rest (fun rest t =>
      Relation.ReflTransGen (Move F re service) s t ∧
      rest.Nodup ∧ ∀ i ∈ rest, ∃ c, t.candidates[i]? = some c ∧ eligible F re service c = true)
      (fun idx rest t t' ht hplace => ?_) ⟨.refl, nodup_filterCandidates F re _ _ _ _, ?_⟩ h).1
    · obtain ⟨hmoves, hnd, hlater⟩ := ht
      obtain ⟨hnotin, hnd⟩ := List.nodup_cons.mp hnd
      obtain ⟨c, hc, heligible⟩ := hlater idx List.mem_cons_self
      obtain ⟨hmove, hframe⟩ :=
        Move.of_placeOn hc heligible (by simp [Spread, hj, replicated]) hplace
      refine ⟨hmoves.tail hmove, hnd, fun i hi => ?_⟩
      rw [hframe i fun hi' => hnotin (hi' ▸ hi)]
      exact hlater i (List.mem_cons_of_mem _ hi)
    grind [mem_filterCandidates, eligible_of_passesFilters]
  all_goals
    exact Loop.foldlM_invariant (Relation.ReflTransGen (Move F re service) s)
      (fun _ _ _ _ ht hstep => ht.tail (Move.of_scheduleReplica hstep)) .refl h

variable (F re services)

/-- A move of some configured service. -/
def AnyMove (s s' : SchedState) : Prop :=
  ∃ name svc, services.lookup name = some svc ∧ Move F re ⟨name, svc⟩ s s'

/-- RUN: with bounded priorities the plan is returned, after moves of configured services only. -/
theorem schedule_moves (machines : Machines) (nodePools : NodePools)
    (currentPlacements : CurrentPlacements) (hb : PrioritiesBounded services) :
    ∃ s, finalState F re services machines nodePools currentPlacements = some s ∧
      Relation.ReflTransGen (AnyMove F re services) (initState machines nodePools) s ∧
      ∃ P : SchedulePacking services machines, Tracks s P := by
  obtain ⟨s, hs, hrun, htracks⟩ := schedule_calm F re machines nodePools currentPlacements hb
  refine ⟨s, hs, ?_, htracks⟩
  refine Loop.foldlM_invariant (Relation.ReflTransGen (AnyMove F re services) _)
    (fun x hx t t' ht hturn => ht.trans ?_) .refl hrun
  have hsvc := HashMap.lookup_of_mem ((List.mem_insertionSort _).mp hx)
  have hany : Move F re x ≤ AnyMove F re services := fun _ _ hmove => ⟨x.1, x.2, hsvc, hmove⟩
  exact Relation.ReflTransGen.mono hany _ _ (moves_of_scheduleService hturn)

end Calm

end Ekafleet.Scheduler
