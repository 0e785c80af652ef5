import Ekafleet.Lib.Loop
import Ekafleet.Lib.Packing
import Ekafleet.Scheduler.Schedule

/-! Schedules fit | source: server/scheduler/mod.rs

    The abstract model of a schedule is a `Packing`: placements are the items, machines the bins,
    and the resources are CPU, memory, disk and every extended key. A run of `schedule` keeps its
    candidates in step with a packing of the placements made so far (`Tracks`). Services come in
    order of falling priority (`Senior`), so none qualifies for eviction. -/

namespace Ekafleet.Scheduler
open Word

/-- The resources that are accounted. -/
inductive Resource where
  | cpu
  | memory
  | disk
  | extended (key : String)
  deriving DecidableEq

/-- What a request asks of one resource. -/
def ResourceRequirements.demand (reqs : ResourceRequirements) : Resource → ℕ
  | .cpu => reqs.cpu.toNat
  | .memory => reqs.memory.toNat
  | .disk => reqs.disk.toNat
  | .extended key => ((reqs.extended.lookup key).getD 0).toNat

/-- What a machine offers of one resource: capacity minus reserved, or the extended entry. -/
def machineCapacity (m : MachineConfig) : Resource → ℕ
  | .cpu => m.capacity.cpu.toNat - m.reserved.cpu.toNat
  | .memory => m.capacity.memory.toNat - m.reserved.memory.toNat
  | .disk => m.capacity.disk.toNat - m.reserved.disk.toNat
  | .extended key => ((m.extendedResources.lookup key).getD 0).toNat

/-- What the service of a placement asks for. -/
def request (services : Services) (p : Placement) (r : Resource) : ℕ :=
  ((services.lookup p.serviceName).map fun svc =>
    (ResourceRequirements.fromConfig svc.resources).demand r).getD 0

/-- Capacity by machine name, nothing for an unknown name. -/
def capacityOf (machines : Machines) (name : String) (r : Resource) : ℕ :=
  ((machines.lookup name).map fun m => machineCapacity m r).getD 0

abbrev SchedulePacking (services : Services)
    (machines : Machines) :=
  Packing Placement.machineName (request services) (capacityOf machines)

/-! ### One candidate -/

namespace Candidate

def capacity (c : Candidate) : Resource → ℕ
  | .cpu => c.schedulableCpu.toNat
  | .memory => c.schedulableMemory.toNat
  | .disk => c.schedulableDisk.toNat
  | .extended key => ((c.extendedResources.lookup key).getD 0).toNat

def allocated (c : Candidate) : Resource → ℕ
  | .cpu => c.allocatedCpu.toNat
  | .memory => c.allocatedMemory.toNat
  | .disk => c.allocatedDisk.toNat
  | .extended key => ((c.allocatedExtended.lookup key).getD 0).toNat

theorem capacity_lt (c : Candidate) (r : Resource) : c.capacity r < 2 ^ 64 := by
  cases r <;> exact UInt64.toNat_lt _

theorem hasResourcesFor_iff (c : Candidate) (reqs : ResourceRequirements) :
    c.hasResourcesFor reqs = true ↔ ∀ r, reqs.demand r ≤ c.capacity r - c.allocated r := by
  simp only [hasResourcesFor, Bool.and_eq_true, decide_eq_true_eq, List.all_eq_true,
    UInt64.le_iff_toNat_le, availableCpu, availableMemory, availableDisk, toNat_saturatingSub]
  constructor
  · rintro ⟨⟨⟨hcpu, hmem⟩, hdisk⟩, hext⟩ (_ | _ | _ | key)
    · exact hcpu
    · exact hmem
    · exact hdisk
    · cases hk : reqs.extended.lookup key with
      | none => simp [ResourceRequirements.demand, hk]
      | some v =>
        have := hext ⟨key, v⟩ (HashMap.mem_of_lookup hk)
        simpa [ResourceRequirements.demand, capacity, allocated, hk] using this
  · intro h
    refine ⟨⟨⟨h .cpu, h .memory⟩, h .disk⟩, fun e he => ?_⟩
    have := h (.extended e.1)
    rwa [ResourceRequirements.demand, HashMap.lookup_of_mem he] at this

theorem allocateExtended_spec : ∀ (l : List (Σ _ : String, UInt64)) (m : HashMap String UInt64),
    l.NodupKeys → (∀ e ∈ l, ((m.lookup e.1).getD 0).toNat + e.2.toNat < 2 ^ 64) →
    ∃ m', allocateExtended m l = some m' ∧ ∀ key, ((m'.lookup key).getD 0).toNat =
      ((m.lookup key).getD 0).toNat + ((l.dlookup key).getD 0).toNat
  | [], m, _, _ => ⟨m, rfl, fun _ => by simp⟩
  | ⟨k, v⟩ :: rest, m, hnd, hfit => by
    rw [List.nodupKeys_cons] at hnd
    obtain ⟨total, htotal, hval⟩ := checkedAdd_of_lt (hfit ⟨k, v⟩ List.mem_cons_self)
    -- the keys still to come differ from `k`, so their entries are the old ones
    have hne : ∀ e ∈ rest, e.1 ≠ k := by
      rintro e he rfl
      exact hnd.1 (List.mem_map.mpr ⟨e, he, rfl⟩)
    obtain ⟨m', hm', hspec⟩ := allocateExtended_spec rest (m.insert k total) hnd.2 fun e he => by
      rw [AList.lookup_insert_ne (hne e he)]
      exact hfit e (List.mem_cons_of_mem _ he)
    refine ⟨m', by simp only [allocateExtended, htotal]; exact hm', fun key => ?_⟩
    rw [hspec key]
    by_cases h : key = k
    · subst h
      rw [AList.lookup_insert, List.dlookup_cons_eq, List.dlookup_eq_none.mpr hnd.1]
      simp [hval]
    · rw [AList.lookup_insert_ne h, List.dlookup_cons_ne _ _ h]

theorem allocate_spec {c : Candidate} {reqs : ResourceRequirements} (serviceName : String)
    (hroom : ∀ r, c.allocated r + reqs.demand r ≤ c.capacity r) :
    ∃ c', c.allocate reqs serviceName = some c' ∧ c'.name = c.name ∧
      (∀ r, c'.capacity r = c.capacity r) ∧
      (∀ r, c'.allocated r = c.allocated r + reqs.demand r) ∧
      c'.assignedServices = c.assignedServices ++ [serviceName] := by
  have hlt : ∀ r, c.allocated r + reqs.demand r < 2 ^ 64 := fun r =>
    lt_of_le_of_lt (hroom r) (c.capacity_lt r)
  obtain ⟨cpu, hcpu, hcpu'⟩ := checkedAdd_of_lt (hlt .cpu)
  obtain ⟨mem, hmem, hmem'⟩ := checkedAdd_of_lt (hlt .memory)
  obtain ⟨disk, hdisk, hdisk'⟩ := checkedAdd_of_lt (hlt .disk)
  obtain ⟨ext, hext, hext'⟩ := allocateExtended_spec reqs.extended.entries c.allocatedExtended
    reqs.extended.nodupKeys fun e he => by
      have := hlt (.extended e.1)
      rwa [ResourceRequirements.demand, HashMap.lookup_of_mem he] at this
  refine ⟨{ c with
      allocatedCpu := cpu, allocatedMemory := mem, allocatedDisk := disk
      allocatedExtended := ext, assignedServices := c.assignedServices ++ [serviceName] },
    by simp only [allocate, hcpu, hmem, hdisk, hext]; rfl, rfl, ?_, ?_, rfl⟩
  · rintro (_ | _ | _ | key) <;> rfl
  · rintro (_ | _ | _ | key)
    · exact hcpu'
    · exact hmem'
    · exact hdisk'
    · exact hext' key

end Candidate

theorem mkCandidate_capacity (nodePools : NodePools) (name : String) (m : MachineConfig)
    (r : Resource) :
    (mkCandidate nodePools name m).capacity r = machineCapacity m r := by
  cases r <;> simp [mkCandidate, Candidate.capacity, machineCapacity]

theorem mkCandidate_allocated (nodePools : NodePools) (name : String) (m : MachineConfig)
    (r : Resource) : (mkCandidate nodePools name m).allocated r = 0 := by
  cases r <;> simp [mkCandidate, Candidate.allocated]

/-! ### The state tracks a packing -/

section Run
variable {services : Services} {machines : Machines}

/-- The candidates' ledgers agree with a packing of the placements made so far. -/
structure Tracks (s : SchedState) (P : SchedulePacking services machines) : Prop where
  items : P.items = s.plan.placements
  names : s.candidates.map (·.name) = machines.keys
  capacity : ∀ c ∈ s.candidates, ∀ r, c.capacity r = capacityOf machines c.name r
  allocated : ∀ c ∈ s.candidates, ∀ r,
    c.allocated r = load Placement.machineName (request services) P.items c.name r
  known : ∀ p ∈ s.plan.placements, p.serviceName ∈ services ∧ p.machineName ∈ machines
  noPreemptions : s.plan.preemptions = []

/-- Every service on a machine has at least priority `p`. -/
def Senior (services : Services) (p : UInt32) (s : SchedState) : Prop :=
  ∀ c ∈ s.candidates, ∀ name ∈ c.assignedServices, ∀ svc, services.lookup name = some svc →
    p ≤ svc.scheduling.priority

variable {s : SchedState} {c : Candidate} {P : SchedulePacking services machines}

theorem Senior.mono {p q : UInt32} (h : Senior services p s) (hqp : q ≤ p) :
    Senior services q s :=
  fun c hc name hname svc hsvc => UInt32.le_trans hqp (h c hc name hname svc hsvc)

/-- What holds between any two placements of a service with priority `p`. -/
structure Good (services : Services) (machines : Machines)
    (p : UInt32) (s : SchedState) : Prop where
  tracks : ∃ P : SchedulePacking services machines, Tracks s P
  senior : Senior services p s

theorem initState_names (nodePools : NodePools) :
    (initState machines nodePools).candidates.map (·.name) = machines.keys := by
  simp [initState, AList.keys, List.keys, mkCandidate, Function.comp_def]

theorem Tracks.init (nodePools : NodePools) :
    Tracks (initState machines nodePools) (Packing.empty : SchedulePacking services machines) where
  items := rfl
  names := initState_names nodePools
  capacity c hc r := by
    obtain ⟨m, hm, rfl⟩ := List.mem_map.mp hc
    rw [mkCandidate_capacity]
    simp [capacityOf, mkCandidate, HashMap.lookup_of_mem hm]
  allocated c hc r := by
    obtain ⟨m, _, rfl⟩ := List.mem_map.mp hc
    rw [mkCandidate_allocated]; rfl
  known p hp := by simp [initState] at hp
  noPreemptions := rfl

variable {idx : ℕ}

theorem mem_set_cases {cs : List Candidate} (hnd : (cs.map (·.name)).Nodup) {c' : Candidate}
    (hc : cs[idx]? = some c) :
    ∀ d ∈ cs.set idx c', d = c' ∨ d ∈ cs ∧ c.name ≠ d.name := by
  intro d hd
  obtain ⟨j, hj⟩ := List.mem_iff_getElem?.mp hd
  by_cases hji : idx = j
  · grind
  · rw [List.getElem?_set_ne hji] at hj
    refine .inr ⟨List.mem_of_getElem? hj, fun heq => hji ?_⟩
    have hlt : idx < (cs.map (·.name)).length := by
      simpa using (List.getElem?_eq_some_iff.mp hc).1
    exact (List.getElem?_inj hlt hnd).mp (by simp [hc, hj, heq])

theorem map_set_of_eq {α β : Type} {f : α → β} {l : List α} {i : ℕ} {a b : α} (ha : l[i]? = some a)
    (hf : f b = f a) : (l.set i b).map f = l.map f := by
  obtain ⟨hlt, rfl⟩ := List.getElem?_eq_some_iff.mp ha
  rw [List.map_set, hf, ← List.getElem_map f (h := by simpa using hlt), List.set_getElem_self]

theorem Tracks.room (h : Tracks s P) (hmem : c ∈ s.candidates) {reqs : ResourceRequirements}
    (hfits : c.hasResourcesFor reqs = true) (r : Resource) :
    c.allocated r + reqs.demand r ≤ c.capacity r := by
  have hdemand := (c.hasResourcesFor_iff reqs).mp hfits r
  have hbound : c.allocated r ≤ c.capacity r := by
    rw [h.allocated c hmem, h.capacity c hmem]; exact P.fits c.name r
  omega

theorem Tracks.nodup (h : Tracks s P) :
    (s.candidates.map (·.name)).Nodup :=
  h.names ▸ machines.nodupKeys

/-- The state after recording a placement on `c` and replacing `c` by `c'`. -/
def SchedState.record (s : SchedState) (idx : ℕ) (c' : Candidate) (p : Placement) : SchedState where
  candidates := s.candidates.set idx c'
  plan := { s.plan with placements := s.plan.placements ++ [p] }

theorem Tracks.record (h : Tracks s P) {c' : Candidate} (hc : s.candidates[idx]? = some c)
    (p : Placement) (hp : p.machineName = c.name) (hsvc : p.serviceName ∈ services)
    (hname : c'.name = c.name) (hcap : ∀ r, c'.capacity r = c.capacity r)
    (halloc : ∀ r, c'.allocated r = c.allocated r + request services p r)
    (hroom : ∀ r, c.allocated r + request services p r ≤ c.capacity r) :
    ∃ P' : SchedulePacking services machines, Tracks (s.record idx c' p) P' := by
  have hmem : c ∈ s.candidates := List.mem_of_getElem? hc
  refine ⟨P.put p fun r => ?_, ?_, ?_, ?_, ?_, ?_, h.noPreemptions⟩
  · rw [hp, ← h.allocated c hmem, ← h.capacity c hmem]; exact hroom r
  · simp [Packing.put, SchedState.record, h.items]
  · exact (map_set_of_eq hc hname).trans h.names
  · intro d hd r
    rcases mem_set_cases h.nodup hc d hd with rfl | ⟨hd, -⟩
    · rw [hcap, hname, h.capacity c hmem]
    · exact h.capacity d hd r
  · intro d hd r
    rcases mem_set_cases h.nodup hc d hd with rfl | ⟨hd, hne⟩
    · have hload := load_concat_self Placement.machineName (request services) P.items p r
      rw [hp] at hload
      rw [halloc, hname, h.allocated c hmem]
      exact hload.symm
    · rw [h.allocated d hd]
      exact (load_concat_ne _ _ P.items (hp ▸ hne) r).symm
  · intro q hq
    rcases List.mem_append.mp hq with hq | hq
    · exact h.known q hq
    grind [List.mem_singleton, AList.mem_keys, names]

/-- STEP: placing a service where it fits succeeds, keeps the invariant, and leaves every other
    candidate alone. -/
theorem placeOn_spec {name : String} {svc : ServiceConfig} (instanceId : String → String)
    (hgood : Good services machines svc.scheduling.priority s)
    (hsvc : services.lookup name = some svc) (hc : s.candidates[idx]? = some c)
    (hfits : c.hasResourcesFor (.fromConfig svc.resources) = true) :
    ∃ s', placeOn s idx (.fromConfig svc.resources) name instanceId = some s' ∧
      Good services machines svc.scheduling.priority s' ∧
      ∀ j, j ≠ idx → s'.candidates[j]? = s.candidates[j]? := by
  obtain ⟨P, hP⟩ := hgood.tracks
  have hmem : c ∈ s.candidates := List.mem_of_getElem? hc
  have hroom := fun r => hP.room hmem hfits r
  obtain ⟨c', hc', hname, hcap, halloc, hassigned⟩ := Candidate.allocate_spec name hroom
  have hreq : ∀ r, request services ⟨name, instanceId c.name, c.name⟩ r =
      (ResourceRequirements.fromConfig svc.resources).demand r := fun r => by
    simp [request, hsvc]
  refine ⟨s.record idx c' ⟨name, instanceId c.name, c.name⟩, ?_, ⟨?_, ?_⟩,
    fun j hj => List.getElem?_set_ne (Ne.symm hj)⟩
  · simp only [placeOn, hc, hc', Option.bind_eq_bind, Option.bind_some]; rfl
  · refine hP.record hc _ rfl (HashMap.mem_iff_exists_lookup.mpr ⟨_, hsvc⟩) hname hcap ?_ ?_
    · intro r; rw [hreq]; exact halloc r
    · intro r; rw [hreq]; exact hroom r
  · intro d hd n hn cfg hcfg
    rcases mem_set_cases hP.nodup hc d hd with rfl | ⟨hd, -⟩
    · rw [hassigned] at hn
      rcases List.mem_append.mp hn with hn | hn
      · exact hgood.senior c hmem n hn cfg hcfg
      · obtain rfl := List.mem_singleton.mp hn
        exact Option.some.inj (hsvc.symm.trans hcfg) ▸ UInt32.le_refl _
    · exact hgood.senior d hd n hn cfg hcfg

/-! ### Preemption never fires -/

/-- Every priority leaves room for the preemption margin of 10. -/
def PrioritiesBounded (services : Services) : Prop :=
  ∀ e ∈ services.entries, e.2.scheduling.priority.toNat ≤ 2 ^ 32 - 1 - 10

theorem evictableServices_eq_nil {p : UInt32} (hb : PrioritiesBounded services) :
    ∀ assigned : List String,
    (∀ name ∈ assigned, ∀ svc, services.lookup name = some svc → p ≤ svc.scheduling.priority) →
    evictableServices services p assigned = some []
  | [], _ => rfl
  | name :: rest, hsenior => by
    have ih := evictableServices_eq_nil hb rest fun n hn => hsenior n (List.mem_cons_of_mem _ hn)
    rw [evictableServices]
    cases hsvc : services.lookup name with
    | none => exact ih
    | some svc =>
      have hprio : svc.scheduling.priority.toNat ≤ 2 ^ 32 - 1 - 10 :=
        hb ⟨name, svc⟩ (HashMap.mem_of_lookup hsvc)
      have hle := UInt32.le_iff_toNat_le.mp (hsenior name List.mem_cons_self svc hsvc)
      have h10 : (10 : UInt32).toNat = 10 := rfl
      obtain ⟨bound, hbound, hval⟩ := checkedAdd32_of_lt (a := svc.scheduling.priority) (b := 10)
        (by omega)
      have hgt : ¬ bound ≤ p := by rw [UInt32.le_iff_toNat_le]; omega
      simp [hbound, ih, hgt]

theorem findPreemptionCandidate_eq_none (F : Type) [F64 F] (re : RegexEngine)
    (constraints : List Constraint) (tolerations : List Toleration) (serviceName : String)
    (p : UInt32) (reqs : ResourceRequirements) (hb : PrioritiesBounded services)
    (hsenior : Senior services p s) :
    findPreemptionCandidate F re s.candidates constraints tolerations serviceName p reqs services =
      some none := by
  have hon : ∀ c ∈ s.candidates, preemptOn services serviceName p reqs c = some none := by
    intro c hc
    simp [preemptOn, evictableServices_eq_nil hb c.assignedServices (hsenior c hc)]
  -- the running best stays empty over the candidates still to be looked at
  have hstep : ∀ (x : Candidate × ℕ) (rest : List (Candidate × ℕ))
      (best : Option (ℕ × Freed)),
      (best = none ∧ ∀ y ∈ x :: rest, y.1 ∈ s.candidates) →
      ∃ best', considerPreemption F re constraints tolerations serviceName p reqs services best x =
        some best' ∧ best' = none ∧ ∀ y ∈ rest, y.1 ∈ s.candidates := by
    grind [List.mem_cons_of_mem, considerPreemption, List.mem_cons_self]
  obtain ⟨best, hbest, rfl, -⟩ := Loop.foldlM_total
    (fun rest best => best = none ∧ ∀ x ∈ rest, x.1 ∈ s.candidates) hstep s.candidates.zipIdx none
    ⟨rfl, fun x hx => List.mem_of_getElem? (List.mem_zipIdx_iff_getElem?.mp hx)⟩
  simp only [findPreemptionCandidate, hbest]; rfl

/-! ### Whole runs -/

section Filters
variable (F : Type) [F64 F] (re : RegexEngine)

variable {scheduling : SchedulingConfig} {serviceName : String} {all : List Candidate}
  {s : SchedState}

variable {reqs : ResourceRequirements}

theorem mem_filterCandidates {idx : ℕ}
    (h : idx ∈ filterCandidates F re scheduling serviceName reqs all) :
    ∃ c, all[idx]? = some c ∧ passesFilters F re scheduling serviceName reqs all c = true := by
  obtain ⟨⟨c, i⟩, hmem, rfl⟩ := List.mem_map.mp h
  grind

theorem passesFilters_hasResourcesFor {c : Candidate}
    (h : passesFilters F re scheduling serviceName reqs all c = true) :
    c.hasResourcesFor reqs = true := by
  simp only [passesFilters, Bool.and_eq_true] at h
  exact h.2

theorem nodup_filterCandidates (scheduling : SchedulingConfig) (serviceName : String)
    (reqs : ResourceRequirements) (all : List Candidate) :
    (filterCandidates F re scheduling serviceName reqs all).Nodup := by
  have hsub : (filterCandidates F re scheduling serviceName reqs all).Sublist
      (all.zipIdx.map Prod.snd) := List.filter_sublist.map _
  refine hsub.nodup ?_
  rw [List.zipIdx_map_snd]
  exact List.nodup_range'

theorem mem_rankCandidates {affinities : List AffinityConfig}
    {poolAlgorithm : Option SchedulerAlgorithm} {currentMachine : Option String} {filtered : List ℕ}
    {x : ℕ × F}
    (h : x ∈ rankCandidates F re serviceName scheduling affinities poolAlgorithm currentMachine all
      filtered) : x.1 ∈ filtered := by
  rw [rankCandidates, List.mem_insertionSort, List.mem_filterMap] at h
  obtain ⟨i, hi, hx⟩ := h
  obtain ⟨c, -, rfl⟩ := Option.map_eq_some_iff.mp hx
  exact hi

variable {name : String} {svc : ServiceConfig}

/-- The candidates at the indices still to be served have room for the service. -/
structure Pending (services : Services)
    (machines : Machines) (svc : ServiceConfig) (rest : List ℕ)
    (s : SchedState) : Prop where
  good : Good services machines svc.scheduling.priority s
  nodup : rest.Nodup
  room : ∀ i ∈ rest, ∃ c, s.candidates[i]? = some c ∧
    c.hasResourcesFor (.fromConfig svc.resources) = true

theorem Pending.step {idx : ℕ} {rest : List ℕ} (hsvc : services.lookup name = some svc)
    (instanceId : String → String) (h : Pending services machines svc (idx :: rest) s) :
    ∃ s', placeOn s idx (.fromConfig svc.resources) name instanceId = some s' ∧
      Pending services machines svc rest s' := by
  obtain ⟨hnotin, hnd⟩ := List.nodup_cons.mp h.nodup
  obtain ⟨c, hc, hroom⟩ := h.room idx List.mem_cons_self
  obtain ⟨s', hs', hg', hframe⟩ := placeOn_spec instanceId h.good hsvc hc hroom
  refine ⟨s', hs', hg', hnd, fun i hi => ?_⟩
  -- the later matches are other machines, which this placement does not touch
  rw [hframe i fun hi' => hnotin (hi' ▸ hi)]
  exact h.room i (List.mem_cons_of_mem _ hi)

/-- RUN (system jobs): the matches are distinct machines, so each still has its room when its turn
    comes. -/
theorem scheduleSystem_spec (hgood : Good services machines svc.scheduling.priority s)
    (hsvc : services.lookup name = some svc) :
    ∃ s', scheduleSystem F re name svc.scheduling (.fromConfig svc.resources) s = some s' ∧
      Good services machines svc.scheduling.priority s' := by
  have hinit : Pending services machines svc
      (filterCandidates F re svc.scheduling name (.fromConfig svc.resources) s.candidates) s := by
    refine ⟨hgood, nodup_filterCandidates F re _ _ _ _, fun i hi => ?_⟩
    obtain ⟨c, hc, hpass⟩ := mem_filterCandidates F re hi
    exact ⟨c, hc, passesFilters_hasResourcesFor F re hpass⟩
  obtain ⟨s', hs', h'⟩ := Loop.foldlM_total (Pending services machines svc)
    (fun _ _ _ h => h.step hsvc fun machine => s!"{name}-{machine}") _ s hinit
  exact ⟨s', hs', h'.good⟩

/-- STEP (replicated jobs): one replica is placed or blocked, never by preemption. -/
theorem scheduleReplica_spec (currentPlacements : CurrentPlacements)
    (poolAlgorithm : Option SchedulerAlgorithm) (affinities : List AffinityConfig) (replica : ℕ)
    (hb : PrioritiesBounded services) (hsvc : services.lookup name = some svc)
    (hgood : Good services machines svc.scheduling.priority s) :
    ∃ s', scheduleReplica F re services currentPlacements poolAlgorithm affinities name
        svc.scheduling (.fromConfig svc.resources) s replica = some s' ∧
      Good services machines svc.scheduling.priority s' := by
  unfold scheduleReplica
  by_cases hempty : (filterCandidates F re svc.scheduling name (.fromConfig svc.resources)
      s.candidates).isEmpty
  · rw [if_pos hempty, findPreemptionCandidate_eq_none F re _ _ _ _ _ hb hgood.senior]
    obtain ⟨P, hP⟩ := hgood.tracks
    exact ⟨_, rfl, ⟨P, hP.items, hP.names, hP.capacity, hP.allocated, hP.known,
      hP.noPreemptions⟩, hgood.senior⟩
  · rw [if_neg hempty]
    split
    · exact ⟨s, rfl, hgood⟩
    · next bestIdx _ _ hrank =>
      have hmem := mem_rankCandidates F re (hrank ▸ List.mem_cons_self)
      obtain ⟨c, hc, hpass⟩ := mem_filterCandidates F re hmem
      obtain ⟨s', hs', hg', -⟩ := placeOn_spec (fun _ => s!"{name}-{replica}") hgood hsvc hc
        (passesFilters_hasResourcesFor F re hpass)
      exact ⟨s', hs', hg'⟩

theorem scheduleService_spec (nodePools : NodePools) (currentPlacements : CurrentPlacements)
    (hb : PrioritiesBounded services) (hsvc : services.lookup name = some svc)
    (hgood : Good services machines svc.scheduling.priority s) :
    ∃ s', scheduleService F re services nodePools currentPlacements s ⟨name, svc⟩ = some s' ∧
      Good services machines svc.scheduling.priority s' := by
  have hreplicas := fun pool affinities => Loop.foldlM_total_const
    (Good services machines svc.scheduling.priority)
    (fun replica s hg => scheduleReplica_spec F re currentPlacements pool affinities replica hb
      hsvc hg) (List.range svc.scheduling.replicas.toNat) s hgood
  unfold scheduleService
  cases h : svc.scheduling.jobType <;> simp only [h]
  case system | sysbatch => exact scheduleSystem_spec F re hgood hsvc
  all_goals exact hreplicas _ _

/-- The loop invariant over the services still to come, in scheduling order. -/
structure Upcoming (services : Services)
    (machines : Machines) (rest : List (Σ _ : String, ServiceConfig))
    (s : SchedState) : Prop where
  tracks : ∃ P : SchedulePacking services machines, Tracks s P
  sorted : rest.Pairwise scheduledBefore
  mem : ∀ x ∈ rest, services.lookup x.1 = some x.2
  senior : ∀ x ∈ rest, Senior services x.2.scheduling.priority s

theorem scheduledBefore.priority_le {a b : Σ _ : String, ServiceConfig} (h : scheduledBefore a b)
    : b.2.scheduling.priority ≤ a.2.scheduling.priority := by
  rcases h with h | ⟨h, -⟩
  · exact UInt32.le_of_lt h
  · exact h ▸ UInt32.le_refl _

theorem Upcoming.step (nodePools : NodePools) (currentPlacements : CurrentPlacements)
    (hb : PrioritiesBounded services) {x : Σ _ : String, ServiceConfig}
    {rest : List (Σ _ : String, ServiceConfig)} (h : Upcoming services machines (x :: rest) s) :
    ∃ s', scheduleService F re services nodePools currentPlacements s x = some s' ∧
      Upcoming services machines rest s' := by
  obtain ⟨s', hs', hg'⟩ := scheduleService_spec F re nodePools currentPlacements hb
    (h.mem x List.mem_cons_self) ⟨h.tracks, h.senior x List.mem_cons_self⟩
  obtain ⟨hbefore, hsorted⟩ := List.pairwise_cons.mp h.sorted
  exact ⟨s', hs', hg'.tracks, hsorted, fun y hy => h.mem y (List.mem_cons_of_mem _ hy),
    fun y hy => hg'.senior.mono (hbefore y hy).priority_le⟩

instance : Std.Total scheduledBefore := ⟨fun a b => by
  unfold scheduledBefore
  simp only [UInt32.lt_iff_toNat_lt, ← UInt32.toNat_inj]
  omega⟩

instance : IsTrans _ scheduledBefore := ⟨fun a b c hab hbc => by
  unfold scheduledBefore at *
  simp only [UInt32.lt_iff_toNat_lt, ← UInt32.toNat_inj] at *
  omega⟩

theorem Upcoming.init (nodePools : NodePools) :
    Upcoming services machines (serviceList services) (initState machines nodePools) where
  tracks := ⟨_, Tracks.init nodePools⟩
  sorted := List.pairwise_insertionSort scheduledBefore _
  mem x hx := HashMap.lookup_of_mem ((List.mem_insertionSort _).mp hx)
  senior x _ c hc name hname := by
    obtain ⟨m, _, rfl⟩ := List.mem_map.mp hc
    simp [mkCandidate] at hname

/-- RUN: the schedule returns, and a packing of the machines by its placements exists. -/
theorem schedule_packs (nodePools : NodePools) (currentPlacements : CurrentPlacements)
    (hb : PrioritiesBounded services) :
    ∃ s, schedule F re services machines nodePools currentPlacements = some s.plan ∧
      ∃ P : SchedulePacking services machines, Tracks s P := by
  obtain ⟨s, hs, h⟩ := Loop.foldlM_total (Upcoming services machines)
    (fun _ _ _ h => h.step F re nodePools currentPlacements hb) (serviceList services)
    (initState machines nodePools) (Upcoming.init nodePools)
  exact ⟨s, by simp only [schedule, hs]; rfl, h.tracks⟩

end Filters

end Run

/-- CORRECT: with priorities that leave room for the margin of 10, scheduling returns a plan (so no
    addition overflows), every placement is of a known service on a known machine, and on every
    machine the requests of its placements together stay within what the machine offers, in CPU,
    memory, disk and every extended resource. -/
theorem schedule_respects_capacity (F : Type) [F64 F] (re : RegexEngine) (services : Services)
    (machines : Machines) (nodePools : NodePools) (currentPlacements : CurrentPlacements)
    (hb : PrioritiesBounded services) :
    ∃ plan, schedule F re services machines nodePools currentPlacements = some plan ∧
      (∀ p ∈ plan.placements, p.serviceName ∈ services ∧ p.machineName ∈ machines) ∧
      ∀ name m, machines.lookup name = some m → ∀ r,
        ((plan.placements.filter (·.machineName = name)).map (request services · r)).sum ≤
          machineCapacity m r := by
  obtain ⟨s, hs, P, hP⟩ := schedule_packs F re nodePools currentPlacements hb
  refine ⟨s.plan, hs, hP.known, fun name m hm r => ?_⟩
  have hfits := P.fits name r
  rwa [hP.items, capacityOf, hm] at hfits

/-- Three replicas of 300 on one machine that offers 700. -/
theorem schedule_respects_capacity_three_replicas :
    ∃ plan, schedule Ratio noRegex
        [⟨"web", { resources := { cpu := some { request := 300 } }, scheduling := { replicas := 3 }
                   : ServiceConfig }⟩].toAList
        [⟨"m1", { capacity := { cpu := 800 }, reserved := { cpu := 100 } : MachineConfig }⟩].toAList
        ∅ ∅ = some plan ∧
      ((plan.placements.filter (·.machineName = "m1")).map (request
        [⟨"web", { resources := { cpu := some { request := 300 } }, scheduling := { replicas := 3 }
                   : ServiceConfig }⟩].toAList · .cpu)).sum ≤ 700 := by
  obtain ⟨plan, hplan, -, hfits⟩ := schedule_respects_capacity Ratio noRegex
    [⟨"web", { resources := { cpu := some { request := 300 } }, scheduling := { replicas := 3 }
               : ServiceConfig }⟩].toAList
    [⟨"m1", { capacity := { cpu := 800 }, reserved := { cpu := 100 } : MachineConfig }⟩].toAList
    ∅ ∅ (by unfold PrioritiesBounded; decide)
  exact ⟨plan, hplan, hfits "m1" _ rfl .cpu⟩

example : schedule Ratio noRegex
    [⟨"web", { resources := { cpu := some { request := 300 } }, scheduling := { replicas := 3 }
               : ServiceConfig }⟩].toAList
    [⟨"m1", { capacity := { cpu := 800 }, reserved := { cpu := 100 } : MachineConfig }⟩].toAList
    ∅ ∅ = some {
      placements := [⟨"web", "web-0", "m1"⟩, ⟨"web", "web-1", "m1"⟩]
      blocked := [⟨"web", "web-2", "no feasible machines"⟩] } := by decide +kernel

/-- CORRECT: with priorities that leave room for the margin of 10, the plan has no preemptions, and
    at whatever replica of whatever service a preemption would be looked for, none is found: the
    services placed before are of no lower priority. -/
theorem schedule_never_preempts (F : Type) [F64 F] (re : RegexEngine) (services : Services)
    (machines : Machines) (nodePools : NodePools) (currentPlacements : CurrentPlacements)
    (hb : PrioritiesBounded services) :
    (∃ plan, schedule F re services machines nodePools currentPlacements = some plan ∧
      plan.preemptions = []) ∧
    ∀ before x rest replica, serviceList services = before ++ x :: rest →
      ∃ s s', before.foldlM (scheduleService F re services nodePools currentPlacements)
          (initState machines nodePools) = some s ∧
        (List.range replica).foldlM (scheduleReplica F re services currentPlacements
          (poolAlgorithm nodePools x.2.scheduling) (expandAffinities x.2.scheduling) x.1
          x.2.scheduling (.fromConfig x.2.resources)) s = some s' ∧
        findPreemptionCandidate F re s'.candidates x.2.scheduling.constraints
          x.2.scheduling.tolerations x.1 x.2.scheduling.priority (.fromConfig x.2.resources)
          services = some none := by
  constructor
  · obtain ⟨s, hs, P, hP⟩ := schedule_packs F re nodePools currentPlacements hb
    exact ⟨s.plan, hs, hP.noPreemptions⟩
  · intro before x rest replica hlist
    obtain ⟨s, hs, hup⟩ := Loop.foldlM_total
      (fun todo s => Upcoming services machines (todo ++ x :: rest) s)
      (fun _ _ _ h => h.step F re nodePools currentPlacements hb) before
      (initState machines nodePools) (hlist ▸ Upcoming.init nodePools)
    obtain ⟨s', hs', hgood⟩ := Loop.foldlM_total_const
      (Good services machines x.2.scheduling.priority)
      (fun replica s hg => scheduleReplica_spec F re currentPlacements
        (poolAlgorithm nodePools x.2.scheduling) (expandAffinities x.2.scheduling) replica hb
        (hup.mem x List.mem_cons_self) hg)
      (List.range replica) s ⟨hup.tracks, hup.senior x List.mem_cons_self⟩
    exact ⟨s, s', hs, hs', findPreemptionCandidate_eq_none F re _ _ _ _ _ hb hgood.senior⟩

/-- A service of priority 100 finds the machine full of one of priority 50 only in a later run. -/
theorem schedule_never_preempts_batch :
    ∃ plan, schedule Ratio noRegex
        [⟨"batch", { resources := { cpu := some { request := 300 } },
                     scheduling := { priority := 50 } : ServiceConfig }⟩,
          ⟨"web", { resources := { cpu := some { request := 300 } },
                    scheduling := { priority := 100 } : ServiceConfig }⟩].toAList
        [⟨"m1", { capacity := { cpu := 300 } : MachineConfig }⟩].toAList ∅ ∅ = some plan ∧
      plan.preemptions = [] :=
  (schedule_never_preempts Ratio noRegex _ _ ∅ ∅
    (by unfold PrioritiesBounded; decide)).1

end Ekafleet.Scheduler
