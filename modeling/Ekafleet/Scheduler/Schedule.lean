import Ekafleet.Scheduler.Scoring

/-! The scheduling run | source: server/scheduler/mod.rs

    Services in order of priority, each placed on every matching machine (system jobs) or replica
    by replica on the best-scoring one. A result `none` is a panic: an integer addition overflows
    its width, or an index or key is missing. -/

namespace Ekafleet.Scheduler

/-- `(service, instance) ↦ machine` for instances that are running now. -/
abbrev CurrentPlacements := HashMap (String × String) String

/-- An instance on a machine. -/
structure Placement where
  serviceName : String
  instanceId : String
  machineName : String
  deriving DecidableEq, Repr

/-- An instance that could not be placed. -/
structure BlockedPlacement where
  serviceName : String
  instanceId : String
  reason : String
  deriving DecidableEq, Repr

/-- The result of scheduling. -/
structure PlacementPlan where
  placements : List Placement := []
  blocked : List BlockedPlacement := []
  preemptions : List Preemption := []
  deriving DecidableEq, Repr

/-- What the run carries from service to service. -/
structure SchedState where
  candidates : List Candidate
  plan : PlacementPlan := {}

/-- Pool labels, overridden by the machine's own. -/
def mergeLabels (poolLabels machineLabels : HashMap String String) : HashMap String String :=
  machineLabels ∪ poolLabels

/-- The initial candidate of a machine. -/
def mkCandidate (nodePools : NodePools) (name : String)
    (config : MachineConfig) : Candidate where
  name := name
  config := config
  pool := config.pool
  mergedLabels := mergeLabels (((nodePools.lookup config.pool).map (·.labels)).getD ∅) config.labels
  schedulableCpu := Word.saturatingSub config.capacity.cpu config.reserved.cpu
  schedulableMemory := Word.saturatingSub config.capacity.memory config.reserved.memory
  schedulableDisk := Word.saturatingSub config.capacity.disk config.reserved.disk
  extendedResources := config.extendedResources

/-- System jobs come first among services of one priority. -/
def typeOrder : JobType → ℕ
  | .system => 0
  | .sysbatch => 1
  | .service => 2
  | .stateful => 3
  | .batch => 4

/-- `a` may stand before `b`: higher priority first, then by job type. -/
def scheduledBefore (a b : Σ _ : String, ServiceConfig) : Prop :=
  b.2.scheduling.priority < a.2.scheduling.priority ∨
    (b.2.scheduling.priority = a.2.scheduling.priority ∧
      typeOrder a.2.scheduling.jobType ≤ typeOrder b.2.scheduling.jobType)

instance : DecidableRel scheduledBefore := fun _ _ => inferInstanceAs (Decidable (_ ∨ _))

/-- The services in scheduling order. -/
def serviceList (services : Services) : List (Σ _ : String, ServiceConfig) :=
  services.entries.insertionSort scheduledBefore

/-- Put one instance on candidate `idx`: record the placement and allocate. -/
def placeOn (s : SchedState) (idx : ℕ) (reqs : ResourceRequirements) (serviceName : String)
    (instanceId : String → String) : Option SchedState := do
  let c ← s.candidates[idx]?
  let c' ← c.allocate reqs serviceName
  return {
    candidates := s.candidates.set idx c'
    plan := { s.plan with
      placements := s.plan.placements ++ [⟨serviceName, instanceId c.name, c.name⟩] } }

section Run
variable (F : Type) [F64 F] (re : RegexEngine)

/-- The four filters of the filter phase. -/
def passesFilters (scheduling : SchedulingConfig) (serviceName : String)
    (reqs : ResourceRequirements) (all : List Candidate) (c : Candidate) : Bool :=
  passesConstraints F re c serviceName scheduling.constraints &&
    passesTaints c scheduling.tolerations &&
    passesRequiredSpreads c scheduling.spread serviceName all && c.hasResourcesFor reqs

/-- Indices of the candidates that pass the filters. -/
def filterCandidates (scheduling : SchedulingConfig) (serviceName : String)
    (reqs : ResourceRequirements) (all : List Candidate) : List ℕ :=
  (all.zipIdx.filter fun ci => passesFilters F re scheduling serviceName reqs all ci.1).map Prod.snd

/-- System jobs run on every matching machine; the matches are computed before allocating. -/
def scheduleSystem (serviceName : String) (scheduling : SchedulingConfig)
    (reqs : ResourceRequirements) (s : SchedState) : Option SchedState :=
  (filterCandidates F re scheduling serviceName reqs s.candidates).foldlM
    (fun s idx => placeOn s idx reqs serviceName fun machine => s!"{serviceName}-{machine}") s

/-- Candidate indices with their scores, best first; ties keep the candidate order. -/
def rankCandidates (serviceName : String) (scheduling : SchedulingConfig)
    (affinities : List AffinityConfig) (poolAlgorithm : Option SchedulerAlgorithm)
    (currentMachine : Option String) (all : List Candidate) (filtered : List ℕ) :
    List (ℕ × F) :=
  let score (i : ℕ) : Option (ℕ × F) := all[i]?.map fun c =>
    (i, computeScore re c serviceName all affinities scheduling.spread scheduling.serviceAffinity
      poolAlgorithm currentMachine)
  (filtered.filterMap score).insertionSort fun a b => F64.lt a.2 b.2 = false

/-- Data locality: the machine a stateful instance runs on now. -/
def localityMachine (currentPlacements : CurrentPlacements) (scheduling : SchedulingConfig)
    (serviceName instanceId : String) : Option String :=
  if scheduling.jobType = .stateful then currentPlacements.lookup (serviceName, instanceId)
  else none

/-- Evict one service from candidate `idx`. -/
def evict (services : Services) (idx : ℕ) (s : SchedState) (ev : Preemption) :
    Option SchedState := do
  let cfg ← services.lookup ev.evictedService
  let c ← s.candidates[idx]?
  return {
    candidates := s.candidates.set idx
      (c.deallocate (.fromConfig cfg.resources) ev.evictedService)
    plan := { s.plan with preemptions := s.plan.preemptions ++ [ev] } }

/-- Place one replica, by preemption if no machine passes the filters, else block it. -/
def scheduleReplica (services : Services)
    (currentPlacements : CurrentPlacements) (poolAlgorithm : Option SchedulerAlgorithm)
    (affinities : List AffinityConfig) (serviceName : String) (scheduling : SchedulingConfig)
    (reqs : ResourceRequirements) (s : SchedState) (replica : ℕ) : Option SchedState :=
  let instanceId := s!"{serviceName}-{replica}"
  let filtered := filterCandidates F re scheduling serviceName reqs s.candidates
  if filtered.isEmpty then do
    match ← findPreemptionCandidate F re s.candidates scheduling.constraints
      scheduling.tolerations serviceName scheduling.priority reqs services with
    | some (preemptIdx, evicted) =>
      let s' ← evicted.foldlM (evict services preemptIdx) s
      placeOn s' preemptIdx reqs serviceName fun _ => instanceId
    | none =>
      return { s with plan := { s.plan with
        blocked := s.plan.blocked ++ [⟨serviceName, instanceId, "no feasible machines"⟩] } }
  else
    match rankCandidates F re serviceName scheduling affinities poolAlgorithm
      (localityMachine currentPlacements scheduling serviceName instanceId)
      s.candidates filtered with
    | [] => some s
    | (bestIdx, _) :: _ => placeOn s bestIdx reqs serviceName fun _ => instanceId

/-- The configured affinities, and the pool preference as one more. -/
def expandAffinities (scheduling : SchedulingConfig) : List AffinityConfig :=
  match scheduling.pool with
  | some poolName => scheduling.affinity ++ [⟨"pool", "=", poolName, 50⟩]
  | none => scheduling.affinity

/-- The algorithm of the pool the service prefers. -/
def poolAlgorithm (nodePools : NodePools) (scheduling : SchedulingConfig) :
    Option SchedulerAlgorithm :=
  scheduling.pool.bind fun p => (nodePools.lookup p).bind (·.schedulerAlgorithm)

/-- Schedule one service on top of what is already placed. -/
def scheduleService (services : Services)
    (nodePools : NodePools) (currentPlacements : CurrentPlacements)
    (s : SchedState) (service : Σ _ : String, ServiceConfig) : Option SchedState :=
  let scheduling := service.2.scheduling
  let reqs := ResourceRequirements.fromConfig service.2.resources
  match scheduling.jobType with
  | .system | .sysbatch => scheduleSystem F re service.1 scheduling reqs s
  | .service | .stateful | .batch => (List.range scheduling.replicas.toNat).foldlM
      (scheduleReplica F re services currentPlacements (poolAlgorithm nodePools scheduling)
        (expandAffinities scheduling) service.1 scheduling reqs) s

/-- The state before the first service. -/
def initState (machines : Machines)
    (nodePools : NodePools) : SchedState where
  candidates := machines.entries.map fun m => mkCandidate nodePools m.1 m.2

/-- Schedule all services across the machines. -/
def schedule (services : Services) (machines : Machines)
    (nodePools : NodePools) (currentPlacements : CurrentPlacements) :
    Option PlacementPlan := do
  let s ← (serviceList services).foldlM
    (scheduleService F re services nodePools currentPlacements) (initState machines nodePools)
  return s.plan

end Run

end Ekafleet.Scheduler
