import Ekafleet.Scheduler.Constraints

/-! The score phase and preemption | source: server/scheduler/scoring.rs

    Scores are sums of floats in the order the source adds them, over any float type `F`.
    Preemption looks for a machine on which evicting services of lower priority frees enough room;
    its `u32` and `u64` additions are checked. -/

namespace Ekafleet.Scheduler
open Word

/-- An instance that gives way. -/
structure Preemption where
  evictedService : String
  evictedInstanceId : String
  machineName : String
  reason : String
  deriving DecidableEq, Repr

section Score
variable {F : Type} [F64 F]

/-- Score of one spread rule: even distribution, or closeness to the target percentages. -/
def spreadScore (c : Candidate) (serviceName : String) (all : List Candidate) (score : F)
    (spread : SpreadConfig) : F :=
  match getAttribute c spread.attr with
  | none => score
  | some myVal =>
    let sameCount := all.countP fun o =>
      o.assignedServices.contains serviceName && getAttribute o spread.attr == some myVal
    let weight : F := F64.ofNat (spread.weight.getD 50)
    if spread.targets.isEmpty then score + weight / (F64.ofNat sameCount + F64.ofNat 1)
    else
      let totalPlaced := (all.flatMap (·.assignedServices)).count serviceName
      match spread.targets.find? (·.value == myVal) with
      | none => score
      | some target =>
        let desired : F := F64.ofNat target.percent / F64.ofNat 100
        let actual : F := if 0 < totalPlaced then F64.ofNat sameCount / F64.ofNat totalPlaced
          else F64.ofNat 0
        score + weight * (F64.ofNat 1 - F64.abs (actual - desired))

variable (re : RegexEngine)

/-- Placement score of a candidate; higher is better. -/
def computeScore (c : Candidate) (serviceName : String) (all : List Candidate)
    (affinities : List AffinityConfig) (spreads : List SpreadConfig)
    (serviceAffinities : List ServiceAffinityConfig) (poolAlgorithm : Option SchedulerAlgorithm)
    (currentMachine : Option String) : F :=
  let util : F := c.utilization
  let score : F := match poolAlgorithm with
    | some .spread => F64.ofNat 0 + (F64.ofNat 1 - util) * F64.ofNat 30
    | _ => F64.ofNat 0 + util * F64.ofNat 30
  let score := spreads.foldl (spreadScore c serviceName all) score
  let score := affinities.foldl (fun s a =>
    if evaluateOperator F re (getAttribute c a.attr) a.op a.value then s + F64.ofInt a.weight
    else s) score
  let sameServiceCount := c.assignedServices.count serviceName
  let score := if 0 < sameServiceCount then score - F64.ofNat 100 * F64.ofNat sameServiceCount
    else score
  let score := c.config.taints.foldl (fun s taint =>
    if taint.effect = .preferNoSchedule then s - F64.ofNat 50 else s) score
  let score := serviceAffinities.foldl (fun s sa =>
    match getAttribute c sa.topologyKey with
    | none => s
    | some myVal =>
      if all.any fun o => o.assignedServices.contains sa.targetService &&
          getAttribute o sa.topologyKey == some myVal
      then s + F64.ofInt sa.weight else s) score
  -- data locality: the machine that already holds this instance's data
  if currentMachine = some c.name then score + F64.ofNat 200 else score

end Score

/-! ### Preemption -/

/-- A service on a machine that may be evicted, with what it would free. -/
structure Evictable where
  name : String
  cpu : UInt64
  memory : UInt64
  disk : UInt64
  priority : UInt32
  deriving DecidableEq, Repr

/-- The assigned services whose priority is at least 10 below the requesting one. -/
def evictableServices (services : Services) (servicePriority : UInt32) :
    List String → Option (List Evictable)
  | [] => some []
  | assigned :: rest =>
    match services.lookup assigned with
    | none => evictableServices services servicePriority rest
    | some cfg => do
      let bound ← checkedAdd32 cfg.scheduling.priority 10
      let tail ← evictableServices services servicePriority rest
      let reqs := ResourceRequirements.fromConfig cfg.resources
      return if bound ≤ servicePriority
        then ⟨assigned, reqs.cpu, reqs.memory, reqs.disk, cfg.scheduling.priority⟩ :: tail
        else tail

/-- Running totals of the greedy eviction on one machine. -/
structure Freed where
  cpu : UInt64
  memory : UInt64
  disk : UInt64
  evictions : List Preemption := []
  totalEvictedPriority : UInt32 := 0

def Freed.enough (f : Freed) (reqs : ResourceRequirements) : Bool :=
  reqs.cpu ≤ f.cpu && reqs.memory ≤ f.memory && reqs.disk ≤ f.disk

/-- Evict from the front of the list until there is enough room. -/
def evictUntilEnough (serviceName : String) (servicePriority : UInt32)
    (reqs : ResourceRequirements) (machineName : String) : List Evictable → Freed → Option Freed
  | [], f => some f
  | e :: es, f =>
    if f.enough reqs then some f
    else do
      let cpu ← checkedAdd f.cpu e.cpu
      let memory ← checkedAdd f.memory e.memory
      let disk ← checkedAdd f.disk e.disk
      let total ← checkedAdd32 f.totalEvictedPriority e.priority
      let reason := s!"preempted by {serviceName} (priority {servicePriority} > {e.priority})"
      evictUntilEnough serviceName servicePriority reqs machineName es
        { cpu, memory, disk, totalEvictedPriority := total
          evictions := f.evictions ++
            [⟨e.name, s!"{e.name}-{machineName}", machineName, reason⟩] }

/-- The evictions that would make room on one machine, if there are any that do. -/
def preemptOn (services : Services) (serviceName : String)
    (servicePriority : UInt32) (reqs : ResourceRequirements) (c : Candidate) :
    Option (Option Freed) := do
  let evictable ← evictableServices services servicePriority c.assignedServices
  if evictable.isEmpty then return none
  let sorted := evictable.insertionSort fun a b => a.priority ≤ b.priority
  let freed ← evictUntilEnough serviceName servicePriority reqs c.name sorted
    { cpu := c.availableCpu, memory := c.availableMemory, disk := c.availableDisk }
  return if freed.enough reqs then some freed else none

/-- Fewer evictions, then lower total priority. -/
def Freed.better (f best : Freed) : Bool :=
  f.evictions.length < best.evictions.length ||
    (f.evictions.length == best.evictions.length &&
      f.totalEvictedPriority < best.totalEvictedPriority)

/-- One turn of the search over the machines: keep the better of the best so far and this one. -/
def considerPreemption (F : Type) [F64 F] (re : RegexEngine) (constraints : List Constraint)
    (tolerations : List Toleration) (serviceName : String) (servicePriority : UInt32)
    (reqs : ResourceRequirements) (allServices : Services)
    (best : Option (ℕ × Freed)) (x : Candidate × ℕ) : Option (Option (ℕ × Freed)) :=
  if !passesConstraints F re x.1 serviceName constraints then some best
  else if !passesTaints x.1 tolerations then some best
  else do
    match ← preemptOn allServices serviceName servicePriority reqs x.1, best with
    | none, _ => return best
    | some freed, none => return some (x.2, freed)
    | some freed, some (i, prev) =>
      return if freed.better prev then some (x.2, freed) else some (i, prev)

/-- A machine where evicting lower-priority services frees enough room, with the evictions. The
    outer `none` is an arithmetic overflow. -/
def findPreemptionCandidate (F : Type) [F64 F] (re : RegexEngine) (candidates : List Candidate)
    (constraints : List Constraint) (tolerations : List Toleration) (serviceName : String)
    (servicePriority : UInt32) (reqs : ResourceRequirements)
    (allServices : Services) : Option (Option (ℕ × List Preemption)) := do
  let best ← candidates.zipIdx.foldlM (considerPreemption F re constraints tolerations serviceName
    servicePriority reqs allServices) none
  return best.map fun (idx, freed) => (idx, freed.evictions)

end Ekafleet.Scheduler
