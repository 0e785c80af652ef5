import Ekafleet.Lib.Float64
import Ekafleet.Lib.Word
import Ekafleet.Server.FleetState
import Mathlib.Data.List.ReduceOption

/-! Scaling decisions for node pools | source: server/scaling.rs, server/state.rs

    A pool is scaled by comparing what its machines have in use with what they offer. The engine
    reads both from the fleet status, which adds them up over the registered nodes. -/

namespace Ekafleet.Server
open Raft (Ipv4Addr)

/-- Resources of a node or pool. -/
structure NodeResources where
  cpuMillicores : UInt64 := 0
  memoryMb : UInt64 := 0
  diskMb : UInt64 := 0
  deriving DecidableEq, Repr

/-- What is known of a pool. -/
structure PoolStatus where
  name : String
  machineCount : UInt32 := 0
  totalSchedulable : Option NodeResources := some {}
  totalAllocated : Option NodeResources := some {}
  deriving DecidableEq, Repr

/-! ### Decisions -/

/-- A threshold rule for a pool. -/
structure PoolScalingRule (F : Type) where
  metricName : String
  targetValue : F
  scaleUpThreshold : F
  scaleDownThreshold : F

/-- The bounds and rules of a pool. -/
structure PoolScalingConfig (F : Type) where
  minCount : UInt32
  maxCount : UInt32
  rules : List (PoolScalingRule F) := []

/-- The size a pool should have. -/
structure PoolScalingDecision where
  poolName : String
  currentCount : UInt32
  desiredCount : UInt32
  deriving DecidableEq, Repr

/-- Instants are nanoseconds. -/
structure PoolScalingEngine (F : Type) where
  policies : HashMap String (PoolScalingConfig F) := ∅
  lastScale : HashMap String ℕ := ∅

namespace PoolScalingEngine

def cooldown : ℕ := 60 * 10 ^ 9

variable {F : Type} [F64 F]

/-- The part of its CPU that a pool has in use, if it has any. -/
def utilization (status : Option PoolStatus) : Option F := do
  let p ← status
  let sched ← p.totalSchedulable
  let alloc ← p.totalAllocated
  if sched.cpuMillicores = 0 then none
  else some (F64.ofNat alloc.cpuMillicores.toNat / F64.ofNat sched.cpuMillicores.toNat)

/-- Whether to scale up, and whether to scale down: any rule can ask for the first, and all have to
    agree on the second. -/
def weigh (util : F) (rules : List (PoolScalingRule F)) : Bool × Bool :=
  rules.foldl (fun verdict rule =>
    let ratio := util / rule.targetValue
    if F64.lt rule.scaleUpThreshold ratio then (true, false)
    else if F64.lt rule.scaleDownThreshold ratio then (verdict.1, false)
    else verdict) (false, true)

/-- The count to aim for; the outer `none` is the overflow of the current count. -/
def desiredCount (policy : PoolScalingConfig F) (util : F) (current : UInt32) :
    Option (Option UInt32) :=
  match weigh util policy.rules with
  | (true, _) => (Word.checkedAdd32 current 1).map fun next => some (min next policy.maxCount)
  | (false, true) =>
    some (some (max (Word.saturatingSub32 current 1) policy.minCount))
  | (false, false) => some none

/-- The decision for one pool, if there is one. -/
def evaluatePool (engine : PoolScalingEngine F) (now : ℕ) (pools : List PoolStatus)
    (poolName : String) (policy : PoolScalingConfig F) : Option (Option PoolScalingDecision) :=
  if (engine.lastScale.lookup poolName).any (fun last => now - last < cooldown) then some none
  else
    let poolStatus := pools.find? (·.name == poolName)
    let currentCount := (poolStatus.map (·.machineCount)).getD 0
    match (utilization poolStatus : Option F) with
    | none => some none
    | some util => do
      let desired ← desiredCount policy util currentCount
      return (desired.filter (· ≠ currentCount)).map fun d => ⟨poolName, currentCount, d⟩

/-- The decisions of one round, for the pools that the fleet status reports. -/
def evaluate (engine : PoolScalingEngine F) (now : ℕ) (pools : List PoolStatus) :
    Option (List PoolScalingDecision) :=
  (engine.policies.entries.mapM fun e => evaluatePool engine now pools e.1 e.2).map
    List.reduceOption

def recordScale (poolName : String) (now : ℕ) (engine : PoolScalingEngine F) :
    PoolScalingEngine F :=
  { engine with lastScale := engine.lastScale.insert poolName now }

end PoolScalingEngine

/-! ### Pools in the fleet status -/

/-- A node with the pool it is in and its resources. -/
structure PoolNode extends NodeInfo where
  address : String := ""
  pool : String := ""
  totalResources : NodeResources := {}
  availableResources : NodeResources := {}

/-- More of each; `none` is an overflow. -/
def NodeResources.plus (r : NodeResources) (cpu memory : UInt64) : Option NodeResources := do
  let cpuMillicores ← Word.checkedAdd r.cpuMillicores cpu
  let memoryMb ← Word.checkedAdd r.memoryMb memory
  return { r with cpuMillicores, memoryMb }

/-- One more node of the pool. -/
def PoolStatus.add (p : PoolStatus) (n : PoolNode) : Option PoolStatus := do
  let total := n.totalResources
  let available := n.availableResources
  let machineCount ← Word.checkedAdd32 p.machineCount 1
  let totalSchedulable ← p.totalSchedulable.mapM (·.plus total.cpuMillicores total.memoryMb)
  let totalAllocated ← p.totalAllocated.mapM
    (·.plus (Word.saturatingSub total.cpuMillicores available.cpuMillicores)
      (Word.saturatingSub total.memoryMb available.memoryMb))
  return { p with machineCount, totalSchedulable, totalAllocated }

/-- The fleet state with the fields that pools are about. -/
structure PooledFleet where
  nodes : HashMap String PoolNode := ∅

/-- What changes the server's view of its agents, with pools and resources. -/
inductive PoolEvent where
  | register (now : ℕ) (nodeId address pool : String)
  | deregister (nodeId : String)
  | evict (now timeoutSecs : ℕ)
  | heartbeat (now : ℕ) (nodeId : String) (resources : Option NodeResources)
  | meshIp (nodeId : String) (ip : Ipv4Addr)
  | health (nodeId : String) (services : List ServiceHealth)
  | status (nodeId : String) (services : List ServiceInstance)
  | setSchedulable (nodeId : String) (schedulable : Bool)
  | drain (order : HashMap.Order) (ext : Extensions) (machine : String)

def PoolEvent.toFleetEvent : PoolEvent → FleetEvent
  | register now nodeId _ _ => .register now nodeId
  | deregister nodeId => .deregister nodeId
  | evict now timeoutSecs => .evict now timeoutSecs
  | heartbeat now nodeId _ => .heartbeat now nodeId
  | meshIp nodeId ip => .meshIp nodeId ip
  | health nodeId services => .health nodeId services
  | status nodeId services => .status nodeId services
  | setSchedulable nodeId schedulable => .setSchedulable nodeId schedulable
  | drain order ext machine => .drain order ext machine

namespace PooledFleet

/-- Without pools and resources. -/
def toFleet (s : PooledFleet) : FleetState := ⟨HashMap.mapVal (fun _ n => n.toNodeInfo) s.nodes⟩

def registerAgent (now : ℕ) (nodeId address pool : String) (s : PooledFleet) : PooledFleet :=
  ⟨s.nodes.insert nodeId { lastHeartbeat := now, address, pool }⟩

def updateHeartbeat (now : ℕ) (nodeId : String) (resources : Option NodeResources)
    (s : PooledFleet) : PooledFleet :=
  ⟨HashMap.adjust nodeId (fun n => { n with
    lastHeartbeat := now
    availableResources := resources.getD n.availableResources }) s.nodes⟩

/-- The nodes of a fleet state, with the pools and resources they had. -/
def carry (s : PooledFleet) (fleet : FleetState) : PooledFleet :=
  ⟨HashMap.mapVal (fun nodeId info =>
    { (s.nodes.lookup nodeId).getD { lastHeartbeat := 0 } with toNodeInfo := info }) fleet.nodes⟩

/-- One event. All but two operations leave pools and resources alone. -/
def step (s : PooledFleet) : PoolEvent → PooledFleet
  | .register now nodeId address pool => s.registerAgent now nodeId address pool
  | .heartbeat now nodeId resources => s.updateHeartbeat now nodeId resources
  | e => s.carry (s.toFleet.step e.toFleetEvent)

/-- The fleet after a history, from a server that has just started. -/
def after (events : List PoolEvent) : PooledFleet := events.foldl step {}

/-- The pools part of `fleet_status`; `none` is an overflow of a sum. -/
def poolStatuses (order : HashMap.Order) (s : PooledFleet) : Option (List PoolStatus) := do
  let pools ← s.nodes.entries.foldlM (fun (m : HashMap String PoolStatus) n => do
    let entry ← ((m.lookup n.2.pool).getD { name := n.2.pool }).add n.2
    return m.insert n.2.pool entry) ∅
  return (order.arrange pools.entries).map (·.2)

/-! ### What the operations do to pools -/

/-- No node offers anything. -/
def NothingOffered (s : PooledFleet) : Prop :=
  ∀ nodeId n, s.nodes.lookup nodeId = some n → n.totalResources = {}

/-- STEP: no operation says what a node offers. -/
theorem nothingOffered_step {s : PooledFleet} (h : s.NothingOffered) (e : PoolEvent) :
    (s.step e).NothingOffered := by
  have hcarry : ∀ fleet : FleetState, (s.carry fleet).NothingOffered := by
    intro fleet nodeId n hn
    rw [carry, HashMap.lookup_mapVal] at hn
    obtain ⟨info, -, rfl⟩ := Option.map_eq_some_iff.mp hn
    rcases hold : s.nodes.lookup nodeId with _ | old
    · rfl
    · exact h nodeId old hold
  cases e with
  | register now nodeId address pool =>
    intro m n hn
    by_cases hm : m = nodeId
    · subst hm
      rw [step, registerAgent, AList.lookup_insert] at hn
      cases hn
      rfl
    · rw [step, registerAgent, AList.lookup_insert_ne hm] at hn
      exact h m n hn
  | heartbeat now nodeId resources =>
    intro m n hn
    rw [step, updateHeartbeat, HashMap.adjust, HashMap.lookup_mapVal] at hn
    obtain ⟨old, hold, rfl⟩ := Option.map_eq_some_iff.mp hn
    split
    · exact h m old hold
    · exact h m old hold
  | deregister | evict | meshIp | health | status | setSchedulable | drain => exact hcarry _

/-- RUN: so no node of any fleet offers anything. -/
theorem nothingOffered_after (events : List PoolEvent) : (after events).NothingOffered := by
  refine List.foldlRecOn (motive := NothingOffered) events _ ?_ fun s hs e _ =>
    nothingOffered_step hs e
  intro nodeId n hn
  cases hn

end PooledFleet

/-! ### Decisions about the fleet -/

/-- The pool has no CPU to schedule on. -/
def PoolStatus.Idle (p : PoolStatus) : Prop :=
  ∃ r, p.totalSchedulable = some r ∧ r.cpuMillicores = 0

theorem PoolStatus.idle_add {p p' : PoolStatus} {n : PoolNode} (hp : p.Idle)
    (hn : n.totalResources = {}) (h : p.add n = some p') : p'.Idle := by
  obtain ⟨r, hsched, hcpu⟩ := hp
  obtain ⟨count, -, h⟩ := Option.bind_eq_some_iff.mp h
  obtain ⟨sched, hplus, h⟩ := Option.bind_eq_some_iff.mp h
  obtain ⟨alloc, -, h⟩ := Option.bind_eq_some_iff.mp h
  cases h
  rw [hsched, hn, Option.mapM_some] at hplus
  obtain ⟨r', hr', rfl⟩ := Option.map_eq_some_iff.mp hplus
  obtain ⟨cpu, hadd, hr'⟩ := Option.bind_eq_some_iff.mp hr'
  obtain ⟨memory, -, hr'⟩ := Option.bind_eq_some_iff.mp hr'
  cases hr'
  rw [hcpu] at hadd
  cases hadd
  exact ⟨_, rfl, rfl⟩

namespace PooledFleet

theorem idle_of_poolStatuses {order : HashMap.Order} {s : PooledFleet} {pools : List PoolStatus}
    (hs : s.NothingOffered) (h : s.poolStatuses order = some pools) : ∀ p ∈ pools, p.Idle := by
  obtain ⟨m, hm, h⟩ := Option.bind_eq_some_iff.mp h
  cases h
  have hidle : ∀ k p, m.lookup k = some p → p.Idle := by
    refine Loop.foldlM_invariant
      (fun m : HashMap String PoolStatus => ∀ k p, m.lookup k = some p → p.Idle) ?_ ?_ hm
    · intro n hn m m' ih hstep
      obtain ⟨entry, hentry, hstep⟩ := Option.bind_eq_some_iff.mp hstep
      cases hstep
      have hbefore : ((m.lookup n.2.pool).getD { name := n.2.pool }).Idle := by
        rcases hlookup : m.lookup n.2.pool with _ | p
        · exact ⟨{}, rfl, rfl⟩
        · exact ih _ p hlookup
      have hnow := PoolStatus.idle_add hbefore (hs n.1 n.2 (HashMap.lookup_of_mem hn)) hentry
      grind [AList.lookup_insert, AList.lookup_insert_ne]
    · intro k p hp
      cases hp
  intro p hp
  obtain ⟨e, he, rfl⟩ := List.mem_map.mp hp
  rw [HashMap.Order.mem_arrange] at he
  exact hidle e.1 e.2 (HashMap.lookup_of_mem he)

end PooledFleet

namespace PoolScalingEngine

variable {F : Type} [F64 F] {engine : PoolScalingEngine F} {now : ℕ} {pools : List PoolStatus}

theorem utilization_of_idle {p : PoolStatus} (h : p.Idle) :
    (utilization (some p) : Option F) = none := by
  obtain ⟨r, hsched, hcpu⟩ := h
  rcases halloc : p.totalAllocated with _ | alloc <;> simp [utilization, hsched, halloc, hcpu]

theorem evaluatePool_of_idle (hpools : ∀ p ∈ pools, p.Idle) (poolName : String)
    (policy : PoolScalingConfig F) :
    evaluatePool engine now pools poolName policy = some none := by
  have hutil : (utilization (pools.find? (·.name == poolName)) : Option F) = none := by
    rcases hfind : pools.find? (·.name == poolName) with _ | p <;> rw [hfind]
    · rfl
    · exact utilization_of_idle (hpools p (List.mem_of_find?_eq_some hfind))
  unfold evaluatePool
  split_ifs
  · rfl
  · simp only [hutil]

theorem evaluate_of_idle (hpools : ∀ p ∈ pools, p.Idle) : engine.evaluate now pools = some [] := by
  have hnone : ∀ entries : List (Σ _ : String, PoolScalingConfig F),
      (entries.mapM fun e => evaluatePool engine now pools e.1 e.2) =
        some (entries.map fun _ => none) := by
    intro entries
    induction entries with
    | nil => rfl
    | cons e entries ih =>
      rw [List.mapM_cons, ih, evaluatePool_of_idle hpools]
      rfl
  rw [evaluate, hnone]
  simp [List.reduceOption]

end PoolScalingEngine

/-- Some history of the fleet makes an engine with the policy scale the pool up. -/
def ScalesUp {F : Type} [F64 F] (pool : String) (policy : PoolScalingConfig F) : Prop :=
  ∃ (events : List PoolEvent) (order : HashMap.Order) (pools : List PoolStatus)
    (engine : PoolScalingEngine F) (now : ℕ) (decisions : List PoolScalingDecision),
    (PooledFleet.after events).poolStatuses order = some pools ∧
    engine.policies.lookup pool = some policy ∧ engine.evaluate now pools = some decisions ∧
    ∃ d ∈ decisions, d.poolName = pool ∧ d.currentCount < d.desiredCount

/-- For no policy is there a history of registrations, heartbeats, reports and other fleet
    operations after which the engine scales the pool up. -/
theorem pool_never_scales_up {F : Type} [F64 F] (pool : String) (policy : PoolScalingConfig F) :
    ¬ ScalesUp pool policy := by
  rintro ⟨events, order, pools, engine, now, decisions, hpools, -, hevaluate, d, hd, -⟩
  have hidle := PooledFleet.idle_of_poolStatuses (PooledFleet.nothingOffered_after events) hpools
  rw [PoolScalingEngine.evaluate_of_idle hidle] at hevaluate
  cases hevaluate
  cases hd

namespace Starved

/-- Scale up as soon as anything is in use. -/
def policy : PoolScalingConfig Ratio where
  minCount := 1
  maxCount := 2
  rules := [⟨"cpu", .ofInt 1, .ofInt 0, .ofInt 0⟩]

def engine : PoolScalingEngine Ratio where
  policies := [⟨"workers", policy⟩].toAList

/-- A machine with most of its CPU in use. -/
def busy : PoolStatus where
  name := "workers"
  machineCount := 1
  totalSchedulable := some { cpuMillicores := 1000 }
  totalAllocated := some { cpuMillicores := 900 }

/-- The target is positive and there is room for two machines. A busy pool would be scaled up, yet
    no history of the fleet leads there. -/
theorem eager_policy_never_scales :
    policy.rules.length = 1 ∧ (∀ rule ∈ policy.rules, F64.lt (.ofInt 0) rule.targetValue = true) ∧
      2 ≤ policy.maxCount ∧ engine.evaluate 0 [busy] = some [⟨"workers", 1, 2⟩] ∧
      ¬ ScalesUp "workers" policy := by
  refine ⟨rfl, by decide, by decide, by decide +kernel, ?_⟩
  rintro ⟨events, order, pools, engine, now, decisions, hpools, -, hevaluate, d, hd, -⟩
  rw [PoolScalingEngine.evaluate_of_idle (PooledFleet.idle_of_poolStatuses
    (PooledFleet.nothingOffered_after events) hpools)] at hevaluate
  cases hevaluate
  cases hd

end Starved

end Ekafleet.Server
