import Ekafleet.Config
import Ekafleet.Lib.Effect
import Ekafleet.Server.PoolScaling

/-! Machines for node pools | source: server/cloud/actuator.rs, server/cloud/instance_tracker.rs

    The actuator turns the decisions of the scaling engine into cloud machines. A decision counts
    the machines that have joined the fleet; one that was created and has not joined yet is tracked,
    but not counted. The log records every machine that was created or destroyed, in that order.
    A panic ends the task. -/

namespace Ekafleet.Server
open Raft (StateMachineInner TrackedCloudInstance Command applyNext)
open Effect

/-- What happens to machines of a pool. -/
inductive VmEvent where
  | created (pool instanceId : String)
  | destroyed (pool instanceId : String)
  deriving DecidableEq, Repr

namespace VmEvent

/-- The machines of a pool after one more event. -/
def apply (pool : String) (vms : List String) : VmEvent → List String
  | created p instanceId => if p = pool then instanceId :: vms else vms
  | destroyed p instanceId => if p = pool then vms.erase instanceId else vms

/-- The machines of a pool that were created and not destroyed. -/
def live (pool : String) (log : List VmEvent) : List String := log.foldl (apply pool) []

def isCreation (pool : String) : VmEvent → Bool
  | created p _ => p = pool
  | destroyed _ _ => false

/-- At no time had the pool more machines than this. -/
def Bounded (pool : String) (max : ℕ) (log : List VmEvent) : Prop :=
  ∀ moment, moment <+: log → (live pool moment).length ≤ max

theorem length_foldl_apply_le (pool : String) (log : List VmEvent) (vms : List String) :
    (log.foldl (apply pool) vms).length ≤ vms.length + log.countP (isCreation pool) := by
  induction log generalizing vms with
  | nil => simp
  | cons e log ih =>
    rw [List.foldl_cons, List.countP_cons]
    refine (ih _).trans ?_
    cases e with
    | created p instanceId =>
      grind [apply, isCreation]
    | destroyed p instanceId =>
      have herase := List.length_erase_le (a := instanceId) (l := vms)
      by_cases hp : p = pool
      · simp only [apply, isCreation, hp, if_true]
        simp
        omega
      · simp [apply, isCreation, hp]

theorem length_foldl_replicate (pool instanceId : String) (n : ℕ) (vms : List String) :
    ((List.replicate n (created pool instanceId)).foldl (apply pool) vms).length =
      vms.length + n := by
  induction n generalizing vms with
  | zero => rfl
  | succ n ih =>
    rw [List.replicate_succ, List.foldl_cons, ih, apply, if_pos rfl, List.length_cons]
    omega

theorem Bounded.append {pool : String} {max : ℕ} {log new : List VmEvent} (h : Bounded pool max log)
    (hnew : (live pool log).length + new.countP (isCreation pool) ≤ max) :
    Bounded pool max (log ++ new) := by
  intro moment hmoment
  rcases List.prefix_or_prefix_of_prefix hmoment (List.prefix_append log new) with hold | hlater
  · exact h moment hold
  · obtain ⟨part, rfl⟩ := hlater
    grind [List.prefix_append_right_inj, isCreation, length_foldl_apply_le, live, apply]

end VmEvent

/-- A request to the cloud provider. -/
structure CreateMachineRequest where
  pool : String
  imageId : String
  region : String
  spot : Option SpotConfig
  deriving DecidableEq, Repr

/-- A machine as the provider reports it. -/
structure MachineInstance where
  instanceId : String
  provider : String
  privateIp : Option String
  deriving DecidableEq, Repr

/-- Where the actuator panics. -/
inductive Panic where
  | overflow
  | imageId
  | backoff
  deriving DecidableEq, Repr

/-- The node pools of the fleet, and which of them have a cloud provider. -/
structure ActuatorConfig where
  nodePools : NodePools := ∅
  providers : String → Bool

/-- The actuator and its counters. -/
structure ScalingActuator (F : Type) where
  poolEngine : PoolScalingEngine F := {}
  /-- Consecutive failures of a pool, and the instant of the last one. -/
  failureCounts : HashMap String (ℕ × ℕ) := ∅
  raft : StateMachineInner := {}
  fleetState : FleetState := {}
  log : List VmEvent := []

/-- What others do to the state that the actuator shares with them: agents join, report and leave.
    -/
inductive Meanwhile where
  | raft (now : ℕ) (command : Command)
  | fleet (e : FleetEvent)

/-- Where in a cycle others get their turn. -/
inductive Stage where
  | health (pool : String)
  | select (pool : String) (round : ℕ)
  | drain (pool : String) (round : ℕ)

/-- What a cycle meets: the clocks (nanoseconds for instants, seconds for dates), the fleet status,
    the iteration order of hash maps, what the providers answer to the requests for a pool, and what
    others do. -/
structure Cycle where
  instant : ℕ
  epoch : ℕ
  reported : List PoolStatus
  order : HashMap.Order
  timedOutDestroyed : (pool instanceId : String) → Bool
  handledAt : (pool : String) → ℕ
  failedAt : (pool : String) → ℕ
  scaledAt : (pool : String) → ℕ
  createMachine : (attempt : ℕ) → CreateMachineRequest → Option MachineInstance
  createdAt : (pool : String) → (attempt : ℕ) → ℕ
  destroyMachine : (pool : String) → (round : ℕ) → (instanceId : String) → Bool
  meanwhile : Stage → List Meanwhile

variable {F : Type}

/-- A computation of the actuator. -/
abbrev Acting (F : Type) := Effect (ScalingActuator F) Panic

def Meanwhile.step (s : ScalingActuator F) : Meanwhile → ScalingActuator F
  | .raft now command => { s with raft := (applyNext now s.raft command).1 }
  | .fleet e => { s with fleetState := s.fleetState.step e }

def maxScaleUpPerCycle : ℕ := 3

/-- How many instances a decision to scale up asks for at once. -/
def PoolScalingDecision.instancesToCreate (d : PoolScalingDecision) : ℕ :=
  min (d.desiredCount.toNat - d.currentCount.toNat) maxScaleUpPerCycle

namespace ScalingActuator

def new (poolEngine : PoolScalingEngine F) (raft : StateMachineInner) (fleetState : FleetState) :
    ScalingActuator F :=
  { poolEngine, raft, fleetState }

/-! ### Instances -/

def forPool (order : HashMap.Order) (pool : String) (s : ScalingActuator F) :
    List TrackedCloudInstance :=
  ((order.arrange s.raft.cloudInstances.entries).map (·.2)).filter (·.pool = pool)

def serviceCountForNode (nodeId : String) (s : ScalingActuator F) : ℕ :=
  ((s.fleetState.nodes.lookup nodeId).map (·.services.entries.length)).getD 0

/-- The instance to remove: one that has not joined, or else one with the fewest services, the
    newest of these. -/
def selectScaledownCandidate (order : HashMap.Order) (pool : String) (s : ScalingActuator F) :
    Option TrackedCloudInstance :=
  let instances := s.forPool order pool
  match instances.find? (·.fleetNodeId.isNone) with
  | some inst => some inst
  | none =>
    let scored := instances.map fun inst =>
      (inst, (inst.fleetNodeId.map s.serviceCountForNode).getD 0)
    (scored.insertionSort fun a b =>
      a.2 < b.2 ∨ a.2 = b.2 ∧ b.1.createdAt ≤ a.1.createdAt).head?.map (·.1)

def track (inst : MachineInstance) (pool : String) (now : ℕ) (s : ScalingActuator F) :
    ScalingActuator F :=
  { s with raft := (applyNext now s.raft
    (.trackCloudInstance inst.instanceId inst.provider pool inst.privateIp now)).1 }

def untrack (instanceId : String) (now : ℕ) (s : ScalingActuator F) : ScalingActuator F :=
  { s with raft := (applyNext now s.raft (.untrackCloudInstance instanceId)).1 }

/-! ### Backoff -/

/-- How long to wait after a number of failures: a minute, doubled each time, at most ten. `none` is
    a duration that cannot be represented. -/
def backoffAfter (failures : ℕ) : Option ℕ :=
  if 60 * 2 ^ (failures - 1) < 2 ^ 64 then some (min (60 * 2 ^ (failures - 1)) 600 * 10 ^ 9)
  else none

/-- The pool failed too recently. -/
def isInBackoff (now : ℕ) (pool : String) (s : ScalingActuator F) : Except Panic Bool :=
  match s.failureCounts.lookup pool with
  | some (count, lastFailure) =>
    match backoffAfter count with
    | some backoff => .ok (now - lastFailure < backoff)
    | none => .error .backoff
  | none => .ok false

def recordFailure (now : ℕ) (pool : String) : Acting F Unit := do
  let failures ← Effect.read fun s => ((s.failureCounts.lookup pool).map (·.1)).getD 0
  update fun s => { s with failureCounts := s.failureCounts.insert pool (failures + 1, now) }
  match backoffAfter (failures + 1) with
  | some _ => return ()
  | none => fail .backoff

def clearFailure (pool : String) : Acting F Unit :=
  update fun s => { s with failureCounts := s.failureCounts.erase pool }

def recordScale (now : ℕ) (pool : String) : Acting F Unit :=
  update fun s => { s with poolEngine := s.poolEngine.recordScale pool now }

/-! ### A cycle -/

variable (cfg : ActuatorConfig) (w : Cycle)

def whileAt (stage : Stage) : Acting F Unit :=
  update fun s => (w.meanwhile stage).foldl Meanwhile.step s

/-- An instance that is not there any more. -/
def forget (pool instanceId : String) : Acting F Unit :=
  update fun s => { s.untrack instanceId w.epoch with log := s.log ++ [.destroyed pool instanceId] }

/-- Terminate the instances of a pool whose agents did not join in time. -/
def checkPoolHealth (pool : String) (cloud : CloudProviderConfig) : Acting F Unit := do
  whileAt w (.health pool)
  let instances ← Effect.read (forPool w.order pool)
  instances.forM fun inst =>
    if inst.fleetNodeId.isNone ∧ cloud.joinTimeoutSeconds < w.epoch - inst.createdAt ∧
        w.timedOutDestroyed pool inst.cloudInstanceId then
      forget w pool inst.cloudInstanceId
    else pure ⟨⟩

/-- Check the machines of every pool. -/
def checkLaunchHealth : Acting F Unit :=
  cfg.nodePools.entries.forM fun e =>
    match e.2.cloud with
    | some cloud => if cfg.providers e.1 then checkPoolHealth w e.1 cloud else pure ⟨⟩
    | none => pure ⟨⟩

/-- Create an instance and track it; `none` if the provider refuses. -/
def createInstance (pool : String) (cloud : CloudProviderConfig) (attempt : ℕ) :
    Acting F (Option String) :=
  match cloud.imageId with
  | none => fail .imageId
  | some imageId =>
    match w.createMachine attempt ⟨pool, imageId, cloud.region, cloud.spot⟩ with
    | none => pure none
    | some inst => do
      update fun s => { s.track inst pool (w.createdAt pool attempt) with
        log := s.log ++ [.created pool inst.instanceId] }
      return some inst.instanceId

/-- Create up to `n` instances; an instance that is refused at spot price may be had on demand, and
    the first that is refused altogether ends the loop. Returns whether any was created. -/
def createInstances (pool : String) (cloud : CloudProviderConfig) :
    (n attempt : ℕ) → (anySuccess : Bool) → Acting F Bool
  | 0, _, anySuccess => pure anySuccess
  | n + 1, attempt, anySuccess => do
    let created ← createInstance w pool cloud attempt
    match created with
    | some _ => createInstances pool cloud n (attempt + 2) true
    | none =>
      if cloud.spot.any fun spot => spot.enabled && spot.fallbackToOnDemand then
        let created ← createInstance w pool { cloud with spot := none } (attempt + 1)
        match created with
        | some _ => createInstances pool cloud n (attempt + 2) true
        | none =>
          recordFailure (w.failedAt pool) pool
          return anySuccess
      else
        recordFailure (w.failedAt pool) pool
        return anySuccess

/-- Machines were created or refused. -/
def finishScaleUp (pool : String) (anySuccess : Bool) : Acting F Unit := do
  if anySuccess then clearFailure pool
  recordScale (w.scaledAt pool) pool

/-- Create machines for a pool. -/
def handleScaleUp (d : PoolScalingDecision) : Acting F Unit := do
  let backoff ← Effect.read (isInBackoff (w.handledAt d.poolName) d.poolName)
  let inBackoff ← lift id backoff
  if inBackoff then return ()
  else if !cfg.providers d.poolName then return ()
  else match (cfg.nodePools.lookup d.poolName).bind (·.cloud) with
    | none => return ()
    | some cloud =>
      let anySuccess ← createInstances w d.poolName cloud d.instancesToCreate 0 false
      finishScaleUp w d.poolName anySuccess

/-- A node that has joined is drained before its machine is terminated. -/
def drainNode (pool : String) (round : ℕ) (inst : TrackedCloudInstance) : Acting F Unit :=
  match inst.fleetNodeId with
  | some nodeId => do
    update fun s => { s with fleetState := s.fleetState.setSchedulable nodeId false }
    whileAt w (.drain pool round)
  | none => pure ⟨⟩

/-- Remove up to `n` instances; the first that the provider does not terminate ends the loop. -/
def removeInstances (pool : String) : (n round : ℕ) → Acting F Unit
  | 0, _ => pure ⟨⟩
  | n + 1, round => do
    whileAt w (.select pool round)
    let candidate ← Effect.read (selectScaledownCandidate w.order pool)
    match candidate with
    | none => return ()
    | some inst =>
      drainNode w pool round inst
      if w.destroyMachine pool round inst.cloudInstanceId then
        forget w pool inst.cloudInstanceId
        removeInstances pool n (round + 1)
      else return ()

/-- Remove machines of a pool. -/
def handleScaleDown (d : PoolScalingDecision) : Acting F Unit :=
  if !cfg.providers d.poolName then pure ⟨⟩
  else do
    removeInstances w d.poolName (d.currentCount.toNat - d.desiredCount.toNat) 0
    recordScale (w.scaledAt d.poolName) d.poolName

def handle (d : PoolScalingDecision) : Acting F Unit :=
  if d.currentCount < d.desiredCount then handleScaleUp cfg w d
  else if d.desiredCount < d.currentCount then handleScaleDown cfg w d
  else pure ⟨⟩

section Cycles
variable [F64 F]

def decisions : Acting F (List PoolScalingDecision) := do
  let decisions ← Effect.read fun s => s.poolEngine.evaluate w.instant w.reported
  match decisions with
  | some decisions => return decisions
  | none => fail .overflow

/-- One cycle. -/
def runCycle : Acting F Unit := do
  checkLaunchHealth cfg w
  let decisions ← decisions w
  decisions.forM (handle cfg w)

/-- A history: cycles of the actuator, and what others do between them. -/
inductive Event where
  | cycle (w : Cycle)
  | meanwhile (o : Meanwhile)

def step (e : Event) : Acting F Unit :=
  match e with
  | .cycle w => runCycle cfg w
  | .meanwhile o => update fun s => o.step s

end Cycles

/-! ### What a cycle adds to the log -/

/-- At most `n` machines of the pool were created, and the policies are still the same. -/
structure Adds (pool : String) (n : ℕ) (s s' : ScalingActuator F) : Prop where
  log : ∃ new, s'.log = s.log ++ new ∧ new.countP (VmEvent.isCreation pool) ≤ n
  policies : s'.poolEngine.policies = s.poolEngine.policies

namespace Adds

variable {pool : String} {n m : ℕ} {s s' s'' : ScalingActuator F}

theorem nothing (h : s'.log = s.log) (hpolicies : s'.poolEngine.policies = s.poolEngine.policies) :
    Adds pool n s s' := ⟨⟨[], by simp [h], by simp⟩, hpolicies⟩

theorem trans (h : Adds pool n s s') (h' : Adds pool m s' s'') : Adds pool (n + m) s s'' := by
  obtain ⟨new, hlog, hnew⟩ := h.log
  obtain ⟨new', hlog', hnew'⟩ := h'.log
  refine ⟨⟨new ++ new', by rw [hlog', hlog, List.append_assoc], ?_⟩, h'.policies.trans h.policies⟩
  rw [List.countP_append]
  omega

theorem mono (h : Adds pool n s s') (hnm : n ≤ m) : Adds pool m s s' := by
  obtain ⟨new, hlog, hnew⟩ := h.log
  exact ⟨⟨new, hlog, hnew.trans hnm⟩, h.policies⟩

theorem bounded {max : ℕ} (h : Adds pool n s s') (hs : VmEvent.Bounded pool max s.log)
    (hroom : (VmEvent.live pool s.log).length + n ≤ max) : VmEvent.Bounded pool max s'.log := by
  obtain ⟨new, hlog, hnew⟩ := h.log
  rw [hlog]
  exact hs.append (by omega)

theorem bounded_zero {max : ℕ} (h : Adds pool 0 s s') (hs : VmEvent.Bounded pool max s.log) :
    VmEvent.Bounded pool max s'.log :=
  h.bounded hs (hs s.log (List.prefix_refl _))

end Adds

instance (pool : String) : Std.Refl (Adds (F := F) pool 0) := ⟨fun _ => Adds.nothing rfl rfl⟩

instance (pool : String) : IsTrans (ScalingActuator F) (Adds pool 0) where
  trans _ _ _ := Adds.trans

section Log
variable {cfg : ActuatorConfig} {w : Cycle} {pool : String} {s : ScalingActuator F}

theorem adds_meanwhile (events : List Meanwhile) (s : ScalingActuator F) :
    Adds pool 0 s (events.foldl Meanwhile.step s) := by
  refine List.foldlRecOn (motive := Adds pool 0 s) events _ (refl_of _ s) fun s' hs o _ => ?_
  refine trans_of (Adds pool 0) hs ?_
  cases o <;> exact Adds.nothing rfl rfl

theorem adds_whileAt (stage : Stage) : Within (Adds pool 0) (whileAt (F := F) w stage) :=
  within_update fun s => adds_meanwhile _ s

theorem adds_forget (p instanceId : String) :
    Within (Adds pool 0) (forget (F := F) w p instanceId) :=
  within_update fun _ =>
    ⟨⟨[.destroyed p instanceId], rfl, by simp [VmEvent.isCreation]⟩, rfl⟩

theorem adds_checkLaunchHealth : Within (Adds pool 0) (checkLaunchHealth (F := F) cfg w) := by
  refine within_forM (fun e => ?_) _
  split
  · split_ifs
    · refine (adds_whileAt _).bind fun _ => (within_read _).bind fun instances => ?_
      refine within_forM (fun inst => ?_) _
      split_ifs
      · exact adds_forget _ _
      · exact within_pure _
    · exact within_pure _
  · exact within_pure _

theorem adds_recordFailure (now : ℕ) (p : String) :
    Within (Adds pool 0) (recordFailure (F := F) now p) := by
  refine (within_read _).bind fun failures => Within.bind (within_update fun s => ?_) fun _ => ?_
  · exact Adds.nothing rfl rfl
  · split
    · exact within_pure _
    · exact within_fail _

theorem adds_recordScale (now : ℕ) (p : String) :
    Within (Adds pool 0) (recordScale (F := F) now p) :=
  within_update fun _ => Adds.nothing rfl rfl

theorem adds_removeInstances (p : String) :
    ∀ n round, Within (Adds pool 0) (removeInstances (F := F) w p n round)
  | 0, _ => within_pure _
  | n + 1, round => by
    refine (adds_whileAt _).bind fun _ => (within_read _).bind fun candidate => ?_
    split
    · exact within_pure _
    · refine Within.bind ?_ fun _ => ?_
      · unfold drainNode
        split
        · exact Within.bind (within_update fun s => Adds.nothing rfl rfl) fun _ => adds_whileAt _
        · exact within_pure _
      · split_ifs
        · exact (adds_forget _ _).bind fun _ => adds_removeInstances p n (round + 1)
        · exact within_pure _

theorem adds_handleScaleDown (d : PoolScalingDecision) :
    Within (Adds pool 0) (handleScaleDown (F := F) cfg w d) := by
  unfold handleScaleDown
  split_ifs
  · exact within_pure _
  · exact (adds_removeInstances _ _ _).bind fun _ => adds_recordScale _ _

/-- CASES: a machine is created, or the log stays as it is. -/
theorem createInstance_cases (w : Cycle) (p : String) (cloud : CloudProviderConfig) (attempt : ℕ)
    (s : ScalingActuator F) :
    (createInstance w p cloud attempt s = (.ok none, s)) ∨
    (createInstance w p cloud attempt s = (.error .imageId, s)) ∨
    ∃ instanceId s', createInstance w p cloud attempt s = (.ok (some instanceId), s') ∧
      s'.log = s.log ++ [.created p instanceId] ∧
      s'.poolEngine.policies = s.poolEngine.policies := by
  unfold createInstance
  rcases cloud.imageId with _ | imageId
  · exact .inr (.inl rfl)
  · dsimp only
    rcases w.createMachine attempt ⟨p, imageId, cloud.region, cloud.spot⟩ with _ | inst
    · exact .inl rfl
    · exact .inr (.inr ⟨_, _, rfl, rfl, rfl⟩)

theorem adds_created {s s' : ScalingActuator F} {p instanceId : String}
    (h : s'.log = s.log ++ [.created p instanceId] ∧
      s'.poolEngine.policies = s.poolEngine.policies) :
    Adds pool (if p = pool then 1 else 0) s s' := by
  refine ⟨⟨_, h.1, ?_⟩, h.2⟩
  by_cases hp : p = pool <;> simp [VmEvent.isCreation, hp]

/-- STEP: the loop creates no more machines than it is asked for, and only in its pool. -/
theorem adds_createInstances (p : String) (cloud : CloudProviderConfig) :
    ∀ n attempt any, Within (Adds pool (if p = pool then n else 0))
      (createInstances (F := F) w p cloud n attempt any)
  | 0, _, _ => fun _ => Adds.nothing rfl rfl
  | n + 1, attempt, any => by
    intro s
    have hrest : ∀ {s' : ScalingActuator F} {instanceId : String},
        s'.log = s.log ++ [.created p instanceId] ∧
          s'.poolEngine.policies = s.poolEngine.policies →
        Adds pool (if p = pool then n + 1 else 0) s
          (createInstances w p cloud n (attempt + 2) true s').2 := by
      intro s' instanceId hlog
      refine ((adds_created hlog).trans (adds_createInstances p cloud n _ _ s')).mono ?_
      split_ifs <;> omega
    have hfailed : Adds pool (if p = pool then n + 1 else 0) s
        ((recordFailure (w.failedAt p) p >>= fun _ => pure any : Acting F Bool) s).2 :=
      (((adds_recordFailure _ _).bind fun _ => within_pure _) s).mono (Nat.zero_le _)
    rw [createInstances, bind_apply]
    rcases createInstance_cases w p cloud attempt s with h | h | ⟨instanceId, s', h, hlog⟩
    · rw [h]
      dsimp only
      by_cases hspot : (cloud.spot.any fun spot => spot.enabled && spot.fallbackToOnDemand) = true
      · rw [if_pos hspot, bind_apply]
        grind [createInstance_cases, Adds.nothing]
      · rw [if_neg hspot]
        exact hfailed
    · rw [h]
      exact Adds.nothing rfl rfl
    · rw [h]
      exact hrest hlog

variable {cloud : CloudProviderConfig} {d : PoolScalingDecision}

theorem adds_createInstances_none {p : String} (h : cloud.imageId = none) (n attempt : ℕ)
    (any : Bool) (s : ScalingActuator F) :
    Adds pool 0 s (createInstances w p cloud n attempt any s).2 := by
  cases n with
  | zero => exact Adds.nothing rfl rfl
  | succ n =>
    rw [createInstances, bind_apply, createInstance, h]
    exact Adds.nothing rfl rfl

theorem adds_finishScaleUp (p : String) (anySuccess : Bool) :
    Within (Adds pool 0) (finishScaleUp (F := F) w p anySuccess) := by
  cases anySuccess with
  | false => exact adds_recordScale _ _
  | true => exact Within.bind (within_update fun s => Adds.nothing rfl rfl) fun _ =>
    adds_recordScale _ _

/-- The call gets as far as asking the provider. -/
def Asks (cfg : ActuatorConfig) (w : Cycle) (d : PoolScalingDecision) (cloud : CloudProviderConfig)
    (s : ScalingActuator F) : Prop :=
  isInBackoff (w.handledAt d.poolName) d.poolName s = .ok false ∧ cfg.providers d.poolName = true ∧
    (cfg.nodePools.lookup d.poolName).bind (·.cloud) = some cloud ∧ cloud.imageId ≠ none

theorem handleScaleUp_of_asks (h : Asks cfg w d cloud s) :
    handleScaleUp cfg w d s =
      (createInstances w d.poolName cloud d.instancesToCreate 0 false >>=
        finishScaleUp w d.poolName) s := by
  obtain ⟨hbackoff, hprovider, hcloud, -⟩ := h
  have hread : ((Effect.read (isInBackoff (w.handledAt d.poolName) d.poolName) : Acting F _) s) =
      (.ok (.ok false), s) := by rw [Effect.read, hbackoff]
  rw [handleScaleUp, bind_apply, hread]
  dsimp only
  rw [bind_apply]
  simp only [lift, pure_apply, hprovider, hcloud]
  rfl

/-- STEP: without asking the provider, nothing is created. -/
theorem adds_of_not_asks (h : ∀ cloud, ¬ Asks cfg w d cloud s) :
    Adds pool 0 s (handleScaleUp cfg w d s).2 := by
  have hread : ((Effect.read (isInBackoff (w.handledAt d.poolName) d.poolName) : Acting F _) s) =
      (.ok (isInBackoff (w.handledAt d.poolName) d.poolName s), s) := rfl
  rw [handleScaleUp, bind_apply, hread]
  dsimp only
  rw [bind_apply]
  rcases hbackoff : isInBackoff (w.handledAt d.poolName) d.poolName s with e | _ | _
  · exact Adds.nothing rfl rfl
  · simp only [lift, pure_apply]
    rcases hprovider : cfg.providers d.poolName with _ | _
    · exact Adds.nothing rfl rfl
    · rcases hcloud : (cfg.nodePools.lookup d.poolName).bind (·.cloud) with _ | cloud
      · exact Adds.nothing rfl rfl
      · have himage : cloud.imageId = none :=
          not_ne_iff.mp fun himage => h cloud ⟨hbackoff, hprovider, hcloud, himage⟩
        refine Within.bind (R := Adds pool 0) (fun s => ?_) (adds_finishScaleUp _) s
        exact adds_createInstances_none himage _ _ _ s
  · exact Adds.nothing rfl rfl

/-- STEP: scaling up creates no more machines than it asks for, and only in its pool. -/
theorem adds_handleScaleUp (d : PoolScalingDecision) :
    Within (Adds pool (if d.poolName = pool then d.instancesToCreate else 0))
      (handleScaleUp (F := F) cfg w d) := by
  intro s
  by_cases hasks : ∃ cloud, Asks cfg w d cloud s
  · obtain ⟨cloud, hasks⟩ := hasks
    rw [handleScaleUp_of_asks hasks, bind_apply]
    have hcreated : Adds pool _ s (createInstances w d.poolName cloud _ 0 false s).2 :=
      adds_createInstances d.poolName cloud d.instancesToCreate 0 false s
    rcases hrun : createInstances w d.poolName cloud d.instancesToCreate 0 false s with
      ⟨e | any, s'⟩
    · rw [hrun] at hcreated
      exact hcreated
    · rw [hrun] at hcreated
      exact hcreated.trans (adds_finishScaleUp d.poolName any s')
  · exact (adds_of_not_asks (not_exists.mp hasks)).mono (Nat.zero_le _)

theorem adds_handle (h : ¬ d.currentCount < d.desiredCount) :
    Within (Adds pool 0) (handle (F := F) cfg w d) := by
  unfold handle
  rw [if_neg h]
  split_ifs
  · exact adds_handleScaleDown d
  · exact within_pure _

theorem log_createInstances (w : Cycle) (vm : MachineInstance) (p : String)
    {cloud : CloudProviderConfig} (himage : cloud.imageId ≠ none) :
    ∀ (n attempt : ℕ) (any : Bool) (s : ScalingActuator F), ∃ any' s',
      createInstances { w with createMachine := fun _ _ => some vm } p cloud n attempt any s =
        (.ok any', s') ∧ s'.log = s.log ++ List.replicate n (.created p vm.instanceId)
  | 0, _, any, s => ⟨any, s, rfl, by simp⟩
  | n + 1, attempt, any, s => by
    obtain ⟨imageId, himageId⟩ := Option.ne_none_iff_exists'.mp himage
    have hcreate : ∃ s₁, createInstance { w with createMachine := fun _ _ => some vm } p cloud
        attempt s = (.ok (some vm.instanceId), s₁) ∧
        s₁.log = s.log ++ [.created p vm.instanceId] := by
      rw [createInstance, himageId]
      exact ⟨_, rfl, rfl⟩
    obtain ⟨s₁, hrun, hlog⟩ := hcreate
    obtain ⟨any', s', hrest, hlog'⟩ := log_createInstances w vm p himage n (attempt + 2) true s₁
    refine ⟨any', s', ?_, ?_⟩
    · rw [createInstances, bind_apply, hrun]
      exact hrest
    · rw [hlog', hlog, List.append_assoc, List.replicate_succ]
      rfl

/-- There is room for all machines that a decision asks for. -/
def Fits (max : ℕ) (d : PoolScalingDecision) (s : ScalingActuator F) : Prop :=
  (VmEvent.live d.poolName s.log).length + d.instancesToCreate ≤ max

/-- STEP: a decision that fits, or is not about scaling the pool up, keeps the bound. -/
theorem bounded_handle {max : ℕ} (hs : VmEvent.Bounded pool max s.log)
    (hfits : ∀ cloud, d.currentCount < d.desiredCount → Asks cfg w d cloud s → d.poolName = pool →
      Fits max d s) :
    VmEvent.Bounded pool max (handle cfg w d s).2.log := by
  by_cases hup : d.currentCount < d.desiredCount
  · rw [handle, if_pos hup]
    by_cases hasks : ∃ cloud, Asks cfg w d cloud s
    · obtain ⟨cloud, hasks⟩ := hasks
      have hadds : Adds pool _ s (handleScaleUp cfg w d s).2 := adds_handleScaleUp d s
      by_cases hpool : d.poolName = pool
      · rw [if_pos hpool] at hadds
        have hroom := hfits cloud hup hasks hpool
        rw [Fits, hpool] at hroom
        exact hadds.bounded hs hroom
      · rw [if_neg hpool] at hadds
        exact hadds.bounded_zero hs
    · exact (adds_of_not_asks (not_exists.mp hasks)).bounded_zero hs
  · exact (adds_handle hup s).bounded_zero hs

theorem fits_of_bounded {max : ℕ} (hasks : Asks cfg w d cloud s)
    (hbounded : ∀ answers, VmEvent.Bounded d.poolName max
      (handleScaleUp cfg { w with createMachine := answers } d s).2.log) : Fits max d s := by
  let vm : MachineInstance := ⟨"vm", "", none⟩
  let w' : Cycle := { w with createMachine := fun _ _ => some vm }
  have hasks' : Asks cfg w' d cloud s := hasks
  have hall : VmEvent.Bounded d.poolName max (handleScaleUp cfg w' d s).2.log :=
    hbounded fun _ _ => some vm
  obtain ⟨any, s', hrun, hlog⟩ := log_createInstances w vm d.poolName hasks.2.2.2
    d.instancesToCreate 0 false s
  rw [handleScaleUp_of_asks hasks', bind_apply, hrun] at hall
  have hfinish : Adds d.poolName 0 s' (finishScaleUp w' d.poolName any s').2 :=
    adds_finishScaleUp d.poolName any s'
  obtain ⟨later, hlater, -⟩ := hfinish.log
  have hmoment := hall s'.log ⟨later, hlater.symm⟩
  rwa [hlog, VmEvent.live, List.foldl_append, VmEvent.length_foldl_replicate] at hmoment

end Log

/-! ### The bound -/

section Bound
variable [F64 F]

/-- In the cycle, from state `s`, the decision is handled in state `s'`. -/
def Handles (cfg : ActuatorConfig) (w : Cycle) (s : ScalingActuator F) (d : PoolScalingDecision)
    (s' : ScalingActuator F) : Prop :=
  ∃ s₁ decided earlier, checkLaunchHealth cfg w s = (.ok ⟨⟩, s₁) ∧
    s₁.poolEngine.evaluate w.instant w.reported = some decided ∧
    earlier ++ [d] <+: decided ∧ earlier.forM (handle cfg w) s₁ = (.ok ⟨⟩, s')

/-- The history comes, in state `s`, to a decision to scale the pool up for which the provider is
    asked. -/
def ScalesUpAt (cfg : ActuatorConfig) (s₀ : ScalingActuator F) (events : List Event) (pool : String)
    (w : Cycle) (d : PoolScalingDecision) (s : ScalingActuator F) : Prop :=
  ∃ before s₁ cloud, before ++ [.cycle w] <+: events ∧ before.forM (step cfg) s₀ = (.ok ⟨⟩, s₁) ∧
    Handles cfg w s₁ d s ∧ d.currentCount < d.desiredCount ∧ Asks cfg w d cloud s ∧
    d.poolName = pool

/-- The pool never has more machines than `max` in the history, nor would it if the provider had
    answered the requests of any one decision differently. -/
def StaysWithin (cfg : ActuatorConfig) (s₀ : ScalingActuator F) (events : List Event)
    (pool : String)
    (max : ℕ) : Prop :=
  VmEvent.Bounded pool max (events.forM (step cfg) s₀).2.log ∧
  ∀ w d s, ScalesUpAt cfg s₀ events pool w d s → ∀ answers,
    VmEvent.Bounded pool max (handleScaleUp cfg { w with createMachine := answers } d s).2.log

variable {cfg : ActuatorConfig} {w : Cycle} {pool : String} {max : ℕ} {s s' s₀ : ScalingActuator F}

theorem bounded_of_handles {d : PoolScalingDecision} (hs : VmEvent.Bounded pool max s.log)
    (hfits : ∀ d cloud s', Handles cfg w s d s' → d.currentCount < d.desiredCount →
      Asks cfg w d cloud s' → d.poolName = pool → Fits max d s')
    (h : Handles cfg w s d s') : VmEvent.Bounded pool max s'.log := by
  obtain ⟨s₁, decided, earlier, hrun, hdecided, hearlier, hloop⟩ := h
  have hhealth : Adds pool 0 s s₁ := adds_checkLaunchHealth.of_eq hrun
  have hs' : (earlier.forM (handle cfg w) s₁).2 = s' := by rw [hloop]
  rw [← hs']
  refine forM_invariant (P := fun s : ScalingActuator F => VmEvent.Bounded pool max s.log)
    (fun s d hs hC => bounded_handle hs hC) earlier (hhealth.bounded_zero hs) ?_
  intro before d' s' hbefore hrun' cloud
  refine hfits d' cloud s' ⟨s₁, decided, before, hrun, hdecided, ?_, hrun'⟩
  exact hbefore.trans ((List.prefix_append _ _).trans hearlier)

/-- STEP: a cycle keeps the bound if every decision to scale the pool up fits. -/
theorem bounded_runCycle (hs : VmEvent.Bounded pool max s.log)
    (hfits : ∀ d cloud s', Handles cfg w s d s' → d.currentCount < d.desiredCount →
      Asks cfg w d cloud s' → d.poolName = pool → Fits max d s') :
    VmEvent.Bounded pool max (runCycle cfg w s).2.log := by
  have hhealth : Adds pool 0 s (checkLaunchHealth cfg w s).2 := adds_checkLaunchHealth s
  rw [runCycle, bind_apply]
  rcases hrun : checkLaunchHealth cfg w s with ⟨e | _, s₁⟩ <;> rw [hrun] at hhealth
  · exact hhealth.bounded_zero hs
  · dsimp only
    rw [bind_apply, decisions, bind_apply, Effect.read]
    rcases hdecided : s₁.poolEngine.evaluate w.instant w.reported with _ | decided
    · exact hhealth.bounded_zero hs
    · refine forM_invariant (P := fun s : ScalingActuator F => VmEvent.Bounded pool max s.log)
        (fun s d hs hC => bounded_handle hs hC) decided (hhealth.bounded_zero hs) ?_
      intro earlier d s' hearlier hrun' cloud
      exact hfits d cloud s' ⟨s₁, decided, earlier, hrun, hdecided, hearlier, hrun'⟩

/-- RUN: so does a history. -/
theorem bounded_of_fits (hs₀ : VmEvent.Bounded pool max s₀.log) (events : List Event)
    (hfits : ∀ w d s, ScalesUpAt cfg s₀ events pool w d s → Fits max d s) :
    VmEvent.Bounded pool max (events.forM (step cfg) s₀).2.log := by
  refine forM_invariant (P := fun s : ScalingActuator F => VmEvent.Bounded pool max s.log)
    (C := fun s e => ∀ w, e = .cycle w → ∀ d cloud s', Handles cfg w s d s' →
      d.currentCount < d.desiredCount → Asks cfg w d cloud s' → d.poolName = pool → Fits max d s')
    (fun s e hs hC => ?_) events hs₀ ?_
  · cases e with
    | cycle w => exact bounded_runCycle hs (hC w rfl)
    | meanwhile o => exact (adds_meanwhile [o] s).bounded_zero hs
  · rintro before e s hbefore hrun w rfl d cloud s' hhandles hup hasks hpool
    exact hfits w d s' ⟨before, s, cloud, hbefore, hrun, hhandles, hup, hasks, hpool⟩

section New
variable {poolEngine : PoolScalingEngine F} {raft : StateMachineInner} {fleetState : FleetState}
  {events : List Event}

theorem staysWithin_of_fits
    (hfits : ∀ w d s, ScalesUpAt cfg (.new poolEngine raft fleetState) events pool w d s →
      Fits max d s) :
    StaysWithin cfg (.new poolEngine raft fleetState) events pool max := by
  have hnew : VmEvent.Bounded pool max (new poolEngine raft fleetState).log := by
    intro moment hmoment
    rw [List.prefix_nil.mp hmoment]
    exact Nat.zero_le _
  refine ⟨bounded_of_fits hnew events hfits, ?_⟩
  intro w d s hup answers
  have hd := hfits w d s hup
  obtain ⟨before, s₁, cloud, hbefore, hrun, hhandles, hlt, hasks, rfl⟩ := hup
  have hreached : VmEvent.Bounded d.poolName max s₁.log := by
    have hs₁ : (before.forM (step cfg) (new poolEngine raft fleetState)).2 = s₁ := by rw [hrun]
    rw [← hs₁]
    refine bounded_of_fits hnew before ?_
    rintro w' d' s' ⟨before', s₁', cloud', hbefore', hrest⟩
    exact hfits w' d' s' ⟨before', s₁', cloud',
      hbefore'.trans ((List.prefix_append _ _).trans hbefore), hrest⟩
  have hs : VmEvent.Bounded d.poolName max s.log :=
    bounded_of_handles hreached (fun d' cloud' s' hd' hlt' hasks' hpool' =>
      hfits w d' s' ⟨before, s₁, cloud', hbefore, hrun, hd', hlt', hasks', hpool'⟩) hhandles
  have hadds : Adds d.poolName _ s
      (handleScaleUp cfg { w with createMachine := answers } d s).2 := adds_handleScaleUp d s
  rw [if_pos rfl] at hadds
  exact hadds.bounded hs hd

end New

/-- EXACT: in a history of a new actuator, a pool stays within a bound, such as its `max_count`,
    whatever the provider answers, if and only if each decision to scale it up is handled when there
    is room for all machines it asks for, those included that have not joined yet. -/
theorem machines_within_iff (cfg : ActuatorConfig) (poolEngine : PoolScalingEngine F)
    (raft : StateMachineInner) (fleetState : FleetState) (events : List Event) (pool : String)
    (max : ℕ) :
    StaysWithin cfg (.new poolEngine raft fleetState) events pool max ↔
      ∀ w d s, ScalesUpAt cfg (.new poolEngine raft fleetState) events pool w d s →
        Fits max d s := by
  refine ⟨?_, staysWithin_of_fits⟩
  rintro ⟨-, hany⟩ w d s hup
  have hbounded := hany w d s hup
  obtain ⟨before, s₁, cloud, -, -, -, -, hasks, rfl⟩ := hup
  exact fits_of_bounded hasks hbounded

end Bound

/-! ### Machines that take their time -/

namespace SlowJoin

def config : ActuatorConfig where
  nodePools := [⟨"workers", { cloud := some { imageId := some "image" } }⟩].toAList
  providers _ := true

/-- A cycle some seconds after the start, while one busy machine is all that has joined. -/
def cycleAt (seconds : ℕ) (instanceId : String) : Event :=
  .cycle {
    instant := seconds * 10 ^ 9
    epoch := seconds
    reported := [Starved.busy]
    order := .asBuilt
    timedOutDestroyed := fun _ _ => true
    handledAt := fun _ => seconds * 10 ^ 9
    failedAt := fun _ => seconds * 10 ^ 9
    scaledAt := fun _ => seconds * 10 ^ 9
    createMachine := fun _ _ => some ⟨instanceId, "aws", none⟩
    createdAt := fun _ _ => seconds
    destroyMachine := fun _ _ _ => true
    meanwhile := fun _ => [] }

/-- With a maximum of two, three machines are created within as many minutes, before the first of
    them has joined. -/
theorem three_machines_for_two :
    Starved.engine.policies.lookup "workers" = some Starved.policy ∧
      Starved.policy.minCount ≤ Starved.policy.maxCount ∧ Starved.policy.maxCount = 2 ∧
      VmEvent.live "workers" (([cycleAt 60 "vm-1", cycleAt 120 "vm-2", cycleAt 180 "vm-3"].forM
        (step config)) (.new Starved.engine {} {})).2.log = ["vm-3", "vm-2", "vm-1"] := by
  refine ⟨rfl, ?_, ?_, ?_⟩
  · decide
  · decide
  · decide +kernel

end SlowJoin

end ScalingActuator

end Ekafleet.Server
