import Ekafleet.Lib.Effect
import Ekafleet.Server.DesiredState

/-! Rollouts | source: server/deployer.rs, config/scheduling.rs

    A rollout sends deploy commands in the manner of its strategy, waits at health gates and reverts
    on failure. The messages it sends form a log. Whether an agent is reached, whether a gate is
    passed and when the progress deadline strikes are decided outside, from the log so far. -/

namespace Ekafleet.Server
open Raft Scheduler Proto Effect

/-- Why a deployment fails. -/
inductive DeployError where
  | healthTimeout
  | nodeFailed (node reason : String)
  | reverted (reason : String)
  | disruptionBudgetViolation (reason : String)
  | awaitingPromotion (deploymentId : String)
  deriving DecidableEq, Repr

/-- Why a rollout stops: it is cancelled at the progress deadline, panics, or fails. -/
inductive Halt where
  | deadline
  | panic
  | failed (e : DeployError)
  deriving DecidableEq, Repr

/-- A deployment operation for a single service. -/
structure DeploymentPlan where
  serviceName : String
  strategy : UpdateStrategy
  maxParallel : UInt32
  placements : List Placement
  storePath : String
  autoRevert : Bool
  autoPromote : Bool
  progressDeadline : Option UInt64
  disruptionBudget : Option DisruptionBudget
  totalReplicas : UInt32
  previousStorePath : Option String

/-- A healthy canary that waits for an operator. -/
structure PendingCanary where
  deploymentId : String
  plan : DeploymentPlan
  canary : List Placement
  remaining : List Placement

/-- A message and whether it reached the agent. -/
structure Sent where
  node : String
  message : ServerMessage
  delivered : Bool

/-- What a deployment has sent, and the canaries it has parked. -/
structure Dispatch where
  sent : List Sent := []
  pendingCanaries : HashMap String PendingCanary := ∅

/-- What the rest of the fleet does during a deployment. -/
structure Environment where
  /-- Whether a message to the node arrives. -/
  reaches : List Sent → String → Bool
  /-- Whether the instances stay healthy for long enough before the healthy deadline. -/
  healthy : List Sent → String → List Placement → Bool
  /-- Whether the progress deadline strikes before the next suspension point is over. -/
  expired : List Sent → Bool
  uuid : List Sent → String
  /-- The error an agent reports for a volume migration. -/
  migrationError : List Sent → MigrateVolumeCommand → Option String

abbrev Deploy := Effect Dispatch Halt

/-! ### Disruption budgets -/

section Budget
variable (F : Type) [F64 F]

/-- A count or a percentage. -/
def resolveValue (total : UInt32) : DisruptionValue → UInt32
  | .count n => n
  | .percent pct =>
    let pctVal : F :=
      (F64.parse (String.ofList (pct.toList.rdropWhile (· = '%')))).getD (F64.ofNat 0)
    F64.ceilU32 (F64.ofNat total.toNat * pctVal / (F64.ofNat 100 : F))

/-- How many instances may be disrupted. -/
def allowedDisruptions (budget : DisruptionBudget) (totalReplicas : UInt32) : UInt32 :=
  if totalReplicas = 0 then 0
  else match budget.minAvailable, budget.maxUnavailable with
    | some minAvail, _ =>
      UInt32.ofNat (totalReplicas.toNat - (resolveValue F totalReplicas minAvail).toNat)
    | none, some maxUnavail => resolveValue F totalReplicas maxUnavail
    | none, none => totalReplicas

/-- The batch size that respects the budget. -/
def effectiveParallel (plan : DeploymentPlan) : Except DeployError UInt32 :=
  match plan.disruptionBudget with
  | none => .ok plan.maxParallel
  | some budget =>
    let allowed := allowedDisruptions F budget plan.totalReplicas
    if allowed = 0 then
      .error (.disruptionBudgetViolation "disruption budget allows 0 simultaneous disruptions")
    else .ok (if plan.maxParallel ≤ allowed then plan.maxParallel else allowed)

end Budget

/-! ### Strategies -/

/-- What a rollout needs from the world around it. -/
structure Port (σ : Type) where
  /-- Send a deploy command; the result says whether it arrived. -/
  sendDeploy (deploymentId serviceName storePath : String) (strategy : DeployStrategy)
    (node : String) : Effect σ Halt Bool
  /-- Wait for instances to report healthy status. -/
  waitHealthy (serviceName : String) (placements : List Placement) : Effect σ Halt Unit
  /-- Keep a healthy canary for an operator. -/
  park : String → PendingCanary → σ → σ

/-- Consecutive parts of `n` elements; the last may be shorter. -/
def chunks {α : Type} (n : ℕ) (l : List α) : List (List α) :=
  (List.range ((l.length + n - 1) / n)).map fun i => (l.drop (i * n)).take n

namespace Port
variable {σ : Type} (port : Port σ)

/-- Deploy to one node of a batch. -/
def rollPlacement (deploymentId : String) (plan : DeploymentPlan) (p : Placement) :
    Effect σ Halt Unit := do
  let delivered ← port.sendDeploy deploymentId plan.serviceName plan.storePath .rolling
    p.machineName
  if delivered then pure ()
  else if plan.autoRevert then
    fail (.failed (.reverted s!"failed to reach node {p.machineName}"))
  else fail (.failed (.nodeFailed p.machineName "unreachable"))

/-- Batch after batch, with a health gate between two of them. -/
def rollBatches (deploymentId : String) (plan : DeploymentPlan) :
    List (List Placement) → Effect σ Halt Unit
  | [] => pure ()
  | [batch] => batch.forM (port.rollPlacement deploymentId plan)
  | batch :: rest => do
    batch.forM (port.rollPlacement deploymentId plan)
    port.waitHealthy plan.serviceName batch
    rollBatches deploymentId plan rest

variable (F : Type) [F64 F]

/-- Rolling deployment. A batch size of zero panics. -/
def executeRolling (deploymentId : String) (plan : DeploymentPlan) : Effect σ Halt Unit := do
  let parallel ← lift Halt.failed (effectiveParallel F plan)
  if parallel = 0 then fail .panic
  else port.rollBatches deploymentId plan (chunks parallel.toNat plan.placements)

/-- What happens to a healthy canary: the rest is rolled out, or an operator is asked. -/
def promoteOrWait (deploymentId : String) (plan : DeploymentPlan) (canary : Placement)
    (rest : List Placement) : Effect σ Halt Unit :=
  if plan.autoPromote then
    match rest with
    | [] => pure ()
    | rest => port.executeRolling F deploymentId
        { plan with strategy := .rolling, placements := rest }
  else do
    update (port.park plan.serviceName ⟨deploymentId, plan, [canary], rest⟩)
    fail (.failed (.awaitingPromotion deploymentId))

/-- Canary deployment: the first instance, then the others. -/
def executeCanary (deploymentId : String) (plan : DeploymentPlan) : Effect σ Halt Unit :=
  match plan.placements with
  | [] => pure ()
  | canary :: rest => do
    let delivered ← port.sendDeploy deploymentId plan.serviceName plan.storePath .canary
      canary.machineName
    if delivered then do
      port.waitHealthy plan.serviceName [canary]
      port.promoteOrWait F deploymentId plan canary rest
    else fail (.failed (.nodeFailed canary.machineName "unreachable"))

/-- Promote a healthy canary: roll the new version out to the remaining instances. -/
def promoteCanary (pending : PendingCanary) : Effect σ Halt Unit :=
  match pending.remaining with
  | [] => pure ()
  | remaining => port.executeRolling F pending.deploymentId
      { pending.plan with strategy := .rolling, placements := remaining, autoPromote := true }

end Port

/-! ### Sending and waiting -/

section Rollout
variable (env : Environment)

/-- Send a message to an agent; the result says whether it arrived. -/
def sendToAgent (node : String) (message : ServerMessage) : Deploy Bool := fun w =>
  let delivered := env.reaches w.sent node
  (.ok delivered, { w with sent := w.sent ++ [⟨node, message, delivered⟩] })

/-- A suspension point, at which a rollout with a progress deadline may be cancelled. -/
def checkpoint (timed : Bool) : Deploy Unit := fun w =>
  if timed && env.expired w.sent then (.error .deadline, w) else (.ok (), w)

/-- Send a deploy command. -/
def sendDeploy (timed : Bool) (deploymentId serviceName storePath : String)
    (strategy : DeployStrategy) (node : String) : Deploy Bool := do
  checkpoint env timed
  sendToAgent env node (.deploy ⟨deploymentId, serviceName, storePath, strategy⟩)

/-- Wait for instances to report healthy status. -/
def waitHealthy (timed : Bool) (serviceName : String) (placements : List Placement) :
    Deploy Unit := do
  checkpoint env timed
  let passed ← read fun w => env.healthy w.sent serviceName placements
  if passed then pure () else fail (.failed .healthTimeout)

/-- Send the previous store path to nodes; an unreachable one is only logged. -/
def revertDeployedNodes (timed : Bool) (deploymentId serviceName previousStorePath : String)
    (placements : List Placement) : Deploy Unit :=
  placements.forM fun p => do
    let _ ← sendDeploy env timed deploymentId serviceName previousStorePath .rolling p.machineName

/-! ### Rollouts in an environment -/

def Environment.port (timed : Bool) : Port Dispatch where
  sendDeploy := sendDeploy env timed
  waitHealthy := waitHealthy env timed
  park name pending w := { w with pendingCanaries := w.pendingCanaries.insert name pending }

@[simp] theorem port_sendDeploy (timed : Bool) :
    (env.port timed).sendDeploy = sendDeploy env timed := rfl

@[simp] theorem port_waitHealthy (timed : Bool) :
    (env.port timed).waitHealthy = waitHealthy env timed := rfl

abbrev executeRolling (F : Type) [F64 F] (timed : Bool) := (env.port timed).executeRolling F

abbrev executeCanary (F : Type) [F64 F] (timed : Bool) := (env.port timed).executeCanary F

/-- Roll the nodes that received the green version back to the previous one, if it is known. -/
def abortBlueGreen (timed : Bool) (deploymentId : String) (plan : DeploymentPlan)
    (deployed : List Placement) : Deploy Unit :=
  match plan.previousStorePath with
  | none => pure ()
  | some prev => revertDeployedNodes env timed deploymentId plan.serviceName prev deployed

/-- Stage green on every node, remembering which ones received it. -/
def stageGreen (timed : Bool) (deploymentId : String) (plan : DeploymentPlan)
    (deployed : List Placement) : List Placement → Deploy Unit
  | [] => pure ()
  | p :: rest => do
    let delivered ← sendDeploy env timed deploymentId plan.serviceName plan.storePath .blueGreen
      p.machineName
    if delivered then stageGreen timed deploymentId plan (deployed ++ [p]) rest
    else do
      abortBlueGreen env timed deploymentId plan deployed
      fail (.failed (.reverted s!"green node {p.machineName} unreachable — cutover aborted"))

/-- After a failed gate everything green is rolled back. A cancellation is no failed gate. -/
def cutOver (timed : Bool) (deploymentId : String) (plan : DeploymentPlan) :
    Except Halt Unit → Deploy Unit
  | .ok () => pure ()
  | .error (.failed e) => do
    abortBlueGreen env timed deploymentId plan plan.placements
    fail (.failed (if e = .healthTimeout then
      .reverted "green instances did not become healthy — cutover aborted" else e))
  | .error halt => fail halt

/-- Blue-green deployment: all nodes at once, or none. -/
def executeBlueGreen (timed : Bool) (deploymentId : String) (plan : DeploymentPlan) :
    Deploy Unit :=
  match plan.placements with
  | [] => pure ()
  | placements => do
    stageGreen env timed deploymentId plan [] placements
    let gate ← attempt (waitHealthy env timed plan.serviceName placements)
    cutOver env timed deploymentId plan gate

/-- Deploy by the plan's strategy. -/
def executeStrategy (F : Type) [F64 F] (deploymentId : String) (plan : DeploymentPlan) :
    Deploy Unit :=
  let timed := plan.progressDeadline.isSome
  match plan.strategy with
  | .rolling => executeRolling env F timed deploymentId plan
  | .canary => executeCanary env F timed deploymentId plan
  | .blueGreen => executeBlueGreen env timed deploymentId plan

/-- How a rollout that passed its progress deadline is reported. -/
def deadlineError (plan : DeploymentPlan) : DeployError :=
  if plan.autoRevert then .reverted "progress deadline exceeded" else .healthTimeout

/-- The result of a rollout, after reverting where that is asked for. -/
def conclude (deploymentId : String) (plan : DeploymentPlan) : Except Halt Unit → Deploy Unit
  | .ok () => pure ()
  | .error .panic => fail .panic
  | .error .deadline => revertAnd (deadlineError plan)
  | .error (.failed (.awaitingPromotion id)) => fail (.failed (.awaitingPromotion id))
  | .error (.failed e) => revertAnd e
where
  /-- With `auto_revert` and a known previous path all placements are reverted. -/
  revertAnd (e : DeployError) : Deploy Unit :=
    match plan.autoRevert, plan.previousStorePath with
    | true, some prev => do
      revertDeployedNodes env false deploymentId plan.serviceName prev plan.placements
      fail (.failed e)
    | _, _ => fail (.failed e)

/-- Execute a deployment plan against the fleet. -/
def execute (F : Type) [F64 F] (plan : DeploymentPlan) : Deploy Unit := do
  let deploymentId ← read fun w => env.uuid w.sent
  let result ← attempt (executeStrategy env F deploymentId plan)
  conclude env deploymentId plan result

end Rollout

/-! ### Deployment order -/

/-- The services whose targets are all deployed or unknown. -/
def readyServices (services : Services) (deployed remaining : List String) :
    List String :=
  remaining.filter fun svc =>
    ((services.lookup svc).map (·.identity.allowedTargets)).getD [] |>.all fun target =>
      deployed.contains target || !services.keys.contains target

/-- Tier after tier; when none is ready the rest is one last tier. Each round removes a service, so
    the number of services bounds the rounds. -/
def deployTiers (services : Services) :
    ℕ → List String → List String → List (List String)
  | 0, _, _ => []
  | rounds + 1, deployed, remaining =>
    if remaining.isEmpty then []
    else
      let tier := readyServices services deployed remaining
      if tier.isEmpty then [remaining]
      else tier :: deployTiers services rounds (deployed ++ tier)
        (remaining.filter (!tier.contains ·))

/-- A dependency-ordered deployment sequence. -/
def computeDeployOrder (services : Services) : List (List String) :=
  deployTiers services (services.keys.length + 1) [] services.keys

/-! ### What a rollout sends -/

/-- The log grew by messages that satisfy `P`. -/
def Sends (P : Sent → Prop) (w w' : Dispatch) : Prop :=
  ∃ new, w'.sent = w.sent ++ new ∧ ∀ m ∈ new, P m

section Sends
variable {P : Sent → Prop}

instance : Std.Refl (Sends P) := ⟨fun w => ⟨[], by simp, by simp⟩⟩

instance : IsTrans Dispatch (Sends P) := ⟨fun w w' w'' ⟨new, hnew, hP⟩ ⟨new', hnew', hP'⟩ =>
  ⟨new ++ new', by rw [hnew', hnew, List.append_assoc],
    fun m hm => (List.mem_append.mp hm).elim (hP m) (hP' m)⟩⟩

variable {env : Environment}

theorem within_sendToAgent {node : String} {message : ServerMessage}
    (h : ∀ log, P ⟨node, message, env.reaches log node⟩) :
    Within (Sends P) (sendToAgent env node message) := fun w =>
  ⟨_, rfl, fun m hm => by rw [List.mem_singleton.mp hm]; exact h _⟩

theorem within_checkpoint (timed : Bool) : Within (Sends P) (checkpoint env timed) := fun w => by
  unfold checkpoint
  split <;> exact refl_of (Sends P) w

/-- The paths a rollout may send: the new one, and the previous one when it reverts. -/
def DeploymentPlan.paths (plan : DeploymentPlan) : List String :=
  plan.storePath :: plan.previousStorePath.toList

/-- The deploy commands of a rollout to the nodes of `placements` satisfy `P`. -/
def Covers (P : Sent → Prop) (env : Environment) (plan : DeploymentPlan)
    (placements : List Placement) : Prop :=
  ∀ p ∈ placements, ∀ (cmd : DeployCommand) (log : List Sent),
    cmd.serviceName = plan.serviceName → cmd.storePath ∈ plan.paths →
      P ⟨p.machineName, .deploy cmd, env.reaches log p.machineName⟩

variable {plan : DeploymentPlan} {timed : Bool} {id : String} {placements : List Placement}

theorem Covers.mono {ps qs : List Placement} (h : Covers P env plan qs) (hsub : ∀ p ∈ ps, p ∈ qs)
    : Covers P env plan ps :=
  fun p hp => h p (hsub p hp)

theorem within_sendDeploy {path : String} {strategy : DeployStrategy} (hpath : path ∈ plan.paths)
    (h : Covers P env plan placements) {p : Placement} (hp : p ∈ placements) :
    Within (Sends P) (sendDeploy env timed id plan.serviceName path strategy p.machineName) :=
  (within_checkpoint timed).bind fun _ => within_sendToAgent fun log => h p hp _ log rfl hpath

theorem DeploymentPlan.storePath_mem (plan : DeploymentPlan) : plan.storePath ∈ plan.paths :=
  List.mem_cons_self

theorem within_waitHealthy (timed : Bool) (serviceName : String) (placements : List Placement) :
    Within (Sends P) (waitHealthy env timed serviceName placements) := by
  refine (within_checkpoint timed).bind fun _ => (within_read _).bind fun passed => ?_
  cases passed
  · exact within_fail _
  · exact within_pure _

theorem within_revertDeployedNodes {prev : String} (hprev : plan.previousStorePath = some prev)
    (h : Covers P env plan placements) :
    Within (Sends P) (revertDeployedNodes env timed id plan.serviceName prev placements) := by
  have hpath : prev ∈ plan.paths := by simp [DeploymentPlan.paths, hprev]
  exact within_forM_mem fun _ hp => (within_sendDeploy hpath h hp).bind fun _ => within_pure _

theorem within_rollPlacement (h : Covers P env plan placements) {p : Placement}
    (hp : p ∈ placements) : Within (Sends P) ((env.port timed).rollPlacement id plan p) := by
  refine (within_sendDeploy plan.storePath_mem h hp).bind fun delivered => ?_
  cases delivered
  · cases hrev : plan.autoRevert <;> exact within_fail _
  · exact within_pure _

theorem within_rollBatches {timed : Bool} {id : String} {plan : DeploymentPlan} :
    ∀ {batches : List (List Placement)}, (∀ b ∈ batches, Covers P env plan b) →
      Within (Sends P) ((env.port timed).rollBatches id plan batches)
  | [], _ => within_pure _
  | [batch], h => within_forM_mem fun _ hp => within_rollPlacement (h batch List.mem_cons_self) hp
  | batch :: next :: rest, h => by
    refine (within_forM_mem fun _ hp => within_rollPlacement (h batch List.mem_cons_self) hp).bind
      fun _ => (within_waitHealthy _ _ _).bind fun _ => ?_
    exact within_rollBatches fun b hb => h b (List.mem_cons_of_mem _ hb)

theorem mem_of_mem_chunks {α : Type} {n : ℕ} {l c : List α} (h : c ∈ chunks n l) :
    ∀ a ∈ c, a ∈ l := by
  obtain ⟨i, -, rfl⟩ := List.mem_map.mp h
  exact fun a ha => List.mem_of_mem_drop (List.mem_of_mem_take ha)

variable {F : Type} [F64 F]

theorem within_executeRolling (h : Covers P env plan plan.placements) :
    Within (Sends P) (executeRolling env F timed id plan) := by
  refine (within_lift _ _).bind fun parallel => ?_
  split
  · exact within_fail _
  · exact within_rollBatches fun b hb => h.mono (mem_of_mem_chunks hb)

theorem within_promoteOrWait {canary : Placement} {rest : List Placement}
    (h : Covers P env plan rest) :
    Within (Sends P) ((env.port timed).promoteOrWait F id plan canary rest) := by
  unfold Port.promoteOrWait
  split
  · split
    · exact within_pure _
    · exact within_executeRolling h
  · exact (within_update fun w => ⟨[], (List.append_nil _).symm, by simp⟩).bind fun _ =>
      within_fail _

theorem within_executeCanary (h : Covers P env plan plan.placements) :
    Within (Sends P) (executeCanary env F timed id plan) := by
  unfold executeCanary Port.executeCanary
  split
  · exact within_pure _
  · next canary rest heq =>
    rw [heq] at h
    refine (within_sendDeploy plan.storePath_mem h List.mem_cons_self).bind fun delivered => ?_
    cases delivered
    · exact within_fail _
    · exact (within_waitHealthy _ _ _).bind fun _ =>
        within_promoteOrWait (h.mono fun _ hp => List.mem_cons_of_mem _ hp)

theorem within_abortBlueGreen {deployed : List Placement} (h : Covers P env plan deployed) :
    Within (Sends P) (abortBlueGreen env timed id plan deployed) := by
  unfold abortBlueGreen
  split
  · exact within_pure _
  · next prev hprev => exact within_revertDeployedNodes hprev h

theorem within_stageGreen {timed : Bool} {id : String} {plan : DeploymentPlan} :
    ∀ {rest deployed : List Placement}, Covers P env plan (deployed ++ rest) →
      Within (Sends P) (stageGreen env timed id plan deployed rest)
  | [], _, _ => within_pure _
  | p :: rest, deployed, h => by
    refine (within_sendDeploy plan.storePath_mem h
      (List.mem_append_right _ List.mem_cons_self)).bind fun delivered => ?_
    cases delivered
    · exact (within_abortBlueGreen (h.mono fun _ => List.mem_append_left _)).bind fun _ =>
        within_fail _
    · exact within_stageGreen (by rwa [List.append_assoc])

theorem within_executeBlueGreen (h : Covers P env plan plan.placements) :
    Within (Sends P) (executeBlueGreen env timed id plan) := by
  unfold executeBlueGreen
  split
  · exact within_pure _
  · refine (within_stageGreen (by simpa using h)).bind fun _ =>
      (within_waitHealthy _ _ _).attempt.bind fun gate => ?_
    unfold cutOver
    split
    · exact within_pure _
    · exact (within_abortBlueGreen h).bind fun _ => within_fail _
    · exact within_fail _

theorem within_conclude (h : Covers P env plan plan.placements) (result : Except Halt Unit) :
    Within (Sends P) (conclude env id plan result) := by
  have hrevert : ∀ e, Within (Sends P) (conclude.revertAnd env id plan e) := fun e => by
    unfold conclude.revertAnd
    split
    · next prev _ hprev => exact (within_revertDeployedNodes hprev h).bind fun _ => within_fail _
    · exact within_fail _
  unfold conclude
  grind [within_pure, within_fail]

theorem within_executeStrategy (h : Covers P env plan plan.placements) :
    Within (Sends P) (executeStrategy env F id plan) := by
  unfold executeStrategy
  cases plan.strategy
  · exact within_executeRolling h
  · exact within_executeCanary h
  · exact within_executeBlueGreen h

theorem within_execute (h : Covers P env plan plan.placements) :
    Within (Sends P) (execute env F plan) :=
  (within_read _).bind fun _ => (within_executeStrategy h).attempt.bind fun result =>
    within_conclude h result

end Sends

end Ekafleet.Server
