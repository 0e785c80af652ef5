import Ekafleet.Server.Deployer

/-! Carrying out a plan | source: server/reconciler.rs

    Desired states first, then the volume migrations of rescheduled services, then one rollout per
    operation, tier by tier. The concurrent migrations of a chunk are run one after the other. -/

namespace Ekafleet.Server
open Raft Scheduler Proto Effect

/-! ### Volume migrations -/

/-- Outcome of migrating the volumes of one instance. -/
structure MigrationResult where
  instanceId : String
  destMachine : String
  error : Option String
  deriving DecidableEq, Repr

/-- What failed migrations leave behind. -/
structure MigrationFailureSummary where
  failedInstances : List String
  orphanedDestinations : List String
  deriving DecidableEq, Repr

/-- `none` if every migration succeeded; otherwise who failed, and which destinations hold copies.
    -/
def summarizeMigrationFailure (results : List MigrationResult) : Option MigrationFailureSummary :=
  if results.any (·.error.isSome) then some {
    failedInstances := (results.filter (·.error.isSome)).map (·.instanceId)
    orphanedDestinations := (((results.filter fun r => r.error.isNone && r.destMachine != "").map
      (·.destMachine)).insertionSort (· ≤ ·)).dedup }
  else none

/-- The volumes whose data has to move with an instance. -/
def localVolumes (cfg : ServiceConfig) : List String :=
  (cfg.volumes.filter fun v => v.storageClass == "local" && v.accessMode == .readWriteOnce).map
    (·.name)

section Apply
variable (env : Environment)

/-- Move volume after volume; the first error ends the migration of the instance. -/
def migrateVolumes (serviceName sourceHost : String) (migration : MigrationOp) :
    List String → Deploy MigrationResult
  | [] => pure ⟨migration.instanceId, migration.destMachine, none⟩
  | vol :: rest => do
    let path := s!"/var/lib/ekafleet/data/volumes/{serviceName}/{vol}"
    let id ← read fun w => env.uuid w.sent
    let cmd : MigrateVolumeCommand := ⟨id, serviceName, sourceHost, path, path⟩
    let answer ← read fun w => env.migrationError w.sent cmd
    let delivered ← sendToAgent env migration.destMachine (.migrateVolume cmd)
    match delivered, answer with
    | true, none => migrateVolumes serviceName sourceHost migration rest
    | true, some message => pure ⟨migration.instanceId, migration.destMachine, some
        s!"migration of volume {vol} to {migration.destMachine} failed: {message}"⟩
    | false, _ => pure ⟨migration.instanceId, migration.destMachine, some
        (s!"migration of volume {vol} to {migration.destMachine} failed: " ++
          s!"agent '{migration.destMachine}' is not connected")⟩

/-- All migrations of a service. -/
def migrateAll (desired : FleetConfig) (serviceName : String) (volumes : List String) :
    List MigrationOp → Deploy (List MigrationResult)
  | [] => pure []
  | migration :: rest => do
    let sourceHost := ((desired.machines.lookup migration.sourceMachine).map (·.targetHost)).getD ""
    let first ← migrateVolumes env serviceName sourceHost migration volumes
    let others ← migrateAll desired serviceName volumes rest
    return first :: others

/-- Migrate the volumes of a reschedule; the result names the service if that failed. -/
def migrateOp (desired : FleetConfig) (op : ServiceOp) : Deploy (List String) :=
  match op.migrations, desired.services.lookup op.serviceName with
  | [], _ | _, none => pure []
  | migrations, some cfg => do
    let results ← migrateAll env desired op.serviceName (localVolumes cfg) migrations
    return if (summarizeMigrationFailure results).isSome then [op.serviceName] else []

/-! ### Rollouts -/

/-- The deployment of an operation. -/
def deploymentPlanOf (raft : StateMachineInner) (cfg : ServiceConfig) (op : ServiceOp) :
    DeploymentPlan where
  serviceName := op.serviceName
  strategy := cfg.scheduling.update.strategy
  maxParallel := cfg.scheduling.update.maxParallel
  placements := op.placements
  storePath := cfg.command.getD ""
  autoRevert := cfg.scheduling.update.autoRevert
  autoPromote := cfg.scheduling.update.autoPromote
  progressDeadline := cfg.scheduling.update.progressDeadlineSecs
  disruptionBudget := cfg.scheduling.disruptionBudget
  totalReplicas := cfg.scheduling.replicas
  previousStorePath := (raft.deployments.lookup op.serviceName).map (·.storePath)

/-- A canary that waits for promotion is not a failure. -/
def tolerateWaiting : Except Halt Unit → Deploy Unit
  | .ok () | .error (.failed (.awaitingPromotion _)) => pure ()
  | .error halt => fail halt

/-- Deploy one operation. -/
def deployOne (F : Type) [F64 F] (desired : FleetConfig) (raft : StateMachineInner)
    (op : ServiceOp) : Deploy Unit :=
  match desired.services.lookup op.serviceName with
  | none => pure ()
  | some cfg => do
    let result ← attempt (execute env F (deploymentPlanOf raft cfg op))
    tolerateWaiting result

/-- The operations of a service that are rolled out. -/
def rolloutOps (plan : ReconcilePlan) (migrationFailed : List String) (serviceName : String) :
    List ServiceOp :=
  (plan.creates ++ plan.updates ++
    plan.reschedules.filter fun op => !migrationFailed.contains op.serviceName).filter
      fun op => op.serviceName == serviceName

/-- Send the desired states and DNS updates; a message that does not arrive is only logged. -/
def sendDesiredState (messages : List (String × ServerMessage)) : Deploy Unit :=
  messages.forM fun m => do
    let _ ← sendToAgent env m.1 m.2

/-- The part of `applyPlan` after the desired states. -/
def migrateAndDeploy (F : Type) [F64 F] (desired : FleetConfig) (plan : ReconcilePlan)
    (raft : StateMachineInner) : Deploy Unit := do
  let migrationFailed ← collect (migrateOp env desired) plan.reschedules
  (computeDeployOrder desired.services).flatten.forM fun serviceName =>
    (rolloutOps plan migrationFailed serviceName).forM (deployOne env F desired raft)

/-- Execute a reconciliation plan. -/
def applyPlan (F : Type) [F64 F] (order : HashMap.Order) (desired : FleetConfig)
    (plan : ReconcilePlan) (state : FleetState) (raft : StateMachineInner) : Deploy Unit := do
  sendDesiredState env (desiredStateMessages order desired plan state raft)
  migrateAndDeploy env F desired plan raft

end Apply

/-! ### Migrations do not end a cycle -/

section Migrations
variable {env : Environment} {config : FleetConfig}

theorem raises_migrateVolumes {serviceName host : String} {migration : MigrationOp} :
    ∀ vols : List String,
      Raises (fun _ => False) (migrateVolumes env serviceName host migration vols)
  | [] => raises_pure _
  | _ :: rest => by
    refine (raises_read _).bind fun id => (raises_read _).bind fun answer =>
      Raises.bind (fun _ _ h => nomatch h) fun delivered => ?_
    rcases delivered with _ | _ <;> rcases answer with _ | message
    · exact raises_pure _
    · exact raises_pure _
    · exact raises_migrateVolumes rest
    · exact raises_pure _

theorem raises_migrateAll {serviceName : String} {volumes : List String} :
    ∀ ms : List MigrationOp, Raises (fun _ => False) (migrateAll env config serviceName volumes ms)
  | [] => raises_pure _
  | _ :: rest => (raises_migrateVolumes volumes).bind fun _ =>
      (raises_migrateAll rest).bind fun _ => raises_pure _

theorem raises_migrateOp (op : ServiceOp) : Raises (fun _ => False) (migrateOp env config op) := by
  unfold migrateOp
  split
  · exact raises_pure _
  · exact raises_pure _
  · exact (raises_migrateAll _).bind fun _ => raises_pure _

theorem migrateOp_nil {op : ServiceOp} (h : op.migrations = []) :
    migrateOp env config op = pure [] := by
  unfold migrateOp
  rw [h]

end Migrations

/-! ### What carrying out a plan sends -/

section Sends
variable {env : Environment}

theorem sendDesiredState_apply {up : String → Bool}
    (hup : ∀ log node, env.reaches log node = up node) :
    ∀ (messages : List (String × ServerMessage)) (w : Dispatch),
      sendDesiredState env messages w = (.ok (), { w with
        sent := w.sent ++ messages.map fun m => ⟨m.1, m.2, up m.1⟩ })
  | [], w => by
    rw [List.map_nil, List.append_nil]
    rfl
  | m :: rest, w => by
    have ih := sendDesiredState_apply hup rest
      { w with sent := w.sent ++ [⟨m.1, m.2, up m.1⟩] }
    have hstep : sendDesiredState env (m :: rest) w =
        sendDesiredState env rest { w with sent := w.sent ++ [⟨m.1, m.2, up m.1⟩] } := by
      rw [sendDesiredState, forM_cons_apply, bind_apply, bind_apply, sendToAgent, hup]
      rfl
    rw [hstep, ih, List.map_cons, List.append_assoc, List.singleton_append]

variable {P : Sent → Prop}

section Migrations
variable (hP : ∀ node cmd log, P ⟨node, .migrateVolume cmd, env.reaches log node⟩)
include hP

theorem within_migrateVolumes {serviceName host : String} {migration : MigrationOp} :
    ∀ vols : List String, Within (Sends P) (migrateVolumes env serviceName host migration vols)
  | [] => within_pure _
  | vol :: rest => by
    refine (within_read _).bind fun id => (within_read _).bind fun answer =>
      (within_sendToAgent (hP _ _)).bind fun delivered => ?_
    rcases delivered with _ | _ <;> rcases answer with _ | message
    · exact within_pure _
    · exact within_pure _
    · exact within_migrateVolumes rest
    · exact within_pure _

theorem within_migrateAll {desired : FleetConfig} {serviceName : String} {volumes : List String} :
    ∀ ms : List MigrationOp, Within (Sends P) (migrateAll env desired serviceName volumes ms)
  | [] => within_pure _
  | _ :: rest => (within_migrateVolumes hP volumes).bind fun _ =>
      (within_migrateAll rest).bind fun _ => within_pure _

theorem within_migrateOp {desired : FleetConfig} (op : ServiceOp) :
    Within (Sends P) (migrateOp env desired op) := by
  unfold migrateOp
  split
  · exact within_pure _
  · exact within_pure _
  · exact (within_migrateAll hP _).bind fun _ => within_pure _

end Migrations

theorem mem_rolloutOps {plan : ReconcilePlan} {failed : List String} {name : String}
    {op : ServiceOp} (h : op ∈ rolloutOps plan failed name) : op ∈ plan.ops := by
  have hmem := (List.mem_filter.mp h).1
  rw [ReconcilePlan.ops]
  rcases List.mem_append.mp hmem with hmem | hmem
  · exact List.mem_append_left _ hmem
  · exact List.mem_append_right _ (List.mem_filter.mp hmem).1

variable {desired : FleetConfig} {raft : StateMachineInner}

theorem within_deployOne {F : Type} [F64 F] {op : ServiceOp}
    (h : ∀ cfg, desired.services.lookup op.serviceName = some cfg →
      Covers P env (deploymentPlanOf raft cfg op) op.placements) :
    Within (Sends P) (deployOne env F desired raft op) := by
  unfold deployOne
  split
  · exact within_pure _
  · next cfg hcfg =>
    refine Within.bind (Within.attempt (within_execute (h cfg hcfg))) fun result => ?_
    unfold tolerateWaiting
    split
    · exact within_pure _
    · exact within_pure _
    · exact within_fail _

theorem within_migrateAndDeploy {F : Type} [F64 F] {plan : ReconcilePlan}

    (hmigrate : ∀ node cmd log, P ⟨node, .migrateVolume cmd, env.reaches log node⟩)
    (hdeploy : ∀ op ∈ plan.ops, ∀ cfg, desired.services.lookup op.serviceName = some cfg →
      Covers P env (deploymentPlanOf raft cfg op) op.placements) :
    Within (Sends P) (migrateAndDeploy env F desired plan raft) := by
  refine (within_collect (within_migrateOp hmigrate) _).bind fun failed => ?_
  refine within_forM (fun name => ?_) _
  exact within_forM_mem fun op hop => within_deployOne (hdeploy op (mem_rolloutOps hop))

end Sends

end Ekafleet.Server
