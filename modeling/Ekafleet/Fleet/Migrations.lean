import Ekafleet.Fleet.Replicas
import Ekafleet.Server.Revert

/-! Failed volume migrations | source: server/reconciler.rs

    A reschedule that moves volumes is to be skipped when a volume could not be moved, so that the
    service stays on its source nodes. The desired states have been sent by then. -/

namespace Ekafleet.Fleet
open Raft Scheduler Proto Server Agent Effect

section Apply
variable (env : Environment) (order : HashMap.Order) (config : FleetConfig) (plan : ReconcilePlan)
  (state : FleetState) (raft : StateMachineInner)

/-- The services whose volume migrations fail when the plan is carried out. -/
def migrationFailed (w : Dispatch) : List String :=
  match (collect (migrateOp env config) plan.reschedules
    (sendDesiredState env (desiredStateMessages order config plan state raft) w).2).1 with
  | .ok failed => failed
  | .error _ => []

end Apply

/-- No desired state starts the service on one of its new nodes, or stops it on a node its volumes
    are on. Each agent has some history when the messages arrive. -/
structure KeptInPlace (dataDir : String) (agentOrder : HashMap.Order)
    (history : String → List (HashMap.Order × ServerMessage)) (log : List Sent) (op : ServiceOp) :
    Prop where
  notStarted : ∀ p ∈ op.placements, ∀ ds, .desiredState ds ∈ inbox p.machineName log →
    (AgentState.after dataDir (history p.machineName)).instances op.serviceName = 0 →
      (handleServerMessage noFaults dataDir agentOrder (.after dataDir (history p.machineName))
        (.desiredState ds)).instances op.serviceName = 0
  notStopped : ∀ m ∈ op.migrations, ∀ ds, .desiredState ds ∈ inbox m.sourceMachine log →
    (AgentState.after dataDir (history m.sourceMachine)).instances op.serviceName = 1 →
      (handleServerMessage noFaults dataDir agentOrder (.after dataDir (history m.sourceMachine))
        (.desiredState ds)).instances op.serviceName = 1

/-- The messages hold back a reschedule: the service is kept in place and not deployed. -/
structure HeldBack (dataDir : String) (agentOrder : HashMap.Order)
    (history : String → List (HashMap.Order × ServerMessage)) (log : List Sent) (op : ServiceOp) :
    Prop extends KeptInPlace dataDir agentOrder history log op where
  notDeployed : ∀ m ∈ log, ∀ cmd, m.message = .deploy cmd → cmd.serviceName ≠ op.serviceName

/-! ### The desired states of a plan -/

section Desired
variable {env : Environment} {F : Type} [F64 F] {order : HashMap.Order} {config : FleetConfig}
  {plan : ReconcilePlan} {state : FleetState} {raft : StateMachineInner} {up : String → Bool}

theorem sentBy_applyPlan (hup : ∀ log node, env.reaches log node = up node) (w : Dispatch) :
    ∃ later, sentBy (applyPlan env F order config plan state raft) w =
        ((desiredStateMessages order config plan state raft).map fun m => ⟨m.1, m.2, up m.1⟩) ++
          later ∧
      ∀ m ∈ later, ∀ ds, m.message ≠ .desiredState ds := by
  let w₁ : Dispatch := { w with
    sent := w.sent ++ (desiredStateMessages order config plan state raft).map
      fun m => ⟨m.1, m.2, up m.1⟩ }
  obtain ⟨later, hlater, hother⟩ : Sends (fun m => ∀ ds, m.message ≠ .desiredState ds) w₁
      (migrateAndDeploy env F config plan raft w₁).2 :=
    within_migrateAndDeploy (fun _ _ _ => nofun) (fun _ _ _ _ _ _ _ _ _ _ => nofun) w₁
  refine ⟨later, sentBy_eq ?_, hother⟩
  rw [applyPlan, bind_apply, sendDesiredState_apply hup, ← List.append_assoc]
  exact hlater

/-- EXACT: the desired states that reach a node are at most one, which has the services of the plan
    for that node. -/
theorem desiredState_mem_inbox (hup : ∀ log node, env.reaches log node = up node) {w : Dispatch}
    {node : String} {ds : DesiredState}
    (h : .desiredState ds ∈ inbox node (sentBy (applyPlan env F order config plan state raft) w)) :
    up node = true ∧ ds.services = specsFor config raft plan node ∧
      specsFor config raft plan node ≠ [] := by
  obtain ⟨later, hlog, hother⟩ := sentBy_applyPlan (F := F) hup w
  rw [hlog, inbox_append] at h
  rcases List.mem_append.mp h with h | h
  · have hreached : up node = true := by
      grind [mem_inbox]
    obtain ⟨quiet, hquiet, ⟨-, hin⟩ | ⟨ds', hds, hne, hin⟩⟩ :=
      inbox_desiredStateMessages order config plan state raft hreached
    · rw [hin] at h
      exact (hquiet _ h).elim
    · rw [hin] at h
      rcases List.mem_cons.mp h with heq | hmem
      · cases heq
        exact ⟨hreached, hds, hne⟩
      · exact (hquiet _ hmem).elim
  · obtain ⟨m, hm, -, -, heq⟩ := mem_inbox.mp h
    exact absurd heq (hother m hm ds)

theorem exists_desiredState_inbox (F : Type) [F64 F] (order : HashMap.Order) (state : FleetState)
    (raft : StateMachineInner) (hup : ∀ log node, env.reaches log node = up node) (w : Dispatch)
    {node : String} (hnode : up node = true) {name : String}
      (hdel : Delivered config plan node name) :
    ∃ ds, .desiredState ds ∈ inbox node
      (sentBy (applyPlan env F order config plan state raft) w) := by
  obtain ⟨later, hlog, -⟩ := sentBy_applyPlan (F := F) hup w
  obtain ⟨quiet, -, ⟨hempty, -⟩ | ⟨ds, -, -, hin⟩⟩ :=
    inbox_desiredStateMessages order config plan state raft hnode
  · exact absurd hempty (specsFor_ne_nil.mpr ⟨name, hdel⟩)
  · refine ⟨ds, ?_⟩
    rw [hlog, inbox_append, hin]
    exact List.mem_append_left _ List.mem_cons_self

end Desired

/-! ### Keeping a service in place -/

section Place
variable {F : Type} [F64 F] {re : RegexEngine} {order sendOrder agentOrder : HashMap.Order}
  {config : FleetConfig} {state : FleetState}
  {tracked : Option (HashMap String TrackedCloudInstance)} {raft : StateMachineInner}
  {plan : ReconcilePlan} {env : Environment} {up : String → Bool} {dataDir : String}

/-- EXACT: with the reached nodes given, a rescheduled service is kept in place exactly if it runs
    already on those of its new nodes that are reached, and those of its old nodes where it runs are
    not reached, or have nothing in the plan, or have the service in it. -/
theorem keptInPlace_iff (hplan : computePlan F re order config state tracked raft = some plan)
    (hup : ∀ log node, env.reaches log node = up node) (w : Dispatch)
    (history : String → List (HashMap.Order × ServerMessage)) {op : ServiceOp}
    (hop : op ∈ plan.reschedules) :
    KeptInPlace dataDir agentOrder history
        (sentBy (applyPlan env F sendOrder config plan state raft) w) op ↔
      (∀ p ∈ op.placements, up p.machineName = true →
        (AgentState.after dataDir (history p.machineName)).instances op.serviceName = 1) ∧
      ∀ m ∈ op.migrations, up m.sourceMachine = true →
        (AgentState.after dataDir (history m.sourceMachine)).instances op.serviceName = 1 →
        (∃ name, Delivered config plan m.sourceMachine name) →
          Delivered config plan m.sourceMachine op.serviceName := by
  constructor
  · intro hkept
    refine ⟨fun p hp hreached => ?_, fun m hm hreached hruns ⟨name, hother⟩ => ?_⟩
    · have hdel := delivered_of_placed hplan (List.mem_append_right _ hop) hp
      obtain ⟨ds, hds⟩ := exists_desiredState_inbox F sendOrder state raft hup w hreached hdel
      rcases instances_le_one (.after dataDir (history p.machineName)) op.serviceName with h | h
      · have hstopped := hkept.notStarted p hp ds hds h
        have hstarted := (instances_sent dataDir agentOrder (history p.machineName)
          (desiredState_mem_inbox hup hds).2.1 op.serviceName).mpr hdel
        exact absurd (hstopped.symm.trans hstarted) Nat.zero_ne_one
      · exact h
    · obtain ⟨ds, hds⟩ := exists_desiredState_inbox F sendOrder state raft hup w hreached hother
      exact (instances_sent dataDir agentOrder (history m.sourceMachine)
        (desiredState_mem_inbox hup hds).2.1 op.serviceName).mp (hkept.notStopped m hm ds hds hruns)
  · rintro ⟨hnew, hold⟩
    refine ⟨fun p hp ds hds h => ?_, fun m hm ds hds h => ?_⟩
    · obtain ⟨hreached, -, -⟩ := desiredState_mem_inbox hup hds
      exact absurd (h.symm.trans (hnew p hp hreached)) Nat.zero_ne_one
    · obtain ⟨hreached, hservices, hne⟩ := desiredState_mem_inbox hup hds
      exact (instances_sent dataDir agentOrder (history m.sourceMachine) hservices
        op.serviceName).mpr
        (hold m hm hreached h (specsFor_ne_nil.mp hne))

end Place

/-! ### Which migrations fail -/

section Failure
variable {env : Environment} {config : FleetConfig}

theorem migrateVolumes_refused {serviceName host vol message : String} {vols : List String}
    {migration : MigrationOp} (hrefused : ∀ log cmd, env.migrationError log cmd = some message)
    {w w' : Dispatch} {result : MigrationResult}
    (h : migrateVolumes env serviceName host migration (vol :: vols) w = (.ok result, w')) :
    result.error.isSome = true := by
  obtain ⟨id, w₁, -, h⟩ := bind_ok h
  obtain ⟨answer, w₂, hanswer, h⟩ := bind_ok h
  obtain ⟨delivered, w₃, -, h⟩ := bind_ok h
  rw [(read_ok hanswer).1, hrefused] at h
  cases delivered <;> cases h <;> rfl

theorem migrateOp_refused {op : ServiceOp} {cfg : ServiceConfig} {message : String}
    (hrefused : ∀ log cmd, env.migrationError log cmd = some message)
    (hcfg : config.services.lookup op.serviceName = some cfg) (hvolumes : localVolumes cfg ≠ [])
    (hmigrations : op.migrations ≠ []) {w w' : Dispatch} {failed : List String}
    (h : migrateOp env config op w = (.ok failed, w')) : op.serviceName ∈ failed := by
  obtain ⟨m, ms, hm⟩ := List.exists_cons_of_ne_nil hmigrations
  obtain ⟨vol, vols, hvol⟩ := List.exists_cons_of_ne_nil hvolumes
  unfold migrateOp at h
  rw [hm, hcfg] at h
  obtain ⟨results, w₁, hall, hret⟩ := bind_ok h
  obtain ⟨first, w₂, hfirst, hall⟩ := bind_ok hall
  rw [hvol] at hfirst
  obtain ⟨others, w₃, -, hresults⟩ := bind_ok hall
  cases hresults
  have hsummary : (summarizeMigrationFailure (first :: others)).isSome = true := by
    simp [summarizeMigrationFailure, migrateVolumes_refused hrefused hfirst]
  rw [hsummary] at hret
  cases hret
  exact List.mem_cons_self

variable {order : HashMap.Order} {plan : ReconcilePlan} {state : FleetState}
  {raft : StateMachineInner} {w : Dispatch}

theorem migrationFailed_nil (h : ∀ op ∈ plan.reschedules, op.migrations = []) :
    migrationFailed env order config plan state raft w = [] := by
  obtain ⟨failed, w', hrun, -, honly⟩ := collect_total
    (f := migrateOp env config) raises_migrateOp plan.reschedules
      (sendDesiredState env (desiredStateMessages order config plan state raft) w).2
  rw [migrationFailed, hrun]
  refine List.eq_nil_iff_forall_not_mem.mpr fun name hname => ?_
  obtain ⟨op, hop, t, r, t', hop_run, hmem⟩ := honly name hname
  rw [migrateOp_nil (h op hop)] at hop_run
  cases hop_run
  exact absurd hmem List.not_mem_nil

theorem mem_migrationFailed {message : String}
    (hrefused : ∀ log cmd, env.migrationError log cmd = some message) {op : ServiceOp}
    (hop : op ∈ plan.reschedules) {cfg : ServiceConfig}
    (hcfg : config.services.lookup op.serviceName = some cfg) (hvolumes : localVolumes cfg ≠ [])
    (hmigrations : op.migrations ≠ []) :
    op.serviceName ∈ migrationFailed env order config plan state raft w := by
  obtain ⟨failed, w', hrun, hall, -⟩ := collect_total
    (f := migrateOp env config) raises_migrateOp plan.reschedules
      (sendDesiredState env (desiredStateMessages order config plan state raft) w).2
  rw [migrationFailed, hrun]
  obtain ⟨t, r, t', hop_run, hsub⟩ := hall op hop
  exact hsub _ (migrateOp_refused hrefused hcfg hvolumes hmigrations hop_run)

end Failure

section Computed
variable {F : Type} [F64 F] {re : RegexEngine} {order : HashMap.Order} {config : FleetConfig}
  {state : FleetState} {tracked : Option (HashMap String TrackedCloudInstance)}
  {raft : StateMachineInner} {plan : ReconcilePlan}

theorem migrations_of_computed
    (hplan : computePlan F re order config state tracked raft = some plan)
    {op : ServiceOp} (hop : op ∈ plan.reschedules) (hmigrations : op.migrations ≠ []) :
    op.placements ≠ [] ∧ ∃ cfg, config.services.lookup op.serviceName = some cfg ∧
      localVolumes cfg ≠ [] := by
  obtain ⟨hne, cfg, hcfg, hmigrates⟩ := computePlan_migrations hplan hop hmigrations
  refine ⟨hne, cfg, hcfg, ?_⟩
  -- the check for volumes that follow the service is the one that selects them
  simp only [migratesVolumes, Bool.and_eq_true, List.any_eq_true] at hmigrates
  obtain ⟨⟨-, v, hv, hlocal⟩, -⟩ := hmigrates
  refine List.ne_nil_of_mem (List.mem_map_of_mem (List.mem_filter.mpr ⟨hv, ?_⟩))
  simpa using hlocal

end Computed

/-- A fleet that is reached and healthy and refuses every volume. -/
def refusing : Environment where
  reaches _ _ := true
  healthy _ _ _ := true
  expired _ := false
  uuid _ := "d-1"
  migrationError _ _ := some "rsync: connection refused"

/-- CORRECT: carrying out a computed plan holds back every reschedule whose volume migration fails,
    whatever the fleet does, exactly if the plan migrates nothing. What the desired states do to a
    rescheduled service does not depend on its migration: it is kept in place exactly if it runs
    already on the new nodes that are reached, and its old nodes are not reached, have nothing in
    the plan, or have the service in it. -/
theorem failed_migration_held_back_iff (F : Type) [F64 F] (re : RegexEngine)
    (order sendOrder : HashMap.Order) (config : FleetConfig) (state : FleetState)
    (tracked : Option (HashMap String TrackedCloudInstance)) (raft : StateMachineInner)
    (plan : ReconcilePlan) (hplan : computePlan F re order config state tracked raft = some plan)
    (dataDir : String) :
    ((∀ env w agentOrder history, ∀ op ∈ plan.reschedules,
        op.serviceName ∈ migrationFailed env sendOrder config plan state raft w →
          HeldBack dataDir agentOrder history
            (sentBy (applyPlan env F sendOrder config plan state raft) w) op) ↔
      ∀ op ∈ plan.reschedules, op.migrations = []) ∧
    ∀ (env : Environment) (up : String → Bool) w agentOrder history,
      (∀ log node, env.reaches log node = up node) → ∀ op ∈ plan.reschedules,
        (KeptInPlace dataDir agentOrder history
            (sentBy (applyPlan env F sendOrder config plan state raft) w) op ↔
          (∀ p ∈ op.placements, up p.machineName = true →
            (AgentState.after dataDir (history p.machineName)).instances op.serviceName = 1) ∧
          ∀ m ∈ op.migrations, up m.sourceMachine = true →
            (AgentState.after dataDir (history m.sourceMachine)).instances op.serviceName = 1 →
            (∃ name, Delivered config plan m.sourceMachine name) →
              Delivered config plan m.sourceMachine op.serviceName) := by
  refine ⟨⟨fun hall op hop => ?_, fun h env w agentOrder history op _ hfailed => ?_⟩,
    fun env up w agentOrder history hup op hop => keptInPlace_iff hplan hup w history hop⟩
  · by_contra hmigrations
    obtain ⟨hplaced, cfg, hcfg, hvolumes⟩ := migrations_of_computed hplan hop hmigrations
    obtain ⟨p, ps, hps⟩ := List.exists_cons_of_ne_nil hplaced
    have hheld := hall refusing {} .asBuilt (fun _ => []) op hop
      (mem_migrationFailed (fun _ _ => rfl) hop hcfg hvolumes hmigrations)
    -- fresh agents run nothing, so the service is started
    have hreached : ∀ log node, refusing.reaches log node = (fun _ => true) node := fun _ _ => rfl
    have hruns := ((keptInPlace_iff hplan hreached {} (fun _ => []) hop).mp hheld.toKeptInPlace).1 p
      (hps ▸ List.mem_cons_self) rfl
    exact absurd hruns Nat.zero_ne_one
  · rw [migrationFailed_nil h] at hfailed
    exact absurd hfailed List.not_mem_nil

/-! ### A database that loses its node -/

namespace Moved

/-- A stateful service with a local volume; the only machine left is `n2`. -/
def config : FleetConfig where
  services := [⟨"db", { command := some "/nix/store/db"
                        scheduling := { jobType := .stateful }
                        volumes := [⟨"data", "/data", 1024, "local", .readWriteOnce, true⟩]
    : ServiceConfig }⟩].toAList
  machines := [⟨"n2", { capacity := { cpu := 1000, memory := 1000 } : MachineConfig }⟩].toAList

/-- The service runs on `n1`. -/
def state : FleetState := .after [.register 0 "n1",
  .status "n1" [⟨"db", "db-0", "/nix/store/db", .running⟩], .register 0 "n2"]

def raft : StateMachineInner where
  deployments := [⟨"db", ⟨"db", "/nix/store/db", [⟨"db-0", "n1"⟩], 1, 0⟩⟩].toAList

def plan : ReconcilePlan where
  creates := []
  updates := [⟨"db", [⟨"db", "db-0", "n2"⟩], "Update db (1 instances)", []⟩]
  destroys := []
  reschedules := [⟨"db", [⟨"db", "db-0", "n2"⟩], "Reschedule db (1 → 1 instances)",
    [⟨"db-0", "n1", "n2"⟩]⟩]
  hasChanges := true
  policyBlocked := []

/-- What carrying out the plan sends when the volume is refused. -/
def log : List Sent := sentBy (applyPlan refusing Ratio .asBuilt config plan state raft) {}

end Moved

/-- The volume of the database is refused. It is started on its new node, without its data, by the
    desired state, and deployed there after the migration failed. -/
theorem refused_database_started :
    computePlan Ratio noRegex .asBuilt Moved.config Moved.state none Moved.raft =
      some Moved.plan ∧
    migrationFailed refusing .asBuilt Moved.config Moved.plan Moved.state Moved.raft {} = ["db"] ∧
    (Moved.log.map fun m => (m.node, m.delivered, match m.message with
      | .desiredState ds => (handleServerMessage noFaults "/var/lib/ekafleet" .asBuilt {}
          (.desiredState ds)).instances "db"
      | _ => 0)) = [("n2", true, 1), ("n2", true, 0), ("n2", true, 0)] ∧
    (Moved.log.filterMap fun m => match m.message with
      | .deploy cmd => some (m.node, cmd.serviceName)
      | _ => none) = [("n2", "db")] := by
  refine ⟨by decide +kernel, by decide +kernel, by decide +kernel, by decide +kernel⟩

/-- So its plan does not hold back a failed migration. -/
theorem failed_migration_not_held_back_moved :
    ¬ ∀ env w agentOrder history, ∀ op ∈ Moved.plan.reschedules,
      op.serviceName ∈ migrationFailed env .asBuilt Moved.config Moved.plan Moved.state
        Moved.raft w →
        HeldBack "/var/lib/ekafleet" agentOrder history
          (sentBy (applyPlan env Ratio .asBuilt Moved.config Moved.plan Moved.state Moved.raft) w)
          op := by
  rw [(failed_migration_held_back_iff Ratio noRegex .asBuilt .asBuilt Moved.config
    Moved.state none Moved.raft Moved.plan (by decide +kernel) "/var/lib/ekafleet").1]
  decide

end Ekafleet.Fleet
