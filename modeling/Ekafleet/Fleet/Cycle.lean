import Ekafleet.Server.Apply
import Ekafleet.Agent.Handlers

/-! One reconcile cycle | source: server/reconciler.rs, agent/handlers.rs

    The server computes a plan and carries it out; each agent handles, in order, the messages that
    reach it. Agents of registered nodes are reached and their hosts have no faults. Health gates,
    deadlines, migrations and what the server knows about the fleet when the cycle begins are
    arbitrary. -/

namespace Ekafleet.Fleet
open Raft Scheduler Proto Server Agent Effect

/-- The inputs of one cycle. -/
structure Cycle where
  order : HashMap.Order
  agentOrder : HashMap.Order
  config : FleetConfig
  state : FleetState
  tracked : Option (HashMap String TrackedCloudInstance) := none
  raft : StateMachineInner
  pendingCanaries : HashMap String PendingCanary := ∅
  env : Environment

/-- The agents by node. -/
abbrev Agents := String → AgentState

namespace Cycle

/-- A node is reached when its agent is registered. -/
def up (c : Cycle) (node : String) : Bool := decide (node ∈ c.state.nodes)

def network (c : Cycle) : Environment := { c.env with reaches := fun _ node => c.up node }

variable (F : Type) [F64 F] (re : RegexEngine)

def plan (c : Cycle) : Option ReconcilePlan :=
  computePlan F re c.order c.config c.state c.tracked c.raft

/-- The messages of the cycle: none when the plan has no changes. -/
def sent (c : Cycle) : List Sent :=
  match c.plan F re with
  | none => []
  | some plan =>
    if plan.hasChanges then
      (applyPlan c.network F c.order c.config plan c.state c.raft ⟨[], c.pendingCanaries⟩).2.sent
    else []

end Cycle

/-- An agent handles a message that reaches it. -/
def deliver (dataDir : String) (order : HashMap.Order) (agents : Agents) (m : Sent) : Agents :=
  if m.delivered then Function.update agents m.node
    (handleServerMessage noFaults dataDir order (agents m.node) m.message)
  else agents

/-- The agents after a cycle. -/
def Cycle.run (F : Type) [F64 F] (re : RegexEngine) (dataDir : String) (agents : Agents)
    (c : Cycle) : Agents :=
  (c.sent F re).foldl (deliver dataDir c.agentOrder) agents

/-! ### One node -/

/-- The messages that reach a node. -/
def inbox (node : String) (log : List Sent) : List ServerMessage :=
  log.filterMap fun m => if m.node = node ∧ m.delivered = true then some m.message else none

theorem inbox_append (node : String) (log log' : List Sent) :
    inbox node (log ++ log') = inbox node log ++ inbox node log' :=
  List.filterMap_append

theorem inbox_cons (node : String) (m : Sent) (rest : List Sent) :
    inbox node (m :: rest) = (if m.node = node ∧ m.delivered = true then [m.message] else []) ++
      inbox node rest := by
  rw [inbox, List.filterMap_cons]
  by_cases h : m.node = node ∧ m.delivered = true
  · simp [h, inbox]
  · simp [h, inbox]

variable {node : String} {config : FleetConfig} {raft : StateMachineInner} {plan : ReconcilePlan}

theorem mem_inbox {log : List Sent} {msg : ServerMessage} :
    msg ∈ inbox node log ↔ ∃ m ∈ log, m.node = node ∧ m.delivered = true ∧ m.message = msg := by
  simp [inbox, List.mem_filterMap, and_assoc]

theorem foldl_deliver_apply (dataDir : String) (order : HashMap.Order) (node : String) :
    ∀ (log : List Sent) (agents : Agents),
      log.foldl (deliver dataDir order) agents node =
        (inbox node log).foldl (handleServerMessage noFaults dataDir order) (agents node)
  | [], _ => rfl
  | m :: rest, agents => by
    rw [List.foldl_cons, foldl_deliver_apply dataDir order node rest, inbox_cons, List.foldl_append]
    unfold deliver
    grind

/-! ### What a node is sent -/

/-- The plan places a configured service on the node. -/
def Delivered (config : FleetConfig) (plan : ReconcilePlan) (node name : String) : Prop :=
  name ∈ config.services ∧
    ∃ op ∈ plan.ops, op.serviceName = name ∧ ∃ p ∈ op.placements, p.machineName = node

/-- The image of a container, nothing for a native service. -/
def imageOf (config : FleetConfig) (name : String) : String :=
  (((config.services.lookup name).bind (·.container)).map (·.image)).getD ""

/-- The path of a native service. -/
def commandOf (config : FleetConfig) (name : String) : String :=
  ((config.services.lookup name).bind (·.command)).getD ""

/-- The path recorded for the last deployment of a service. -/
def recordedPath (raft : StateMachineInner) (name : String) : Option String :=
  (raft.deployments.lookup name).map (·.storePath)

/-- The specifications a plan has for a node. -/
def specsFor (config : FleetConfig) (raft : StateMachineInner) (plan : ReconcilePlan)
    (node : String) : List ServiceSpec :=
  ((nodeSpecs config raft plan).filter (·.1 = node)).map (·.2)

theorem mem_specsFor {spec : ServiceSpec} :
    spec ∈ specsFor config raft plan node ↔
      ∃ op ∈ plan.ops, ∃ cfg, config.services.lookup op.serviceName = some cfg ∧
        spec = sentSpec raft op.serviceName cfg ∧ ∃ p ∈ op.placements, p.machineName = node := by
  constructor
  · intro h
    obtain ⟨⟨n, spec⟩, hmem, rfl⟩ := List.mem_map.mp h
    obtain ⟨hmem, hn⟩ := List.mem_filter.mp hmem
    obtain ⟨op, hop, hspecs⟩ := List.mem_flatMap.mp hmem
    rcases hcfg : config.services.lookup op.serviceName with _ | cfg <;> rw [hcfg] at hspecs
    · cases hspecs
    · obtain ⟨p, hp, heq⟩ := List.mem_map.mp hspecs
      cases heq
      exact ⟨op, hop, cfg, hcfg, rfl, p, hp, by simpa using hn⟩
  · rintro ⟨op, hop, cfg, hcfg, rfl, p, hp, rfl⟩
    refine List.mem_map.mpr ⟨(p.machineName, sentSpec raft op.serviceName cfg),
      List.mem_filter.mpr ⟨List.mem_flatMap.mpr ⟨op, hop, ?_⟩, by simp⟩, rfl⟩
    rw [hcfg]
    exact List.mem_map.mpr ⟨p, hp, rfl⟩

theorem sentSpec_fields (raft : StateMachineInner) (name : String) (cfg : ServiceConfig) :
    (sentSpec raft name cfg).name = name ∧ (sentSpec raft name cfg).storePath = "" ∧
      (sentSpec raft name cfg).containerImage = (cfg.container.map (·.image)).getD "" := by
  unfold sentSpec
  dsimp only
  split
  · exact ⟨rfl, rfl, rfl⟩
  · split <;> exact ⟨rfl, rfl, rfl⟩

theorem exists_specsFor_name {name : String} :
    (∃ spec ∈ specsFor config raft plan node, spec.name = name) ↔
      Delivered config plan node name := by
  constructor
  · rintro ⟨spec, hspec, rfl⟩
    obtain ⟨op, hop, cfg, hcfg, rfl, hp⟩ := mem_specsFor.mp hspec
    rw [(sentSpec_fields raft op.serviceName cfg).1]
    exact ⟨HashMap.mem_iff_exists_lookup.mpr ⟨_, hcfg⟩, op, hop, rfl, hp⟩
  · rintro ⟨hmem, op, hop, rfl, hp⟩
    obtain ⟨cfg, hcfg⟩ := HashMap.mem_iff_exists_lookup.mp hmem
    exact ⟨_, mem_specsFor.mpr ⟨op, hop, cfg, hcfg, rfl, hp⟩, (sentSpec_fields _ _ _).1⟩

theorem specsFor_ne_nil :
    specsFor config raft plan node ≠ [] ↔ ∃ name, Delivered config plan node name := by
  constructor
  · intro h
    obtain ⟨spec, hspec⟩ := List.exists_mem_of_ne_nil _ h
    exact ⟨spec.name, exists_specsFor_name.mp ⟨spec, hspec, rfl⟩⟩
  · rintro ⟨name, h⟩
    obtain ⟨spec, hspec, -⟩ := exists_specsFor_name.mpr h
    exact List.ne_nil_of_mem hspec

theorem filterMap_of_nodupKeys {V W : Type} {key : String} (g : (Σ _ : String, V) → W) :
    ∀ {l : List (Σ _ : String, V)}, l.NodupKeys →
      (l.filterMap fun e => if e.1 = key then some (g e) else none) =
        ((l.dlookup key).map fun v => g ⟨key, v⟩).toList
  | [], _ => rfl
  | ⟨k, v⟩ :: rest, hnd => by
    obtain ⟨hnotin, hrest⟩ := List.nodupKeys_cons.mp hnd
    rw [List.filterMap_cons]
    by_cases hk : k = key
    · subst hk
      rw [filterMap_of_nodupKeys g hrest, List.dlookup_eq_none.mpr hnotin]
      simp
    · rw [if_neg hk, List.dlookup_cons_ne _ _ (Ne.symm hk)]
      exact filterMap_of_nodupKeys g hrest

/-- Messages that leave the supervisor of an agent alone. -/
def Quiet : ServerMessage → Prop
  | .dns _ | .migrateVolume _ => True
  | _ => False

theorem nodupKeys_perNode (order : HashMap.Order) (config : FleetConfig) (raft : StateMachineInner)
    (plan : ReconcilePlan) : (perNode order config raft plan).NodupKeys :=
  (List.perm_nodupKeys (order.perm _)).mpr (AList.nodupKeys _)

theorem dlookup_perNode (order : HashMap.Order) (config : FleetConfig) (raft : StateMachineInner)
    (plan : ReconcilePlan) (node : String) :
    (perNode order config raft plan).dlookup node =
      if specsFor config raft plan node = [] then none
      else some (specsFor config raft plan node) := by
  refine (List.perm_dlookup node (nodupKeys_perNode order config raft plan) (order.perm _)).trans ?_
  refine (HashMap.lookup_groupBy _ _ _ _).trans ?_
  simp only [specsFor, List.map_eq_nil_iff]

theorem inbox_desiredStateMessages (order : HashMap.Order) (config : FleetConfig)
    (plan : ReconcilePlan) (state : FleetState) (raft : StateMachineInner) {up : String → Bool}
    (hup : up node = true) :
    ∃ quiet, (∀ m ∈ quiet, Quiet m) ∧
      ((specsFor config raft plan node = [] ∧
          inbox node ((desiredStateMessages order config plan state raft).map
            fun m => ⟨m.1, m.2, up m.1⟩) = quiet) ∨
        ∃ ds, ds.services = specsFor config raft plan node ∧
          specsFor config raft plan node ≠ [] ∧
          inbox node ((desiredStateMessages order config plan state raft).map
            fun m => ⟨m.1, m.2, up m.1⟩) = .desiredState ds :: quiet) := by
  rw [desiredStateMessages]
  generalize perNodeNamespaces order (nodeSpecs config raft plan) = namespaces
  rw [List.map_append, inbox_append]
  generalize hdns : inbox node (List.map _ (List.filterMap _ namespaces)) = quiet
  have hquiet : ∀ m ∈ quiet, Quiet m := by
    rintro m hm
    rw [← hdns] at hm
    obtain ⟨s, hs, -, -, rfl⟩ := mem_inbox.mp hm
    obtain ⟨⟨n, msg⟩, hmsg, rfl⟩ := List.mem_map.mp hs
    obtain ⟨e, -, he⟩ := List.mem_filterMap.mp hmsg
    split at he
    · cases he
    · cases he; trivial
  refine ⟨quiet, hquiet, ?_⟩
  have hinbox : inbox node (((perNode order config raft plan).map fun n => (n.1,
      ServerMessage.desiredState (desiredStateOf state (perNode order config raft plan) namespaces
        n))).map fun m => (⟨m.1, m.2, up m.1⟩ : Sent)) =
      (((perNode order config raft plan).dlookup node).map fun specs => ServerMessage.desiredState
        (desiredStateOf state (perNode order config raft plan) namespaces
          ⟨node, specs⟩)).toList := by
    rw [← filterMap_of_nodupKeys (fun n => ServerMessage.desiredState
      (desiredStateOf state (perNode order config raft plan) namespaces n))
      (nodupKeys_perNode order config raft plan), inbox, List.map_map, List.filterMap_map]
    grind
  grind [dlookup_perNode, specsFor, desiredStateOf, perNode]

/-! ### The inbox of a cycle -/

theorem inbox_sent {F : Type} [F64 F] {re : RegexEngine} {c : Cycle}
    (hplan : c.plan F re = some plan) (hchanges : plan.hasChanges = true) (node : String) :
    ∃ first later, inbox node (c.sent F re) = first ++ later ∧
      (∀ m ∈ later, Quiet m ∨ ∃ cmd, m = .deploy cmd ∧ c.up node = true ∧
        Delivered c.config plan node cmd.serviceName ∧
        (cmd.storePath = commandOf c.config cmd.serviceName ∨
          recordedPath c.raft cmd.serviceName = some cmd.storePath)) ∧
      ((∀ m ∈ first, Quiet m) ∧
          (c.up node = false ∨ specsFor c.config c.raft plan node = []) ∨
        ∃ ds quiet, first = .desiredState ds :: quiet ∧ (∀ m ∈ quiet, Quiet m) ∧
          c.up node = true ∧ specsFor c.config c.raft plan node ≠ [] ∧
          ds.services = specsFor c.config c.raft plan node) := by
  have hreach : ∀ log n, c.network.reaches log n = c.up n := fun _ _ => rfl
  let w : Dispatch := ⟨(desiredStateMessages c.order c.config plan c.state c.raft).map
    fun m => ⟨m.1, m.2, c.up m.1⟩, c.pendingCanaries⟩
  have hsent : c.sent F re =
      (migrateAndDeploy c.network F c.config plan c.raft w).2.sent := by
    rw [Cycle.sent, hplan]
    simp only [hchanges, if_true, applyPlan, bind_apply, sendDesiredState_apply hreach]
    rfl
  let P : Sent → Prop := fun m => Quiet m.message ∨ ∃ cmd, m.message = .deploy cmd ∧
    m.delivered = c.up m.node ∧ Delivered c.config plan m.node cmd.serviceName ∧
    (cmd.storePath = commandOf c.config cmd.serviceName ∨
      recordedPath c.raft cmd.serviceName = some cmd.storePath)
  obtain ⟨new, hnew, hP⟩ : Sends P w (migrateAndDeploy c.network F c.config plan c.raft w).2 := by
    refine within_migrateAndDeploy (fun _ _ _ => .inl trivial)
      (fun op hop cfg hcfg p hp cmd log hcmd hpath => .inr ⟨cmd, rfl, rfl, ?_, ?_⟩) w
    · have hmem : op.serviceName ∈ c.config.services := HashMap.mem_iff_exists_lookup.mpr ⟨_, hcfg⟩
      exact hcmd ▸ ⟨hmem, op, hop, rfl, p, hp, rfl⟩
    · replace hcmd : cmd.serviceName = op.serviceName := hcmd
      rw [hcmd, commandOf, hcfg]
      rcases List.mem_cons.mp hpath with hnew | hprev
      · exact .inl hnew
      · exact .inr (Option.mem_toList.mp hprev)
  refine ⟨inbox node w.sent, inbox node new, by rw [hsent, hnew, inbox_append], fun m hm => ?_, ?_⟩
  · grind [mem_inbox]
  · by_cases hup : c.up node = true
    · obtain ⟨quiet, hquiet, ⟨hempty, hin⟩ | ⟨ds, hds, hne, hin⟩⟩ :=
        inbox_desiredStateMessages c.order c.config plan c.state c.raft hup
      · exact .inl ⟨hin ▸ hquiet, .inr hempty⟩
      · exact .inr ⟨ds, quiet, hin, hquiet, hup, hne, hds⟩
    grind [mem_inbox]

section Inbox
variable {F : Type} [F64 F] {re : RegexEngine} {c : Cycle} {plan : ReconcilePlan}
  (hplan : c.plan F re = some plan) (hchanges : plan.hasChanges = true) {node : String}
include hplan hchanges

theorem inbox_of_idle (h : ¬ (c.up node = true ∧ ∃ name, Delivered c.config plan node name)) :
    ∀ m ∈ inbox node (c.sent F re), Quiet m := by
  obtain ⟨first, later, hin, hlater, hfirst⟩ := inbox_sent hplan hchanges node
  grind [specsFor_ne_nil]

theorem inbox_of_served (hup : c.up node = true)
    (hdel : ∃ name, Delivered c.config plan node name) :
    ∃ ds later, inbox node (c.sent F re) = .desiredState ds :: later ∧
      ds.services = specsFor c.config c.raft plan node ∧
      ∀ m ∈ later, Quiet m ∨ ∃ cmd, m = .deploy cmd ∧
        Delivered c.config plan node cmd.serviceName ∧
        (cmd.storePath = commandOf c.config cmd.serviceName ∨
          recordedPath c.raft cmd.serviceName = some cmd.storePath) := by
  obtain ⟨first, later, hin, hlater, hfirst⟩ := inbox_sent hplan hchanges node
  grind [specsFor_ne_nil]

theorem deploy_mem_inbox {cmd : DeployCommand} (h : .deploy cmd ∈ inbox node (c.sent F re)) :
    Delivered c.config plan node cmd.serviceName ∧
      (cmd.storePath = commandOf c.config cmd.serviceName ∨
        recordedPath c.raft cmd.serviceName = some cmd.storePath) := by
  by_cases hserved : c.up node = true ∧ ∃ name, Delivered c.config plan node name
  · obtain ⟨ds, later, hin, -, hlater⟩ := inbox_of_served hplan hchanges hserved.1 hserved.2
    rw [hin] at h
    rcases List.mem_cons.mp h with heq | hmem
    · cases heq
    · rcases hlater _ hmem with hquiet | ⟨cmd', heq, hrest⟩
      · cases hquiet
      · cases heq
        exact hrest
  · exact (inbox_of_idle hplan hchanges hserved _ h).elim

end Inbox

theorem sent_of_unchanged {F : Type} [F64 F] {re : RegexEngine} {c : Cycle}
    (h : ¬ ∃ plan, c.plan F re = some plan ∧ plan.hasChanges = true) : c.sent F re = [] := by
  unfold Cycle.sent
  split
  · rfl
  · next plan hplan => exact if_neg fun hchanges => h ⟨plan, hplan, hchanges⟩

theorem inbox_of_unserved {F : Type} [F64 F] {re : RegexEngine} {c : Cycle}
    (h : ¬ ∃ plan, c.plan F re = some plan ∧ plan.hasChanges = true ∧ c.up node = true ∧
      ∃ name, Delivered c.config plan node name) :
    ∀ m ∈ inbox node (c.sent F re), Quiet m := by
  by_cases hchange : ∃ plan, c.plan F re = some plan ∧ plan.hasChanges = true
  · obtain ⟨plan, hplan, hchanges⟩ := hchange
    exact inbox_of_idle hplan hchanges fun hserved => h ⟨plan, hplan, hchanges, hserved⟩
  · rw [sent_of_unchanged hchange]
    exact fun _ hm => absurd hm List.not_mem_nil

end Ekafleet.Fleet
