import Ekafleet.Fleet.Cycle

/-! The steady state | source: server/reconciler.rs, agent/handlers.rs, agent/supervisor.rs

    A desired state comes without store paths and a deploy command sets one, so to the supervisor a
    native service changes its version twice in every cycle. -/

namespace Ekafleet.Fleet
open Raft Scheduler Proto Server Agent

/-! ### Undisturbed agents -/

/-- From `a` to `a'` the supervisor has stopped and restarted nothing. -/
def Undisturbed (a a' : AgentState) : Prop :=
  ∀ call ∈ newCalls a.supervisor a'.supervisor, call.disturbs = false

/-- The calls of `a` are the first ones of `a'`. -/
def Extends (a a' : AgentState) : Prop := a.supervisor.calls <+: a'.supervisor.calls

theorem undisturbed_refl (a : AgentState) : Undisturbed a a := by
  simp [Undisturbed, newCalls]

theorem newCalls_of_append {s s' : Supervisor} {new : List HostCall} (h : s'.calls = s.calls ++ new)
    : newCalls s s' = new := by
  rw [newCalls, h, List.drop_left]

theorem undisturbed_trans_iff {a b c : AgentState} (hab : Extends a b) (hbc : Extends b c) :
    Undisturbed a c ↔ Undisturbed a b ∧ Undisturbed b c := by
  obtain ⟨new, hnew⟩ := hab
  obtain ⟨new', hnew'⟩ := hbc
  have hall : c.supervisor.calls = a.supervisor.calls ++ (new ++ new') := by
    rw [← List.append_assoc, hnew, hnew']
  rw [Undisturbed, Undisturbed, Undisturbed, newCalls_of_append hnew.symm,
    newCalls_of_append hnew'.symm, newCalls_of_append hall]
  simp only [List.mem_append, or_imp, forall_and]

section Agents
variable {dataDir : String} {order : HashMap.Order}

theorem extends_handle (a : AgentState) (m : ServerMessage) :
    Extends a (handleServerMessage noFaults dataDir order a m) := by
  have hadopt : ∀ desired, Extends a (a.adopt noFaults dataDir order desired) := fun desired => by
    obtain ⟨new, hnew⟩ := adopt_calls a desired
    exact ⟨new, hnew.symm⟩
  cases m with
  | desiredState ds => exact hadopt _
  | deploy cmd => exact hadopt _
  | dns records => exact List.prefix_refl _
  | migrateVolume cmd => exact List.prefix_refl _

theorem extends_foldl : ∀ (msgs : List ServerMessage) (a : AgentState),
    Extends a (msgs.foldl (handleServerMessage noFaults dataDir order) a)
  | [], _ => List.prefix_refl _
  | m :: rest, a => (extends_handle a m).trans (extends_foldl rest _)

theorem handle_quiet {m : ServerMessage} (h : Quiet m) (a : AgentState) :
    handleServerMessage noFaults dataDir order a m = a := by
  cases m with
  | desiredState ds => cases h
  | deploy cmd => cases h
  | dns records => rfl
  | migrateVolume cmd => rfl

theorem foldl_quiet : ∀ {msgs : List ServerMessage}, (∀ m ∈ msgs, Quiet m) → ∀ a : AgentState,
    msgs.foldl (handleServerMessage noFaults dataDir order) a = a
  | [], _, _ => rfl
  | m :: rest, h, a => by
    rw [List.foldl_cons, handle_quiet (h m List.mem_cons_self)]
    exact foldl_quiet (fun m' hm' => h m' (List.mem_cons_of_mem _ hm')) a

/-! ### Agents after a desired state -/

/-- The desired services are as configured: `image` says which are containers, and the native ones
    have no store path. Exactly these are managed, at these versions. -/
structure Settled (image : String → String) (a : AgentState) : Prop where
  images : ∀ name spec, a.desiredServices.lookup name = some spec →
    spec.containerImage = image name ∧ (image name = "" → spec.storePath = "")
  managed : ∀ name, (a.supervisor.managedUnits.lookup name).map (·.versionKey) =
    (a.desiredServices.lookup name).map versionKeyFor

variable {image : String → String}

theorem versionKeyFor_eq {spec : ServiceSpec} {img : String} (himg : spec.containerImage = img)
    (hpath : img = "" → spec.storePath = "") : versionKeyFor spec = img := by
  subst himg
  unfold versionKeyFor isContainerService
  by_cases h : spec.containerImage = ""
  · simp [h, hpath h]
  · simp [h]

variable {desired : Specs} {cmd : DeployCommand}

theorem settled_adopt
    (himages : ∀ name spec, desired.lookup name = some spec →
      spec.containerImage = image name ∧ (image name = "" → spec.storePath = ""))
    (a : AgentState) : Settled image (a.adopt noFaults dataDir order desired) :=
  ⟨himages, adopt_managed a desired⟩

variable {a : AgentState} {name : String}

theorem Settled.managed_iff (h : Settled image a) :
    name ∈ a.supervisor.managedUnits ↔ name ∈ a.desiredServices := by
  have hname := congrArg Option.isSome (h.managed name)
  rw [Option.isSome_map, Option.isSome_map] at hname
  rw [← AList.lookup_isSome, ← AList.lookup_isSome, hname]

theorem Settled.versionKey (h : Settled image a) {unit : UnitState}
    (hunit : a.supervisor.managedUnits.lookup name = some unit) :
    unit.versionKey = image name ∧ name ∈ a.desiredServices := by
  have hkey := h.managed name
  rw [hunit, Option.map_some] at hkey
  obtain ⟨spec, hspec, hver⟩ := Option.map_eq_some_iff.mp hkey.symm
  obtain ⟨himg, hpath⟩ := h.images name spec hspec
  exact ⟨hver ▸ versionKeyFor_eq himg hpath, HashMap.mem_iff_exists_lookup.mpr ⟨_, hspec⟩⟩

/-- The services after a deploy command. -/
def redeployed (desired : Specs) (cmd : DeployCommand) :
    Specs :=
  HashMap.adjust cmd.serviceName (fun svc => { svc with storePath := cmd.storePath }) desired

theorem images_redeployed (himages : ∀ name spec, desired.lookup name = some spec →
      spec.containerImage = image name ∧ (image name = "" → spec.storePath = ""))
    (hcmd : image cmd.serviceName ≠ "" ∨ cmd.storePath = "") :
    ∀ name spec, (redeployed desired cmd).lookup name = some spec →
      spec.containerImage = image name ∧ (image name = "" → spec.storePath = "") := by
  intro name spec hspec
  by_cases hname : name = cmd.serviceName
  · subst hname
    rw [redeployed, HashMap.lookup_adjust_self] at hspec
    obtain ⟨spec₀, hspec₀, rfl⟩ := Option.map_eq_some_iff.mp hspec
    grind
  · rw [redeployed, HashMap.lookup_adjust_ne hname] at hspec
    exact himages name spec hspec

theorem mem_redeployed : name ∈ redeployed desired cmd ↔ name ∈ desired := by
  rw [AList.mem_keys, AList.mem_keys, redeployed, HashMap.adjust, HashMap.keys_mapVal]

/-- STEP: a deploy command for a known service disturbs a settled agent if and only if the service
    is native and the command brings a path. -/
theorem deploy_undisturbed_iff (h : Settled image a)
    (hknown : cmd.serviceName ∈ a.desiredServices) :
    Undisturbed a (handleServerMessage noFaults dataDir order a (.deploy cmd)) ↔
      (image cmd.serviceName ≠ "" ∨ cmd.storePath = "") := by
  refine (adopt_undisturbed_iff a (redeployed a.desiredServices cmd)).trans ⟨fun hall => ?_,
    fun hcmd name unit hunit => ?_⟩
  · by_contra hnot
    obtain ⟨himg, hpath⟩ := not_or.mp hnot
    rw [not_not] at himg
    obtain ⟨unit, hunit⟩ := HashMap.mem_iff_exists_lookup.mp (h.managed_iff.mpr hknown)
    obtain ⟨spec, hspec, hkey⟩ := hall _ unit hunit
    rw [redeployed, HashMap.lookup_adjust_self] at hspec
    obtain ⟨spec₀, hspec₀, rfl⟩ := Option.map_eq_some_iff.mp hspec
    have hnative : spec₀.containerImage = "" := (h.images _ _ hspec₀).1.trans himg
    rw [(h.versionKey hunit).1, himg] at hkey
    simp only [versionKeyFor, isContainerService, hnative] at hkey
    exact hpath hkey
  · obtain ⟨hkey, hmem⟩ := h.versionKey hunit
    obtain ⟨spec, hspec⟩ := HashMap.mem_iff_exists_lookup.mp (mem_redeployed.mpr hmem)
    obtain ⟨himg, hpath⟩ := images_redeployed h.images hcmd name spec hspec
    exact ⟨spec, hspec, (versionKeyFor_eq himg hpath).trans hkey.symm⟩

/-- RUN: deploy commands for known services disturb a settled agent if and only if one of them
    brings a path to a native service. -/
theorem deploys_undisturbed_iff : ∀ {msgs : List ServerMessage} {a : AgentState},
    Settled image a →
    (∀ m ∈ msgs, Quiet m ∨ ∃ cmd, m = .deploy cmd ∧ cmd.serviceName ∈ a.desiredServices) →
    (Undisturbed a (msgs.foldl (handleServerMessage noFaults dataDir order) a) ↔
      ∀ cmd, .deploy cmd ∈ msgs → image cmd.serviceName ≠ "" ∨ cmd.storePath = "")
  | [], a, _, _ => by simpa using undisturbed_refl a
  | m :: rest, a, h, hmsgs => by
    have hrest := fun m' hm' => hmsgs m' (List.mem_cons_of_mem _ hm')
    rw [List.foldl_cons]
    rcases hmsgs m List.mem_cons_self with hquiet | ⟨cmd, rfl, hknown⟩
    · rw [handle_quiet hquiet, deploys_undisturbed_iff h hrest]
      refine forall_congr' fun cmd => imp_congr_left ?_
      rw [List.mem_cons, or_iff_right]
      rintro rfl
      cases hquiet
    · rw [undisturbed_trans_iff (extends_handle a _) (extends_foldl rest _),
        deploy_undisturbed_iff h hknown]
      -- a command that disturbs nothing leaves the agent settled, with the same services
      have hsettled (hcmd : image cmd.serviceName ≠ "" ∨ cmd.storePath = "") :
          Undisturbed (handleServerMessage noFaults dataDir order a (.deploy cmd))
            (rest.foldl (handleServerMessage noFaults dataDir order)
              (handleServerMessage noFaults dataDir order a (.deploy cmd))) ↔ _ :=
        deploys_undisturbed_iff (settled_adopt (images_redeployed h.images hcmd) a)
          fun m' hm' => (hrest m' hm').imp_right fun ⟨cmd', heq, hmem⟩ =>
            ⟨cmd', heq, mem_redeployed.mpr hmem⟩
      constructor
      · grind
      · intro hall
        have hcmd := hall cmd List.mem_cons_self
        grind

end Agents

/-! ### Harmless messages -/

section Cycles
variable (F : Type) [F64 F] (re : RegexEngine)

/-- On every registered node that the plan has services for: what the agent manages is among those
    services, at the empty version or its image; and the deploy commands that arrive bring no path
    to a native service. -/
def Harmless (c : Cycle) (agents : Agents) : Prop :=
  ∀ plan, c.plan F re = some plan → plan.hasChanges = true →
    ∀ node, c.up node = true → (∃ name, Delivered c.config plan node name) →
      (∀ name unit, (agents node).supervisor.managedUnits.lookup name = some unit →
        Delivered c.config plan node name ∧ unit.versionKey = imageOf c.config name) ∧
      ∀ cmd, .deploy cmd ∈ inbox node (c.sent F re) →
        imageOf c.config cmd.serviceName ≠ "" ∨ cmd.storePath = ""

variable {F re}

variable {config : FleetConfig} {raft : StateMachineInner} {plan : ReconcilePlan}
  {node dataDir : String}

theorem images_servicesByName : ∀ name spec,
    (servicesByName (specsFor config raft plan node)).lookup name = some spec →
      spec.containerImage = imageOf config name ∧
        (imageOf config name = "" → spec.storePath = "") := by
  intro name spec hspec
  obtain ⟨hmem, rfl⟩ := lookup_servicesByName_some hspec
  obtain ⟨op, -, cfg, hcfg, rfl, -⟩ := mem_specsFor.mp hmem
  obtain ⟨hname, hpath, himg⟩ := sentSpec_fields raft op.serviceName cfg
  refine ⟨?_, fun _ => hpath⟩
  rw [himg, hname, imageOf, hcfg, Option.bind_some]

theorem mem_servicesByName_specsFor {name : String} :
    name ∈ servicesByName (specsFor config raft plan node) ↔ Delivered config plan node name :=
  mem_servicesByName.trans exists_specsFor_name

theorem desiredState_undisturbed_iff {order : HashMap.Order} (a : AgentState)
    :
    Undisturbed a (a.adopt noFaults dataDir order
        (servicesByName (specsFor config raft plan node))) ↔
      ∀ name unit, a.supervisor.managedUnits.lookup name = some unit →
        Delivered config plan node name ∧ unit.versionKey = imageOf config name := by
  refine (adopt_undisturbed_iff a _).trans (forall_congr' fun name => forall_congr' fun unit =>
    imp_congr_right fun _ => ⟨?_, ?_⟩)
  · rintro ⟨spec, hspec, hkey⟩
    obtain ⟨himg, hpath⟩ := images_servicesByName name spec hspec
    have hmem : name ∈ servicesByName (specsFor config raft plan node) :=
      HashMap.mem_iff_exists_lookup.mpr ⟨_, hspec⟩
    exact ⟨mem_servicesByName_specsFor.mp hmem, hkey.symm.trans (versionKeyFor_eq himg hpath)⟩
  · rintro ⟨hdel, hkey⟩
    obtain ⟨spec, hspec⟩ := HashMap.mem_iff_exists_lookup.mp (mem_servicesByName_specsFor.mpr hdel)
    obtain ⟨himg, hpath⟩ := images_servicesByName name spec hspec
    exact ⟨spec, hspec, (versionKeyFor_eq himg hpath).trans hkey.symm⟩

theorem node_undisturbed_iff {c : Cycle} (hplan : c.plan F re = some plan)
    (hchanges : plan.hasChanges = true) (hup : c.up node = true)
    (hdel : ∃ name, Delivered c.config plan node name) (a : AgentState) :
    Undisturbed a ((inbox node (c.sent F re)).foldl
        (handleServerMessage noFaults dataDir c.agentOrder) a) ↔
      (∀ name unit, a.supervisor.managedUnits.lookup name = some unit →
        Delivered c.config plan node name ∧ unit.versionKey = imageOf c.config name) ∧
      ∀ cmd, .deploy cmd ∈ inbox node (c.sent F re) →
        imageOf c.config cmd.serviceName ≠ "" ∨ cmd.storePath = "" := by
  obtain ⟨ds, later, hin, hds, hlater⟩ := inbox_of_served hplan hchanges hup hdel
  have hstart : handleServerMessage noFaults dataDir c.agentOrder a (.desiredState ds) =
      a.adopt noFaults dataDir c.agentOrder
        (servicesByName (specsFor c.config c.raft plan node)) := by
    rw [← hds]; rfl
  have hsettled : Settled (imageOf c.config) (a.adopt noFaults dataDir c.agentOrder
      (servicesByName (specsFor c.config c.raft plan node))) :=
    settled_adopt images_servicesByName a
  -- the later commands are for services that the desired state has just brought
  have hknown : ∀ m ∈ later, Quiet m ∨ ∃ cmd, m = .deploy cmd ∧
      cmd.serviceName ∈ servicesByName (specsFor c.config c.raft plan node) := fun m hm =>
    (hlater m hm).imp_right fun ⟨cmd, heq, hdel, _⟩ =>
      ⟨cmd, heq, mem_servicesByName_specsFor.mpr hdel⟩
  rw [hin, List.foldl_cons, hstart,
    undisturbed_trans_iff (hstart ▸ extends_handle a (.desiredState ds)) (extends_foldl later _),
    desiredState_undisturbed_iff, deploys_undisturbed_iff hsettled hknown]
  simp only [List.mem_cons, reduceCtorEq, false_or]

/-- STEP: a cycle disturbs no agent if and only if its messages are harmless. -/
theorem cycle_undisturbed_iff (c : Cycle) (agents : Agents) :
    (∀ node, Undisturbed (agents node) (c.run F re dataDir agents node)) ↔
      Harmless F re c agents := by
  simp only [Cycle.run, foldl_deliver_apply]
  constructor
  · intro h plan hplan hchanges node hup hdel
    exact (node_undisturbed_iff hplan hchanges hup hdel _).mp (h node)
  · intro h node
    by_cases hserved : ∃ plan, c.plan F re = some plan ∧ plan.hasChanges = true ∧
        c.up node = true ∧ ∃ name, Delivered c.config plan node name
    · obtain ⟨plan, hplan, hchanges, hup, hdel⟩ := hserved
      exact (node_undisturbed_iff hplan hchanges hup hdel _).mpr
        (h plan hplan hchanges node hup hdel)
    · rw [foldl_quiet (inbox_of_unserved hserved)]
      exact undisturbed_refl _

/-! ### Calm cycles -/

variable (F re)

/-- On every registered node that the plan has services for: what the agent manages is among those
    services, at the empty version or its image; and no native service has a path, neither in the
    configuration nor in its recorded deployment. -/
def Calm (c : Cycle) (agents : Agents) : Prop :=
  ∀ plan, c.plan F re = some plan → plan.hasChanges = true →
    ∀ node, c.up node = true → (∃ name, Delivered c.config plan node name) →
      (∀ name unit, (agents node).supervisor.managedUnits.lookup name = some unit →
        Delivered c.config plan node name ∧ unit.versionKey = imageOf c.config name) ∧
      ∀ name, Delivered c.config plan node name → imageOf c.config name = "" →
        commandOf c.config name = "" ∧ ∀ path, recordedPath c.raft name = some path → path = ""

/-- Every service the plan has for a registered node runs there at its deployed version: the image
    of a container, the path of a native service. The recorded deployment is this one. -/
def Steady (c : Cycle) (agents : Agents) : Prop :=
  ∀ plan, c.plan F re = some plan → plan.hasChanges = true →
    ∀ node, c.up node = true → ∀ name, Delivered c.config plan node name →
      (∃ unit, (agents node).supervisor.managedUnits.lookup name = some unit ∧
        unit.versionKey = if imageOf c.config name = "" then commandOf c.config name
          else imageOf c.config name) ∧
      ∀ path, recordedPath c.raft name = some path → path = commandOf c.config name

variable {F re}

theorem Calm.harmless {c : Cycle} {agents : Agents} (h : Calm F re c agents) :
    Harmless F re c agents := by
  intro plan hplan hch node hup hdel
  obtain ⟨hmanaged, hnative⟩ := h plan hplan hch node hup hdel
  refine ⟨hmanaged, fun cmd hcmd => ?_⟩
  by_cases himg : imageOf c.config cmd.serviceName = ""
  swap
  · exact .inl himg
  grind [deploy_mem_inbox]

theorem Harmless.calm {c : Cycle} {agents : Agents} (h : Harmless F re c agents)
    (hsteady : Steady F re c agents) : Calm F re c agents := by
  intro plan hplan hch node hup hdel
  obtain ⟨hmanaged, -⟩ := h plan hplan hch node hup hdel
  refine ⟨hmanaged, fun name hname himg => ?_⟩
  obtain ⟨⟨unit, hunit, hkey⟩, hrecorded⟩ := hsteady plan hplan hch node hup name hname
  grind

/-! ### Repeated cycles -/

variable (F re)

/-- The agents after a sequence of cycles. -/
def afterCycles (dataDir : String) (cycles : List Cycle) (agents : Agents) : Agents :=
  cycles.foldl (Cycle.run F re dataDir) agents

/-- Every cycle meets `P` in the state in which it begins. -/
def EachCycle (P : Cycle → Agents → Prop) (dataDir : String) : List Cycle → Agents → Prop
  | [], _ => True
  | c :: rest, agents => P c agents ∧ EachCycle P dataDir rest (c.run F re dataDir agents)

variable {F re}

theorem EachCycle.imp {P Q R : Cycle → Agents → Prop} {dataDir : String}
    (himp : ∀ c agents, P c agents → Q c agents → R c agents) :
    ∀ {cycles : List Cycle} {agents : Agents}, EachCycle F re P dataDir cycles agents →
      EachCycle F re Q dataDir cycles agents → EachCycle F re R dataDir cycles agents
  | [], _, _, _ => trivial
  | c :: _, agents, ⟨hp, hps⟩, ⟨hq, hqs⟩ => ⟨himp c agents hp hq, EachCycle.imp himp hps hqs⟩

theorem extends_run (c : Cycle) (agents : Agents) (node : String) :
    Extends (agents node) (c.run F re dataDir agents node) := by
  rw [Cycle.run, foldl_deliver_apply]
  exact extends_foldl _ _

theorem extends_afterCycles {dataDir : String} (node : String) :
    ∀ (cycles : List Cycle) (agents : Agents),
      Extends (agents node) (afterCycles F re dataDir cycles agents node)
  | [], _ => List.prefix_refl _
  | c :: rest, agents => (extends_run c agents node).trans (extends_afterCycles node rest _)

/-- RUN: over any number of cycles, from any agents, nothing is stopped or restarted if and only if
    the messages of every cycle are harmless in the state in which it begins. -/
theorem afterCycles_undisturbed_iff {dataDir : String} :
    ∀ (cycles : List Cycle) (agents : Agents),
      (∀ node, Undisturbed (agents node) (afterCycles F re dataDir cycles agents node)) ↔
        EachCycle F re (Harmless F re) dataDir cycles agents
  | [], agents => iff_of_true (fun node => undisturbed_refl _) trivial
  | c :: rest, agents => by
    have hsplit : ∀ node,
        Undisturbed (agents node) (afterCycles F re dataDir (c :: rest) agents node) ↔
          Undisturbed (agents node) (c.run F re dataDir agents node) ∧
            Undisturbed (c.run F re dataDir agents node)
              (afterCycles F re dataDir rest (c.run F re dataDir agents) node) := fun node =>
      undisturbed_trans_iff (extends_run c agents node) (extends_afterCycles node rest _)
    simp only [hsplit, forall_and]
    exact and_congr (cycle_undisturbed_iff c agents)
      (afterCycles_undisturbed_iff rest (c.run F re dataDir agents))

end Cycles

/-- EXACT: in every run whose cycles are calm, no supervisor ever stops or restarts a service; and
    a run whose cycles all begin in a steady state is undisturbed only if its cycles are calm. -/
theorem calm_cycles_undisturbed (F : Type) [F64 F] (re : RegexEngine) (dataDir : String)
    (cycles : List Cycle) (agents : Agents) :
    (EachCycle F re (Calm F re) dataDir cycles agents →
      ∀ node, Undisturbed (agents node) (afterCycles F re dataDir cycles agents node)) ∧
    (EachCycle F re (Steady F re) dataDir cycles agents →
      (∀ node, Undisturbed (agents node) (afterCycles F re dataDir cycles agents node)) →
      EachCycle F re (Calm F re) dataDir cycles agents) := by
  rw [afterCycles_undisturbed_iff]
  refine ⟨fun hcalm => ?_, fun hsteady hharmless => ?_⟩
  · exact hcalm.imp (fun _ _ h _ => h.harmless) hcalm
  · exact hharmless.imp (fun _ _ h hs => h.calm hs) hsteady

/-! ### A service on one machine -/

namespace Restarting

def native : ServiceConfig where
  command := some "/nix/store/abc-web/bin/web"

def container : ServiceConfig where
  container := some { image := "ghcr.io/org/web:1" }

def config (web : ServiceConfig) : FleetConfig where
  services := [⟨"web", web⟩].toAList
  machines := [⟨"m1", { : MachineConfig }⟩].toAList

/-- One cycle on a healthy network, after a history of the fleet. -/
def cycle (web : ServiceConfig) (events : List FleetEvent) : Cycle where
  order := .asBuilt
  agentOrder := .asBuilt
  config := config web
  state := .after events
  raft := {}
  env := {
    reaches := fun _ _ => true
    healthy := fun _ _ _ => true
    expired := fun _ => false
    uuid := fun _ => "deployment"
    migrationError := fun _ _ => none }

/-- The cycle that deploys the service. -/
def deploying (web : ServiceConfig) : Cycle := cycle web [.register 0 "m1"]

/-- A cycle once the agent has reported the service as running and healthy. -/
def steady (web : ServiceConfig) : Cycle := cycle web [.register 0 "m1",
  .status "m1" [⟨"web", "web-0", "/nix/store/abc-web/bin/web", .running⟩],
  .health "m1" [⟨"web", .healthy⟩]]

/-- The agents after the deployment. -/
def agents (web : ServiceConfig) : Agents :=
  (deploying web).run Ratio noRegex "/var/lib/ekafleet" fun _ => {}

/-- The agent runs the container and nothing else. -/
def RunsContainer (a : AgentState) : Prop :=
  a.supervisor.managedUnits.entries.map (fun e => (e.1, e.2.versionKey)) =
    [("web", "ghcr.io/org/web:1")]

instance (a : AgentState) : Decidable (RunsContainer a) := inferInstanceAs (Decidable (_ = _))

theorem calm_of_runsContainer {agents : Agents} (h : RunsContainer (agents "m1")) :
    Calm Ratio noRegex (steady container) agents := by
  rintro plan hplan - node - ⟨name, hdel⟩
  have hops : ((steady container).plan Ratio noRegex).map (fun plan =>
      plan.ops.map fun op => (op.serviceName, op.placements.map (·.machineName))) =
        some [("web", ["m1"])] := by decide +kernel
  rw [hplan, Option.map_some, Option.some.injEq] at hops
  -- the plan has one service, for one machine
  have honly : ∀ {name}, Delivered (config container) plan node name →
      name = "web" ∧ node = "m1" := by
    rintro _ ⟨-, op, hop, rfl, p, hp, rfl⟩
    have hmem := List.mem_map_of_mem (f := fun op : ServiceOp =>
      (op.serviceName, op.placements.map (·.machineName))) hop
    rw [hops, List.mem_singleton, Prod.mk.injEq] at hmem
    exact ⟨hmem.1, List.mem_singleton.mp (hmem.2 ▸ List.mem_map_of_mem hp)⟩
  obtain ⟨rfl, rfl⟩ := honly hdel
  refine ⟨fun name unit hunit => ?_, fun name hname himg => ?_⟩
  · have hmem := List.mem_map_of_mem (f := fun e : Σ _ : String, UnitState =>
      (e.1, e.2.versionKey)) (HashMap.mem_of_lookup hunit)
    rw [h, List.mem_singleton, Prod.mk.injEq] at hmem
    obtain ⟨rfl, hkey⟩ := hmem
    exact ⟨hdel, hkey⟩
  · obtain ⟨rfl, -⟩ := honly hname
    exact absurd himg (by decide)

end Restarting

/-- A container that is running at its image goes on running, cycle after cycle, although every plan
    has an update for it. -/
theorem container_undisturbed :
    let cycles := [Restarting.steady Restarting.container, Restarting.steady Restarting.container]
    let agents := Restarting.agents Restarting.container
    ((Restarting.steady Restarting.container).plan Ratio noRegex).map
        (fun plan => plan.updates.map (·.serviceName)) = some ["web"] ∧
      EachCycle Ratio noRegex (Calm Ratio noRegex) "/var/lib/ekafleet" cycles
        agents ∧
      ∀ node, Undisturbed (agents node)
        (afterCycles Ratio noRegex "/var/lib/ekafleet" cycles agents node) := by
  intro cycles agents
  have hcalm : EachCycle Ratio noRegex (Calm Ratio noRegex) "/var/lib/ekafleet"
      cycles agents :=
    ⟨Restarting.calm_of_runsContainer (by decide +kernel),
      Restarting.calm_of_runsContainer (by decide +kernel), trivial⟩
  exact ⟨by decide +kernel, hcalm,
    (calm_cycles_undisturbed Ratio noRegex "/var/lib/ekafleet" cycles agents).1 hcalm⟩

/-- The service runs at its deployed version and nothing has changed, yet the next cycle restarts it
    twice: for the desired state without a path, and for the deploy command with one. -/
theorem native_service_restarted :
    let agents := Restarting.agents Restarting.native
    let next := (Restarting.steady Restarting.native).run Ratio noRegex
      "/var/lib/ekafleet" agents
    (agents "m1").supervisor.managedUnits.lookup "web" =
        some ⟨"ekafleet-web.service", "/nix/store/abc-web/bin/web", true⟩ ∧
      (next "m1").supervisor.managedUnits.lookup "web" =
        some ⟨"ekafleet-web.service", "/nix/store/abc-web/bin/web", true⟩ ∧
      (newCalls (agents "m1").supervisor (next "m1").supervisor).filter (·.disturbs) =
        [.systemctl (.restart "ekafleet-web.service"),
          .systemctl (.restart "ekafleet-web.service")] := by
  decide +kernel

end Ekafleet.Fleet
