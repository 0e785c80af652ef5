import Ekafleet.Agent.Netns
import Ekafleet.Server.DesiredState

/-! Overlay networks of namespaces | source: server/reconciler.rs, agent/netns.rs

    A namespace outside the default one has a subnet and a VXLAN identifier, both computed from its
    name by a polynomial hash reduced to 254 values. Agents set up what they are sent. -/

namespace Ekafleet.Fleet
open Raft Scheduler Proto Server Agent

/-! ### The number of a namespace -/

/-- The bytes of the name as a number to the base 31, in 64 bits, modulo 254. -/
def overlayNumber (ns : String) : ℕ :=
  Nat.ofDigits 31 ((ns.toList.flatMap String.utf8EncodeChar).reverse.map (·.toNat)) % 2 ^ 64 % 254

theorem toNat_polynomial (bytes : List UInt8) :
    (bytes.foldl (fun (h : UInt64) b => h * 31 + b.toUInt64) 0).toNat =
      Nat.ofDigits 31 (bytes.reverse.map (·.toNat)) % 2 ^ 64 := by
  induction bytes using List.reverseRecOn with
  | nil => rfl
  | append_singleton bytes b ih =>
    rw [List.foldl_append, List.foldl_cons, List.foldl_nil, UInt64.toNat_add, UInt64.toNat_mul, ih,
      List.reverse_append, List.reverse_singleton, List.singleton_append, List.map_cons,
      Nat.ofDigits_cons]
    have h31 : (31 : UInt64).toNat = 31 := rfl
    have hb : b.toUInt64.toNat = b.toNat := by simp
    rw [h31, hb]
    omega

theorem toNat_namespaceSubnetOctet (ns : String) :
    (namespaceSubnetOctet ns).toNat = overlayNumber ns + 1 := by
  have hhash := toNat_polynomial (ns.toList.flatMap String.utf8EncodeChar)
  have h254 : (254 : UInt64).toNat = 254 := rfl
  have h1 : (1 : UInt64).toNat = 1 := rfl
  simp only [namespaceSubnetOctet, overlayNumber, UInt64.toNat_toUInt8, UInt64.toNat_add,
    UInt64.toNat_mod, hhash, h254, h1]
  generalize Nat.ofDigits 31 _ = n
  omega

variable {nodes nodes' : List (Σ _ : String, List ServiceSpec)}

theorem subnet_inj {state state' : FleetState} {node node' ns ns' : String} :
    (namespaceNetwork state nodes node ns).subnet =
        (namespaceNetwork state' nodes' node' ns').subnet ↔
          overlayNumber ns = overlayNumber ns' := by
  simp [namespaceNetwork, toNat_namespaceSubnetOctet]

theorem vni_inj {state state' : FleetState} {node node' ns ns' : String} :
    (namespaceNetwork state nodes node ns).vni =
        (namespaceNetwork state' nodes' node' ns').vni ↔ overlayNumber ns = overlayNumber ns' := by
  simp [namespaceNetwork, ← UInt32.toNat_inj, toNat_namespaceSubnetOctet]

/-! ### What the messages carry -/

/-- A service of the configuration is in the namespace, which is not the default one. -/
def UsesNamespace (desired : FleetConfig) (ns : String) : Prop :=
  isDefaultNamespace ns = false ∧
    ∃ name cfg, desired.services.lookup name = some cfg ∧ cfg.ns = ns

/-- Which plans there are, for the server's view of the fleet and its store. -/
abbrev Plans := FleetState → StateMachineInner → ReconcilePlan → Prop

/-- The plans that the reconciler makes for the configuration. -/
def Planned (desired : FleetConfig) : Plans := fun state raft plan =>
  ∃ (F : Type) (_ : F64 F) (re : RegexEngine) (order : HashMap.Order)
    (tracked : Option (HashMap String TrackedCloudInstance)),
    computePlan F re order desired state tracked raft = some plan

/-- The network is in a message of some cycle for the configuration, with one of the plans. -/
def SentNetwork (plans : Plans) (desired : FleetConfig) (net : NamespaceNetworkConfig) : Prop :=
  ∃ order plan state raft node ds, plans state raft plan ∧
    (node, .desiredState ds) ∈ desiredStateMessages order desired plan state raft ∧
      net ∈ ds.namespaceNetworks

theorem sentSpec_ns (raft : StateMachineInner) (name : String) (cfg : ServiceConfig) :
    (sentSpec raft name cfg).ns = cfg.ns := by
  unfold sentSpec
  dsimp only
  split
  · rfl
  · split <;> rfl

section Messages
variable {order : HashMap.Order} {desired : FleetConfig} {plan : ReconcilePlan}
  {state : FleetState} {raft : StateMachineInner} {plans : Plans}

theorem mem_perNodeNamespaces {specs : List (String × ServiceSpec)} {e : Σ _ : String, List String}
    (he : e ∈ perNodeNamespaces order specs) (ns : String) :
    ns ∈ e.2 ↔
      isDefaultNamespace ns = false ∧ ∃ spec, (e.1, spec) ∈ specs ∧ spec.ns = ns := by
  obtain ⟨⟨node, group⟩, hgroup, rfl⟩ := List.mem_map.mp he
  rw [HashMap.Order.mem_arrange, HashMap.mem_entries_groupBy] at hgroup
  rw [HashMap.Order.mem_arrange, List.mem_dedup, hgroup.2]
  simp only [List.mem_map, List.mem_filter]
  grind

theorem sentNetwork_spec {net : NamespaceNetworkConfig} (h : SentNetwork plans desired net) :
    UsesNamespace desired net.ns ∧
      ∃ state nodes node, net = namespaceNetwork state nodes node net.ns := by
  obtain ⟨order, plan, state, raft, node, ds, -, hmsg, hnet⟩ := h
  rcases List.mem_append.mp hmsg with hmsg | hmsg
  · obtain ⟨group, -, heq⟩ := List.mem_map.mp hmsg
    obtain ⟨rfl, hds⟩ := Prod.mk.inj heq
    obtain rfl := ServerMessage.desiredState.inj hds
    obtain ⟨ns, hns, rfl⟩ := List.mem_map.mp hnet
    refine ⟨?_, state, _, _, rfl⟩
    rcases hfind : (perNodeNamespaces order (nodeSpecs desired raft plan)).find?
      (·.1 == group.1) with _ | e
    · rw [hfind] at hns
      cases hns
    · rw [hfind] at hns
      obtain ⟨hdefault, spec, hspec, hspecns⟩ :=
        (mem_perNodeNamespaces (List.mem_of_find?_eq_some hfind) ns).mp hns
      refine ⟨hdefault, ?_⟩
      obtain ⟨op, -, hop⟩ := List.mem_flatMap.mp hspec
      rcases hcfg : desired.services.lookup op.serviceName with _ | cfg <;> rw [hcfg] at hop
      · cases hop
      · obtain ⟨p, -, heq⟩ := List.mem_map.mp hop
        obtain ⟨-, rfl⟩ := Prod.mk.inj heq
        exact ⟨op.serviceName, cfg, hcfg, (sentSpec_ns raft _ cfg).symm.trans hspecns⟩
  grind

/-- A plan that places one instance of a service. -/
def placing (name : String) : ReconcilePlan where
  creates := [⟨name, [⟨name, s!"{name}-0", "n1"⟩], s!"Create {name} (1 instances)", []⟩]
  updates := []
  destroys := []
  reschedules := []
  hasChanges := true
  policyBlocked := []

theorem sentNetwork_of_uses {ns : String} (h : UsesNamespace desired ns) :
    ∃ net, SentNetwork (fun _ _ _ => True) desired net ∧ net.ns = ns := by
  obtain ⟨hdefault, name, cfg, hcfg, rfl⟩ := h
  have hspecs : nodeSpecs desired {} (placing name) = [("n1", sentSpec {} name cfg)] := by
    simp [nodeSpecs, placing, ReconcilePlan.ops, hcfg]
  have hns := sentSpec_ns {} name cfg
  refine ⟨namespaceNetwork {} (perNode .asBuilt desired {} (placing name)) "n1" cfg.ns,
    ⟨.asBuilt, placing name, {}, {}, "n1", _, trivial, List.mem_append_left _ (List.mem_map.mpr
      ⟨⟨"n1", [sentSpec {} name cfg]⟩, ?_, rfl⟩), ?_⟩, rfl⟩
  · rw [perNode, HashMap.Order.mem_arrange, HashMap.mem_entries_groupBy, hspecs]
    simp
  · refine List.mem_map.mpr ⟨cfg.ns, ?_, rfl⟩
    have hnamespaces : perNodeNamespaces .asBuilt (nodeSpecs desired {} (placing name)) =
        [⟨"n1", [cfg.ns]⟩] := by
      rw [hspecs, perNodeNamespaces]
      simp [HashMap.groupBy, HashMap.upsert, HashMap.Order.asBuilt, hns, hdefault]
    rw [hnamespaces]
    exact List.mem_singleton_self _

end Messages

/-! ### Isolation -/

/-- Different namespaces have different networks, in the messages of all cycles for the
    configuration with the plans, and in the tables of the agents that handle such messages. -/
structure OverlayIsolated (plans : Plans) (desired : FleetConfig) : Prop where
  messages : ∀ net net', SentNetwork plans desired net → SentNetwork plans desired net' →
    net.ns ≠ net'.ns → net.subnet ≠ net'.subnet ∧ net.vni ≠ net'.vni
  agents : ∀ (host : NetnsHost) (history : List DesiredState),
    (∀ ds ∈ history, ∀ net ∈ ds.namespaceNetworks, SentNetwork plans desired net) →
    ∀ ns ns' network network',
      (history.foldl (NetnsManager.adopt host) {}).namespaces.lookup ns = some network →
      (history.foldl (NetnsManager.adopt host) {}).namespaces.lookup ns' = some network' →
      ns ≠ ns' → network.subnet ≠ network'.subnet ∧ network.vni ≠ network'.vni

section Plans
variable {plans : Plans} {desired : FleetConfig} {net net' : NamespaceNetworkConfig}

/-- EXACT: networks that are sent differ in both if their numbers do, and in neither otherwise. -/
theorem networks_differ (h : SentNetwork plans desired net) (h' : SentNetwork plans desired net') :
    (net.subnet ≠ net'.subnet ∧ net.vni ≠ net'.vni) ↔
      overlayNumber net.ns ≠ overlayNumber net'.ns := by
  obtain ⟨-, state, nodes, node, hnet⟩ := sentNetwork_spec h
  obtain ⟨-, state', nodes', node', hnet'⟩ := sentNetwork_spec h'
  rw [hnet, hnet', ne_eq, ne_eq, subnet_inj, vni_inj, and_self]
  rfl

theorem isolated_iff_sent :
    OverlayIsolated plans desired ↔ ∀ net net', SentNetwork plans desired net →
      SentNetwork plans desired net' → net.ns ≠ net'.ns →
        overlayNumber net.ns ≠ overlayNumber net'.ns := by
  constructor
  · intro h net net' hsent hsent' hne
    exact (networks_differ hsent hsent').mp (h.messages net net' hsent hsent' hne)
  · intro h
    refine ⟨fun net net' hsent hsent' hne =>
      (networks_differ hsent hsent').mpr (h net net' hsent hsent' hne), ?_⟩
    intro host history hhistory ns ns' network network' hns hns' hne
    have htold : Told (SentNetwork plans desired) (history.foldl (NetnsManager.adopt host) {}) :=
      told_of_adopted hhistory
    obtain ⟨net, hsent, rfl, hsubnet, hvni⟩ := htold ns network hns
    obtain ⟨net', hsent', rfl, hsubnet', hvni'⟩ := htold ns' network' hns'
    rw [← hsubnet, ← hsubnet', ← hvni, ← hvni']
    exact (networks_differ hsent hsent').mpr (h net net' hsent hsent' hne)

end Plans

/-- EXACT: for every configuration, different namespaces have different subnets and VXLAN
    identifiers, whatever the plans, if and only if no two namespaces that it uses agree in their
    numbers modulo 254; and with the plans of the reconciler if and only if no two of those do that
    such a plan brings out. -/
theorem overlay_isolated_iff (desired : FleetConfig) :
    (OverlayIsolated (fun _ _ _ => True) desired ↔
      ∀ ns ns', UsesNamespace desired ns → UsesNamespace desired ns' → ns ≠ ns' →
        overlayNumber ns ≠ overlayNumber ns') ∧
    (OverlayIsolated (Planned desired) desired ↔
      ∀ net net', SentNetwork (Planned desired) desired net →
        SentNetwork (Planned desired) desired net' → net.ns ≠ net'.ns →
        overlayNumber net.ns ≠ overlayNumber net'.ns) := by
  refine ⟨isolated_iff_sent.trans ⟨?_, ?_⟩, isolated_iff_sent⟩
  · intro h ns ns' huses huses' hne
    obtain ⟨net, hsent, rfl⟩ := sentNetwork_of_uses huses
    obtain ⟨net', hsent', rfl⟩ := sentNetwork_of_uses huses'
    exact h net net' hsent hsent' hne
  · intro h net net' hsent hsent' hne
    exact h _ _ (sentNetwork_spec hsent).1 (sentNetwork_spec hsent').1 hne

/-! ### Two namespaces in one network -/

namespace Collision

/-- A service in each of two namespaces, on one machine. -/
def config : FleetConfig where
  services := [⟨"web", { command := some "web", ns := "staging" }⟩,
    ⟨"try", { command := some "try", ns := "sandbox" }⟩].toAList
  machines := [⟨"n1", {}⟩].toAList

/-- The networks in the messages of a plan. -/
def networks (plan : ReconcilePlan) : List (String × String × UInt32) :=
  (desiredStateMessages .asBuilt config plan {} {}).flatMap fun message =>
    match message.2 with
    | .desiredState ds => ds.namespaceNetworks.map fun net => (net.ns, net.subnet, net.vni)
    | _ => []

/-- The plan for the configuration sends out one subnet and one identifier for two namespaces. -/
theorem staging_and_sandbox_share :
    ((computePlan Ratio noRegex .asBuilt config {} none {}).map networks =
      some [("sandbox", "10.200.8.0/24", 8), ("staging", "10.200.8.0/24", 8)]) ∧
      ¬ OverlayIsolated (Planned config) config := by
  have hshared : (computePlan Ratio noRegex .asBuilt config {} none {}).map networks =
      some [("sandbox", "10.200.8.0/24", 8), ("staging", "10.200.8.0/24", 8)] := by decide +kernel
  refine ⟨hshared, fun h => ?_⟩
  obtain ⟨plan, hplan, hnetworks⟩ := Option.map_eq_some_iff.mp hshared
  have hplanned : Planned config {} {} plan := ⟨Ratio, _, noRegex, .asBuilt, none, hplan⟩
  have hsent : ∀ e ∈ networks plan, ∃ net, SentNetwork (Planned config) config net ∧
    net.ns = e.1 := by
    intro e he
    obtain ⟨⟨node, message⟩, hmessage, he⟩ := List.mem_flatMap.mp he
    cases message with
    | desiredState ds =>
      obtain ⟨net, hnet, rfl⟩ := List.mem_map.mp he
      exact ⟨net, ⟨.asBuilt, plan, {}, {}, node, ds, hplanned, hmessage, hnet⟩, rfl⟩
    | _ => cases he
  rw [hnetworks] at hsent
  obtain ⟨net, hnet, hsandbox⟩ := hsent _ List.mem_cons_self
  obtain ⟨net', hnet', hstaging⟩ := hsent _ (List.mem_cons_of_mem _ List.mem_cons_self)
  have hne := isolated_iff_sent.mp h net net' hnet hnet'
  rw [hsandbox, hstaging] at hne
  exact hne (by decide) (by decide +kernel)

end Collision

end Ekafleet.Fleet
