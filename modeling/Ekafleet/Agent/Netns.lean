import Ekafleet.Lib.Effect
import Ekafleet.Lib.Text
import Ekafleet.Proto
import Ekafleet.Raft.State

/-! Network namespaces of an agent | source: agent/netns.rs, agent/handlers.rs

    For every namespace of a desired state the agent creates a network namespace with a bridge,
    once; what it was told first stays until the namespace is no longer listed. The answers of `ip`
    are parameters. Addresses of services and tunnel peers are left out. -/

namespace Ekafleet.Agent
open Raft Proto Effect

/-- Why a namespace could not be set up. -/
inductive NetnsError where
  | command (message : String)
  | config (message : String)
  deriving DecidableEq, Repr

/-- The network an agent has created for a namespace. -/
structure NamespaceNetwork where
  netnsName : String
  bridgeName : String
  subnet : String
  gateway : Ipv4Addr
  vni : UInt32
  deriving DecidableEq, Repr

/-- The namespaces of an agent. -/
structure NetnsManager where
  namespaces : HashMap String NamespaceNetwork := ∅
  /-- The `ip` commands that were run, in order. -/
  commands : List (List String) := []

/-- What the commands and parsers of a host answer. -/
structure NetnsHost where
  /-- What a command writes to its error output if it fails. -/
  ipError : List (List String) → List String → Option String
  parseIpv4 : String → Except String Ipv4Addr

/-- The hash that names of namespaces are reduced with. -/
def namespaceHash (ns : String) : UInt64 :=
  (ns.toList.flatMap String.utf8EncodeChar).foldl (fun h b => h * 31 + b.toUInt64) 0

/-- A bridge name of at most 15 characters: the low 48 bits of the hash in hexadecimal. -/
def bridgeNameFor (ns : String) : String :=
  "br-" ++ String.ofList
    ((Nat.toDigits 16 ((namespaceHash ns).toNat % 2 ^ 48)).leftpad 12 '0')

/-- The prefix length of a subnet, the text after its last slash. -/
def subnetPrefixLen (subnet : String) : String :=
  ((Text.splitLast '/' subnet).map (·.2)).getD subnet

section Manager
variable (host : NetnsHost)

/-- Run `ip`. -/
def runIp (args : List String) : Effect NetnsManager NetnsError Unit := fun m =>
  let m' := { m with commands := m.commands ++ [args] }
  let line := " ".intercalate args
  match (host.ipError m.commands args).map Text.trim with
  | none => (.ok (), m')
  | some stderr => (.error (.command s!"ip {line} failed: {stderr}"), m')

/-- What is run for a new namespace. -/
def setupCommands (ns subnet gateway : String) : List (List String) :=
  let netns := s!"ekafleet-{ns}"
  let bridge := bridgeNameFor ns
  let inside (args : List String) := ["netns", "exec", netns, "ip"] ++ args
  [["netns", "add", netns],
    ["link", "add", bridge, "type", "bridge"],
    ["link", "set", bridge, "netns", netns],
    inside ["addr", "add", s!"{gateway}/{subnetPrefixLen subnet}", "dev", bridge],
    inside ["link", "set", bridge, "up"],
    inside ["link", "set", "lo", "up"],
    inside ["route", "add", "default", "via", gateway]]

/-- Set up a namespace that is not there yet. A command that fails leaves it out of the table. -/
def ensureNamespace (ns subnet gateway : String) (vni : UInt32) :
    Effect NetnsManager NetnsError Unit :=
  if isDefaultNamespace ns then pure ()
  else do
    let present ← read fun m => (m.namespaces.lookup ns).isSome
    if present then pure ()
    else match host.parseIpv4 gateway with
      | .error e => fail (.config s!"invalid gateway IP '{gateway}': {e}")
      | .ok gatewayIp => do
        List.forM (setupCommands ns subnet gateway) (runIp host)
        update fun m => { m with
          namespaces := m.namespaces.insert ns
            ⟨s!"ekafleet-{ns}", bridgeNameFor ns, subnet, gatewayIp, vni⟩ }

/-- Take a namespace down; the answer of the command does not matter. -/
def NetnsManager.destroyNamespace (m : NetnsManager) (ns : String) : NetnsManager :=
  match m.namespaces.lookup ns with
  | none => m
  | some network => {
      namespaces := m.namespaces.erase ns
      commands := m.commands ++ [["netns", "del", network.netnsName]] }

/-- Drop the namespaces not in use. -/
def NetnsManager.gcNamespaces (m : NetnsManager) (active : List String) : NetnsManager :=
  (m.namespaces.keys.filter fun ns => !active.contains ns).foldl
    NetnsManager.destroyNamespace m

/-- The namespaces of one desired state. Errors are only logged. -/
def NetnsManager.adopt (m : NetnsManager) (ds : DesiredState) : NetnsManager :=
  (ds.namespaceNetworks.foldl (fun m cfg =>
    (ensureNamespace host cfg.ns cfg.subnet cfg.gateway cfg.vni m).2) m).gcNamespaces
      (ds.namespaceNetworks.map (·.ns))

end Manager

/-! ### The table of namespaces -/

section Table
variable {host : NetnsHost}

def SameTable (m m' : NetnsManager) : Prop := m'.namespaces = m.namespaces

instance SameTable.refl : Std.Refl SameTable := ⟨fun _ => rfl⟩

instance SameTable.trans : IsTrans NetnsManager SameTable := ⟨fun _ _ _ h h' => Eq.trans h' h⟩

variable (host) in
theorem sameTable_runIp (args : List String) : Within SameTable (runIp host args) := by
  intro m
  unfold runIp
  dsimp only
  split <;> rfl

variable (host) in
/-- CASES: the table stays, or gets an entry with the given subnet and identifier. -/
theorem ensureNamespace_cases (ns subnet gateway : String) (vni : UInt32) (m : NetnsManager) :
    SameTable m (ensureNamespace host ns subnet gateway vni m).2 ∨
    ∃ network : NamespaceNetwork, network.subnet = subnet ∧ network.vni = vni ∧
      (ensureNamespace host ns subnet gateway vni m).2.namespaces =
        m.namespaces.insert ns network := by
  unfold ensureNamespace
  split
  · exact .inl rfl
  simp only [bind_apply, Effect.read]
  split
  · exact .inl rfl
  rcases host.parseIpv4 gateway with e | ip
  · exact .inl rfl
  have hcommands := within_forM (sameTable_runIp host) (setupCommands ns subnet gateway) m
  simp only [bind_apply]
  rcases hrun : (List.forM (setupCommands ns subnet gateway) (runIp host) :
    Effect NetnsManager NetnsError PUnit) m with ⟨e | _, m'⟩ <;> rw [hrun] at hcommands
  · exact .inl hcommands
  · have hsame : m'.namespaces = m.namespaces := hcommands
    refine .inr ⟨⟨s!"ekafleet-{ns}", bridgeNameFor ns, subnet, ip, vni⟩, rfl, rfl, ?_⟩
    simp only [update]
    rw [hsame]

/-- Every entry of the table comes from a configuration with the property. -/
def Told (Q : NamespaceNetworkConfig → Prop) (m : NetnsManager) : Prop :=
  ∀ ns network, m.namespaces.lookup ns = some network →
    ∃ cfg, Q cfg ∧ cfg.ns = ns ∧ cfg.subnet = network.subnet ∧ cfg.vni = network.vni

variable {Q : NamespaceNetworkConfig → Prop} {m : NetnsManager}

theorem Told.ensure (h : Told Q m) {cfg : NamespaceNetworkConfig} (hcfg : Q cfg) :
    Told Q (ensureNamespace host cfg.ns cfg.subnet cfg.gateway cfg.vni m).2 := by
  rcases ensureNamespace_cases host cfg.ns cfg.subnet cfg.gateway cfg.vni m with
    hsame | ⟨network, hsubnet, hvni, hinsert⟩
  · intro ns network hlookup
    rw [show _ = m.namespaces from hsame] at hlookup
    exact h ns network hlookup
  · intro ns other hlookup
    rw [hinsert] at hlookup
    by_cases hns : ns = cfg.ns
    · subst hns
      rw [AList.lookup_insert, Option.some.injEq] at hlookup
      subst hlookup
      exact ⟨cfg, hcfg, rfl, hsubnet.symm, hvni.symm⟩
    · rw [AList.lookup_insert_ne hns] at hlookup
      exact h ns other hlookup

theorem Told.destroy (h : Told Q m) (ns : String) : Told Q (m.destroyNamespace ns) := by
  unfold NetnsManager.destroyNamespace
  split
  · exact h
  · intro ns' network hlookup
    by_cases hns : ns' = ns
    · subst hns
      rw [AList.lookup_erase] at hlookup
      cases hlookup
    · rw [AList.lookup_erase_ne hns] at hlookup
      exact h ns' network hlookup

/-- STEP: handling a desired state keeps where the entries come from. -/
theorem Told.adopt (h : Told Q m) {ds : DesiredState} (hds : ∀ cfg ∈ ds.namespaceNetworks, Q cfg) :
    Told Q (m.adopt host ds) := by
  unfold NetnsManager.adopt NetnsManager.gcNamespaces
  refine List.foldlRecOn (motive := Told Q) _ _ ?_ fun m hm ns _ => hm.destroy ns
  exact List.foldlRecOn (motive := Told Q) _ _ h fun m hm cfg hcfg => hm.ensure (hds cfg hcfg)

/-- RUN: after any number of desired states. -/
theorem told_of_adopted {history : List DesiredState}
    (h : ∀ ds ∈ history, ∀ cfg ∈ ds.namespaceNetworks, Q cfg) :
    Told Q (history.foldl (NetnsManager.adopt host) {}) := by
  have hinit : Told Q {} := by
    intro ns network hlookup
    rw [AList.lookup_empty] at hlookup
    cases hlookup
  exact List.foldlRecOn (motive := Told Q) _ _ hinit fun m hm ds hds => hm.adopt (h ds hds)

end Table

end Ekafleet.Agent
