import Ekafleet.Lib.Effect
import Ekafleet.Lib.Run
import Ekafleet.Mesh.Advert
import Ekafleet.Raft.State

/-! The peers of the WireGuard mesh | source: mesh/peers.rs, mesh/wireguard.rs

    The manager keeps what it last configured by node; the kernel keeps its peers by public key. An
    update sets the peers that differ in key or endpoint from what is recorded for their node, and
    removes the recorded key of every node that is no longer listed. The kernel is part of the
    state: a `wg set` that succeeds takes the allowed IP away from whoever had it. -/

namespace Ekafleet.Mesh
open Raft

/-- Why a change of the mesh failed. -/
inductive WgError where
  | command (message : String)
  | io (message : String)
  deriving DecidableEq, Repr

/-- What was last configured for a node. -/
structure PeerInfo where
  publicKey : String
  endpoint : String
  allowedIp : Ipv4Addr
  deriving DecidableEq, Repr

/-- What the kernel holds of a peer; its address may have gone to another peer. -/
structure KernelPeer where
  endpoint : String
  allowedIp : Option String
  deriving DecidableEq, Repr

abbrev Kernel := HashMap String KernelPeer

/-- The manager's records and the kernel's table. -/
structure MeshState where
  peers : HashMap String PeerInfo := ∅
  kernel : Kernel := ∅

/-- How a command ends. -/
inductive CommandOutcome where
  | success
  | failure (stderr : String)
  | notStarted (message : String)
  deriving DecidableEq, Repr

/-- The surroundings of the manager. -/
structure MeshHost where
  lib : AdvertLib
  interface : String
  trustDomain : String
  parseIpv4 : String → Option Ipv4Addr
  outcome : MeshState → (command : String) → (args : List String) → CommandOutcome

/-! ### The kernel -/

def KernelPeer.withdraw (ip : String) (peer : KernelPeer) : KernelPeer :=
  if peer.allowedIp = some ip then { peer with allowedIp := none } else peer

def kernelSet (publicKey endpoint allowedIp : String) (kernel : Kernel) : Kernel :=
  AList.insert publicKey ⟨endpoint, some allowedIp⟩
    (HashMap.mapVal (fun _ peer => peer.withdraw allowedIp) kernel)

/-- An allowed IP belongs to one peer. -/
def OneOwner (kernel : Kernel) : Prop :=
  ∀ key key' peer peer' ip, kernel.lookup key = some peer → kernel.lookup key' = some peer' →
    peer.allowedIp = some ip → peer'.allowedIp = some ip → key = key'

theorem lookup_kernelSet_self (publicKey endpoint allowedIp : String) (kernel : Kernel) :
    (kernelSet publicKey endpoint allowedIp kernel).lookup publicKey =
      some ⟨endpoint, some allowedIp⟩ :=
  AList.lookup_insert _

theorem lookup_kernelSet_ne {key publicKey : String} (h : key ≠ publicKey)
    (endpoint allowedIp : String) (kernel : Kernel) :
    (kernelSet publicKey endpoint allowedIp kernel).lookup key =
      (kernel.lookup key).map (KernelPeer.withdraw allowedIp) := by
  rw [kernelSet, AList.lookup_insert_ne h, HashMap.lookup_mapVal]

variable {peer : KernelPeer}

theorem withdraw_allowedIp_eq_some {ip ip' : String} :
    (peer.withdraw ip).allowedIp = some ip' ↔ peer.allowedIp = some ip' ∧ ip' ≠ ip := by
  unfold KernelPeer.withdraw
  grind

theorem withdraw_eq_iff {ip ip' endpoint : String} (h : ip' ≠ ip) :
    peer.withdraw ip = ⟨endpoint, some ip'⟩ ↔ peer = ⟨endpoint, some ip'⟩ := by
  unfold KernelPeer.withdraw
  grind

/-- STEP: the kernel keeps one owner for each address. -/
theorem OneOwner.kernelSet {kernel : Kernel} (h : OneOwner kernel)
    (publicKey endpoint allowedIp : String) :
    OneOwner (kernelSet publicKey endpoint allowedIp kernel) := by
  intro key key' peer peer' ip hkey hkey' hip hip'
  by_cases hk : key = publicKey <;> by_cases hk' : key' = publicKey
  · rw [hk, hk']
  · -- The other one would have had the address taken away.
    grind [lookup_kernelSet_self, lookup_kernelSet_ne, Option.map_eq_some_iff,
      withdraw_allowedIp_eq_some]
  · grind [lookup_kernelSet_self, lookup_kernelSet_ne, Option.map_eq_some_iff,
       withdraw_allowedIp_eq_some]
  · rw [lookup_kernelSet_ne hk, Option.map_eq_some_iff] at hkey
    rw [lookup_kernelSet_ne hk', Option.map_eq_some_iff] at hkey'
    obtain ⟨old, hold, rfl⟩ := hkey
    obtain ⟨old', hold', rfl⟩ := hkey'
    exact h key key' old old' ip hold hold' (withdraw_allowedIp_eq_some.mp hip).1
      (withdraw_allowedIp_eq_some.mp hip').1

theorem lookup_erase_eq_some {kernel : Kernel} {key publicKey : String} :
    (kernel.erase publicKey).lookup key = some peer ↔
      kernel.lookup key = some peer ∧ key ≠ publicKey := by
  by_cases hk : key = publicKey
  · subst hk
    simp [AList.lookup_erase]
  · simp [AList.lookup_erase_ne hk, hk]

theorem OneOwner.erase {kernel : Kernel} (h : OneOwner kernel) (publicKey : String) :
    OneOwner (kernel.erase publicKey) := by
  intro key key' peer peer' ip hkey hkey' hip hip'
  exact h key key' peer peer' ip (lookup_erase_eq_some.mp hkey).1 (lookup_erase_eq_some.mp hkey').1
    hip hip'

/-! ### The manager -/

section Manager
variable (host : MeshHost)

def runCmd (cmd : String) (args : List String) (effect : Kernel → Kernel) :
    Effect MeshState WgError Unit := fun s =>
  match host.outcome s cmd args with
  | .success => (.ok (), { s with kernel := effect s.kernel })
  | .failure stderr =>
    let line := " ".intercalate args
    let reason := Text.trim stderr
    (.error (.command s!"{cmd} {line} → {reason}"), s)
  | .notStarted message => (.error (.io message), s)

/-- Give the kernel a peer. -/
def setPeer (publicKey endpoint allowedIp : String) : Effect MeshState WgError Unit :=
  runCmd host "wg"
    ["set", host.interface, "peer", publicKey, "endpoint", endpoint, "allowed-ips", allowedIp,
      "persistent-keepalive", "25"]
    (kernelSet publicKey endpoint allowedIp)

/-- Take a peer from the kernel. -/
def removePeer (publicKey : String) : Effect MeshState WgError Unit :=
  runCmd host "wg" ["set", host.interface, "peer", publicKey, "remove"] (AList.erase publicKey)

/-- The advertisements that verify, in order. -/
def verifiedPeers : List WireguardPeer → Option (List WireguardPeer)
  | [] => some []
  | peer :: rest => do
    match ← verifyAdvert host.lib peer host.trustDomain with
    | .ok () => (verifiedPeers rest).map (peer :: ·)
    | .error _ => verifiedPeers rest

/-- No record of the node, or one with another key or endpoint. The address is not compared. -/
def MeshState.changed (s : MeshState) (peer : WireguardPeer) : Bool :=
  match s.peers.lookup peer.nodeId with
  | none => true
  | some existing => existing.publicKey != peer.publicKey || existing.endpoint != peer.endpoint

def recordOf (peer : WireguardPeer) : PeerInfo where
  publicKey := peer.publicKey
  endpoint := peer.endpoint
  allowedIp :=
    ((Text.split '/' peer.allowedIp).head?.bind host.parseIpv4).getD ⟨0, 0, 0, 0⟩

/-- Set a peer that has changed. -/
def updatePeer (peer : WireguardPeer) : Effect MeshState WgError Unit := do
  let changed ← Effect.read fun s => s.changed peer
  if changed then
    setPeer host peer.publicKey peer.endpoint peer.allowedIp
    Effect.update fun s => { s with peers := s.peers.insert peer.nodeId (recordOf host peer) }

/-- Remove a peer no longer sent. -/
def removeStale (id : String) : Effect MeshState WgError Unit := do
  let removed ← Effect.read fun s => s.peers.lookup id
  match removed with
  | none => pure ()
  | some peer =>
    Effect.update fun s => { s with peers := s.peers.erase id }
    removePeer host peer.publicKey

/-- The recorded nodes that are not in an update, as the table iterates. -/
def MeshState.stale (s : MeshState) (order : HashMap.Order) (updates : List WireguardPeer) :
    List String :=
  order.arrange (s.peers.keys.filter fun id => id ∉ updates.map (·.nodeId))

/-- Apply verified peers. -/
def applyVerified (order : HashMap.Order) (updates : List WireguardPeer) :
    Effect MeshState WgError Unit := do
  updates.forM (updatePeer host)
  let stale ← Effect.read fun s => s.stale order updates
  stale.forM (removeStale host)

/-- Apply an update of the server. -/
def applyUpdate (order : HashMap.Order) (updates : List WireguardPeer) (s : MeshState) :
    Option (Except WgError Unit × MeshState) :=
  (verifiedPeers host updates).map fun accepted => applyVerified host order accepted s

theorem mem_verifiedPeers {peer : WireguardPeer} : ∀ {updates accepted : List WireguardPeer},
    verifiedPeers host updates = some accepted → (peer ∈ accepted ↔ peer ∈ updates ∧
      verifyAdvert host.lib peer host.trustDomain = some (.ok ()))
  | [], accepted, h => by
    cases h
    simp
  | first :: rest, accepted, h => by
    rw [verifiedPeers] at h
    rcases hfirst : verifyAdvert host.lib first host.trustDomain with _ | e | u <;>
      rw [hfirst] at h
    · cases h
    · have ih : peer ∈ accepted ↔ _ := mem_verifiedPeers h
      grind
    · obtain ⟨others, hothers, rfl⟩ := Option.map_eq_some_iff.mp h
      have ih : peer ∈ others ↔ _ := mem_verifiedPeers hothers
      grind

/-! ### What a returning update does -/

def MeshState.updated (s : MeshState) (peer : WireguardPeer) : MeshState :=
  if s.changed peer then
    { peers := s.peers.insert peer.nodeId (recordOf host peer)
      kernel := kernelSet peer.publicKey peer.endpoint peer.allowedIp s.kernel }
  else s

def MeshState.without (s : MeshState) (id : String) : MeshState :=
  match s.peers.lookup id with
  | none => s
  | some peer => { peers := s.peers.erase id, kernel := s.kernel.erase peer.publicKey }

variable {s s' : MeshState}

theorem runCmd_ok {cmd : String} {args : List String} {effect : Kernel → Kernel} {u : Unit}
    (h : runCmd host cmd args effect s = (.ok u, s')) :
    s' = { s with kernel := effect s.kernel } := by
  rw [runCmd] at h
  split at h <;> cases h
  rfl

theorem updatePeer_ok {peer : WireguardPeer} (h : updatePeer host peer s = (.ok ⟨⟩, s'))
    : s' = s.updated host peer := by
  obtain ⟨changed, s₁, hread, hrest⟩ := Effect.bind_ok h
  obtain ⟨hchanged, rfl⟩ := Effect.read_ok hread
  rw [MeshState.updated, ← hchanged]
  cases changed with
  | false =>
    cases hrest
    simp
  | true =>
    obtain ⟨u, s₂, hset, hrecord⟩ := Effect.bind_ok hrest
    rw [runCmd_ok host hset] at hrecord
    cases hrecord
    simp

theorem removeStale_ok {id : String} (h : removeStale host id s = (.ok ⟨⟩, s'))
    : s' = s.without id := by
  obtain ⟨removed, s₁, hread, hrest⟩ := Effect.bind_ok h
  obtain ⟨hremoved, rfl⟩ := Effect.read_ok hread
  rw [MeshState.without, ← hremoved]
  cases removed with
  | none =>
    cases hrest
    rfl
  | some peer =>
    obtain ⟨u, s₂, herase, hremove⟩ := Effect.bind_ok hrest
    cases herase
    exact runCmd_ok host hremove

/-- INVERSION: an update that returned set what changed and removed what was stale. -/
theorem applyVerified_ok {order : HashMap.Order} {updates : List WireguardPeer}
    (h : applyVerified host order updates s = (.ok ⟨⟩, s')) :
    s' = ((updates.foldl (MeshState.updated host) s).stale order updates).foldl MeshState.without
      (updates.foldl (MeshState.updated host) s) := by
  obtain ⟨u, s₁, hupdate, hrest⟩ := Effect.bind_ok h
  obtain ⟨stale, s₂, hread, hremove⟩ := Effect.bind_ok hrest
  cases hread
  grind [Effect.forM_ok_foldl, updatePeer_ok, removeStale_ok]

end Manager

/-- A host on which every command succeeds. -/
def textHost : MeshHost where
  lib := textLib
  interface := "wg0"
  trustDomain := "fleet.internal"
  parseIpv4 _ := none
  outcome _ _ _ := .success

end Ekafleet.Mesh
