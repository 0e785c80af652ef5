import Ekafleet.Secrets.Store
import Ekafleet.Server.AclTokens
import Ekafleet.Server.Apply
import Ekafleet.Server.Promotion
import Ekafleet.Server.Rollback
import Ekafleet.Server.StreamControl

/-! The control API | source: server/api.rs, raft/state.rs

    RPCs of the fleet service over the state they share. A handler first asks whether the
    principal has the permission and, for a token bound to a namespace, whether the request carries
    that namespace in its metadata. -/

namespace Ekafleet.Server
open Raft Scheduler Proto Secrets Effect

/-- The fleet key in memory. -/
structure FleetKeyState where
  key : Bytes
  version : ℕ
  deriving DecidableEq, Repr

/-- What the handlers share. -/
structure ControlState where
  fleet : FleetState := {}
  /-- Canary deployments that wait for an operator, by service. -/
  pendingCanaries : HashMap String PendingCanary := ∅
  raft : StateMachineInner := {}
  secretStore : SecretStore
  fleetKey : FleetKeyState
  tokens : TokenStore := ∅

/-- What a request meets: the agents, the file system, the random generator, and how maps iterate.
    -/
structure World where
  order : HashMap.Order
  innerOrder : HashMap.Order
  agents : Environment
  /-- The valid configuration that a path evaluates to, if it does. -/
  evalFleet : String → Option FleetConfig
  randomToken : Option Bytes
  randomKey : Option MasterKey
  nonces : ℕ → Option Secrets.Nonce
  /-- The error of writing the fleet key to disk. -/
  persistError : Option String
  streams : StreamServer
  parseIpv4 : String → Option Ipv4Addr
  /-- The lines of health and status reports, by service. -/
  healthLine : String → HealthStatus
  statusLine : String → String × String × ServiceState

/-! ### Requests and replies -/

/-- A request for a number of replicas. -/
structure ScaleRequest where
  serviceName : String
  desiredCount : UInt32
  deriving DecidableEq, Repr

/-- The answer to it. -/
structure ScaleResponse where
  success : Bool
  previousCount : UInt32
  newCount : UInt32
  deriving DecidableEq, Repr

/-- The answer to a rotation. -/
structure RotateFleetKeyResponse where
  success : Bool
  previousVersion : ℕ
  newVersion : ℕ
  agentsNotified : ℕ
  message : String
  deriving DecidableEq, Repr

/-! ### Handlers -/

abbrev Handler := Effect ControlState Status

def permit (ext : Extensions) (perm : Permission) : Handler Unit :=
  lift id (requirePermission ext perm)

def setReplicaOverride (serviceName : String) (count : UInt32) (raft : StateMachineInner) :
    StateMachineInner :=
  { raft with
    kv := raft.kv.insert s!"replica-override/{serviceName}" (Word.toLeBytes count) }

/-- The reported instances of a service. -/
def FleetState.instanceCount (order : HashMap.Order) (serviceName : String) (s : FleetState) :
    UInt32 :=
  (((s.fleetStatus order).find? (·.name == serviceName)).map
    (UInt32.ofNat ·.instances.length)).getD 0

section Handlers
variable (aead : Aead) (world : World) (ext : Extensions)

/-- The RPC that sets replica counts. -/
def scale (req : ScaleRequest) : Handler ScaleResponse := do
  permit ext .scale
  let current ← read fun s => s.fleet.instanceCount world.order req.serviceName
  if current = req.desiredCount then
    return ⟨true, current, current⟩
  else do
    update fun s => { s with raft := setReplicaOverride req.serviceName req.desiredCount s.raft }
    return ⟨true, current, req.desiredCount⟩

/-- Move the secret store to a new key. What was re-encrypted before an error stays so. -/
def rekeySecrets (newKey : MasterKey) : Handler Unit := fun s =>
  match s.secretStore.rekey aead world.order world.innerOrder world.nonces newKey with
  | (.ok _, store) => (.ok (), { s with secretStore := store })
  | (.error e, store) => (.error ⟨.internal, s!"failed to re-encrypt secrets: {e.display}"⟩,
      { s with secretStore := store })

/-- The RPC that rotates the fleet key. -/
def rotateFleetKey : Handler RotateFleetKeyResponse := do
  permit ext .manageTokens
  match world.randomKey with
  | none => fail ⟨.internal, "RNG failure during key generation"⟩
  | some newKey => do
    rekeySecrets aead world newKey
    let previous ← read fun s => s.fleetKey.version
    update fun s => { s with fleetKey := ⟨newKey, previous + 1⟩ }
    match world.persistError with
    | some e => fail ⟨.internal, s!"failed to persist rotated key: {e}"⟩
    | none => do
      let nodes ← read fun s => s.fleet.nodes.keys
      let notified := (nodes.filter (world.agents.reaches [])).length
      let version := previous + 1
      return ⟨true, previous, version, notified, s!"Fleet key rotated from v{previous} to " ++
        s!"v{version}, {notified}/{nodes.length} agents notified"⟩

end Handlers

/-! ### Refused requests -/

theorem permit_error {ext : Extensions} {perm : Permission} {e : Status}
    (h : requirePermission ext perm = .error e) {α : Type} (f : Unit → Handler α)
    (s : ControlState) : (permit ext perm >>= f) s = (.error e, s) := by
  rw [permit, h]
  rfl

theorem permit_ok {ext : Extensions} {perm : Permission} (h : requirePermission ext perm = .ok ())
    {α : Type} (f : Unit → Handler α) (s : ControlState) : (permit ext perm >>= f) s = f () s := by
  rw [permit, h]
  rfl

/-! ### What a permitted request does -/

theorem scale_permitted {world : World} {ext : Extensions} {s : ControlState}
    (hperm : requirePermission ext .scale = .ok ()) (req : ScaleRequest) :
    (∃ r, (scale world ext req s).1 = .ok r ∧ r.success = true) ∧ (scale world ext req s).2 =
      if s.fleet.instanceCount world.order req.serviceName = req.desiredCount then s
      else { s with raft := setReplicaOverride req.serviceName req.desiredCount s.raft } := by
  rw [scale, permit_ok hperm]
  simp only [bind_apply, Effect.read]
  split
  · exact ⟨⟨_, rfl, rfl⟩, rfl⟩
  · exact ⟨⟨_, rfl, rfl⟩, rfl⟩

end Ekafleet.Server
