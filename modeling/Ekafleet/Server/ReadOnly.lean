import Ekafleet.Server.Rest

/-! What a token that may only read can change | source: server/rest.rs, server/rbac.rs

    The permission in front of the routes is the same for all of them, so a role that may read
    reaches the handlers that write as well. -/

namespace Ekafleet.Server
open Raft

variable {M : Type}

/-- Two states that no request can tell apart: the KV store may differ in the order of its keys. -/
structure SameState (s s' : HttpApiState M) : Prop where
  fleetState : s'.fleetState = s.fleetState
  raft : s'.raft = s.raft
  tracksInstances : s'.tracksInstances = s.tracksInstances
  events : s'.events = s.events
  deployHistory : s'.deployHistory = s.deployHistory
  tokenStore : s'.tokenStore = s.tokenStore
  metrics : s'.metrics = s.metrics
  silences : s'.silences = s.silences
  kvStore : ∀ key, s'.kvStore.lookup key = s.kvStore.lookup key

theorem SameState.refl (s : HttpApiState M) : SameState s s :=
  ⟨rfl, rfl, rfl, rfl, rfl, rfl, rfl, rfl, fun _ => rfl⟩

theorem sameState_silences {s : HttpApiState M} {silences : List AlertSilence} :
    SameState s { s with silences } ↔ silences = s.silences :=
  ⟨SameState.silences, fun h => ⟨rfl, rfl, rfl, rfl, rfl, rfl, rfl, h, fun _ => rfl⟩⟩

theorem sameState_kvStore {s : HttpApiState M} {kvStore : HashMap String Bytes} :
    SameState s { s with kvStore } ↔ ∀ key, kvStore.lookup key = s.kvStore.lookup key :=
  ⟨SameState.kvStore, fun h => ⟨rfl, rfl, rfl, rfl, rfl, rfl, rfl, rfl, h⟩⟩

/-! ### The handlers that write -/

section Handlers
variable {dec : Decoders} {s : HttpApiState M}

theorem sameState_createSilence (body : Option Bytes) :
    SameState s (createSilence dec body s).2 ↔ ¬ (body.bind dec.silence).isSome := by
  unfold createSilence
  grind [SameState.refl, sameState_silences]

theorem sameState_deleteSilence (id : String) :
    SameState s (deleteSilence dec id s).2 ↔
      ¬ ∃ i, (dec.segment id).bind (Text.parseUnsigned (2 ^ 64)) = some i ∧
        i < s.silences.length := by
  unfold deleteSilence
  rcases (dec.segment id).bind (Text.parseUnsigned (2 ^ 64)) with _ | i
  · simpa using SameState.refl s
  · simp only [sameState_silences, Option.some.injEq, exists_eq_left', not_lt]
    exact List.eraseIdx_eq_self

theorem sameState_kvPut (raw : String) (body : Option Bytes) :
    SameState s (kvPut dec raw body s).2 ↔
      ¬ ∃ key value, dec.segment raw = some key ∧ body = some value ∧
        s.kvStore.lookup key ≠ some value := by
  unfold kvPut
  grind [SameState.refl, sameState_kvStore, AList.lookup_insert, AList.lookup_insert_ne]

theorem sameState_kvDelete (raw : String) :
    SameState s (kvDelete dec raw s).2 ↔
      ¬ ∃ key, dec.segment raw = some key ∧ (s.kvStore.lookup key).isSome := by
  unfold kvDelete
  rcases dec.segment raw with _ | key
  · simpa using SameState.refl s
  · simp only [sameState_kvStore, Option.some.injEq, exists_eq_left', Bool.not_eq_true,
      Option.isSome_eq_false_iff, Option.isNone_iff_eq_none]
    grind [AList.lookup_erase, AList.lookup_erase_ne]

end Handlers

/-! ### Requests -/

/-- The request makes a silence, removes one that exists, gives a key another value or removes a key
    that exists. -/
def Writes (dec : Decoders) (req : RestRequest) (s : HttpApiState M) : Prop :=
  match req.method, matchRoute req.path with
  | .post, some .silences => (req.body.bind dec.silence).isSome
  | .delete, some (.silence id) =>
    ∃ i, (dec.segment id).bind (Text.parseUnsigned (2 ^ 64)) = some i ∧ i < s.silences.length
  | .put, some (.kv raw) =>
    ∃ key value, dec.segment raw = some key ∧ req.body = some value ∧
      s.kvStore.lookup key ≠ some value
  | .delete, some (.kv raw) => ∃ key, dec.segment raw = some key ∧ (s.kvStore.lookup key).isSome
  | _, _ => False

/-- EXACT: a request that reached its route leaves the state as it is unless it writes. -/
theorem sameState_serveRoute (dec : Decoders) (order : HashMap.Order) (req : RestRequest)
    (s : HttpApiState M) {route : RestRoute} (hroute : matchRoute req.path = some route) :
    SameState s (serveRoute dec order req s route).2 ↔ ¬ Writes dec req s := by
  unfold serveRoute Writes
  rw [hroute]
  cases req.method with
  | get | head =>
    refine iff_of_true ?_ not_false
    dsimp only
    split <;> exact SameState.refl s
  | post =>
    cases route with
    | silences => exact sameState_createSilence req.body
    | _ => exact iff_of_true (SameState.refl s) not_false
  | put =>
    cases route with
    | kv raw => exact sameState_kvPut raw req.body
    | _ => exact iff_of_true (SameState.refl s) not_false
  | delete =>
    cases route with
    | silence id => exact sameState_deleteSilence id
    | kv raw => exact sameState_kvDelete raw
    | _ => exact iff_of_true (SameState.refl s) not_false
  | other name => exact iff_of_true (SameState.refl s) not_false

/-- CORRECT: a request with a token whose role may only read leaves the state of the server as it is
    exactly if it does not write: every write of the API is open to it. -/
theorem read_only_token_frame_iff (dec : Decoders) (order : HashMap.Order)
    (tokenKey : String → String) (now : ℕ) (req : RestRequest) (s : HttpApiState M) (role : Role)
    (hrole : restRole tokenKey now req s.tokenStore = some role)
    (hread : ∀ perm, role.hasPermission perm = true ↔ perm = .read) :
    SameState s (serveRest dec order tokenKey now req s).2 ↔ ¬ Writes dec req s := by
  rcases hroute : matchRoute req.path with _ | route
  · have hnot : ¬ Writes dec req s := by
      unfold Writes
      rw [hroute]
      cases req.method <;> exact not_false
    refine iff_of_true ?_ hnot
    unfold serveRest
    rw [hroute]
    exact SameState.refl s
  · have hserve : serveRest dec order tokenKey now req s = serveRoute dec order req s route := by
      unfold serveRest
      rw [hroute, hrole]
      cases route with
      | health => rfl
      | _ => exact if_pos ((hread .read).mpr rfl)
    rw [hserve]
    exact sameState_serveRoute dec order req s hroute

/-- A server with one viewer token, and with a key in its KV store. -/
def viewerServer : HttpApiState Unit where
  tokenStore := [⟨"t", ⟨.viewer, "dashboard", 0, none, none⟩⟩].toAList
  metrics := ()
  kvStore := [⟨"config/limit", [49]⟩].toAList

/-- Path parameters without escapes, and no silences. -/
def plainDecoders : Decoders := ⟨some, fun _ => none⟩

def viewerRequest (method : HttpMethod) : RestRequest where
  method := method
  path := "/v1/kv/config/limit"
  authorization := some "Bearer t"
  body := some [50]

theorem read_only_token_frame_viewer :
    restRole id 0 (viewerRequest .get) viewerServer.tokenStore = some .viewer ∧
    SameState viewerServer (serveRest plainDecoders .asBuilt id 0 (viewerRequest .get)
      viewerServer).2 :=
  have hrole : restRole id 0 (viewerRequest .get) viewerServer.tokenStore = some .viewer := by
    decide +kernel
  ⟨hrole, (read_only_token_frame_iff plainDecoders .asBuilt id 0 (viewerRequest .get) viewerServer
    .viewer hrole (fun perm => by cases perm <;> decide)).mpr id⟩

/-- A viewer overwrites a key, and removes it. -/
theorem viewer_writes_key :
    restRole id 0 (viewerRequest .put) viewerServer.tokenStore = some .viewer ∧
    viewerServer.kvStore.lookup "config/limit" = some [49] ∧
    (serveRest plainDecoders .asBuilt id 0 (viewerRequest .put) viewerServer).2.kvStore.lookup
      "config/limit" = some [50] ∧
    (serveRest plainDecoders .asBuilt id 0 (viewerRequest .delete) viewerServer).2.kvStore.lookup
      "config/limit" = none := by
  decide +kernel

end Ekafleet.Server
