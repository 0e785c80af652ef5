import Ekafleet.Server.FleetState

/-! The REST API | source: server/rest.rs, server/events.rs, metrics/alerting.rs

    Routes, the authentication in front of them and their handlers. Most handlers report what they
    read; four of them write. Replies are kept as data, without their JSON. The decoding of path
    parameters and of a silence is a parameter, as are the metrics. -/

namespace Ekafleet.Server
open Raft

/-! ### What the server keeps -/

/-- Levels of events. -/
inductive EventLevel where | info | warning | error
  deriving DecidableEq, Repr

/-- Categories of events. -/
inductive EventCategory where
  | deployment | scheduling | health | scaling | nodeJoin | nodeLeave | drain | secretRotation
  | attestation
  deriving DecidableEq, Repr

/-- An event of the timeline. -/
structure TimelineEvent where
  timestamp : ℕ
  level : EventLevel
  category : EventCategory
  service : Option String
  node : Option String
  message : String
  deriving DecidableEq, Repr

/-- How a deployment went. -/
inductive DeployOutcome where | inProgress | succeeded | failed | rolledBack
  deriving DecidableEq, Repr

/-- A deployment in the history. -/
structure DeployRecord where
  deploymentId : String
  serviceName : String
  startedAt : ℕ
  completedAt : Option ℕ
  status : DeployOutcome
  strategy : String
  instanceCount : UInt32
  storePath : String
  message : String
  deriving DecidableEq, Repr

/-- A silence rule that suppresses alerts matching certain criteria. -/
structure AlertSilence where
  matchers : HashMap String String
  startsAt : UInt64
  endsAt : UInt64
  comment : String

/-- Shared state of the REST API. The tracked cloud instances are part of the replicated state. -/
structure HttpApiState (M : Type) where
  fleetState : FleetState := {}
  raft : StateMachineInner := {}
  tracksInstances : Bool := true
  events : List TimelineEvent := []
  deployHistory : List DeployRecord := []
  tokenStore : TokenStore := ∅
  metrics : M
  silences : List AlertSilence := []
  kvStore : HashMap String Bytes := ∅

/-! ### Requests and routes -/

/-- Methods of a request. -/
inductive HttpMethod where
  | get | head | post | put | delete | other (name : String)
  deriving DecidableEq, Repr

/-- The parameters of a query. -/
structure QueryParams where
  offset : Option ℕ := none
  limit : Option ℕ := none
  service : Option String := none
  node : Option String := none
  metric : Option String := none
  keysFrom : Option String := none
  deriving DecidableEq, Repr

/-- A request to the API. -/
structure RestRequest where
  method : HttpMethod
  path : String
  /-- Unset if the query string does not have the form that the route asks for. -/
  query : Option QueryParams := some {}
  authorization : Option String := none
  /-- Unset if the body cannot be read or is too long. -/
  body : Option Bytes := some []
  deriving DecidableEq, Repr

/-- The routes of the API. -/
inductive RestRoute where
  | metrics | status | services | capacity | events | deployments
  | serviceDeployments (service : String)
  | watch | query | silences
  | silence (id : String)
  | kv (key : String)
  | kvList
  | serviceMetrics (name : String)
  | cloudInstances | ui | health
  deriving DecidableEq, Repr

/-- The route of a path. A parameter is one segment that is not empty, or what remains of the path.
    -/
def matchRoute (path : String) : Option RestRoute :=
  match Text.split '/' path with
  | ["", "metrics"] => some .metrics
  | ["", "v1", "status"] => some .status
  | ["", "v1", "services"] => some .services
  | ["", "v1", "capacity"] => some .capacity
  | ["", "v1", "events"] => some .events
  | ["", "v1", "deployments"] => some .deployments
  | ["", "v1", "deployments", service] =>
    if service = "" then none else some (.serviceDeployments service)
  | ["", "v1", "watch"] => some .watch
  | ["", "v1", "query"] => some .query
  | ["", "v1", "alerts", "silences"] => some .silences
  | ["", "v1", "alerts", "silences", id] => if id = "" then none else some (.silence id)
  | ["", "v1", "kv"] => some .kvList
  | "" :: "v1" :: "kv" :: rest =>
    let key := "/".intercalate rest
    if key = "" then none else some (.kv key)
  | ["", "v1", "metrics", "services", name] =>
    if name = "" then none else some (.serviceMetrics name)
  | ["", "v1", "cloud", "instances"] => some .cloudInstances
  | "" :: "ui" :: _ :: _ => some .ui
  | ["", "health"] => some .health
  | _ => none

/-! ### Handlers -/

/-- What a handler answers with. -/
inductive Reply (M : Type) where
  | empty
  | text (body : String)
  | dashboard
  | metrics (m : M) (q : QueryParams)
  | fleet (state : FleetState) (page : QueryParams)
  | events (window : List TimelineEvent)
  | watch (events : List TimelineEvent)
  | deployments (window : List DeployRecord)
  | silences (window : List AlertSilence)
  | created (count : ℕ)
  | deleted
  | entry (key : String) (value : Bytes)
  | flag (b : Bool)
  | keys (keys : List String)
  | instances (window : List TrackedCloudInstance)

/-- An answer of the API. -/
structure RestResponse (M : Type) where
  status : ℕ := 200
  reply : Reply M

/-- How path parameters and the body of a silence are decoded. -/
structure Decoders where
  segment : String → Option String
  /-- Stands for the JSON extractor on the whole request, its `Content-Type` included: `none` if it
      rejects the request for whatever reason. -/
  silence : Bytes → Option AlertSilence

/-- Offset/limit pagination; the limit is capped at 1000. -/
def QueryParams.slice {α : Type} (q : QueryParams) (items : List α) : List α :=
  (items.drop (q.offset.getD 0)).take (min (q.limit.getD 1000) 1000)

/-- The window of a history, newest first; the limit is 50 by default. -/
def QueryParams.window {α : Type} (q : QueryParams) (history : List α) : List α :=
  (history.reverse.drop (q.offset.getD 0)).take (min (q.limit.getD 50) 1000)

section Handlers
variable {M : Type} (dec : Decoders) (order : HashMap.Order)

/-- The handlers that report what they read. -/
def readRoute (q : QueryParams) (s : HttpApiState M) : RestRoute → RestResponse M
  | .metrics => { reply := .metrics s.metrics {} }
  | .status | .services | .capacity => { reply := .fleet s.fleetState q }
  | .events => { reply := .events (q.window (s.events.filter fun e =>
      q.service.all fun svc => e.service == some svc)) }
  | .deployments => { reply := .deployments (q.window s.deployHistory) }
  | .serviceDeployments raw =>
    match dec.segment raw with
    | none => { status := 400, reply := .empty }
    | some service => { reply := .deployments (q.window (s.deployHistory.filter
        (·.serviceName == service))) }
  | .watch => { reply := .watch s.events }
  | .query =>
    if q.metric.isNone then { status := 400, reply := .empty }
    else { reply := .metrics s.metrics q }
  | .silences => { reply := .silences (q.slice s.silences) }
  | .silence _ => { status := 405, reply := .empty }
  | .kv raw =>
    match dec.segment raw with
    | none => { status := 400, reply := .empty }
    | some key =>
      match s.kvStore.lookup key with
      | some value => { reply := .entry key value }
      | none => { status := 404, reply := .text "key not found" }
  | .kvList => { reply := .keys ((order.arrange s.kvStore.keys).filter fun k =>
      (Text.stripPrefix (q.keysFrom.getD "") k).isSome) }
  | .serviceMetrics raw =>
    match dec.segment raw with
    | none => { status := 400, reply := .empty }
    | some name => { reply := .metrics s.metrics { service := some name } }
  | .cloudInstances => { reply := .instances (if s.tracksInstances then
      q.slice ((order.arrange s.raft.cloudInstances.entries).map (·.2)) else []) }
  | .ui => { reply := .dashboard }
  | .health => { reply := .text "ok" }

/-- Create a silence. The status 422 stands for every rejection by the extractor. -/
def createSilence (body : Option Bytes) (s : HttpApiState M) : RestResponse M × HttpApiState M :=
  match body with
  | none => ({ status := 413, reply := .empty }, s)
  | some bytes =>
    match dec.silence bytes with
    | none => ({ status := 422, reply := .empty }, s)
    | some silence =>
      let silences := s.silences ++ [silence]
      ({ reply := .created silences.length }, { s with silences })

/-- Remove a silence by index. -/
def deleteSilence (id : String) (s : HttpApiState M) : RestResponse M × HttpApiState M :=
  match (dec.segment id).bind (Text.parseUnsigned (2 ^ 64)) with
  | none => ({ status := 400, reply := .empty }, s)
  | some i => ({ reply := .deleted }, { s with silences := s.silences.eraseIdx i })

/-- Write a key to the in-memory KV store. -/
def kvPut (raw : String) (body : Option Bytes) (s : HttpApiState M) :
    RestResponse M × HttpApiState M :=
  match dec.segment raw, body with
  | none, _ => ({ status := 400, reply := .empty }, s)
  | _, none => ({ status := 413, reply := .empty }, s)
  | some key, some value =>
    ({ reply := .flag true }, { s with kvStore := s.kvStore.insert key value })

/-- Delete a key from the in-memory KV store. -/
def kvDelete (raw : String) (s : HttpApiState M) : RestResponse M × HttpApiState M :=
  match dec.segment raw with
  | none => ({ status := 400, reply := .empty }, s)
  | some key => ({ reply := .flag (s.kvStore.lookup key).isSome },
      { s with kvStore := s.kvStore.erase key })

/-- A route and a method; the handlers of `GET` also answer `HEAD`. -/
def serveRoute (req : RestRequest) (s : HttpApiState M) (route : RestRoute) :
    RestResponse M × HttpApiState M :=
  match req.method, route with
  | .post, .silences => createSilence dec req.body s
  | .delete, .silence id => deleteSilence dec id s
  | .put, .kv key => kvPut dec key req.body s
  | .delete, .kv key => kvDelete dec key s
  | .get, route | .head, route =>
    match req.query with
    | none => ({ status := 400, reply := .empty }, s)
    | some q => (readRoute dec order q s route, s)
  | _, _ => ({ status := 405, reply := .empty }, s)

/-! ### Authentication -/

variable (tokenKey : String → String) (now : ℕ)

/-- The role of the token that a request carries. -/
def restRole (req : RestRequest) (tokens : TokenStore) : Option Role :=
  (extractBearerToken req.authorization).bind fun token =>
    (authenticateSyncIdentity tokenKey now tokens token).map (·.1)

/-- A request to the API. Every route but the health check asks for the read permission. -/
def serveRest (req : RestRequest) (s : HttpApiState M) : RestResponse M × HttpApiState M :=
  match matchRoute req.path with
  | none => ({ status := 404, reply := .empty }, s)
  | some .health => serveRoute dec order req s .health
  | some route =>
    match restRole tokenKey now req s.tokenStore with
    | none => ({ status := 401, reply := .empty }, s)
    | some role =>
      if role.hasPermission .read then serveRoute dec order req s route
      else ({ status := 403, reply := .empty }, s)

end Handlers

end Ekafleet.Server
