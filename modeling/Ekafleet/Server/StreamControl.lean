import Ekafleet.Ca.Issuer

/-! Agent control streams | source: server/api.rs, server/agent_msg.rs

    One stream: the interceptor authenticates it, the first message announces a node, and every
    message is then processed. The model returns the actions the server performs, in order. -/

namespace Ekafleet.Server
open Ca

/-- A sign of life of an agent. -/
structure Heartbeat where
  nodeId : String
  pool : String := ""
  meshIp : String := ""
  deriving DecidableEq, Repr

/-- A request for a certificate. -/
structure CertRequest where
  nodeId : String
  serviceName : String
  csr : Bytes
  deriving DecidableEq, Repr

/-- What an agent sends. -/
inductive Payload where
  | heartbeat (hb : Heartbeat)
  | health (nodeId : String) (services : List String)
  | status (nodeId : String) (runningServices : List String)
  | certRequest (req : CertRequest)
  | metrics (nodeId : String)
  | nack (correlationId reason : String)
  | attestResponse
  | commandResponse (correlationId : String)
  deriving DecidableEq, Repr

/-- A message, and the state of the certificate authority when it is processed. -/
structure Inbound where
  payload : Option Payload
  env : SigningEnv := {}
  ca : CaState
  assignments : HashMap String (List String) := ∅

/-- What the server does about it. -/
inductive Action where
  | registerAgent (nodeId remote pool : String)
  | associateNode (cloudInstanceId nodeId : String)
  | sendTrustBundle (nodeId trustDomain pem : String)
  | sendFleetKey (nodeId : String) (derived : Bytes) (version : ℕ)
  | updateHeartbeat (nodeId : String)
  | updateMeshIp (nodeId ip : String)
  | updateHealth (nodeId : String) (services : List String)
  | updateStatus (nodeId : String) (services : List String)
  | sendCertificate (nodeId behalfOf serviceName : String) (issued : Issued)
  | ingestMetrics (nodeId : String)
  | completeRequest (correlationId : String)
  | deregisterAgent (nodeId : String)
  deriving DecidableEq

/-- The server's configuration, and what it uses from outside: the X.509 library, HKDF, the tracked
    cloud instances by address, and the parser of IPv4 addresses. -/
structure StreamServer where
  domain : String
  trustBundlePem : Option String := none
  fleetKey : Bytes := []
  fleetKeyVersion : ℕ := 0
  hasCertIssuer : Bool := true
  lib : X509Lib
  hkdf : Bytes → String → Bytes
  cloudInstanceByIp : String → Option String := fun _ => none
  isIpv4 : String → Bool := fun _ => false

variable (srv : StreamServer)

def agentSpiffeId (nodeId : String) : String := s!"spiffe://{srv.domain}/agent/{nodeId}"

/-- Process one message of the stream of `nodeId`. -/
def processAgentMessage (nodeId : String) (m : Inbound) : List Action :=
  match m.payload with
  | some (.heartbeat hb) =>
    .updateHeartbeat nodeId ::
      if hb.meshIp ≠ "" ∧ srv.isIpv4 hb.meshIp then [.updateMeshIp nodeId hb.meshIp] else []
  | some (.health _ services) => [.updateHealth nodeId services]
  | some (.status _ services) => [.updateStatus nodeId services]
  | some (.certRequest req) =>
    if srv.hasCertIssuer then
      match processRequest srv.lib m.env m.ca m.assignments req.nodeId req.serviceName req.csr with
      | .ok issued => [.sendCertificate nodeId req.nodeId req.serviceName issued]
      | .error _ => []
    else []
  | some (.metrics summaryNodeId) => [.ingestMetrics summaryNodeId]
  | some (.nack _ _) => []
  | some .attestResponse => []
  | some (.commandResponse correlationId) => [.completeRequest correlationId]
  | none => []

/-- The node and pool that a first message announces. -/
def announced : Option Payload → Option (String × String)
  | some (.heartbeat hb) => some (hb.nodeId, hb.pool)
  | some (.status nodeId _) => some (nodeId, "")
  | _ => none

/-- What happens once the agent is identified, before its first message is processed. -/
def admitAgent (remote nodeId pool : String) : List Action :=
  let agentIp := Text.beforeLast ':' remote
  [.registerAgent nodeId remote (if pool = "" then "default" else pool)] ++
    (srv.cloudInstanceByIp agentIp).toList.map (.associateNode · nodeId) ++
    srv.trustBundlePem.toList.map (.sendTrustBundle nodeId srv.domain) ++
    if 0 < srv.fleetKeyVersion then
      [.sendFleetKey nodeId (srv.hkdf srv.fleetKey (agentSpiffeId srv nodeId)) srv.fleetKeyVersion]
    else []

/-- One control stream with the messages that arrive on it until it ends. -/
def streamControl (ext : Extensions) (remote : String) (inbound : List Inbound) :
    Except Status (List Action) := do
  requirePermission ext .agentConnect
  match inbound with
  | [] => throw ⟨.invalidArgument, "no initial message"⟩
  | first :: rest =>
    match announced first.payload with
    | none => throw ⟨.invalidArgument, "first message must be heartbeat or status"⟩
    | some (nodeId, pool) =>
      return admitAgent srv remote nodeId pool ++
        (first :: rest).flatMap (processAgentMessage srv nodeId) ++ [.deregisterAgent nodeId]

/-- The node and pool that the first message of a stream announces. -/
def announcedBy (inbound : List Inbound) : Option (String × String) :=
  inbound.head?.bind fun first => announced first.payload

theorem streamControl_permitted {ext : Extensions}
    (hperm : requirePermission ext .agentConnect = .ok ()) (remote : String)
      {inbound : List Inbound}
    {nodeId pool : String} (h : announcedBy inbound = some (nodeId, pool)) :
    streamControl srv ext remote inbound = .ok (admitAgent srv remote nodeId pool ++
      inbound.flatMap (processAgentMessage srv nodeId) ++ [.deregisterAgent nodeId]) := by
  cases inbound with
  | nil => cases h
  | cons first rest =>
    have hfirst : announced first.payload = some (nodeId, pool) := h
    simp only [streamControl, hperm, hfirst]
    rfl

/-- A stream from its credential on: nothing is done for a refused one. -/
def serveStream (tokenKey : String → String) (now : ℕ) (tokens : TokenStore) (cred : Credentials)
    (remote : String) (inbound : List Inbound) : List Action :=
  match intercept tokenKey now tokens cred with
  | .error _ => []
  | .ok ext =>
    match streamControl srv ext remote inbound with
    | .error _ => []
    | .ok actions => actions

/-! ### Acting as a node -/

/-- The node an action is done for: the one that is registered, whose key is pushed, or on whose
    behalf a certificate is issued. -/
def Action.actsAs : Action → Option String
  | .registerAgent nodeId _ _ => some nodeId
  | .sendFleetKey nodeId _ _ => some nodeId
  | .sendCertificate _ behalfOf _ _ => some behalfOf
  | _ => none

/-- The node a credential names: a client certificate `spiffe://<domain>/agent/<node>`. A bearer
    token names none. -/
def credentialNode (cred : Credentials) : Option String :=
  (cred.peerCert.bind extractSpiffeId).bind (Text.stripPrefix (agentSpiffeId srv ""))

/-- The certificate request that a message makes the server grant. -/
def grantedRequest (m : Inbound) : Option CertRequest :=
  match m.payload with
  | some (.certRequest req) =>
    match processRequest srv.lib m.env m.ca m.assignments req.nodeId req.serviceName req.csr with
    | .ok _ => if srv.hasCertIssuer then some req else none
    | .error _ => none
  | _ => none

section Stream
variable (tokenKey : String → String) (now : ℕ) (tokens : TokenStore) (cred : Credentials)

/-- The node and pool under which a stream is admitted, if it is. -/
def admittedAs (inbound : List Inbound) : Option (String × String) :=
  match intercept tokenKey now tokens cred with
  | .error _ => none
  | .ok ext =>
    match requirePermission ext .agentConnect with
    | .error _ => none
    | .ok () => inbound.head?.bind fun first => announced first.payload

variable {tokenKey now tokens cred}

theorem serveStream_of_admitted {remote : String} {inbound : List Inbound} {nodeId pool : String}
    (h : admittedAs tokenKey now tokens cred inbound = some (nodeId, pool)) :
    serveStream srv tokenKey now tokens cred remote inbound =
      admitAgent srv remote nodeId pool ++ inbound.flatMap (processAgentMessage srv nodeId) ++
        [.deregisterAgent nodeId] := by
  unfold admittedAs at h
  split at h; · cases h
  next ext hext =>
    split at h; · cases h
    next hperm =>
      have hstream := streamControl_permitted srv hperm remote h
      simp only [serveStream, hext, hstream]

theorem serveStream_of_not_admitted {remote : String} {inbound : List Inbound}
    (h : admittedAs tokenKey now tokens cred inbound = none) :
    serveStream srv tokenKey now tokens cred remote inbound = [] := by
  unfold admittedAs at h
  unfold serveStream
  cases hext : intercept tokenKey now tokens cred with
  | error e => rfl
  | ok ext =>
    simp only [hext] at h
    cases hperm : requirePermission ext .agentConnect with
    | error e => simp only [streamControl, hperm]; rfl
    | ok u =>
      simp only [hperm] at h
      cases inbound with
      | nil => simp only [streamControl, hperm]; rfl
      | cons first rest =>
        have hfirst : announced first.payload = none := h
        simp only [streamControl, hperm, hfirst]; rfl

end Stream

theorem admitAgent_actsAs {remote nodeId pool n : String} {a : Action}
    (ha : a ∈ admitAgent srv remote nodeId pool) (hn : a.actsAs = some n) : n = nodeId := by
  simp only [admitAgent, List.mem_append, List.mem_map, List.mem_singleton] at ha
  rcases ha with ((rfl | ⟨i, -, rfl⟩) | ⟨pem, -, rfl⟩) | ha
  · exact (Option.some.inj hn).symm
  · cases hn
  · cases hn
  · split at ha
    · obtain rfl := List.mem_singleton.mp ha
      exact (Option.some.inj hn).symm
    · cases ha

theorem processAgentMessage_actsAs {nodeId n : String} {m : Inbound} :
    (∃ a ∈ processAgentMessage srv nodeId m, a.actsAs = some n) ↔
      ∃ req, grantedRequest srv m = some req ∧ req.nodeId = n := by
  rcases m with ⟨_ | payload, env, ca, assignments⟩
  · simp [processAgentMessage, grantedRequest]
  cases payload with
  | heartbeat hb =>
    simp only [processAgentMessage, grantedRequest]
    split <;> simp [Action.actsAs]
  | certRequest req =>
    simp only [processAgentMessage, grantedRequest]
    cases srv.hasCertIssuer <;>
      cases processRequest srv.lib env ca assignments req.nodeId req.serviceName req.csr <;>
      simp [Action.actsAs]
  | health | status | metrics | nack | attestResponse | commandResponse =>
    simp [processAgentMessage, grantedRequest, Action.actsAs]

/-- EXACT: a stream acts only as the node its credential names if and only if, once it is admitted,
    that node is the one the first message announces and the one every granted certificate request
    names. -/
theorem stream_acts_as_credential_iff (srv : StreamServer) (tokenKey : String → String) (now : ℕ)
    (tokens : TokenStore) (cred : Credentials) (remote : String) (inbound : List Inbound) :
    (∀ a ∈ serveStream srv tokenKey now tokens cred remote inbound, ∀ n, a.actsAs = some n →
      credentialNode srv cred = some n) ↔
    ∀ nodeId pool, admittedAs tokenKey now tokens cred inbound = some (nodeId, pool) →
      credentialNode srv cred = some nodeId ∧
      ∀ m ∈ inbound, ∀ req, grantedRequest srv m = some req →
        credentialNode srv cred = some req.nodeId := by
  constructor
  · intro hacts nodeId pool hadm
    rw [serveStream_of_admitted srv hadm] at hacts
    refine ⟨hacts (.registerAgent nodeId remote (if pool = "" then "default" else pool)) ?_ _ rfl,
      fun m hm req hreq => ?_⟩
    · simp [admitAgent]
    · obtain ⟨a, ha, hn⟩ : ∃ a ∈ processAgentMessage srv nodeId m, _ :=
        (processAgentMessage_actsAs srv).mpr ⟨req, hreq, rfl⟩
      have hmem : a ∈ inbound.flatMap (processAgentMessage srv nodeId) :=
        List.mem_flatMap.mpr ⟨m, hm, ha⟩
      exact hacts a (by simp [hmem]) _ hn
  · intro hcond a ha n hn
    cases hadm : admittedAs tokenKey now tokens cred inbound with
    | none => rw [serveStream_of_not_admitted srv hadm] at ha; cases ha
    | some p =>
      obtain ⟨nodeId, pool⟩ := p
      obtain ⟨hnode, hreqs⟩ := hcond nodeId pool hadm
      rw [serveStream_of_admitted srv hadm] at ha
      simp only [List.mem_append, List.mem_flatMap, List.mem_singleton] at ha
      rcases ha with (ha | ⟨m, hm, ha⟩) | rfl
      · rw [admitAgent_actsAs srv ha hn]; exact hnode
      · obtain ⟨req, hreq, rfl⟩ := (processAgentMessage_actsAs srv).mp ⟨a, ha, hn⟩
        exact hreqs m hm req hreq
      · cases hn

/-- A stream authenticated as node `a` is registered as node `b`, is sent the key of `b` and gets a
    certificate on behalf of `b`. -/
theorem stream_of_node_a_acts_as_b :
    let srv : StreamServer :=
      { domain := "fleet.internal", fleetKeyVersion := 1, lib := csrLib []
        hkdf := fun _ id => id.toUTF8.toList }
    let cred : Credentials := { peerCert := some [.uri "spiffe://fleet.internal/agent/a"] }
    let acts := serveStream srv id 0 ∅ cred "10.0.0.9:4000"
      [{ payload := some (.heartbeat { nodeId := "b" }), ca := sampleCa },
       { payload := some (.certRequest ⟨"b", "web", [0x01]⟩), ca := sampleCa
         assignments := [⟨"b", ["web"]⟩].toAList }]
    credentialNode srv cred = some "a" ∧
      acts.map Action.actsAs = [some "b", some "b", none, some "b", none] := by
  decide +kernel

end Ekafleet.Server
