import Ekafleet.Lib.Codec
import Ekafleet.Lib.HashMap
import Ekafleet.Ca.Certificate

/-! Principals, roles and permissions | source: server/rbac.rs, server/api.rs

    How a request is authenticated (a verified client certificate or a bearer token), and what its
    principal may do. The digest that keys the token store is a parameter. -/

namespace Ekafleet.Server
open Ca

/-- The roles of tokens and peers. -/
inductive Role where | admin | operator | viewer
  deriving DecidableEq, Repr

/-- What a role may permit. -/
inductive Permission where
  | read | deploy | scale | drain | manageTokens | agentConnect | attest
  deriving DecidableEq, Repr

def Role.debug : Role → String
  | .admin => "Admin"
  | .operator => "Operator"
  | .viewer => "Viewer"

def Permission.debug : Permission → String
  | .read => "Read"
  | .deploy => "Deploy"
  | .scale => "Scale"
  | .drain => "Drain"
  | .manageTokens => "ManageTokens"
  | .agentConnect => "AgentConnect"
  | .attest => "Attest"

/-- Whether the role grants the permission. -/
def Role.hasPermission : Role → Permission → Bool
  | .admin, _ => true
  | .operator, p => p ∈ [.read, .deploy, .scale, .drain, .agentConnect, .attest]
  | .viewer, p => p = .read

/-- `a` is no stronger than `b`: every permission of `a` is one of `b`. -/
def Role.le (a b : Role) : Prop := ∀ p, a.hasPermission p = true → b.hasPermission p = true

/-! ### Peers -/

/-- The identity in a client certificate. -/
structure PeerIdentity where
  spiffeId : String
  role : Role
  deriving DecidableEq, Repr

/-- The text after the first `//`. -/
def afterSlashes : List Char → Option (List Char)
  | '/' :: '/' :: rest => some rest
  | _ :: rest => afterSlashes rest
  | [] => none

/-- The path of a SPIFFE ID, from the first slash after the authority. -/
def spiffePath (spiffeId : String) : List Char :=
  match afterSlashes spiffeId.toList with
  | some rest => rest.dropWhile (· ≠ '/')
  | none => []

/-- Derive the role from the path: `/server/…` is a peer server, `/agent/…` an agent, anything else
    an unknown workload. -/
def PeerIdentity.fromSpiffeId (spiffeId : String) : PeerIdentity where
  spiffeId := spiffeId
  role :=
    if "/server/".toList.isPrefixOf (spiffePath spiffeId) then .admin
    else if "/agent/".toList.isPrefixOf (spiffePath spiffeId) then .operator
    else .viewer

/-! ### Tokens -/

/-- The identity behind a token. -/
structure TokenIdentity where
  description : String
  role : Role
  /-- Unset means fleet-wide. -/
  ns : Option String
  deriving DecidableEq, Repr

/-- A token as it is stored. -/
structure TokenEntry where
  role : Role
  description : String
  createdAt : ℕ
  expiresAt : Option ℕ
  ns : Option String
  deriving DecidableEq, Repr

/-- The token has expired. -/
def TokenEntry.isExpired (now : ℕ) (e : TokenEntry) : Bool := e.expiresAt.any (· ≤ now)

/-- Tokens by digest of the raw token. -/
abbrev TokenStore := HashMap String TokenEntry

variable (tokenKey : String → String)

/-- Register a token with a role, an optional lifetime and an optional namespace. -/
def registerWithOpts (now : ℕ) (store : TokenStore) (token : String) (role : Role)
    (description : String) (ttlSecs : Option ℕ) (ns : Option String) : TokenStore :=
  store.insert (tokenKey token)
    { role, description, createdAt := now, expiresAt := ttlSecs.map (now + ·), ns }

/-- Whom a token stands for. -/
def authenticateSyncIdentity (now : ℕ) (store : TokenStore) (token : String) :
    Option (Role × TokenIdentity) :=
  match store.lookup (tokenKey token) with
  | none => none
  | some entry =>
    if entry.isExpired now then none
    else some (entry.role, ⟨entry.description, entry.role, entry.ns⟩)

/-! ### Requests -/

/-- The codes of refused calls. -/
inductive Code where
  | unauthenticated | permissionDenied | invalidArgument | internal
  deriving DecidableEq, Repr

/-- Why a call is refused. -/
structure Status where
  code : Code
  message : String
  deriving DecidableEq, Repr

/-- What the interceptor leaves in the request extensions. -/
structure Extensions where
  role : Option Role := none
  peer : Option PeerIdentity := none
  token : Option TokenIdentity := none
  requestNamespace : Option String := none
  deriving DecidableEq, Repr

def defaultNamespace : String := "default"

/-- Check permission and namespace binding of the request's principal. -/
def requirePermission (ext : Extensions) (perm : Permission) : Except Status Unit :=
  let requestNs := ext.requestNamespace.getD defaultNamespace
  match ext.role, ext.peer with
  | some role, _ =>
    if !role.hasPermission perm then
      .error ⟨.permissionDenied, s!"{role.debug} role does not have {perm.debug} permission"⟩
    else match ext.token.bind (·.ns) with
      | some boundNs =>
        if boundNs ≠ requestNs then
          .error ⟨.permissionDenied,
            s!"token is scoped to namespace '{boundNs}', cannot access '{requestNs}'"⟩
        else .ok ()
      | none => .ok ()
  | none, some peer =>
    if peer.role.hasPermission perm then .ok ()
    else .error ⟨.permissionDenied, s!"mTLS peer {peer.spiffeId} ({peer.role.debug}) does not " ++
      s!"have {perm.debug} permission"⟩
  | none, none => .error ⟨.unauthenticated, "no authenticated principal"⟩

/-- What a request brings: a verified client certificate chain, and metadata. -/
structure Credentials where
  /-- The names of the leaf certificate, when the TLS handshake verified a client certificate. -/
  peerCert : Option (List SanType) := none
  authorization : Option String := none
  nsMetadata : Option String := none
  deriving DecidableEq, Repr

def extractBearerToken (authorization : Option String) : Option String :=
  authorization.bind (Text.stripPrefix "Bearer ")

/-- The authentication interceptor. -/
def intercept (now : ℕ) (tokens : TokenStore) (cred : Credentials) : Except Status Extensions :=
  let requestNs := (cred.nsMetadata.filter (· ≠ "")).getD defaultNamespace
  match cred.peerCert with
  | some sans =>
    let peer := PeerIdentity.fromSpiffeId
      ((extractSpiffeId sans).getD "spiffe://unknown/unidentified")
    .ok { role := some peer.role, peer := some peer, requestNamespace := some requestNs }
  | none =>
    match extractBearerToken cred.authorization with
    | none => .error ⟨.unauthenticated, "missing or invalid authorization header"⟩
    | some rawToken =>
      match authenticateSyncIdentity tokenKey now tokens rawToken with
      | none => .error ⟨.unauthenticated, "invalid or expired token"⟩
      | some (role, identity) =>
        .ok { role := some role, token := some identity, requestNamespace := some requestNs }

end Ekafleet.Server
