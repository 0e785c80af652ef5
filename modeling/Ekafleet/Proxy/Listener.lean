import Ekafleet.Lib.Codec
import Ekafleet.Lib.Effect
import Ekafleet.Proxy.Circuit
import Ekafleet.Proxy.Routing

/-! The HTTP listener of the proxy | source: proxy/listener.rs, proxy/mtls.rs

    A request is resolved, checked against the circuit breaker of the service and forwarded to an
    endpoint, again and again while that fails and may be repeated. The authorizer of the listener
    decides which callers may reach which services. Clock, caller and the answers of the backends
    come from outside. -/

namespace Ekafleet.Proxy
open Effect

/-! ### Authorization of callers -/

/-- Why a caller is refused. -/
inductive AuthzError where
  | noPolicyDefined (target : String)
  | denied (caller target : String)
  deriving DecidableEq, Repr

/-- Who may call whom. -/
structure SpiffeAuthorizer where
  trustDomain : String
  /-- The SPIFFE IDs that may call a service. -/
  policies : HashMap String (List String) := ∅

/-- Update authorization policies from service identity contracts. -/
def SpiffeAuthorizer.updatePolicies (order : HashMap.Order)
    (servicePolicies : HashMap String (List String)) (a : SpiffeAuthorizer) : SpiffeAuthorizer :=
  { a with policies := (order.arrange servicePolicies.entries).foldl (fun m e =>
      m.insert e.1 (e.2.map fun caller => s!"spiffe://{a.trustDomain}/service/{caller}")) ∅ }

/-- Check if a caller is authorized to access the target service. -/
def SpiffeAuthorizer.authorize (a : SpiffeAuthorizer) (caller target : String) :
    Except AuthzError Unit :=
  match a.policies.lookup target with
  | none => .error (.noPolicyDefined target)
  | some allowed =>
    if allowed.isEmpty then .error (.denied caller target)
    else if allowed.contains caller then .ok ()
    else .error (.denied caller target)

/-! ### Requests -/

/-- Methods of a request. -/
inductive Method where
  | get | head | put | delete | options | post | patch | other (name : String)
  deriving DecidableEq, Repr

/-- Returns true if the HTTP method is idempotent and safe to retry. -/
def isIdempotent : Method → Bool
  | .get | .head | .put | .delete | .options => true
  | _ => false

/-- The failures the proxy answers itself. -/
inductive StatusCode where
  | badRequest | notFound | serviceUnavailable | badGateway
  deriving DecidableEq, Repr

/-- A request to the proxy. -/
structure HttpRequest where
  method : Method
  path : String
  query : Option String := none
  /-- Header names are in lower case. -/
  headers : List (String × String) := []
  /-- Unset if it cannot be read or is larger than 10 MiB. -/
  body : Option Bytes := some []
  /-- The SPIFFE ID in the certificate of the peer, if it showed one. -/
  peer : Option String := none
  deriving DecidableEq, Repr

/-- An answer of the proxy. -/
structure HttpResponse where
  status : ℕ
  body : Bytes := []
  deriving DecidableEq, Repr

/-- A header value that is visible ASCII. -/
def headerText (value : String) : Option String :=
  if value.toList.all fun c => c == '\t' || (32 ≤ c.toNat && c.toNat < 127) then some value
  else none

def HttpRequest.host (req : HttpRequest) : String :=
  (((req.headers.find? (·.1 == "host")).map (·.2)).bind headerText).getD ""

/-- What is sent to a backend, and for which service. -/
structure Forwarded where
  serviceName : String
  endpoint : SocketAddr
  uri : String
  method : Method
  headers : List (String × String)
  body : Bytes
  /-- How long the proxy waits before it. -/
  delay : ℕ
  deriving DecidableEq, Repr

/-- The proxy of a node. -/
structure ProxyState where
  routes : List Route := []
  upstream : UpstreamPool := ∅
  authorizer : SpiffeAuthorizer
  circuitBreakers : CircuitBreakerRegistry := {}
  retryConfig : RetryConfig := {}
  /-- The requests made to backends. -/
  forwarded : List Forwarded := []

/-- Times at which a request is looked at and given up, and what backends answer. -/
structure Surroundings where
  arrival : ℕ
  givenUp : ℕ
  answer : List Forwarded → Forwarded → Option HttpResponse

abbrev Handle := Effect ProxyState StatusCode

section Handler
variable (env : Surroundings)

/-- Forward a request to an upstream endpoint. -/
def forwardRequest (f : Forwarded) : Handle (Option HttpResponse) := fun p =>
  (.ok (env.answer p.forwarded f), { p with forwarded := p.forwarded ++ [f] })

/-- The attempts from number `attempt` on, `left` at most. -/
def forwardAttempts (f : Forwarded) : ℕ → ℕ → Handle (Option HttpResponse)
  | _, 0 => pure none
  | attempt, left + 1 =>
    -- only idempotent methods are tried again
    if 0 < attempt && !isIdempotent f.method then pure none
    else do
      let delay ← read fun p =>
        if attempt = 0 then 0 else p.retryConfig.delayForAttempt (attempt - 1)
      match ← forwardRequest env { f with delay } with
      | some resp => return some resp
      | none => forwardAttempts f (attempt + 1) left

/-- The request for a backend, built from the one that came in. -/
def forwardParams (req : HttpRequest) (body : Bytes) (serviceName : String)
    (endpoint : SocketAddr) :
    Forwarded where
  serviceName := serviceName
  endpoint := endpoint
  uri := s!"http://{endpoint.ip}:{endpoint.port.toNat}{req.path}" ++
    ((req.query.map fun q => "?" ++ q).getD "")
  method := req.method
  headers := ("host", req.host) :: req.headers.filter (·.1 != "host")
  body := body
  delay := 0

/-- Ask the circuit breaker of the service. -/
def checkBreaker (serviceName : String) : Handle Bool := fun p =>
  let (allowed, breakers) := p.circuitBreakers.allowRequest env.arrival serviceName
  (.ok allowed, { p with circuitBreakers := breakers })

/-- The next healthy endpoint. -/
def selectEndpoint (serviceName : String) : Handle (Option SocketAddr) := fun p =>
  let (endpoint, upstream) := nextEndpoint serviceName p.upstream
  (.ok endpoint, { p with upstream })

/-- All attempts failed. -/
def giveUp (serviceName : String) (endpoint : SocketAddr) : Handle HttpResponse := do
  update fun p => { p with
    circuitBreakers := p.circuitBreakers.recordFailure env.givenUp serviceName
    upstream := markUnhealthy serviceName endpoint p.upstream }
  fail .badGateway

/-- Forward to an endpoint of the service, with retries. -/
def forwardTo (req : HttpRequest) (body : Bytes) (serviceName : String) (endpoint : SocketAddr) :
    Handle HttpResponse := do
  let maxAttempts ← read fun p => (p.retryConfig.maxRetries + 1).toNat
  match ← forwardAttempts env (forwardParams req body serviceName endpoint) 0 maxAttempts with
  | some resp => do
    update fun p => { p with circuitBreakers := p.circuitBreakers.recordSuccess serviceName }
    return resp
  | none => giveUp env serviceName endpoint

/-- The part of the handler behind the routes. -/
def forwardResolved (req : HttpRequest) (body : Bytes) (serviceName : String) :
    Handle HttpResponse := do
  let allowed ← checkBreaker env serviceName
  if allowed then do
    match ← selectEndpoint serviceName with
    | none => fail .serviceUnavailable
    | some endpoint => forwardTo env req body serviceName endpoint
  else fail .serviceUnavailable

/-- Handle an incoming proxy request by forwarding it to the resolved upstream. -/
def proxyHandler (req : HttpRequest) : Handle HttpResponse :=
  match req.body with
  | none => fail .badRequest
  | some body => do
    match ← read fun p => resolve p.routes req.host req.path with
    | none => fail .notFound
    | some resolved => forwardResolved env req body resolved.serviceName

end Handler

end Ekafleet.Proxy
