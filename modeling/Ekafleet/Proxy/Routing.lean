import Ekafleet.Lib.HashMap
import Ekafleet.Lib.Text

/-! Routes and backends of the proxy | source: proxy/router.rs, proxy/upstream.rs

    A request is resolved to a service by host and path, and a service to one of its healthy
    endpoints, in turn. -/

namespace Ekafleet.Proxy

/-! ### Routes -/

/-- A route to a port of a service. -/
structure PortRoute where
  hostname : String
  pathPrefix : String
  port : UInt16
  weight : UInt32
  deriving DecidableEq, Repr

/-- A route in the table. -/
structure Route extends PortRoute where
  serviceName : String
  deriving DecidableEq, Repr

/-- Where a request goes. -/
structure ResolvedRoute where
  serviceName : String
  port : UInt16
  weight : UInt32
  deriving DecidableEq, Repr

/-- Update routes from service port contracts. -/
def updateRoutes (order : HashMap.Order) (services : HashMap String (List PortRoute)) :
    List Route :=
  (order.arrange services.entries).flatMap fun e => e.2.map fun r => { r with serviceName := e.1 }

/-- The host is that of the route, or the route takes any; the path begins with its prefix. -/
def Route.fits (hostname path : String) (r : Route) : Bool :=
  (r.hostname == hostname || r.hostname == "*") && (Text.stripPrefix r.pathPrefix path).isSome

/-- Resolve a request to a backend service: of the routes that fit, the first of those with the
    longest prefix. -/
def resolve (routes : List Route) (hostname path : String) : Option ResolvedRoute :=
  let fitting := (routes.filter (·.fits hostname path)).insertionSort fun a b =>
    b.pathPrefix.utf8ByteSize ≤ a.pathPrefix.utf8ByteSize
  fitting.head?.map fun r => ⟨r.serviceName, r.port, r.weight⟩

/-! ### Backends -/

/-- A socket address. -/
structure SocketAddr where
  ip : String
  port : UInt16
  deriving DecidableEq, Repr

/-- An endpoint of a service. -/
structure Endpoint where
  addr : SocketAddr
  healthy : Bool
  deriving DecidableEq, Repr

/-- The endpoints of a service, in turn. -/
structure ServicePool where
  endpoints : List Endpoint
  nextIndex : UInt64 := 0
  deriving DecidableEq, Repr

abbrev UpstreamPool := HashMap String ServicePool

def ServicePool.healthy (p : ServicePool) : List Endpoint := p.endpoints.filter (·.healthy)

/-- Get the next healthy endpoint for a service. -/
def nextEndpoint (serviceName : String) (pool : UpstreamPool) : Option SocketAddr × UpstreamPool :=
  match pool.lookup serviceName with
  | none => (none, pool)
  | some p =>
    if p.healthy = [] then (none, pool)
    else ((p.healthy[p.nextIndex.toNat % p.healthy.length]?).map (·.addr),
      HashMap.adjust serviceName (fun p => { p with nextIndex := p.nextIndex + 1 }) pool)

/-- The first endpoint with the address counts as unhealthy from now on. -/
def markFirst (addr : SocketAddr) : List Endpoint → List Endpoint
  | [] => []
  | e :: rest => if e.addr = addr then { e with healthy := false } :: rest
    else e :: markFirst addr rest

def markUnhealthy (serviceName : String) (addr : SocketAddr) (pool : UpstreamPool) : UpstreamPool :=
  HashMap.adjust serviceName (fun p => { p with endpoints := markFirst addr p.endpoints }) pool

/-- EXACT: a service has a next endpoint if one of its endpoints is healthy. -/
theorem nextEndpoint_isSome (serviceName : String) (pool : UpstreamPool) :
    (nextEndpoint serviceName pool).1.isSome = true ↔
      ∃ p, pool.lookup serviceName = some p ∧ p.healthy ≠ [] := by
  unfold nextEndpoint
  rcases pool.lookup serviceName with _ | p
  · simp
  · by_cases h : p.healthy = []
    · simp [h]
    · have hturn : p.nextIndex.toNat % p.healthy.length < p.healthy.length :=
        Nat.mod_lt _ (List.length_pos_iff.mpr h)
      simp [h, hturn]

end Ekafleet.Proxy
