import Ekafleet.Proxy.Listener

/-! Who reaches a backend | source: proxy/listener.rs, proxy/mtls.rs

    Whether a request is forwarded depends on its body, its route, the circuit breaker and the
    health of the backends. Its caller is not looked at. -/

namespace Ekafleet.Proxy
open Effect

/-! ### What is forwarded -/

/-- More requests were made, all of them to backends of the service. -/
def Forwards (service : String) (p p' : ProxyState) : Prop :=
  ∃ new, p'.forwarded = p.forwarded ++ new ∧ ∀ f ∈ new, f.serviceName = service

instance forwardsRefl (service : String) : Std.Refl (Forwards service) :=
  ⟨fun p => ⟨[], by simp, by simp⟩⟩

instance forwardsTrans (service : String) : IsTrans ProxyState (Forwards service) :=
  ⟨fun p p' p'' ⟨new, hnew, hservice⟩ ⟨more, hmore, hservice'⟩ =>
    ⟨new ++ more, by rw [hmore, hnew, List.append_assoc],
      fun f hf => (List.mem_append.mp hf).elim (hservice f) (hservice' f)⟩⟩

variable {env : Surroundings}

theorem within_forwardRequest (f : Forwarded) :
    Within (Forwards f.serviceName) (forwardRequest env f) :=
  fun _ => ⟨[f], rfl, fun _ hf => by rw [List.mem_singleton.mp hf]⟩

theorem within_forwardAttempts (f : Forwarded) : ∀ left attempt : ℕ,
    Within (Forwards f.serviceName) (forwardAttempts env f attempt left)
  | 0, _ => within_pure _
  | left + 1, attempt => by
    unfold forwardAttempts
    split
    · exact within_pure _
    · refine (within_read _).bind fun delay => (within_forwardRequest _).bind fun answer => ?_
      cases answer with
      | some resp => exact within_pure _
      | none => exact within_forwardAttempts f left (attempt + 1)

theorem forwardAttempts_first (f : Forwarded) (left : ℕ) (p : ProxyState) :
    ∃ first rest, (forwardAttempts env f 0 (left + 1) p).2.forwarded =
        p.forwarded ++ first :: rest ∧ ∀ g ∈ first :: rest, g.serviceName = f.serviceName := by
  let first : Forwarded := { f with delay := 0 }
  have hsend : forwardRequest env first p =
      (.ok (env.answer p.forwarded first), { p with forwarded := p.forwarded ++ [first] }) := rfl
  rcases hanswer : env.answer p.forwarded first with _ | resp
  · -- no answer: the attempts after the first one add their own requests
    rw [hanswer] at hsend
    have hstep : forwardAttempts env f 0 (left + 1) p =
        forwardAttempts env f 1 left { p with forwarded := p.forwarded ++ [first] } := by
      simp [forwardAttempts, bind_apply, Effect.read, hsend, first]
    obtain ⟨rest, hforwarded, hservice⟩ :=
      within_forwardAttempts f left 1 { p with forwarded := p.forwarded ++ [first] }
    refine ⟨first, rest, ?_, List.forall_mem_cons.mpr ⟨rfl, hservice⟩⟩
    rw [hstep, hforwarded, List.append_assoc, List.singleton_append]
  · rw [hanswer] at hsend
    have hstep : forwardAttempts env f 0 (left + 1) p =
        (.ok (some resp), { p with forwarded := p.forwarded ++ [first] }) := by
      simp [forwardAttempts, bind_apply, pure_apply, Effect.read, hsend, first]
    refine ⟨first, [], ?_, by simp [first]⟩
    rw [hstep]

/-- EXACT: forwarding sends at least one request, to the service, unless no attempt is allowed. -/
theorem forwardTo_forwards (req : HttpRequest) (body : Bytes) (service : String)
    (endpoint : SocketAddr) (p : ProxyState) :
    ∃ new, (forwardTo env req body service endpoint p).2.forwarded = p.forwarded ++ new ∧
      (∀ f ∈ new, f.serviceName = service) ∧ (new ≠ [] ↔ p.retryConfig.maxRetries + 1 ≠ 0) := by
  let params := forwardParams req body service endpoint
  have hend : (forwardTo env req body service endpoint p).2.forwarded =
      (forwardAttempts env params 0 (p.retryConfig.maxRetries + 1).toNat p).2.forwarded := by
    change ((forwardAttempts env params 0 (p.retryConfig.maxRetries + 1).toNat >>= _) p).2.forwarded
      = _
    rw [bind_apply]
    rcases forwardAttempts env params 0 (p.retryConfig.maxRetries + 1).toNat p with
      ⟨e | _ | resp, p'⟩ <;> rfl
  have hzero : p.retryConfig.maxRetries + 1 ≠ 0 ↔ (p.retryConfig.maxRetries + 1).toNat ≠ 0 :=
    not_congr UInt32.toNat_inj.symm
  rw [hend, hzero]
  rcases (p.retryConfig.maxRetries + 1).toNat with _ | n
  · exact ⟨[], by simp [forwardAttempts, pure_apply], by simp, by simp⟩
  · obtain ⟨first, rest, hforwarded, hservice⟩ := forwardAttempts_first params n p
    exact ⟨first :: rest, hforwarded, hservice, by simp⟩

/-! ### Who is let through -/

/-- The requests that handling a request makes. -/
def forwardedFor (env : Surroundings) (req : HttpRequest) (p : ProxyState) : List Forwarded :=
  (proxyHandler env req p).2.forwarded.drop p.forwarded.length

/-- What a request has to pass on its way to a backend of the service. -/
structure Admitted (env : Surroundings) (req : HttpRequest) (p : ProxyState) (service : String) :
    Prop where
  body : req.body ≠ none
  route : ∃ r, resolve p.routes req.host req.path = some r ∧ r.serviceName = service
  allowed : (p.circuitBreakers.allowRequest env.arrival service).1 = true
  healthy : ∃ pool, p.upstream.lookup service = some pool ∧ pool.healthy ≠ []
  attempts : p.retryConfig.maxRetries + 1 ≠ 0

/-- The caller has shown an identity that the authorizer accepts for the service. -/
def Authorized (req : HttpRequest) (p : ProxyState) (service : String) : Prop :=
  ∃ id, req.peer = some id ∧ p.authorizer.authorize id service = .ok ()

section Handled
variable {req : HttpRequest} {p : ProxyState}

theorem forwardedFor_of_same (h : (proxyHandler env req p).2.forwarded = p.forwarded) :
    forwardedFor env req p = [] := by
  rw [forwardedFor, h, List.drop_length]

theorem proxyHandler_of_body {body : Bytes} (hbody : req.body = some body) :
    proxyHandler env req p =
      (match resolve p.routes req.host req.path with
      | none => fail StatusCode.notFound
      | some resolved => forwardResolved env req body resolved.serviceName) p := by
  unfold proxyHandler
  rw [hbody]
  rfl

/-- EXACT: behind the routes a request is forwarded to the service if the breaker allows it, an
    endpoint is healthy and an attempt may be made. -/
theorem forwardResolved_forwards (req : HttpRequest) (body : Bytes) (service : String)
    (p : ProxyState) :
    ∃ new, (forwardResolved env req body service p).2.forwarded = p.forwarded ++ new ∧
      (∀ f ∈ new, f.serviceName = service) ∧
      (new ≠ [] ↔ (p.circuitBreakers.allowRequest env.arrival service).1 = true ∧
        (nextEndpoint service p.upstream).1.isSome = true ∧ p.retryConfig.maxRetries + 1 ≠ 0) := by
  unfold forwardResolved
  rw [bind_apply]
  simp only [checkBreaker]
  cases (p.circuitBreakers.allowRequest env.arrival service).1 with
  | false => exact ⟨[], by simp [fail], by simp, by simp⟩
  | true =>
    simp only [if_true]
    rw [bind_apply]
    simp only [selectEndpoint]
    cases (nextEndpoint service p.upstream).1 with
    | none => exact ⟨[], by simp [fail], by simp, by simp⟩
    | some endpoint => simpa using forwardTo_forwards req body service endpoint _

end Handled

/-- EXACT: a request is forwarded to the backends of the service it is admitted to. -/
theorem forwardedFor_iff (req : HttpRequest) (p : ProxyState) (service : String) :
    (∃ f ∈ forwardedFor env req p, f.serviceName = service) ↔ Admitted env req p service := by
  rcases hbody : req.body with _ | body
  · have hsame : (proxyHandler env req p).2.forwarded = p.forwarded := by
      unfold proxyHandler
      rw [hbody]
      rfl
    rw [forwardedFor_of_same hsame]
    exact ⟨by simp, fun h => absurd hbody h.body⟩
  have hhandler : proxyHandler env req p = _ := proxyHandler_of_body hbody
  rcases hroute : resolve p.routes req.host req.path with _ | r <;> rw [hroute] at hhandler
  · rw [forwardedFor_of_same (by rw [hhandler]; rfl)]
    grind [Admitted.route]
  · obtain ⟨new, hforwarded, hservice, hsome⟩ :=
      forwardResolved_forwards req body r.serviceName p
    rw [forwardedFor, hhandler, hforwarded, List.drop_left]
    constructor
    · rintro ⟨f, hf, rfl⟩
      rw [hservice f hf]
      obtain ⟨hallowed, hendpoint, hattempts⟩ := hsome.mp (List.ne_nil_of_mem hf)
      exact ⟨by simp [hbody], ⟨r, hroute, rfl⟩, hallowed,
        (nextEndpoint_isSome _ _).mp hendpoint, hattempts⟩
    · intro h
      obtain ⟨r', hr', rfl⟩ := h.route
      cases hroute.symm.trans hr'
      have hne := hsome.mpr ⟨h.allowed, (nextEndpoint_isSome _ _).mpr h.healthy, h.attempts⟩
      obtain ⟨f, hf⟩ := List.exists_mem_of_ne_nil new hne
      exact ⟨f, hf, hservice f hf⟩

/-- CORRECT: handling a request makes requests only to services that its caller is authorized for
    exactly if it is authorized for the service it is admitted to, or admitted to none. -/
theorem forwarded_only_authorized_iff (env : Surroundings) (req : HttpRequest) (p : ProxyState) :
    (∀ f ∈ forwardedFor env req p, Authorized req p f.serviceName) ↔
      ∀ service, Admitted env req p service → Authorized req p service := by
  constructor
  · intro h service hadmitted
    obtain ⟨f, hf, rfl⟩ := (forwardedFor_iff req p service).mpr hadmitted
    exact h f hf
  · intro h f hf
    exact h f.serviceName ((forwardedFor_iff req p f.serviceName).mp ⟨f, hf, rfl⟩)

/-! ### One request -/

def backendRoute : Route where
  hostname := "api.example.com"
  pathPrefix := "/"
  port := 8080
  weight := 100
  serviceName := "backend"

/-- A proxy for one service, which only the frontend may call. -/
def meshProxy : ProxyState where
  routes := [backendRoute]
  upstream := [⟨"backend", ⟨[⟨⟨"10.0.0.2", 8080⟩, true⟩], 0⟩⟩].toAList
  authorizer := SpiffeAuthorizer.updatePolicies .asBuilt
    [⟨"backend", ["frontend"]⟩].toAList ⟨"fleet.internal", ∅⟩

def requestOf (peer : Option String) : HttpRequest where
  method := .get
  path := "/users"
  headers := [("host", "api.example.com")]
  peer := peer

def answering : Surroundings := ⟨0, 0, fun _ _ => some { status := 200 }⟩

/-- A caller that the authorizer denies, and one without a certificate, reach the backend. -/
theorem denied_caller_forwarded :
    meshProxy.authorizer.authorize "spiffe://fleet.internal/service/other" "backend" =
      .error (.denied "spiffe://fleet.internal/service/other" "backend") ∧
    (forwardedFor answering (requestOf (some "spiffe://fleet.internal/service/other"))
      meshProxy).map
      (·.serviceName) = ["backend"] ∧
    (forwardedFor answering (requestOf none) meshProxy).map (·.serviceName) = ["backend"] := by
  decide +kernel

end Ekafleet.Proxy
