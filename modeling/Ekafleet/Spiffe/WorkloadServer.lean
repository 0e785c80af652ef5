import Ekafleet.Ca.Issuer
import Ekafleet.Spiffe.Jwt

/-! The SPIFFE Workload API | source: spiffe/workload_server.rs, spiffe/workload_attestor.rs

    A local process asks for SVIDs over a Unix socket. X.509-SVIDs go to the service that the cgroup
    of a PID belongs to, but the PID is the one the request's metadata names; JWT-SVIDs go to
    whoever asks. -/

namespace Ekafleet.Spiffe
open Server

/-! ### Attestation -/

/-- What the kernel shows under `/proc/<pid>/cgroup`. -/
structure Kernel where
  cgroupOf : ℕ → Option String

/-- The service name in a path segment `ekafleet-<name>.service`. -/
def segmentService (segment : String) : Option String :=
  (((Text.stripPrefix "ekafleet-" segment).bind (Text.stripSuffix ".service"))).filter (· ≠ "")

/-- The path is the last field of a cgroup line. -/
def linePath (line : String) : List String := Text.split '/' (Text.afterLast ':' line)

/-- The first service segment on any line. -/
def attestFromCgroupContent (content : String) : Option String :=
  ((Text.lines content).flatMap linePath).findSome? segmentService

/-- The service of a process. -/
def attestPid (kernel : Kernel) (pid : ℕ) : Option String :=
  (kernel.cgroupOf pid).bind attestFromCgroupContent

/-- The kernel reports that the process is in the cgroup of unit `ekafleet-<service>.service`. -/
def Kernel.InUnit (kernel : Kernel) (pid : ℕ) (service : String) : Prop :=
  ∃ content, kernel.cgroupOf pid = some content ∧
    ∃ line ∈ Text.lines content, s!"ekafleet-{service}.service" ∈ linePath line

/-! ### The service -/

/-- The SVID of a service. -/
structure Svid where
  spiffeId : String
  certPem : String
  keyPem : String
  chainPem : String
  expiresAt : ℕ
  deriving DecidableEq, Repr

/-- What the agent serves to workloads. -/
structure WorkloadState where
  trustDomain : String
  trustBundlePem : Option String := none
  svids : HashMap String Svid := ∅

/-- An SVID as workloads get it. -/
structure X509svid where
  spiffeId : String
  x509Svid : String
  x509SvidKey : String
  bundle : String
  deriving DecidableEq, Repr

/-- A request with the metadata the client sent along. The other calls of the API return bundles
    and claims. -/
inductive Request where
  | fetchX509svid (peerPidMetadata : Option String)
  | fetchJwtsvid (spiffeId : String) (audience : List String)
  deriving DecidableEq, Repr

/-- The PID in the `x-ekafleet-peer-pid` metadata. -/
def extractPeerPid (peerPidMetadata : Option String) : Option ℕ :=
  peerPidMetadata.bind (Text.parseUnsigned (2 ^ 32))

/-- The message sent for a service at one look at the store. -/
def svidMessage (service : String) (mgr : WorkloadState) : Option X509svid :=
  (mgr.svids.lookup service).map fun svid =>
    ⟨svid.spiffeId, svid.certPem, svid.keyPem, mgr.trustBundlePem.getD ""⟩

/-- The attested service, and the messages on its stream as the store is polled. -/
def fetchX509svid (kernel : Kernel) (polls : List WorkloadState) (peerPidMetadata : Option String) :
    Except Status (String × List X509svid) :=
  match extractPeerPid peerPidMetadata with
  | none => .error ⟨.unauthenticated, "unable to identify caller PID"⟩
  | some pid =>
    match attestPid kernel pid with
    | none => .error ⟨.permissionDenied,
        s!"PID {pid} does not belong to any ekafleet-managed service"⟩
    | some service => .ok (service, polls.filterMap (svidMessage service))

/-- An SVID that left the server: the private key of a service's certificate, or a token. -/
inductive Served where
  | x509 (service : String) (svid : X509svid)
  | jwt (svid : Jwtsvid)
  deriving DecidableEq, Repr

/-- The SVIDs a request obtains. -/
def serve (lib : JwtLib) (key : Bytes) (now : ℕ) (kernel : Kernel) (polls : List WorkloadState) :
    Request → List Served
  | .fetchX509svid peerPidMetadata =>
    match fetchX509svid kernel polls peerPidMetadata with
    | .ok (service, svids) => svids.map (.x509 service)
    | .error _ => []
  | .fetchJwtsvid spiffeId audience =>
    match fetchJwtsvid lib key now spiffeId audience with
    | .ok svid => [.jwt svid]
    | .error _ => []

/-! ### Who gets which SVID -/

/-- The SVID is for a service whose cgroup the calling process is in. -/
def Served.OwnedBy (kernel : Kernel) (caller : ℕ) (trustDomain : String) : Served → Prop
  | .x509 service _ => kernel.InUnit caller service
  | .jwt svid => ∃ service, kernel.InUnit caller service ∧
      svid.spiffeId = Ca.spiffeUri trustDomain service

/-- The request asks for nothing but the caller's own identity: the PID in its metadata belongs to
    a service of the caller (or one without an SVID), and the SPIFFE ID is one of the caller. -/
def Request.Honest (kernel : Kernel) (caller : ℕ) (trustDomain : String)
    (polls : List WorkloadState) : Request → Prop
  | .fetchX509svid peerPidMetadata => ∀ pid service, extractPeerPid peerPidMetadata = some pid →
      attestPid kernel pid = some service → (∃ mgr ∈ polls, service ∈ mgr.svids) →
      kernel.InUnit caller service
  | .fetchJwtsvid spiffeId audience => spiffeId ≠ "" → audience ≠ [] →
      ∃ service, kernel.InUnit caller service ∧ spiffeId = Ca.spiffeUri trustDomain service

theorem svidMessage_isSome (service : String) (mgr : WorkloadState) :
    (∃ m, svidMessage service mgr = some m) ↔ service ∈ mgr.svids := by
  rw [← AList.lookup_isSome, Option.isSome_iff_exists, svidMessage]
  simp

theorem mem_serve_x509 {lib : JwtLib} {key : Bytes} {now : ℕ} {kernel : Kernel}
    {polls : List WorkloadState} {peerPidMetadata : Option String} {s : Served} :
    s ∈ serve lib key now kernel polls (.fetchX509svid peerPidMetadata) ↔
      ∃ pid service, extractPeerPid peerPidMetadata = some pid ∧
        attestPid kernel pid = some service ∧
        ∃ mgr ∈ polls, ∃ m, svidMessage service mgr = some m ∧ s = .x509 service m := by
  grind [serve, fetchX509svid, extractPeerPid, attestPid]

/-- EXACT: every SVID a request obtains is for a service of the calling process if and only if the
    request is honest. The server never looks at the calling process, so nothing else decides. -/
theorem svids_served_to_owner_iff (lib : JwtLib) (key : Bytes) (now : ℕ) (kernel : Kernel)
    (caller : ℕ) (trustDomain : String) (polls : List WorkloadState) (req : Request) :
    (∀ s ∈ serve lib key now kernel polls req, s.OwnedBy kernel caller trustDomain) ↔
      req.Honest kernel caller trustDomain polls := by
  cases req with
  | fetchX509svid peerPidMetadata =>
    constructor
    · rintro howned pid service hpid hattest ⟨mgr, hmgr, hsvid⟩
      obtain ⟨m, hm⟩ := (svidMessage_isSome service mgr).mpr hsvid
      exact howned (.x509 service m)
        (mem_serve_x509.mpr ⟨pid, service, hpid, hattest, mgr, hmgr, m, hm, rfl⟩)
    · intro hhonest s hs
      obtain ⟨pid, service, hpid, hattest, mgr, hmgr, m, hm, rfl⟩ := mem_serve_x509.mp hs
      exact hhonest pid service hpid hattest
        ⟨mgr, hmgr, (svidMessage_isSome service mgr).mp ⟨m, hm⟩⟩
  | fetchJwtsvid spiffeId audience =>
    simp only [serve, fetchJwtsvid, Request.Honest]
    by_cases hid : spiffeId = ""
    · simp [hid]
    by_cases haud : audience = []
    · simp [hid, haud]
    simp [hid, haud, Served.OwnedBy]

/-- Process 1000 is in no service cgroup. It names the PID of the database and gets the database's
    key, and it names the database's SPIFFE ID and gets a token. -/
theorem foreign_process_obtains_svids :
    let kernel : Kernel := ⟨fun
      | 42 => some "0::/system.slice/ekafleet-db.service"
      | 1000 => some "0::/user.slice/session-3.scope"
      | _ => none⟩
    let mgr : WorkloadState :=
      { trustDomain := "fleet.internal"
        svids := [⟨"db", ⟨"spiffe://fleet.internal/service/db", "cert", "key", "chain", 0⟩⟩].toAList
        }
    let lib : JwtLib := ⟨fun _ _ => [], fun _ => none⟩
    attestPid kernel 1000 = none ∧ (∀ service, ¬ kernel.InUnit 1000 service) ∧
    serve lib [] 0 kernel [mgr] (.fetchX509svid (some "42")) =
      [.x509 "db" ⟨"spiffe://fleet.internal/service/db", "cert", "key", ""⟩] ∧
    (serve lib [] 0 kernel [mgr]
      (.fetchJwtsvid "spiffe://fleet.internal/service/db" ["api"])).length = 1 := by
  refine ⟨by decide +kernel, ?_, by decide +kernel, by decide +kernel⟩
  rintro service ⟨content, hcontent, line, hline, hmem⟩
  obtain rfl : "0::/user.slice/session-3.scope" = content := Option.some.inj hcontent
  have hlines : Text.lines "0::/user.slice/session-3.scope" =
      ["0::/user.slice/session-3.scope"] := by decide +kernel
  rw [hlines, List.mem_singleton] at hline
  subst hline
  -- no segment of the path starts like a unit of the fleet
  have hheads : ∀ seg ∈ linePath "0::/user.slice/session-3.scope", seg.toList.head? ≠ some 'e' := by
    decide +kernel
  exact hheads _ hmem (by simp only [String.toList_append]; rfl)

end Ekafleet.Spiffe
