import Ekafleet.Ca.Root
import Ekafleet.Lib.Run

/-! Leaves and their intermediate | source: ca/root.rs

    A leaf is valid for the default lifetime from the moment it is issued, whatever the intermediate
    that signs it has left. The intermediate is chosen when the process starts, and nothing in the
    server rotates it. -/

namespace Ekafleet.Ca
open Loop Run

/-- The part of the library that issuing uses. -/
def CaLib.x509 (lib : CaLib) : X509Lib where
  parseCsr := lib.parseCsr
  parseCaCert pem := (lib.fromCaCertPem pem).map fun _ => ()
  isIpAddr := lib.isIpAddr
  isAlphanumeric := lib.isAlphanumeric

/-- What issuing reads of the CA. -/
def RootCa.issuing (ca : RootCa) : CaState where
  domain := ca.domain
  intermediateKeypair := ca.intermediateKeypair.isSome
  intermediateCertPem := ca.intermediateCertPem
  rootCertPem := ca.rootCertPem
  defaultTtl := ca.defaultTtl

/-- Issue a leaf certificate with a custom SPIFFE URI. -/
def issueCertificateWithUri (lib : X509Lib) (env : SigningEnv) (ca : CaState) (cn uri : String) :
    Except CaError Issued := do
  ca.intermediateIssuer lib env
  signing "leaf keypair generation" env.keyPair
  let name ← signing "leaf cert params" (subjectName lib cn)
  let server ← signing "leaf cert params" (subjectName lib "ekafleet")
  let uri ← signing "invalid SPIFFE URI" (ia5 uri)
  env.serial
  signing "sign leaf cert" env.sign
  let chainPem ← ca.chainPem
  return {
    certificate := {
      subjectAltNames := [name, server, .uri uri]
      commonName := some cn
      organizationName := some "ekafleet"
      keyUsages := [.digitalSignature]
      extendedKeyUsages := [.serverAuth, .clientAuth]
      notAfter := env.now + ca.defaultTtl }
    key := true
    chainPem
    expiresAt := env.now + ca.defaultTtl }

def issueServerSvid (lib : X509Lib) (env : SigningEnv) (ca : CaState) (serverId : String) :
    Except CaError Issued :=
  issueCertificateWithUri lib env ca s!"ekafleet-server-{serverId}"
    s!"spiffe://{ca.domain}/server/{serverId}"

/-! ### The process -/

/-- The two requests for a leaf. -/
inductive CaRequest where
  | issue (serviceName : String) (storePath : Option String)
  | sign (csrDer : Bytes) (serviceName : String) (storePath : Option String)
  | serverSvid (serverId : String)

/-- What happens while a CA is in use. -/
inductive CaEvent where
  | pass (seconds : ℕ)
  | request (env : SigningEnv) (request : CaRequest)
  | setDefaultTtl (ttl : ℕ)
  | rotate (env : InitEnv)

/-- A leaf that was issued, and the intermediate certificate that signed it. -/
structure Leaf where
  certificate : CertificateParams
  intermediatePem : Option String

/-- The CA of a running process, the time, and the leaves issued so far. -/
structure CaProcess where
  ca : RootCa
  now : ℕ
  leaves : List Leaf := []

variable (lib : CaLib)

/-- What the CA answers. -/
def respond (s : CaProcess) (env : SigningEnv) : CaRequest → Except CaError Issued
  | .issue serviceName storePath =>
    issueCertificate lib.x509 { env with now := s.now } s.ca.issuing serviceName storePath
  | .sign csrDer serviceName storePath =>
    signCsr lib.x509 { env with now := s.now } s.ca.issuing csrDer serviceName storePath
  | .serverSvid serverId =>
    issueServerSvid lib.x509 { env with now := s.now } s.ca.issuing serverId

/-- One event of the CA. -/
def caStep (s : CaProcess) : CaEvent → Option CaProcess
  | .pass seconds => some { s with now := s.now + seconds }
  | .request env request =>
    match respond lib s env request with
    | .error _ => some s
    | .ok issued =>
      some { s with leaves := s.leaves ++ [⟨issued.certificate, s.ca.intermediateCertPem⟩] }
  | .setDefaultTtl ttl => some { s with ca := { s.ca with defaultTtl := ttl } }
  | .rotate env =>
    match mintIntermediate lib { env with now := s.now } s.ca with
    | .error _ => some s
    | .ok ca => some { s with ca }

/-- The leaf expires no later than the intermediate that signed it. -/
def WithinIntermediate (leaf : Leaf) : Prop :=
  ∃ pem int, leaf.intermediatePem = some pem ∧ parseCert lib pem = .ok int ∧
    (leaf.certificate.notAfter : ℤ) ≤ int.notAfter

/-- The intermediate in use has a lifetime of a leaf left. -/
def LastsALifetime (s : CaProcess) : Prop :=
  ∃ pem int, s.ca.intermediateCertPem = some pem ∧ parseCert lib pem = .ok int ∧
    ((s.now + s.ca.defaultTtl : ℕ) : ℤ) ≤ int.notAfter

variable {lib} {s s' : CaProcess}

variable {env : SigningEnv} {issued : Issued}

theorem notAfter_issueCertificateWithUri {lib : X509Lib} {ca : CaState} {cn uri : String}
    (h : issueCertificateWithUri lib env ca cn uri = .ok issued) :
    issued.certificate.notAfter = env.now + ca.defaultTtl := by
  obtain ⟨_, -, h⟩ := bind_eq_ok h
  obtain ⟨_, -, h⟩ := bind_eq_ok h
  obtain ⟨name, -, h⟩ := bind_eq_ok h
  obtain ⟨server, -, h⟩ := bind_eq_ok h
  obtain ⟨uri, -, h⟩ := bind_eq_ok h
  obtain ⟨_, -, h⟩ := bind_eq_ok h
  obtain ⟨_, -, h⟩ := bind_eq_ok h
  obtain ⟨chain, -, h⟩ := bind_eq_ok h
  cases h
  rfl

theorem notAfter_respond {request : CaRequest} (h : respond lib s env request = .ok issued) :
    issued.certificate.notAfter = s.now + s.ca.defaultTtl := by
  cases request with
  | issue serviceName storePath =>
    obtain ⟨-, -, -, -, hnotAfter⟩ := issueCertificate_spec h
    exact hnotAfter
  | sign csrDer serviceName storePath =>
    have hsign : signCsr lib.x509 _ _ csrDer serviceName storePath = .ok issued := h
    obtain ⟨-, -, -, -, hnotAfter⟩ := signCsr_spec hsign
    exact hnotAfter
  | serverSvid serverId => exact notAfter_issueCertificateWithUri h

theorem caStep_leaves {e : CaEvent} (h : caStep lib s e = some s') :
    (s'.leaves = s.leaves ∧
      ∀ env request, e = .request env request → ∀ issued, respond lib s env request ≠ .ok issued) ∨
    ∃ env request issued leaf, e = .request env request ∧
      respond lib s env request = .ok issued ∧ s'.leaves = s.leaves ++ [leaf] ∧
      (WithinIntermediate lib leaf ↔ LastsALifetime lib s) := by
  cases e with
  | pass seconds =>
    cases h
    exact .inl ⟨rfl, by rintro _ _ ⟨⟩⟩
  | setDefaultTtl ttl =>
    cases h
    exact .inl ⟨rfl, by rintro _ _ ⟨⟩⟩
  | rotate env =>
    grind [caStep]
  | request env request =>
    simp only [caStep] at h
    split at h
    · grind
    · next issued hrespond =>
      cases h
      refine .inr ⟨env, request, issued, _, rfl, hrespond, rfl, ?_⟩
      rw [WithinIntermediate, LastsALifetime, notAfter_respond hrespond]

/-- EXACT: in every run of a process, whatever lifetimes are set, all leaves stay within the
    intermediate that signed them if and only if, whenever one was issued, the intermediate in use
    had at least the lifetime of a leaf left. -/
theorem leaves_within_iff (lib : CaLib) (ca : RootCa) (now : ℕ) (trace : List CaEvent)
    (s : CaProcess) (hrun : run (caStep lib) { ca, now } trace = some s) :
    (∀ leaf ∈ s.leaves, WithinIntermediate lib leaf) ↔
      ∀ pre env request s₁ issued, pre ++ [.request env request] <+: trace →
        run (caStep lib) { ca, now } pre = some s₁ → respond lib s₁ env request = .ok issued →
        LastsALifetime lib s₁ := by
  -- the equivalence holds along the run, for the trace so far
  refine invariant_history (caStep lib) { ca, now }
    (fun tr s => (∀ leaf ∈ s.leaves, WithinIntermediate lib leaf) ↔
      ∀ pre env request s₁ issued, pre ++ [.request env request] <+: tr →
        run (caStep lib) { ca, now } pre = some s₁ → respond lib s₁ env request = .ok issued →
        LastsALifetime lib s₁) ?_ ?_ hrun
  · refine iff_of_true (by rintro _ ⟨⟩) fun pre env request s₁ issued hpre => ?_
    simp at hpre
  · intro tr s e s' hs ih hstep
    rcases caStep_leaves hstep with ⟨hleaves, hnot⟩ |
      ⟨env, request, issued, leaf, rfl, hok, hleaves, hwithin⟩
    · rw [hleaves, ih]
      constructor
      · intro hall pre env request s₁ issued hpre hs₁ hok
        rcases concat_prefix_concat_iff.mp hpre with ⟨rfl, rfl⟩ | hpre
        · cases hs.symm.trans hs₁
          exact absurd hok (hnot env request rfl issued)
        · exact hall pre env request s₁ issued hpre hs₁ hok
      · intro hall pre env request s₁ issued hpre
        exact hall pre env request s₁ issued (hpre.trans (List.prefix_append _ _))
    · rw [hleaves, List.forall_mem_append, ih, List.forall_mem_singleton, hwithin]
      constructor
      · rintro ⟨hall, hlast⟩ pre env' request' s₁ issued' hpre hs₁ hok'
        rcases concat_prefix_concat_iff.mp hpre with ⟨rfl, -⟩ | hpre
        · cases hs.symm.trans hs₁
          exact hlast
        · exact hall pre env' request' s₁ issued' hpre hs₁ hok'
      · intro hall
        refine ⟨fun pre env' request' s₁ issued' hpre => ?_, ?_⟩
        · exact hall pre env' request' s₁ issued' (hpre.trans (List.prefix_append _ _))
        · exact hall tr env request s issued List.prefix_rfl hs hok

/-! ### A new CA on its first and on its last day -/

theorem exists_subjectName (lib : X509Lib) {name : String} (h : ia5 name = .ok name) :
    ∃ san, subjectName lib name = .ok san := by
  rw [subjectName, h]
  cases lib.isIpAddr name <;> exact ⟨_, rfl⟩

theorem exists_issueCertificateWithUri {lib : X509Lib} {now : ℕ} {ca : CaState} {cn uri : String}
    (hissuer : ca.intermediateIssuer lib { now } = .ok ()) (hcn : ia5 cn = .ok cn)
    (huri : ia5 uri = .ok uri) {chain : String} (hchain : ca.chainPem = .ok chain) :
    ∃ issued, issueCertificateWithUri lib { now } ca cn uri = .ok issued := by
  obtain ⟨name, hname⟩ := exists_subjectName lib hcn
  obtain ⟨server, hserver⟩ := exists_subjectName lib (by decide : ia5 "ekafleet" = .ok "ekafleet")
  rw [issueCertificateWithUri, hissuer, hname, hserver, huri, hchain]
  exact ⟨_, rfl⟩

theorem exists_svid (lib : CaLib) (now : ℕ) :
    ∃ issued, respond lib { ca := newCa lib "fleet" 0 [1] [2], now } {} (.serverSvid "a") =
      .ok issued := by
  refine exists_issueCertificateWithUri ?_
    (by decide : ia5 "ekafleet-server-a" = .ok "ekafleet-server-a")
    (by decide : ia5 "spiffe://fleet/server/a" = .ok "spiffe://fleet/server/a") rfl
  simp only [CaState.intermediateIssuer, RootCa.issuing, newCa, CaLib.x509, lib.fromCaCertPem_pem]
  rfl

theorem caStep_request {request : CaRequest} (h : respond lib s env request = .ok issued) :
    caStep lib s (.request env request) =
      some { s with leaves := s.leaves ++ [⟨issued.certificate, s.ca.intermediateCertPem⟩] } := by
  simp only [caStep, h]

theorem svid_within_on_first_day : Nonempty CaLib ∧ ∀ lib : CaLib, ∃ s,
    run (caStep lib) { ca := newCa lib "fleet" 0 [1] [2], now := 0 }
      [.request {} (.serverSvid "a")] = some s ∧
    s.leaves.length = 1 ∧ ∀ leaf ∈ s.leaves, WithinIntermediate lib leaf := by
  obtain ⟨lib₀, -⟩ := CaLib.exists_publicKey_id
  refine ⟨⟨lib₀⟩, fun lib => ?_⟩
  obtain ⟨issued, hissued⟩ := exists_svid lib 0
  have hstart : run (caStep lib) { ca := newCa lib "fleet" 0 [1] [2], now := 0 } [] = some _ := rfl
  have hrun := (run_concat_iff (caStep lib)).mpr ⟨_, hstart, caStep_request hissued⟩
  refine ⟨_, hrun, rfl, (leaves_within_iff lib _ 0 _ _ hrun).mpr ?_⟩
  intro pre env request s₁ issued' hpre hs₁ _
  rcases concat_prefix_concat_iff.mp hpre with ⟨rfl, -⟩ | hpre
  · cases hs₁
    have hle : ((0 + 3600 : ℕ) : ℤ) ≤ (0 + defaultIntermediateTtl : ℕ) := by decide
    exact ⟨_, _, rfl, parseCert_pem _, hle⟩
  · simp at hpre

/-- With every library: a new CA issues a certificate after ninety days, which is valid for an hour
    longer than the intermediate that signed it. -/
theorem svid_outlives_intermediate : Nonempty CaLib ∧ ∀ lib : CaLib,
    initializeWithIntermediate lib (workingInit 0 [1] [2]) { domain := "fleet" } none none none
      none = .ok (newCa lib "fleet" 0 [1] [2]) ∧
    ∃ s leaf, run (caStep lib) { ca := newCa lib "fleet" 0 [1] [2], now := 0 }
        [.pass (90 * day), .request {} (.serverSvid "a")] = some s ∧
      s.leaves = [leaf] ∧ leaf.certificate.notAfter = 90 * day + 3600 ∧
      ¬ WithinIntermediate lib leaf := by
  obtain ⟨lib₀, -⟩ := CaLib.exists_publicKey_id
  refine ⟨⟨lib₀⟩, fun lib => ⟨initialize_working lib "fleet" 0 [1] [2] rfl, ?_⟩⟩
  obtain ⟨issued, hissued⟩ := exists_svid lib (0 + 90 * day)
  have hpass : run (caStep lib) { ca := newCa lib "fleet" 0 [1] [2], now := 0 }
      [.pass (90 * day)] = some { ca := newCa lib "fleet" 0 [1] [2], now := 0 + 90 * day } := rfl
  have hrun := (run_concat_iff (caStep lib)).mpr ⟨_, hpass, caStep_request hissued⟩
  have hnotAfter : issued.certificate.notAfter = 90 * day + 3600 := notAfter_respond hissued
  refine ⟨_, _, hrun, rfl, hnotAfter, ?_⟩
  rintro ⟨pem, int, hpem, hint, hle⟩
  cases hpem
  cases (parseCert_pem _).symm.trans hint
  rw [hnotAfter] at hle
  have hlt : ((0 + defaultIntermediateTtl : ℕ) : ℤ) < (90 * day + 3600 : ℕ) := by decide
  exact absurd hle (not_le.mpr hlt)

end Ekafleet.Ca
