import Ekafleet.Lib.Loop
import Ekafleet.Server.Rbac

/-! Certificate issuance | source: ca/issuer.rs, ca/root.rs

    The legacy path builds the names of a leaf from the authorized service name; the CSR path signs
    the names in the CSR, and uses the authorized name for logging only. The X.509 library is a
    parameter. -/

namespace Ekafleet.Ca
open Server Loop

/-- Why the CA refuses a request. -/
inductive CaError where
  | notInitialized
  | keyGeneration (message : String)
  | signing (message : String)
  | attestationFailed (message : String)
  | invalidCsr (message : String)
  deriving DecidableEq, Repr

/-- What a CSR asks for. Of its extensions the library takes over names and key usages, refuses
    any other (a basic constraint among them), and leaves `is_ca` at its default. -/
structure CsrContents where
  commonName : Option String := none
  organizationName : Option String := none
  subjectAltNames : List SanType := []
  keyUsages : List KeyUsagePurpose := []
  extendedKeyUsages : List ExtendedKeyUsagePurpose := []
  deriving DecidableEq, Repr

/-- The third-party X.509 library and the Unicode tables. -/
structure X509Lib where
  /-- Parse a CSR and verify its signature. -/
  parseCsr : Bytes → Except String CsrContents
  /-- Whether the PEM of a CA certificate parses. -/
  parseCaCert : String → Except String Unit
  isIpAddr : String → Bool
  isAlphanumeric : Char → Bool

/-- The outcomes of the library's fallible operations during one request, and the clock. -/
structure SigningEnv where
  now : ℕ := 0
  selfSign : Except String Unit := .ok ()
  keyPair : Except String Unit := .ok ()
  serial : Except CaError Unit := .ok ()
  sign : Except String Unit := .ok ()

/-- What issuing reads of the CA. -/
structure CaState where
  domain : String
  intermediateKeypair : Bool
  intermediateCertPem : Option String
  rootCertPem : Option String
  defaultTtl : ℕ := 3600
  deriving DecidableEq, Repr

/-- A leaf certificate with its chain; `key` tells whether the private key comes with it. -/
structure Issued where
  certificate : CertificateParams
  key : Bool
  chainPem : String
  expiresAt : ℕ
  deriving DecidableEq, Repr

variable (lib : X509Lib)

/-- A library error under the context the source gives it. -/
def signing {α : Type} (context : String) (r : Except String α) : Except CaError α :=
  r.mapError fun e => .signing s!"{context}: {e}"

def CaState.intermediateIssuer (env : SigningEnv) (ca : CaState) : Except CaError Unit :=
  if !ca.intermediateKeypair then .error .notInitialized
  else match ca.intermediateCertPem with
    | none => .error .notInitialized
    | some pem => do
      signing "parse intermediate cert" (lib.parseCaCert pem)
      signing "reconstruct intermediate cert" env.selfSign

def CaState.chainPem (ca : CaState) : Except CaError String :=
  match ca.intermediateCertPem, ca.rootCertPem with
  | some intermediate, some root => .ok s!"{intermediate}\n{root}"
  | _, _ => .error .notInitialized

def checkStorePath (storePath : Option String) : Except CaError Unit :=
  if storePath.any fun p => !"/nix/store/".toList.isPrefixOf p.toList
  then .error (.attestationFailed "invalid store path") else .ok ()

def spiffeUri (domain serviceName : String) : String := s!"spiffe://{domain}/service/{serviceName}"

/-- Names in a certificate are ASCII. -/
def ia5 (s : String) : Except String String :=
  if s.toList.all fun c => c.toNat < 128 then .ok s else .error "invalid IA5 string"

/-- `CertificateParams::new` with one subject name. -/
def subjectName (name : String) : Except String SanType :=
  if lib.isIpAddr name then .ok (.ipAddress name) else (ia5 name).map .dnsName

/-- Issue a leaf certificate for a service identity, with a key pair made by the server. -/
def issueCertificate (env : SigningEnv) (ca : CaState) (serviceName : String)
    (storePath : Option String) : Except CaError Issued := do
  ca.intermediateIssuer lib env
  checkStorePath storePath
  signing "leaf keypair generation" env.keyPair
  let name ← signing "leaf cert params" (subjectName lib serviceName)
  let uri ← signing "invalid SPIFFE URI" (ia5 (spiffeUri ca.domain serviceName))
  env.serial
  signing "sign leaf cert" env.sign
  let chainPem ← ca.chainPem
  return {
    certificate := {
      subjectAltNames := [name, .uri uri]
      commonName := some serviceName
      organizationName := some "ekafleet"
      keyUsages := [.digitalSignature]
      extendedKeyUsages := [.serverAuth, .clientAuth]
      notAfter := env.now + ca.defaultTtl }
    key := true
    chainPem
    expiresAt := env.now + ca.defaultTtl }

/-- The certificate parameters the library reads off a CSR. -/
def CsrContents.params (csr : CsrContents) : CertificateParams where
  subjectAltNames := csr.subjectAltNames
  commonName := csr.commonName
  organizationName := csr.organizationName
  keyUsages := csr.keyUsages
  extendedKeyUsages := csr.extendedKeyUsages

/-- Sign a CSR. Lifetime and serial number are overridden; the service name is only logged. -/
def signCsr (env : SigningEnv) (ca : CaState) (csrDer : Bytes) (_serviceName : String)
    (storePath : Option String) : Except CaError Issued := do
  ca.intermediateIssuer lib env
  checkStorePath storePath
  let csr ← (lib.parseCsr csrDer).mapError fun e => .invalidCsr s!"failed to parse CSR: {e}"
  env.serial
  signing "sign CSR" env.sign
  let chainPem ← ca.chainPem
  return {
    certificate := { csr.params with notAfter := env.now + ca.defaultTtl }
    key := false
    chainPem
    expiresAt := env.now + ca.defaultTtl }

/-- A PKCS#10 CSR starts with the ASN.1 tag of a sequence; anything else is a legacy dummy. -/
def isRealCsr (csrDer : Bytes) : Bool := 1 < csrDer.length && csrDer.head? == some 0x30

/-- Process a certificate request of a node. -/
def processRequest (env : SigningEnv) (ca : CaState) (assignments : HashMap String (List String))
    (nodeId serviceName : String) (csrDer : Bytes) : Except CaError Issued :=
  if csrDer.isEmpty then .error (.invalidCsr "empty CSR")
  else if serviceName = "" ∨ 253 < serviceName.utf8ByteSize then
    .error (.invalidCsr "invalid service name length")
  else if !serviceName.toList.all fun c =>
      lib.isAlphanumeric c || c == '-' || c == '_' || c == '.' then
    .error (.invalidCsr "service name contains invalid characters")
  else if !(assignments.lookup nodeId).any (·.contains serviceName) then
    .error (.attestationFailed s!"service '{serviceName}' is not assigned to node '{nodeId}'")
  else if isRealCsr csrDer then signCsr lib env ca csrDer serviceName none
  else issueCertificate lib env ca serviceName none

/-! ### What the issued certificate names -/

variable {lib} {env : SigningEnv} {ca : CaState}

theorem signing_eq_ok {α : Type} {context : String} {r : Except String α} {a : α}
    (h : signing context r = .ok a) : r = .ok a := by
  cases r <;> cases h
  rfl

theorem ia5_eq_ok {s t : String} (h : ia5 s = .ok t) : t = s := by
  unfold ia5 at h
  split at h <;> cases h
  rfl

variable {serviceName : String} {issued : Issued}

theorem issueCertificate_spec {storePath : Option String}
    (h : issueCertificate lib env ca serviceName storePath = .ok issued) :
    ∃ name, uriSans [name] = [] ∧ issued.certificate.isCa = .noCa ∧
      issued.certificate.subjectAltNames = [name, .uri (spiffeUri ca.domain serviceName)] ∧
      issued.certificate.notAfter = env.now + ca.defaultTtl := by
  obtain ⟨-, -, h⟩ := bind_eq_ok h
  obtain ⟨-, -, h⟩ := bind_eq_ok h
  obtain ⟨-, -, h⟩ := bind_eq_ok h
  obtain ⟨name, hname, h⟩ := bind_eq_ok h
  obtain ⟨uri, huri, h⟩ := bind_eq_ok h
  obtain ⟨-, -, h⟩ := bind_eq_ok h
  obtain ⟨-, -, h⟩ := bind_eq_ok h
  obtain ⟨chain, -, h⟩ := bind_eq_ok h
  cases h
  refine ⟨name, ?_, rfl, by rw [ia5_eq_ok (signing_eq_ok huri)], rfl⟩
  have hsubject := signing_eq_ok hname
  unfold subjectName at hsubject
  split at hsubject
  · cases hsubject; rfl
  · cases hdns : ia5 serviceName <;> rw [hdns] at hsubject <;> cases hsubject
    rfl

theorem signCsr_spec {csrDer : Bytes} {storePath : Option String}
    (h : signCsr lib env ca csrDer serviceName storePath = .ok issued) :
    ∃ csr, lib.parseCsr csrDer = .ok csr ∧ issued.certificate.isCa = .noCa ∧
      issued.certificate.subjectAltNames = csr.subjectAltNames ∧
      issued.certificate.notAfter = env.now + ca.defaultTtl := by
  obtain ⟨-, -, h⟩ := bind_eq_ok h
  obtain ⟨-, -, h⟩ := bind_eq_ok h
  obtain ⟨csr, hcsr, h⟩ := bind_eq_ok h
  obtain ⟨-, -, h⟩ := bind_eq_ok h
  obtain ⟨-, -, h⟩ := bind_eq_ok h
  obtain ⟨chain, -, h⟩ := bind_eq_ok h
  cases h
  refine ⟨csr, ?_, rfl, rfl, rfl⟩
  cases hparse : lib.parseCsr csrDer <;> rw [hparse] at hcsr <;> cases hcsr
  rfl

theorem processRequest_cases {assignments : HashMap String (List String)} {nodeId : String}
    {csrDer : Bytes}
    (h : processRequest lib env ca assignments nodeId serviceName csrDer = .ok issued) :
    (assignments.lookup nodeId).any (·.contains serviceName) = true ∧
      ((isRealCsr csrDer = true ∧ signCsr lib env ca csrDer serviceName none = .ok issued) ∨
       (isRealCsr csrDer = false ∧ issueCertificate lib env ca serviceName none = .ok issued)) := by
  grind [processRequest]

theorem extractSpiffeId_of_uriSans {sans : List SanType} {domain : String}
    (h : uriSans sans = [spiffeUri domain serviceName]) :
    extractSpiffeId sans = some (spiffeUri domain serviceName) := by
  have hpre : "spiffe://".toList.isPrefixOf (spiffeUri domain serviceName).toList = true := by
    rw [List.isPrefixOf_iff_prefix, spiffeUri]
    simp only [String.toList_append, List.append_assoc]
    exact List.prefix_append _ _
  rw [extractSpiffeId, h]
  exact List.find?_cons_of_pos hpre

variable (lib) in
/-- The URI names of the CSR are the SPIFFE ID of the service and nothing else. -/
def CsrNamesService (domain serviceName : String) (csrDer : Bytes) : Prop :=
  ∃ csr, lib.parseCsr csrDer = .ok csr ∧
    uriSans csr.subjectAltNames = [spiffeUri domain serviceName]

/-- EXACT: an issued certificate is never a CA. It names the authorized service, and only it, if and
    only if the request took the legacy path or the CSR names that service and only it; then a peer
    that presents it is seen under the authorized SPIFFE ID. -/
theorem issued_names_service_iff (lib : X509Lib) (env : SigningEnv) (ca : CaState)
    (assignments : HashMap String (List String)) (nodeId serviceName : String) (csrDer : Bytes)
    (issued : Issued)
    (h : processRequest lib env ca assignments nodeId serviceName csrDer = .ok issued) :
    issued.certificate.isCa ≠ .ca ∧
    (uriSans issued.certificate.subjectAltNames = [spiffeUri ca.domain serviceName] ↔
      isRealCsr csrDer = false ∨ CsrNamesService lib ca.domain serviceName csrDer) ∧
    (uriSans issued.certificate.subjectAltNames = [spiffeUri ca.domain serviceName] →
      extractSpiffeId issued.certificate.subjectAltNames =
        some (spiffeUri ca.domain serviceName)) := by
  refine ⟨?_, ?_, extractSpiffeId_of_uriSans⟩
  · rcases (processRequest_cases h).2 with ⟨-, hsign⟩ | ⟨-, hissue⟩
    · obtain ⟨-, -, hca, -⟩ := signCsr_spec hsign
      simp [hca]
    · obtain ⟨-, -, hca, -⟩ := issueCertificate_spec hissue
      simp [hca]
  · rcases (processRequest_cases h).2 with ⟨hreal, hsign⟩ | ⟨hreal, hissue⟩
    · obtain ⟨csr, hcsr, -, hsans, -⟩ := signCsr_spec hsign
      rw [hsans, hreal]
      constructor
      · exact fun huri => .inr ⟨csr, hcsr, huri⟩
      · rintro (hfalse | ⟨csr', hcsr', huri⟩)
        · cases hfalse
        · rw [hcsr] at hcsr'
          exact Except.ok.inj hcsr' ▸ huri
    · obtain ⟨name, hname, -, hsans, -⟩ := issueCertificate_spec hissue
      refine ⟨fun _ => .inl hreal, fun _ => ?_⟩
      rw [hsans]
      cases name <;> first | rfl | cases hname

/-! ### The CSR path on a concrete request -/

/-- A library that accepts every CSR with the given names. -/
def csrLib (sans : List SanType) : X509Lib where
  parseCsr _ := .ok { subjectAltNames := sans }
  parseCaCert _ := .ok ()
  isIpAddr _ := false
  isAlphanumeric := Char.isAlphanum

def sampleCa : CaState where
  domain := "fleet.internal"
  intermediateKeypair := true
  intermediateCertPem := some "int"
  rootCertPem := some "root"

/-- A CSR with the service's own name is signed under that name. -/
theorem issued_names_service_web :
    uriSans [.uri "spiffe://fleet.internal/service/web"] =
      [spiffeUri sampleCa.domain "web"] ∧
    ∃ issued, processRequest (csrLib [.uri "spiffe://fleet.internal/service/web"]) {} sampleCa
        [⟨"node-1", ["web"]⟩].toAList "node-1" "web" [0x30, 0x00] = .ok issued ∧
      extractSpiffeId issued.certificate.subjectAltNames =
        some (spiffeUri sampleCa.domain "web") := by
  refine ⟨rfl, _, rfl, ?_⟩
  have hiff := issued_names_service_iff (csrLib [.uri "spiffe://fleet.internal/service/web"]) {}
    sampleCa [⟨"node-1", ["web"]⟩].toAList "node-1" "web" [0x30, 0x00] _ rfl
  exact hiff.2.2 (hiff.2.1.mpr (.inr ⟨_, rfl, rfl⟩))

/-- A node that is only assigned `web` gets a certificate under which it is an admin. -/
theorem csr_obtains_admin_identity :
    ∃ issued, processRequest (csrLib [.uri "spiffe://fleet.internal/server/x"]) {} sampleCa
        [⟨"node-1", ["web"]⟩].toAList "node-1" "web" [0x30, 0x00] = .ok issued ∧
      uriSans issued.certificate.subjectAltNames ≠ [spiffeUri sampleCa.domain "web"] ∧
      (extractSpiffeId issued.certificate.subjectAltNames).map
        (fun id => (PeerIdentity.fromSpiffeId id).role) = some .admin ∧
      (PeerIdentity.fromSpiffeId (spiffeUri sampleCa.domain "web")).role = .viewer := by
  exact ⟨_, rfl, by decide, by decide, by decide⟩

end Ekafleet.Ca
