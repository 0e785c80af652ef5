import Ekafleet.Ca.Issuer

/-! The root and its intermediate | source: ca/root.rs

    A boot loads the root or generates one, and then loads the intermediate if it is valid for
    another seven days, or mints one. It never checks that these belong together. The X.509 library
    is a parameter, with the round trips of its formats as laws; a signature names the key that made
    it. -/

namespace Ekafleet.Ca
open Loop

/-- A private key. -/
abbrev KeyPair := Bytes

abbrev PublicKey := Bytes

/-- The attributes of a distinguished name. -/
inductive DnType where
  | commonName | organizationName
  | other (oid : String)
  deriving DecidableEq, Repr, Countable

abbrev DistinguishedName := List (DnType × String)

/-- Whether the length of a chain is bounded. -/
inductive BasicConstraints where
  | unconstrained
  | constrained (pathLen : ℕ)
  deriving DecidableEq, Repr, Countable

deriving instance Countable for KeyUsagePurpose

/-- A parsed CA certificate. -/
structure CaCertificate where
  subject : DistinguishedName
  issuer : DistinguishedName
  publicKey : PublicKey
  /-- The public key under which the signature verifies. -/
  signer : PublicKey
  isCa : Option BasicConstraints
  keyUsages : List KeyUsagePurpose
  /-- Unix time. -/
  notAfter : ℤ
  serialNumber : Bytes
  deriving Countable

/-- The third-party X.509 library. -/
structure CaLib where
  publicKey : KeyPair → PublicKey
  keyFromPem : String → Except String KeyPair
  keyPem : KeyPair → String
  /-- The certificates of a PEM file. -/
  certs : String → Except String (List Bytes)
  pem : Bytes → String
  parseX509 : Bytes → Except String CaCertificate
  der : CaCertificate → Bytes
  /-- What the library takes over from a CA certificate in order to sign in its name. -/
  fromCaCertPem : String → Except String CaCertificate
  parseCsr : Bytes → Except String CsrContents
  isIpAddr : String → Bool
  isAlphanumeric : Char → Bool
  keyFromPem_keyPem : ∀ key, keyFromPem (keyPem key) = .ok key
  keyPem_armoured : ∀ key, ∃ rest, (keyPem key).toList = '-' :: rest
  certs_pem : ∀ data, certs (pem data) = .ok [data]
  parseX509_der : ∀ cert, parseX509 (der cert) = .ok cert
  fromCaCertPem_pem : ∀ cert, fromCaCertPem (pem (der cert)) = .ok cert

theorem toNat_ofNat_char (b : UInt8) : (Char.ofNat b.toNat).toNat = b.toNat := by
  have hlt := b.toNat_lt
  have hvalid : b.toNat.isValidChar := .inl (by omega)
  rw [Char.ofNat, dif_pos hvalid]
  rfl

theorem CaLib.exists_publicKey_id : ∃ lib : CaLib, lib.publicKey = id := by
  obtain ⟨codec⟩ : Nonempty (Codec (Eq : CaCertificate → CaCertificate → Prop)) :=
    Codec.nonempty_of_countable fun _ => rfl
  let text (data : Bytes) : String := String.ofList (data.map fun b => Char.ofNat b.toNat)
  let bytes (cs : List Char) : Bytes := cs.map fun c => UInt8.ofNat c.toNat
  let parse (data : Bytes) : Except String CaCertificate :=
    match codec.decode data with
    | none => .error "no certificate"
    | some cert => .ok cert
  have hbytes : ∀ data, bytes (text data).toList = data := by
    intro data
    simp only [bytes, text, String.toList_ofList, List.map_map]
    refine List.map_id'' (fun b => ?_) data
    simp only [Function.comp_apply, toNat_ofNat_char, UInt8.ofNat_toNat]
  have hparse : ∀ cert, parse (codec.encode cert) = .ok cert := by
    intro cert
    obtain ⟨cert', hdecode, rfl⟩ := codec.decode_encode cert
    simp only [parse, hdecode]
  refine ⟨{ publicKey := id
            keyFromPem := fun s => .ok (bytes s.toList.tail)
            keyPem := fun key => "-" ++ text key
            certs := fun s => .ok [bytes s.toList]
            pem := text
            parseX509 := parse
            der := codec.encode
            fromCaCertPem := fun s => parse (bytes s.toList)
            parseCsr := fun _ => .ok {}
            isIpAddr := fun _ => false
            isAlphanumeric := fun _ => true
            keyFromPem_keyPem := ?_
            keyPem_armoured := ?_
            certs_pem := ?_
            parseX509_der := hparse
            fromCaCertPem_pem := ?_ }, rfl⟩
  · intro key
    rw [String.toList_append]
    exact congrArg Except.ok (hbytes key)
  · intro key
    exact ⟨_, String.toList_append⟩
  · intro data
    rw [hbytes]
  · intro cert
    rw [hbytes, hparse]

/-- The outcomes of the fallible operations of a boot, and the clock. -/
structure InitEnv where
  now : ℕ
  rootKey : Except String KeyPair
  rootSerial : Option (List.Vector UInt8 20)
  rootSign : Except String Unit := .ok ()
  intKey : Except String KeyPair
  intSerial : Option (List.Vector UInt8 20)
  reconstruct : Except String Unit := .ok ()
  intSign : Except String Unit := .ok ()

/-- The CA of a fleet. -/
structure RootCa where
  domain : String
  rootKeypair : Option KeyPair := none
  rootCertPem : Option String := none
  rootCertDer : Option Bytes := none
  intermediateKeypair : Option KeyPair := none
  intermediateCertPem : Option String := none
  intermediateExpiresAt : ℕ := 0
  defaultTtl : ℕ := 3600

def day : ℕ := 24 * 3600
def defaultIntermediateTtl : ℕ := 90 * day
def intermediateRenewBefore : ℕ := 7 * day

/-- Addition that stops at `u64::MAX`. -/
def saturatingAdd (a b : ℕ) : ℕ := min (a + b) (2 ^ 64 - 1)

variable (lib : CaLib)

def keyGeneration {α : Type} (context : String) (r : Except String α) : Except CaError α :=
  r.mapError fun e => .keyGeneration s!"{context}: {e}"

/-- The first byte is not zero. -/
def generateSerial (random : Option (List.Vector UInt8 20)) : Except CaError Bytes :=
  match random with
  | none => .error (.keyGeneration "RNG failure for serial")
  | some bytes => .ok ((bytes.head ||| 1) :: bytes.tail.toList)

def pemToDer (pem : String) : Except CaError Bytes :=
  match lib.certs pem with
  | .error e => .error (.keyGeneration s!"PEM parse error: {e}")
  | .ok [] => .error (.keyGeneration "no certificate found in PEM")
  | .ok (der :: _) => .ok der

/-- The first certificate of a PEM file. -/
def parseCert (pem : String) : Except CaError CaCertificate := do
  let der ← pemToDer lib pem
  keyGeneration "parse intermediate cert" (lib.parseX509 der)

def intermediateNotAfter (pem : String) : Except CaError ℕ :=
  (parseCert lib pem).map (·.notAfter.toNat)

def rootName (domain : String) : DistinguishedName :=
  [(.commonName, s!"ekafleet Root CA ({domain})"), (.organizationName, "ekafleet")]

def intermediateName (domain : String) : DistinguishedName :=
  [(.commonName, s!"ekafleet Intermediate CA ({domain})"), (.organizationName, "ekafleet")]

/-- A self-signed certificate for ten years. -/
def rootCertificate (now : ℕ) (domain : String) (key : KeyPair) (serial : Bytes) :
    CaCertificate where
  subject := rootName domain
  issuer := rootName domain
  publicKey := lib.publicKey key
  signer := lib.publicKey key
  isCa := some .unconstrained
  keyUsages := [.keyCertSign, .crlSign]
  notAfter := (now + 3650 * day : ℕ)
  serialNumber := serial

/-- Load the stored root, or generate one if the key or the certificate is missing. -/
def initializeRoot (env : InitEnv) (ca : RootCa) (storedKey storedCert : Option String) :
    Except CaError RootCa :=
  match storedKey, storedCert with
  | some keyPem, some certPem => do
    let key ← keyGeneration "failed to load CA key" (lib.keyFromPem keyPem)
    let der ← pemToDer lib certPem
    return { ca with
      rootKeypair := some key
      rootCertPem := some certPem
      rootCertDer := some der }
  | _, _ => do
    let key ← keyGeneration "keypair generation" env.rootKey
    let serial ← generateSerial env.rootSerial
    keyGeneration "self-signed cert generation" env.rootSign
    let der := lib.der (rootCertificate lib env.now ca.domain key serial)
    return { ca with
      rootKeypair := some key
      rootCertPem := some (lib.pem der)
      rootCertDer := some der }

/-- The intermediate under the name of the root certificate, signed with the root key. -/
def intermediateCertificate (now : ℕ) (domain : String) (root : CaCertificate)
    (rootKey key : KeyPair) (serial : Bytes) : CaCertificate where
  subject := intermediateName domain
  issuer := root.subject
  publicKey := lib.publicKey key
  signer := lib.publicKey rootKey
  isCa := some (.constrained 0)
  keyUsages := [.keyCertSign, .crlSign]
  notAfter := (now + defaultIntermediateTtl : ℕ)
  serialNumber := serial

/-- Make and sign an intermediate. -/
def mintIntermediate (env : InitEnv) (ca : RootCa) : Except CaError RootCa :=
  match ca.rootKeypair, ca.rootCertPem with
  | some rootKey, some rootCertPem => do
    let key ← keyGeneration "intermediate keypair" env.intKey
    let serial ← generateSerial env.intSerial
    let root ← signing "parse root cert" (lib.fromCaCertPem rootCertPem)
    signing "reconstruct root cert" env.reconstruct
    signing "sign intermediate" env.intSign
    let cert := intermediateCertificate lib env.now ca.domain root rootKey key serial
    return { ca with
      intermediateKeypair := some key
      intermediateCertPem := some (lib.pem (lib.der cert))
      intermediateExpiresAt := saturatingAdd env.now defaultIntermediateTtl }
  | _, _ => .error .notInitialized

/-- The stored intermediate with its expiry, unless it is missing, cannot be read, or expires
    within seven days. -/
def loadIntermediate (now : ℕ) (storedKey storedCert : Option String) :
    Option (KeyPair × String × ℕ) :=
  match storedKey, storedCert with
  | some keyPem, some certPem =>
    match lib.keyFromPem keyPem, intermediateNotAfter lib certPem with
    | .ok key, .ok expiresAt =>
      if saturatingAdd now intermediateRenewBefore < expiresAt then some (key, certPem, expiresAt)
      else none
    | _, _ => none
  | _, _ => none

/-- Load or make root and intermediate. -/
def initializeWithIntermediate (env : InitEnv) (ca : RootCa)
    (storedKey storedCert storedIntKey storedIntCert : Option String) : Except CaError RootCa := do
  let ca ← initializeRoot lib env ca storedKey storedCert
  match loadIntermediate lib env.now storedIntKey storedIntCert with
  | some (key, certPem, expiresAt) =>
    return { ca with
      intermediateKeypair := some key
      intermediateCertPem := some certPem
      intermediateExpiresAt := expiresAt }
  | none => mintIntermediate lib env ca

/-! ### What an initialized CA has -/

variable {lib} {env : InitEnv} {ca ca' : RootCa}
  {storedKey storedCert storedIntKey storedIntCert : Option String}

theorem keyGeneration_eq_ok {α : Type} {context : String} {r : Except String α} {a : α}
    (h : keyGeneration context r = .ok a) : r = .ok a := by
  cases r <;> cases h
  rfl

theorem parseCert_pem (cert : CaCertificate) :
    parseCert lib (lib.pem (lib.der cert)) = .ok cert := by
  rw [parseCert, pemToDer, lib.certs_pem]
  change keyGeneration _ (lib.parseX509 (lib.der cert)) = _
  rw [lib.parseX509_der]
  rfl

theorem initializeRoot_stored {keyPem certPem : String}
    (h : initializeRoot lib env ca (some keyPem) (some certPem) = .ok ca') :
    ∃ key der, lib.keyFromPem keyPem = .ok key ∧
      ca' = { ca with
        rootKeypair := some key
        rootCertPem := some certPem
        rootCertDer := some der } := by
  obtain ⟨key, hkey, h⟩ := bind_eq_ok h
  obtain ⟨der, -, h⟩ := bind_eq_ok h
  cases h
  exact ⟨key, der, keyGeneration_eq_ok hkey, rfl⟩

theorem initializeRoot_generated (hnone : storedKey = none ∨ storedCert = none)
    (h : initializeRoot lib env ca storedKey storedCert = .ok ca') :
    ∃ key serial, env.rootKey = .ok key ∧
      ca' = { ca with
        rootKeypair := some key
        rootCertPem := some (lib.pem (lib.der (rootCertificate lib env.now ca.domain key serial)))
        rootCertDer := some (lib.der (rootCertificate lib env.now ca.domain key serial)) } := by
  have hgen : initializeRoot lib env ca none none = .ok ca' := by
    rcases hnone with rfl | rfl
    · exact h
    · cases storedKey <;> exact h
  obtain ⟨key, hkey, hgen⟩ := bind_eq_ok hgen
  obtain ⟨serial, -, hgen⟩ := bind_eq_ok hgen
  obtain ⟨-, -, hgen⟩ := bind_eq_ok hgen
  cases hgen
  exact ⟨key, serial, keyGeneration_eq_ok hkey, rfl⟩

theorem mintIntermediate_spec {rootKey : KeyPair} {rootCertPem : String}
    (hkey : ca.rootKeypair = some rootKey) (hcert : ca.rootCertPem = some rootCertPem)
    (h : mintIntermediate lib env ca = .ok ca') :
    ∃ root key serial, lib.fromCaCertPem rootCertPem = .ok root ∧
      ca' = { ca with
        intermediateKeypair := some key
        intermediateCertPem := some (lib.pem (lib.der
          (intermediateCertificate lib env.now ca.domain root rootKey key serial)))
        intermediateExpiresAt := saturatingAdd env.now defaultIntermediateTtl } := by
  simp only [mintIntermediate, hkey, hcert] at h
  obtain ⟨key, -, h⟩ := bind_eq_ok h
  obtain ⟨serial, -, h⟩ := bind_eq_ok h
  obtain ⟨root, hroot, h⟩ := bind_eq_ok h
  obtain ⟨-, -, h⟩ := bind_eq_ok h
  obtain ⟨-, -, h⟩ := bind_eq_ok h
  cases h
  exact ⟨root, key, serial, signing_eq_ok hroot, by rw [hkey, hcert]⟩

theorem initializeWithIntermediate_cases
    (h : initializeWithIntermediate lib env ca storedKey storedCert storedIntKey storedIntCert =
      .ok ca') :
    ∃ ca₁, initializeRoot lib env ca storedKey storedCert = .ok ca₁ ∧
      ((∃ key certPem expiresAt,
          loadIntermediate lib env.now storedIntKey storedIntCert =
            some (key, certPem, expiresAt) ∧
          ca' = { ca₁ with
            intermediateKeypair := some key
            intermediateCertPem := some certPem
            intermediateExpiresAt := expiresAt }) ∨
        (loadIntermediate lib env.now storedIntKey storedIntCert = none ∧
          mintIntermediate lib env ca₁ = .ok ca')) := by
  obtain ⟨ca₁, hroot, h⟩ := bind_eq_ok h
  refine ⟨ca₁, hroot, ?_⟩
  rcases hload : loadIntermediate lib env.now storedIntKey storedIntCert with _ | ⟨key, pem, at_⟩
  · simp only [hload] at h
    exact .inr ⟨rfl, h⟩
  · simp only [hload] at h
    cases h
    exact .inl ⟨key, pem, at_, rfl, rfl⟩

/-! ### An initialization that works -/

def zeroSerial : List.Vector UInt8 20 := ⟨List.replicate 20 0, rfl⟩

/-- An initialization in which every operation succeeds. -/
def workingInit (now : ℕ) (rootKey intKey : KeyPair) : InitEnv where
  now := now
  rootKey := .ok rootKey
  rootSerial := some zeroSerial
  intKey := .ok intKey
  intSerial := some zeroSerial

def workingSerial : Bytes := (zeroSerial.head ||| 1) :: zeroSerial.tail.toList

/-- The root that is generated then. -/
def newRoot (lib : CaLib) (domain : String) (now : ℕ) (rootKey : KeyPair) : CaCertificate :=
  rootCertificate lib now domain rootKey workingSerial

def rootedCa (lib : CaLib) (domain : String) (now : ℕ) (rootKey : KeyPair) : RootCa where
  domain := domain
  rootKeypair := some rootKey
  rootCertPem := some (lib.pem (lib.der (newRoot lib domain now rootKey)))
  rootCertDer := some (lib.der (newRoot lib domain now rootKey))

/-- The intermediate that is minted under it. -/
def newIntermediate (lib : CaLib) (domain : String) (now : ℕ) (rootKey intKey : KeyPair) :
    CaCertificate :=
  intermediateCertificate lib now domain (newRoot lib domain now rootKey) rootKey intKey
    workingSerial

def newCa (lib : CaLib) (domain : String) (now : ℕ) (rootKey intKey : KeyPair) : RootCa :=
  { rootedCa lib domain now rootKey with
    intermediateKeypair := some intKey
    intermediateCertPem := some (lib.pem (lib.der (newIntermediate lib domain now rootKey intKey)))
    intermediateExpiresAt := saturatingAdd now defaultIntermediateTtl }

theorem mintIntermediate_working (lib : CaLib) (domain : String) (now : ℕ)
    (rootKey intKey : KeyPair) :
    mintIntermediate lib (workingInit now rootKey intKey) (rootedCa lib domain now rootKey) =
      .ok (newCa lib domain now rootKey intKey) := by
  simp only [mintIntermediate, rootedCa, lib.fromCaCertPem_pem]
  rfl

theorem initialize_working (lib : CaLib) (domain : String) (now : ℕ) (rootKey intKey : KeyPair)
    {storedIntKey storedIntCert : Option String}
    (hload : loadIntermediate lib now storedIntKey storedIntCert = none) :
    initializeWithIntermediate lib (workingInit now rootKey intKey) { domain } none none
      storedIntKey storedIntCert = .ok (newCa lib domain now rootKey intKey) := by
  have hload' : loadIntermediate lib (workingInit now rootKey intKey).now storedIntKey
      storedIntCert = none := hload
  have hroot : initializeRoot lib (workingInit now rootKey intKey) { domain } none none =
      .ok (rootedCa lib domain now rootKey) := rfl
  rw [initializeWithIntermediate, hroot]
  simp only [bind, Except.bind, hload', mintIntermediate_working]

theorem exists_initialize (lib : CaLib) (domain : String) (now : ℕ) (rootKey intKey : KeyPair)
    (storedIntKey storedIntCert : Option String) :
    ∃ ca, initializeWithIntermediate lib (workingInit now rootKey intKey) { domain } none none
      storedIntKey storedIntCert = .ok ca := by
  rcases hload : loadIntermediate lib now storedIntKey storedIntCert with _ | int
  · exact ⟨_, initialize_working lib domain now rootKey intKey hload⟩
  · have hload' : loadIntermediate lib (workingInit now rootKey intKey).now storedIntKey
        storedIntCert = some int := hload
    rw [initializeWithIntermediate, hload']
    exact ⟨_, rfl⟩

/-! ### The chain in use -/

/-- The certificate was issued by the root, under its name and with its key. -/
structure Verifies (root cert : CaCertificate) : Prop where
  issuer : cert.issuer = root.subject
  signature : cert.signer = root.publicKey

variable (lib) in
/-- The intermediate certificate verifies under the root certificate and has the public key of the
    intermediate key. -/
def ChainHolds (ca : RootCa) : Prop :=
  ∃ rootPem intPem key root int, ca.rootCertPem = some rootPem ∧
    ca.intermediateCertPem = some intPem ∧ ca.intermediateKeypair = some key ∧
    parseCert lib rootPem = .ok root ∧ parseCert lib intPem = .ok int ∧
    Verifies root int ∧ int.publicKey = lib.publicKey key

variable (lib env) in
/-- An intermediate certificate was issued by the stored root; if there is none, by the key that is
    about to be generated. -/
def IssuedByRoot (domain : String) (storedKey storedCert : Option String) (int : CaCertificate) :
    Prop :=
  match storedKey, storedCert with
  | some _, some certPem => ∃ root, parseCert lib certPem = .ok root ∧ Verifies root int
  | _, _ => ∃ key, env.rootKey = .ok key ∧ int.issuer = rootName domain ∧
      int.signer = lib.publicKey key

variable (lib) in
/-- A stored root key belongs to the stored root certificate, which is read in one way only. -/
def RootKeyMatches (storedKey storedCert : Option String) : Prop :=
  ∀ keyPem certPem, storedKey = some keyPem → storedCert = some certPem →
    ∃ key root, lib.keyFromPem keyPem = .ok key ∧ parseCert lib certPem = .ok root ∧
      root.publicKey = lib.publicKey key ∧
      ∀ root', lib.fromCaCertPem certPem = .ok root' → root'.subject = root.subject

variable (lib env) in
/-- What the boot finds fits together: the stored intermediate, if it is used, with its own key and
    with the root; otherwise the root with its own key. -/
def StoredConsistent (domain : String)
    (storedKey storedCert storedIntKey storedIntCert : Option String) : Prop :=
  match loadIntermediate lib env.now storedIntKey storedIntCert with
  | some (key, certPem, _) => ∃ int, parseCert lib certPem = .ok int ∧
      int.publicKey = lib.publicKey key ∧ IssuedByRoot lib env domain storedKey storedCert int
  | none => RootKeyMatches lib storedKey storedCert

theorem stored_or_missing (storedKey storedCert : Option String) :
    (∃ keyPem certPem, storedKey = some keyPem ∧ storedCert = some certPem) ∨
      (storedKey = none ∨ storedCert = none) := by
  cases storedKey <;> cases storedCert <;> simp

theorem issuedByRoot_iff (h : initializeRoot lib env ca storedKey storedCert = .ok ca')
    {int : CaCertificate} :
    IssuedByRoot lib env ca.domain storedKey storedCert int ↔
      ∃ rootPem root, ca'.rootCertPem = some rootPem ∧ parseCert lib rootPem = .ok root ∧
        Verifies root int := by
  rcases stored_or_missing storedKey storedCert with ⟨keyPem, certPem, rfl, rfl⟩ | hnone
  · obtain ⟨key, der, -, rfl⟩ := initializeRoot_stored h
    constructor
    · rintro ⟨root, hroot, hverifies⟩
      exact ⟨certPem, root, rfl, hroot, hverifies⟩
    · rintro ⟨rootPem, root, hpem, hroot, hverifies⟩
      cases hpem
      exact ⟨root, hroot, hverifies⟩
  · have hissued : IssuedByRoot lib env ca.domain storedKey storedCert int ↔
        ∃ key, env.rootKey = .ok key ∧ int.issuer = rootName ca.domain ∧
          int.signer = lib.publicKey key := by
      rcases hnone with rfl | rfl
      · rfl
      · cases storedKey <;> rfl
    obtain ⟨key, serial, hkey, rfl⟩ := initializeRoot_generated hnone h
    rw [hissued]
    constructor
    · rintro ⟨key', hkey', hissuer, hsigner⟩
      cases hkey.symm.trans hkey'
      exact ⟨_, _, rfl, parseCert_pem _, hissuer, hsigner⟩
    · rintro ⟨rootPem, root, hpem, hroot, hissuer, hsigner⟩
      cases hpem
      cases (parseCert_pem _).symm.trans hroot
      exact ⟨key, hkey, hissuer, hsigner⟩

theorem chainHolds_minted (h : initializeRoot lib env ca storedKey storedCert = .ok ca')
    {ca'' : RootCa} (hmint : mintIntermediate lib env ca' = .ok ca'') :
    ChainHolds lib ca'' ↔ RootKeyMatches lib storedKey storedCert := by
  rcases stored_or_missing storedKey storedCert with ⟨keyPem, certPem, rfl, rfl⟩ | hnone
  · obtain ⟨rootKey, der, hkey, rfl⟩ := initializeRoot_stored h
    obtain ⟨root', key, serial, hroot', rfl⟩ := mintIntermediate_spec rfl rfl hmint
    constructor
    · rintro ⟨rootPem, intPem, key', root, int, hrp, hip, -, hroot, hint, hverifies, -⟩
      cases hrp
      cases hip
      cases (parseCert_pem _).symm.trans hint
      rintro _ _ ⟨⟩ ⟨⟩
      refine ⟨rootKey, root, hkey, hroot, hverifies.signature.symm, fun root'' hroot'' => ?_⟩
      cases hroot'.symm.trans hroot''
      exact hverifies.issuer
    · intro hmatches
      obtain ⟨key', root, hkey', hroot, hpublic, hsubject⟩ := hmatches keyPem certPem rfl rfl
      cases hkey.symm.trans hkey'
      exact ⟨certPem, _, key, root, _, rfl, rfl, rfl, hroot, parseCert_pem _,
        ⟨hsubject root' hroot', hpublic.symm⟩, rfl⟩
  · obtain ⟨rootKey, serial, -, rfl⟩ := initializeRoot_generated hnone h
    obtain ⟨root', key, serial', hroot', rfl⟩ := mintIntermediate_spec rfl rfl hmint
    cases (lib.fromCaCertPem_pem _).symm.trans hroot'
    refine iff_of_true ?_ ?_
    · exact ⟨_, _, key, _, _, rfl, rfl, rfl, parseCert_pem _, parseCert_pem _, ⟨rfl, rfl⟩, rfl⟩
    · rintro keyPem certPem rfl rfl
      rcases hnone with hnone | hnone <;> cases hnone

end Ekafleet.Ca
