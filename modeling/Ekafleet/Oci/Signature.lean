import Ekafleet.Lib.Json
import Ekafleet.Oci.Registry

/-! Cosign signature verification | source: agent/oci/signature.rs

    Signatures are looked up in the registry under the tag `sha256-<hex>.sig` and checked against
    a fixed key, or against a Fulcio certificate and the Rekor log. The signature algorithms, the
    X.509 parser, the JSON parser and the clock are parameters. -/

namespace Ekafleet.Oci

/-- The keys that signatures are checked with. -/
inductive SigningKey where
  | ecdsaP256 (key : Bytes)
  | ed25519 (key : Bytes)
  deriving DecidableEq, Repr

/-- An identity that may sign. -/
structure KeylessIdentity where
  subject : String
  issuer : String
  deriving DecidableEq, Repr

/-- What a keyless signature has to show. -/
structure KeylessPolicy where
  fulcioRoots : List Bytes
  identities : List KeylessIdentity
  rekorPublicKey : Option Bytes
  deriving DecidableEq, Repr

/-- Which signatures an image needs. -/
inductive SignaturePolicy where
  | key (key : SigningKey)
  | keyless (policy : KeylessPolicy)
  deriving DecidableEq, Repr

/-- Why a signature is not accepted. -/
inductive SignatureError where
  | registry (e : RegistryError)
  | noSignatures (digest : Digest)
  | payloadParse (message : String)
  | verificationFailed (count : ℕ)
  | invalidKey (message : String)
  | manifestParse (message : String)
  | missingCertificate
  | certificateParse (message : String)
  | untrustedCertificate
  | certificateExpired
  | identityMismatch (subject issuer : String)
  | rekorVerification (message : String)
  deriving DecidableEq, Repr

/-- A signature found in the registry. -/
structure CosignSignature where
  payload : Bytes
  signature : Bytes
  certificatePem : Option String
  bundleJson : Option String
  deriving DecidableEq, Repr

/-- Subject alternative names; only mail addresses and URIs are looked at. -/
inductive GeneralName where
  | rfc822Name (s : String)
  | uri (s : String)
  | other
  deriving DecidableEq, Repr

/-- An extension of a certificate. -/
structure Extension where
  oid : String
  value : Bytes
  subjectAltName : Option (List GeneralName)
  deriving DecidableEq, Repr

/-- A certificate of a keyless signature. -/
structure X509Certificate where
  subject : String
  issuer : String
  /-- The validity window contains the current time. -/
  isValid : Bool
  publicKey : Bytes
  extensions : List Extension
  deriving DecidableEq, Repr

/-- The certificate and signature libraries, and the JSON formats of payload and Rekor bundle. -/
structure SignatureLib where
  ecdsaP256 : (key message signature : Bytes) → Bool
  ed25519 : (key message signature : Bytes) → Bool
  /-- PEM to the certificate in it, with the error text. -/
  parsePem : String → Except String X509Certificate
  fromDer : Bytes → Option X509Certificate
  /-- The certificate's signature verifies under the key. -/
  certSignedBy : X509Certificate → Bytes → Bool
  fromUtf8Lossy : Bytes → String
  /-- The `docker-manifest-digest` of a payload. -/
  payloadJson : Bytes → Except String String
  /-- Signed entry timestamp and payload of a Rekor bundle. -/
  bundleJson : String → Except String (String × Json)
  /-- The text of a value that is neither array nor object. -/
  scalarText : Json → Bytes

variable (sig : SignatureLib)

/-! ### Base64 -/

def decodeB64Char (c : UInt8) : Except String UInt8 :=
  if 65 ≤ c ∧ c ≤ 90 then .ok (c - 65)
  else if 97 ≤ c ∧ c ≤ 122 then .ok (c - 97 + 26)
  else if 48 ≤ c ∧ c ≤ 57 then .ok (c - 48 + 52)
  else if c = 43 then .ok 62
  else if c = 47 then .ok 63
  else .error s!"invalid base64 character: {c}"

/-- The values of a chunk up to the first padding character. -/
def decodeB64Values : Bytes → Except String Bytes
  | [] => .ok []
  | c :: rest =>
    if c = 61 then .ok []
    else do return (← decodeB64Char c) :: (← decodeB64Values rest)

/-- The bytes that the values of one chunk carry. -/
def decodeB64Chunk : Bytes → Bytes
  | [a, b] => [(a <<< 2) ||| (b >>> 4)]
  | [a, b, c] => [(a <<< 2) ||| (b >>> 4), (b <<< 4) ||| (c >>> 2)]
  | a :: b :: c :: d :: _ =>
    [(a <<< 2) ||| (b >>> 4), (b <<< 4) ||| (c >>> 2), (c <<< 6) ||| d]
  | _ => []

def base64Decode (input : String) : Except String Bytes := do
  let bytes := (String.ofList (input.toList.filter (!Text.isWhitespace ·))).toUTF8.toList
  let chunks ← (bytes.toChunks 4).mapM decodeB64Values
  return chunks.flatMap decodeB64Chunk

/-! ### Verification -/

/-- Verify a signature over a message with a public key. -/
def verifySignature (key : SigningKey) (message signature : Bytes) : Except SignatureError Unit :=
  match key with
  | .ecdsaP256 k =>
    if sig.ecdsaP256 k message signature then .ok ()
    else .error (.invalidKey "ECDSA P-256 verification failed")
  | .ed25519 k =>
    if sig.ed25519 k message signature then .ok ()
    else .error (.invalidKey "Ed25519 verification failed")

/-- At least one signature whose payload names the digest verifies under the key. -/
def verifyStaticKey (key : SigningKey) (signatures : List CosignSignature) (digest : Digest) :
    Except SignatureError Unit :=
  go signatures
where
  go : List CosignSignature → Except SignatureError Unit
    | [] => .error (.verificationFailed signatures.length)
    | s :: rest => do
      let named ← (sig.payloadJson s.payload).mapError .payloadParse
      if named ≠ digest.display then go rest
      else match verifySignature sig key s.payload s.signature with
        | .ok () => return ()
        | .error _ => go rest

/-- A root has signed the leaf. -/
def leafChainsToRoot (leaf : X509Certificate) (rootsDer : List Bytes) : Bool :=
  rootsDer.any fun der => match sig.fromDer der with
    | some root => leaf.issuer == root.subject && sig.certSignedBy leaf root.publicKey
    | none => false

def extractSanIdentities (cert : X509Certificate) : List String :=
  cert.extensions.flatMap fun ext => (ext.subjectAltName.getD []).filterMap fun
    | .rfc822Name s => some s
    | .uri s => some s
    | .other => none

def fulcioIssuerOidV1 : String := "1.3.6.1.4.1.57264.1.1"

def fulcioIssuerOidV2 : String := "1.3.6.1.4.1.57264.1.8"

/-- A DER-encoded UTF8String, or the bytes as text when they are not one. -/
def decodeDerUtf8String (bytes : Bytes) : String :=
  match bytes with
  | 0x0c :: len :: rest =>
    if len.toNat ≤ rest.length then sig.fromUtf8Lossy (rest.take len.toNat)
    else sig.fromUtf8Lossy bytes
  | _ => sig.fromUtf8Lossy bytes

def extractOidcIssuer (cert : X509Certificate) : Option String :=
  cert.extensions.findSome? fun ext =>
    if ext.oid = fulcioIssuerOidV1 then some (sig.fromUtf8Lossy ext.value)
    else if ext.oid = fulcioIssuerOidV2 then some (decodeDerUtf8String sig ext.value)
    else none

/-- Comma-separated pieces between two brackets. -/
def bracketed (left right : UInt8) (pieces : List Bytes) : Bytes :=
  [left] ++ [(44 : UInt8)].intercalate pieces ++ [right]

mutual

/-- Objects with their keys sorted, no white space. -/
def canonicalJson : Json → Bytes
  | .obj fields => bracketed 123 125 (((canonicalFields fields).insertionSort
      fun a b => a.1 ≤ b.1).map fun f => sig.scalarText (.str f.1) ++ [58] ++ f.2)
  | .arr items => bracketed 91 93 (canonicalItems items)
  | value => sig.scalarText value

def canonicalFields : List (String × Json) → List (String × Bytes)
  | [] => []
  | (k, v) :: rest => (k, canonicalJson v) :: canonicalFields rest

def canonicalItems : List Json → List Bytes
  | [] => []
  | v :: rest => canonicalJson v :: canonicalItems rest

end

/-- The bundle's timestamp is a signature of Rekor over the bundle's own payload; the payload,
    signature and digest of the image are not looked at. -/
def verifyRekorBundle (rekorKey : Bytes) (bundleJson : Option String) :
    Except SignatureError Unit := do
  let some json := bundleJson
    | throw (.rekorVerification "keyless policy requires Rekor bundle but none present")
  let (timestamp, payload) ← (sig.bundleJson json).mapError fun e =>
    .rekorVerification s!"bundle parse: {e}"
  let set ← (base64Decode timestamp).mapError fun e => .rekorVerification s!"SET base64: {e}"
  (verifySignature sig (.ecdsaP256 rekorKey) (canonicalJson sig payload) set).mapError fun _ =>
    .rekorVerification "SET signature invalid"

/-- One keyless candidate, end to end. -/
def verifyKeylessSignature (policy : KeylessPolicy) (certPem : String) (s : CosignSignature) :
    Except SignatureError Unit := do
  let leaf ← (sig.parsePem certPem).mapError .certificateParse
  if !leaf.isValid then throw .certificateExpired
  if !leafChainsToRoot sig leaf policy.fulcioRoots then throw .untrustedCertificate
  let subjects := extractSanIdentities leaf
  let issuer := extractOidcIssuer sig leaf
  if !policy.identities.any fun a => subjects.contains a.subject && issuer == some a.issuer then
    throw (.identityMismatch (subjects.head?.getD "") (issuer.getD ""))
  verifySignature sig (.ecdsaP256 leaf.publicKey) s.payload s.signature
  match policy.rekorPublicKey with
  | some key => verifyRekorBundle sig key s.bundleJson
  | none => return ()

/-- Verify by a Fulcio certificate. -/
def verifyKeyless (policy : KeylessPolicy) (signatures : List CosignSignature) (digest : Digest) :
    Except SignatureError Unit :=
  go none signatures
where
  go (lastErr : Option SignatureError) : List CosignSignature → Except SignatureError Unit
    | [] => .error (lastErr.getD .missingCertificate)
    | s :: rest => match s.certificatePem with
      | none => go lastErr rest
      | some certPem => do
        let named ← (sig.payloadJson s.payload).mapError .payloadParse
        if named ≠ digest.display then go lastErr rest
        else match verifyKeylessSignature sig policy certPem s with
          | .ok () => return ()
          | .error e => go (some e) rest

/-! ### Lookup in the registry -/

variable (lib : ImageLib)

/-- The signatures of the layers; blobs that cannot be fetched are skipped. `n` is the number of
    requests made so far. -/
def extractSignatures (net : Network) (image : ImageReference) (config : Digest) (n : ℕ) :
    List Descriptor → List CosignSignature
  | [] => []
  | layer :: rest =>
    let later := extractSignatures net image config (n + 2) rest
    match fetchBlob lib (net n) image layer.digest, fetchBlob lib (net (n + 1)) image config with
    | .ok (_, signature), .ok (_, payload) =>
      if !payload.isEmpty && !signature.isEmpty then
        { payload, signature
          certificatePem := layer.annotations.bind (·.lookup "dev.sigstore.cosign/certificate")
          bundleJson := layer.annotations.bind (·.lookup "dev.sigstore.cosign/bundle") } :: later
      else later
    | _, _ => later

/-- The signatures of an image. -/
def fetchCosignSignatures (net : Network) (image : ImageReference) (digest : Digest) :
    Except SignatureError (List CosignSignature) :=
  let sigRef : ImageReference :=
    ⟨image.registry, image.repository, some s!"sha256-{digest.hex}.sig", none⟩
  match fetchManifest lib (net 0) sigRef with
  | .error (.notFound _) => .ok []
  | .error e => .error (.registry e)
  | .ok resp => match resp.kind with
    | .manifest m => .ok (extractSignatures lib net image m.config.digest 1 m.layers)
    | .index _ => .error (.manifestParse "expected manifest, got index for signature tag")

/-- At least one valid signature exists for the digest, as the policy asks. -/
def verifyImageSignature (net : Network) (image : ImageReference) (digest : Digest)
    (policy : SignaturePolicy) : Except SignatureError Unit := do
  let signatures ← fetchCosignSignatures lib net image digest
  if signatures.isEmpty then throw (.noSignatures digest)
  match policy with
  | .key key => verifyStaticKey sig key signatures digest
  | .keyless keyless => verifyKeyless sig keyless signatures digest

end Ekafleet.Oci
