import Ekafleet.Ca.Certificate
import Ekafleet.Lib.Codec
import Ekafleet.Lib.Word

/-! Signed advertisements of WireGuard peers | source: mesh/advert.rs, proxy/mtls.rs

    A node signs its WireGuard key, endpoint and address with the key of its SVID and attaches the
    certificate. Who receives the advertisement checks that the certificate names the node and that
    the signature verifies under the certificate's key. PEM, X.509 and ECDSA are parameters. A
    result `none` is a panic: the end marker of a certificate may come first. -/

namespace Ekafleet.Mesh
open Ca

/-- An advertisement of a node, as it is sent. -/
structure WireguardPeer where
  nodeId : String
  publicKey : String
  endpoint : String
  allowedIp : String
  signature : Bytes
  signingCertPem : String
  deriving DecidableEq, Repr

/-- Why an advertisement is not accepted. -/
inductive AdvertError where
  | missingSignature
  | missingCert
  | malformedCert (message : String)
  | noSpiffeId
  | identityMismatch (certId nodeId : String)
  | badSignature
  | invalidSigningKey (message : String)
  deriving DecidableEq, Repr

/-- What is read of a parsed certificate. -/
structure X509 where
  subjectAltNames : List SanType
  subjectPublicKey : Bytes
  deriving DecidableEq, Repr

/-- The PEM, X.509 and signature libraries, with the texts of their errors. -/
structure AdvertLib where
  pemCerts : String → Except String (List Bytes)
  parseX509 : Bytes → Except String X509
  ecdsaP256 : (key message signature : Bytes) → Bool
  /-- The public key of a PKCS#8 key pair. -/
  fromPkcs8 : Bytes → Except String Bytes
  /-- A signature with the key pair, made with random bytes. -/
  sign : (pkcs8 random message : Bytes) → Except String Bytes
  sign_verifies : ∀ pkcs8 random message key signature, fromPkcs8 pkcs8 = .ok key →
    sign pkcs8 random message = .ok signature →
    signature ≠ [] ∧ ecdsaP256 key message signature = true

/-! ### The signed bytes -/

/-- A field with its length before it, as a 32-bit big-endian number. -/
def lengthPrefixed (field : String) : Bytes :=
  (Word.toLeBytes (UInt32.ofNat (Text.utf8 field).length)).reverse ++ Text.utf8 field

/-- The bytes that are signed. -/
def canonicalBytes (nodeId publicKey endpoint allowedIp : String) : Bytes :=
  [nodeId, publicKey, endpoint, allowedIp].flatMap lengthPrefixed

def WireguardPeer.canonicalBytes (peer : WireguardPeer) : Bytes :=
  Mesh.canonicalBytes peer.nodeId peer.publicKey peer.endpoint peer.allowedIp

theorem lengthPrefixed_append_inj {s t : String} {rest rest' : Bytes}
    (hs : (Text.utf8 s).length < 2 ^ 32) (ht : (Text.utf8 t).length < 2 ^ 32)
    (h : lengthPrefixed s ++ rest = lengthPrefixed t ++ rest') : s = t ∧ rest = rest' := by
  rw [lengthPrefixed, lengthPrefixed, List.append_assoc, List.append_assoc] at h
  -- The length fields are both four bytes long, so they are equal, and so are the lengths.
  obtain ⟨hlen, htail⟩ := List.append_inj h rfl
  have hword := Word.toLeBytes_injective (List.reverse_injective hlen)
  have hlength : (Text.utf8 s).length = (Text.utf8 t).length := by
    have hnat := congrArg UInt32.toNat hword
    rwa [UInt32.toNat_ofNat_of_lt' hs, UInt32.toNat_ofNat_of_lt' ht] at hnat
  obtain ⟨hbytes, hrest⟩ := List.append_inj htail hlength
  refine ⟨?_, hrest⟩
  have htext := congrArg Text.fromUtf8 hbytes
  rw [Text.fromUtf8_utf8, Text.fromUtf8_utf8] at htext
  exact Option.some.inj htext

/-- No field is as long as its 32-bit length field wraps at. -/
def WireguardPeer.Sized (peer : WireguardPeer) : Prop :=
  ∀ field ∈ [peer.nodeId, peer.publicKey, peer.endpoint, peer.allowedIp],
    (Text.utf8 field).length < 2 ^ 32

/-- EXACT: the signed bytes determine the four fields. -/
theorem canonicalBytes_inj {a b : WireguardPeer} (ha : a.Sized) (hb : b.Sized)
    (h : a.canonicalBytes = b.canonicalBytes) :
    a.nodeId = b.nodeId ∧ a.publicKey = b.publicKey ∧ a.endpoint = b.endpoint ∧
      a.allowedIp = b.allowedIp := by
  simp only [WireguardPeer.Sized, List.forall_mem_cons] at ha hb
  grind [WireguardPeer.canonicalBytes, canonicalBytes, lengthPrefixed_append_inj]

theorem length_canonicalBytes_gt (nodeId publicKey endpoint allowedIp : String) :
    (Text.utf8 endpoint).length < (canonicalBytes nodeId publicKey endpoint allowedIp).length := by
  simp only [canonicalBytes, lengthPrefixed, List.flatMap_cons, List.flatMap_nil,
    List.length_append, List.length_reverse, Word.toLeBytes, List.length_cons, List.length_nil]
  omega

/-! ### Certificates -/

def beginMarker : String := "-----BEGIN CERTIFICATE-----"
def endMarker : String := "-----END CERTIFICATE-----"

/-- The part of a text between two positions; a start behind the end panics. -/
def slice (s : String) (start stop : ℕ) : Option String :=
  if start ≤ stop then some (String.ofList ((s.toList.take stop).drop start)) else none

section Verify
variable (lib : AdvertLib)

def extractSpiffeIdFromDer (der : Bytes) : Option String :=
  match lib.parseX509 der with
  | .ok cert => extractSpiffeId cert.subjectAltNames
  | .error _ => none

def extractSpiffeIdFromPem (certPem : String) : Option (Option String) :=
  match Text.find beginMarker certPem, Text.find endMarker certPem with
  | some certStart, some certEnd => do
    let pemBlock ← slice certPem certStart (certEnd + endMarker.length)
    match lib.pemCerts pemBlock with
    | .ok (der :: _) => some (extractSpiffeIdFromDer lib der)
    | _ => some none
  | _, _ => some none

def certSpkiDer (certPem : String) : Option (Except AdvertError Bytes) :=
  match Text.find beginMarker certPem with
  | none => some (.error (.malformedCert "no certificate block"))
  | some certStart =>
    match Text.find endMarker certPem with
    | none => some (.error (.malformedCert "no certificate end marker"))
    | some certEnd => do
      let pemBlock ← slice certPem certStart (certEnd + endMarker.length)
      match lib.pemCerts pemBlock with
      | .error e => some (.error (.malformedCert e))
      | .ok [] => some (.error (.malformedCert "empty certificate block"))
      | .ok (der :: _) =>
        match lib.parseX509 der with
        | .error e => some (.error (.malformedCert e))
        | .ok cert => some (.ok cert.subjectPublicKey)

/-- The SPIFFE ID of a node's agent. -/
def agentSpiffeId (domain nodeId : String) : String := s!"spiffe://{domain}/agent/{nodeId}"

/-- Sign an advertisement. -/
def signAdvert (nodeId publicKey endpoint allowedIp : String) (svidKeyPkcs8Der random : Bytes) :
    Except AdvertError Bytes :=
  match lib.fromPkcs8 svidKeyPkcs8Der with
  | .error e => .error (.invalidSigningKey e)
  | .ok _ =>
    match lib.sign svidKeyPkcs8Der random
      (canonicalBytes nodeId publicKey endpoint allowedIp) with
    | .error e => .error (.invalidSigningKey e)
    | .ok signature => .ok signature

/-- Check an advertisement. -/
def verifyAdvert (peer : WireguardPeer) (expectedDomain : String) :
    Option (Except AdvertError Unit) :=
  if peer.signature.isEmpty then some (.error .missingSignature)
  else if peer.signingCertPem = "" then some (.error .missingCert)
  else do
    match ← extractSpiffeIdFromPem lib peer.signingCertPem with
    | none => some (.error .noSpiffeId)
    | some certId =>
      if certId ≠ agentSpiffeId expectedDomain peer.nodeId then
        some (.error (.identityMismatch certId peer.nodeId))
      else
        match ← certSpkiDer lib peer.signingCertPem with
        | .error e => some (.error e)
        | .ok key =>
          if lib.ecdsaP256 key peer.canonicalBytes peer.signature then some (.ok ())
          else some (.error .badSignature)

/-- The certificate in `certPem` carries the SPIFFE ID `id` and the public key `key`. -/
def Presents (certPem id : String) (key : Bytes) : Prop :=
  extractSpiffeIdFromPem lib certPem = some (some id) ∧ certSpkiDer lib certPem = some (.ok key)

theorem Presents.ne_empty {certPem id : String} {key : Bytes} (h : Presents lib certPem id key) :
    certPem ≠ "" := by
  rintro rfl
  have hid := h.1
  cases hid

/-- EXACT: what is accepted carries a certificate for the node it names and a signature of its
    fields under the key of that certificate. Who issued the certificate is not asked. -/
theorem verifyAdvert_eq_ok_iff {peer : WireguardPeer} {domain : String} :
    verifyAdvert lib peer domain = some (.ok ()) ↔
      peer.signature ≠ [] ∧
        ∃ key, Presents lib peer.signingCertPem (agentSpiffeId domain peer.nodeId) key ∧
          lib.ecdsaP256 key peer.canonicalBytes peer.signature = true := by
  constructor
  · intro h
    unfold verifyAdvert at h
    by_cases hsig : peer.signature.isEmpty
    · rw [if_pos hsig] at h
      cases h
    by_cases hpem : peer.signingCertPem = ""
    · rw [if_neg hsig, if_pos hpem] at h
      cases h
    rw [if_neg hsig, if_neg hpem] at h
    rcases hid : extractSpiffeIdFromPem lib peer.signingCertPem with _ | _ | certId <;>
      rw [hid] at h
    · cases h
    · cases h
    change (if _ then _ else _) = _ at h
    by_cases hne : certId ≠ agentSpiffeId domain peer.nodeId
    · rw [if_pos hne] at h
      cases h
    rw [if_neg hne] at h
    rcases hkey : certSpkiDer lib peer.signingCertPem with _ | e | key <;> rw [hkey] at h
    · cases h
    · cases h
    change (if _ then _ else _) = _ at h
    by_cases hverify : lib.ecdsaP256 key peer.canonicalBytes peer.signature = true
    · refine ⟨by simpa using hsig, key, ⟨?_, hkey⟩, hverify⟩
      rw [hid, not_not.mp hne]
    · rw [if_neg hverify] at h
      cases h
  · rintro ⟨hsig, key, hpresents, hverify⟩
    have hempty : ¬ (peer.signature.isEmpty = true) := by simpa using hsig
    rw [verifyAdvert, if_neg hempty, if_neg (hpresents.ne_empty lib), hpresents.1, hpresents.2]
    grind

/-- CORRECT: a node that signs with the key of the certificate it attaches is accepted. -/
theorem verifyAdvert_signAdvert {peer : WireguardPeer} {domain : String}
    {pkcs8 random key : Bytes} (hkey : lib.fromPkcs8 pkcs8 = .ok key)
    (hpresents : Presents lib peer.signingCertPem (agentSpiffeId domain peer.nodeId) key)
    (hsign : signAdvert lib peer.nodeId peer.publicKey peer.endpoint peer.allowedIp pkcs8 random =
      .ok peer.signature) :
    verifyAdvert lib peer domain = some (.ok ()) := by
  rw [signAdvert, hkey] at hsign
  rcases hsig : lib.sign pkcs8 random (canonicalBytes peer.nodeId peer.publicKey peer.endpoint
    peer.allowedIp) with e | signature
  · rw [hsig] at hsign
    cases hsign
  · rw [hsig] at hsign
    cases hsign
    obtain ⟨hne, hverify⟩ := lib.sign_verifies _ _ _ _ _ hkey hsig
    exact (verifyAdvert_eq_ok_iff lib).mpr ⟨hne, key, hpresents, hverify⟩

/-- The fields the signature covers. -/
def WireguardPeer.signed (peer : WireguardPeer) : String × String × String × String :=
  (peer.nodeId, peer.publicKey, peer.endpoint, peer.allowedIp)

/-- EXACT: the signed bytes determine the four fields. With a scheme whose signatures are valid
    for the message they were made for alone, a signature made for one advertisement is accepted
    with another one, under the certificate of the same key, exactly when the fields agree. -/
theorem signature_covers_the_fields {a b : WireguardPeer} (ha : a.Sized) (hb : b.Sized)
    {pkcs8 key : Bytes} (hkey : lib.fromPkcs8 pkcs8 = .ok key)
    (hideal : ∀ random message message' signature,
      lib.sign pkcs8 random message = .ok signature →
        lib.ecdsaP256 key message' signature = true → message' = message) :
    (a.canonicalBytes = b.canonicalBytes ↔ a.signed = b.signed) ∧
      ∀ random domain,
        Presents lib b.signingCertPem (agentSpiffeId domain b.nodeId) key →
        signAdvert lib a.nodeId a.publicKey a.endpoint a.allowedIp pkcs8 random =
          .ok b.signature →
        (verifyAdvert lib b domain = some (.ok ()) ↔ a.signed = b.signed) := by
  have hinj : a.canonicalBytes = b.canonicalBytes ↔ a.signed = b.signed := by
    simp only [WireguardPeer.signed, Prod.mk.injEq]
    refine ⟨canonicalBytes_inj ha hb, ?_⟩
    rintro ⟨hnode, hpublic, hendpoint, hallowed⟩
    rw [WireguardPeer.canonicalBytes, WireguardPeer.canonicalBytes, hnode, hpublic, hendpoint,
      hallowed]
  refine ⟨hinj, fun random domain hpresents hsign => ⟨fun hok => ?_, fun hfields => ?_⟩⟩
  · obtain ⟨-, key', hpresents', hverify⟩ := (verifyAdvert_eq_ok_iff lib).mp hok
    obtain rfl : key = key' := by
      have hsame := hpresents.2.symm.trans hpresents'.2
      cases hsame
      rfl
    have hmade : lib.sign pkcs8 random a.canonicalBytes = .ok b.signature := by
      rw [signAdvert, hkey] at hsign
      unfold WireguardPeer.canonicalBytes
      rcases hs : lib.sign pkcs8 random (canonicalBytes a.nodeId a.publicKey a.endpoint
        a.allowedIp) with e | signature
      · simp only [hs, reduceCtorEq] at hsign
      · simp only [hs, Except.ok.injEq] at hsign
        rw [hsign]
    exact hinj.mp (hideal _ _ _ _ hmade hverify).symm
  · simp only [WireguardPeer.signed, Prod.mk.injEq] at hfields
    obtain ⟨hnode, hpublic, hendpoint, hallowed⟩ := hfields
    rw [hnode, hpublic, hendpoint, hallowed] at hsign
    exact verifyAdvert_signAdvert lib hkey hpresents hsign

end Verify

/-! ### A small instance -/

/-- Certificates are the text between the markers, a node's name, and all carry the key `[1]`; a
    signature is the key followed by the message. -/
def textLib : AdvertLib where
  pemCerts block := .ok [Text.utf8 block]
  parseX509 der :=
    match (Text.fromUtf8 der).bind fun s =>
        (Text.stripPrefix beginMarker s).bind (Text.stripSuffix endMarker) with
    | some name => .ok ⟨[.uri (agentSpiffeId "fleet.internal" name)], [1]⟩
    | none => .error "not a certificate"
  ecdsaP256 key message signature := key.length = 1 ∧ signature = key ++ message
  fromPkcs8 key := if key.length = 1 then .ok key else .error "not a key"
  sign pkcs8 _ message := .ok (pkcs8 ++ message)
  sign_verifies := by
    intro pkcs8 random message key signature hkey hsign
    split_ifs at hkey with hlength
    cases hkey
    cases hsign
    refine ⟨?_, by simp [hlength]⟩
    intro hnil
    rw [List.append_eq_nil_iff] at hnil
    rw [hnil.1] at hlength
    cases hlength

/-- An advertisement for a node, with a certificate that names it and signed with the key `[1]`. -/
def textAdvert (nodeId publicKey endpoint allowedIp : String) : WireguardPeer where
  nodeId := nodeId
  publicKey := publicKey
  endpoint := endpoint
  allowedIp := allowedIp
  signature := [1] ++ canonicalBytes nodeId publicKey endpoint allowedIp
  signingCertPem := beginMarker ++ nodeId ++ endMarker

example : verifyAdvert textLib (textAdvert "node-1" "wg" "10.0.0.5:51820" "10.100.0.5/32")
    "fleet.internal" = some (.ok ()) := by decide +kernel

/-- A moved endpoint makes other bytes. -/
theorem signature_covers_the_endpoint :
    (textAdvert "node-1" "wg" "10.0.0.5:51820" "10.100.0.5/32").canonicalBytes ≠
      (textAdvert "node-1" "wg" "10.0.0.6:51820" "10.100.0.5/32").canonicalBytes := by
  have hiff := (signature_covers_the_fields textLib
    (a := textAdvert "node-1" "wg" "10.0.0.5:51820" "10.100.0.5/32")
    (b := textAdvert "node-1" "wg" "10.0.0.6:51820" "10.100.0.5/32")
    (by unfold WireguardPeer.Sized; decide +kernel)
    (by unfold WireguardPeer.Sized; decide +kernel) (show textLib.fromPkcs8 [1] = .ok [1] from rfl)
      (by
      intro random message message' signature hsign hverify
      cases hsign
      have hboth := of_decide_eq_true hverify
      exact (List.append_cancel_left hboth.2).symm)).1
  intro heq
  have hfields := hiff.mp heq
  revert hfields
  decide

end Ekafleet.Mesh
