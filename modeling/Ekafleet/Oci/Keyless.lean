import Ekafleet.Oci.Signature

/-! Keyless signatures and the transparency log | source: agent/oci/signature.rs

    A keyless candidate is accepted if its certificate and signature pass, and if its bundle carries
    a timestamp that Rekor signed. What Rekor logged is a parameter, and Rekor's key signs nothing
    else. -/

namespace Ekafleet.Oci

/-- What a log entry is for. -/
structure LogEntry where
  signature : Bytes
  payloadHash : List.Vector UInt8 32
  certificatePem : String
  deriving DecidableEq

/-- The log, by the canonical payloads that Rekor signed. -/
structure RekorLog where
  entries : Bytes → Option LogEntry

variable (sig : SignatureLib) (lib : ImageLib) (log : RekorLog)

/-- Rekor's key signs log entries only. -/
def RekorLog.Ideal (key : Bytes) : Prop :=
  ∀ message signature, sig.ecdsaP256 key message signature = true → (log.entries message).isSome

/-- The log entry of a bundle. -/
def bundleEntry (json : String) : Option LogEntry :=
  match sig.bundleJson json with
  | .ok (_, payload) => log.entries (canonicalJson sig payload)
  | .error _ => none

/-- The entry that Rekor makes for a signature. -/
def entryFor (s : CosignSignature) (certPem : String) : LogEntry :=
  ⟨s.signature, lib.sha256 s.payload, certPem⟩

/-- The bundle of the candidate is the log entry for its signature, payload and certificate. -/
def Bound (s : CosignSignature) : Prop :=
  ∃ json certPem, s.bundleJson = some json ∧ s.certificatePem = some certPem ∧
    bundleEntry sig log json = some (entryFor lib s certPem)

/-- Rekor's signature in the bundle is valid. -/
def ValidBundle (key : Bytes) (json : String) : Prop :=
  verifyRekorBundle sig key (some json) = .ok ()

/-- Everything about a candidate that is checked, apart from its bundle. -/
structure Candidate (policy : KeylessPolicy) (digest : Digest) (s : CosignSignature)
    (certPem : String) (leaf : X509Certificate) : Prop where
  certificate : s.certificatePem = some certPem
  payload : sig.payloadJson s.payload = .ok digest.display
  parsed : sig.parsePem certPem = .ok leaf
  valid : leaf.isValid = true
  trusted : leafChainsToRoot sig leaf policy.fulcioRoots = true
  identity : (policy.identities.any fun a =>
    (extractSanIdentities leaf).contains a.subject && extractOidcIssuer sig leaf == some a.issuer) =
      true
  signature : verifySignature sig (.ecdsaP256 leaf.publicKey) s.payload s.signature = .ok ()

/-- The candidate is rejected, and the next one is tried. -/
def PassedOver (policy : KeylessPolicy) (digest : Digest) (s : CosignSignature) : Prop :=
  ∀ certPem, s.certificatePem = some certPem → ∃ named, sig.payloadJson s.payload = .ok named ∧
    (named = digest.display → ∃ e, verifyKeylessSignature sig policy certPem s = .error e)

/-- The candidate passes. -/
def Accepted (policy : KeylessPolicy) (digest : Digest) (s : CosignSignature) : Prop :=
  ∃ certPem, s.certificatePem = some certPem ∧ sig.payloadJson s.payload = .ok digest.display ∧
    verifyKeylessSignature sig policy certPem s = .ok ()

/-- The image is accepted because of the candidate `s`. -/
structure ReliesOn (policy : KeylessPolicy) (digest : Digest) (signatures : List CosignSignature)
    (s : CosignSignature) : Prop where
  first : ∃ before later, signatures = before ++ s :: later ∧
    ∀ b ∈ before, PassedOver sig policy digest b
  accepted : Accepted sig policy digest s

variable {sig lib log}

/-! ### What is accepted -/

section Candidates
variable {policy : KeylessPolicy} {digest : Digest} {s : CosignSignature} {certPem : String}

theorem verifyKeylessSignature_of_parsed {leaf : X509Certificate}
    (hparsed : sig.parsePem certPem = .ok leaf) :
    verifyKeylessSignature sig policy certPem s =
      if leaf.isValid = false then .error .certificateExpired
      else if leafChainsToRoot sig leaf policy.fulcioRoots = false then .error .untrustedCertificate
      else if (policy.identities.any fun a => (extractSanIdentities leaf).contains a.subject &&
          extractOidcIssuer sig leaf == some a.issuer) = false then
        .error (.identityMismatch ((extractSanIdentities leaf).head?.getD "")
          ((extractOidcIssuer sig leaf).getD ""))
      else verifySignature sig (.ecdsaP256 leaf.publicKey) s.payload s.signature >>= fun _ =>
        match policy.rekorPublicKey with
        | some key => verifyRekorBundle sig key s.bundleJson
        | none => .ok () := by
  have hbind : ∀ f : X509Certificate → Except SignatureError Unit,
      (Except.mapError SignatureError.certificateParse (.ok leaf) >>= f) = f leaf := fun _ => rfl
  unfold verifyKeylessSignature
  rw [hparsed, hbind]
  dsimp only
  cases leaf.isValid <;> cases leafChainsToRoot sig leaf policy.fulcioRoots <;>
    cases (policy.identities.any fun a => (extractSanIdentities leaf).contains a.subject &&
      extractOidcIssuer sig leaf == some a.issuer) <;> rfl

/-- EXACT: a candidate passes if its certificate and signature do, and its bundle, when the policy
    has a key for it. -/
theorem verifyKeylessSignature_ok_iff (hcert : s.certificatePem = some certPem)
    (hpayload : sig.payloadJson s.payload = .ok digest.display) :
    verifyKeylessSignature sig policy certPem s = .ok () ↔
      (∃ leaf, Candidate sig policy digest s certPem leaf) ∧
        ∀ key, policy.rekorPublicKey = some key →
          verifyRekorBundle sig key s.bundleJson = .ok () := by
  constructor
  · intro h
    rcases hparsed : sig.parsePem certPem with e | leaf
    · rw [verifyKeylessSignature, hparsed] at h
      cases h
    rw [verifyKeylessSignature_of_parsed hparsed] at h
    split at h
    · cases h
    next hvalid =>
    split at h
    · cases h
    next htrusted =>
    split at h
    · cases h
    next hidentity =>
    obtain ⟨_, hsignature, hrekor⟩ := Loop.bind_eq_ok h
    refine ⟨⟨leaf, hcert, hpayload, hparsed, by simpa using hvalid, by simpa using htrusted,
      Bool.eq_true_of_not_eq_false hidentity, hsignature⟩, fun key hkey => ?_⟩
    simpa only [hkey] using hrekor
  · rintro ⟨⟨leaf, hc⟩, hrekor⟩
    rw [verifyKeylessSignature_of_parsed hc.parsed, if_neg (by simp [hc.valid]),
      if_neg (by simp [hc.trusted]), if_neg (by rw [hc.identity]; simp), hc.signature]
    rcases hkey : policy.rekorPublicKey with _ | key
    · rfl
    · exact hrekor key hkey

/-- EXACT: an accepted candidate, in terms of its certificate, its signature and its bundle. -/
theorem accepted_iff : Accepted sig policy digest s ↔
    (∃ certPem leaf, Candidate sig policy digest s certPem leaf) ∧
      ∀ key, policy.rekorPublicKey = some key →
        verifyRekorBundle sig key s.bundleJson = .ok () := by
  constructor
  · rintro ⟨certPem, hcert, hpayload, hverify⟩
    obtain ⟨hleaf, hrekor⟩ := (verifyKeylessSignature_ok_iff hcert hpayload).mp hverify
    exact ⟨⟨certPem, hleaf⟩, hrekor⟩
  · rintro ⟨⟨certPem, leaf, hc⟩, hrekor⟩
    exact ⟨certPem, hc.certificate, hc.payload,
      (verifyKeylessSignature_ok_iff hc.certificate hc.payload).mpr ⟨⟨leaf, hc⟩, hrekor⟩⟩

theorem reliesOn_cons_iff {rest : List CosignSignature} {t : CosignSignature} :
    ReliesOn sig policy digest (s :: rest) t ↔
      (t = s ∧ Accepted sig policy digest s) ∨
        PassedOver sig policy digest s ∧ ReliesOn sig policy digest rest t := by
  constructor
  · rintro ⟨⟨_ | ⟨b, before⟩, later, hsplit, hpassed⟩, haccepted⟩
    · obtain ⟨rfl, -⟩ := List.cons.inj hsplit
      exact .inl ⟨rfl, haccepted⟩
    · obtain ⟨rfl, rfl⟩ := List.cons.inj hsplit
      obtain ⟨hs, hbefore⟩ := List.forall_mem_cons.mp hpassed
      exact .inr ⟨hs, ⟨before, later, rfl, hbefore⟩, haccepted⟩
  · rintro (⟨rfl, haccepted⟩ | ⟨hs, ⟨before, later, rfl, hbefore⟩, haccepted⟩)
    · exact ⟨⟨[], rest, rfl, by simp⟩, haccepted⟩
    · exact ⟨⟨s :: before, later, rfl, List.forall_mem_cons.mpr ⟨hs, hbefore⟩⟩, haccepted⟩

/-- CASES: a candidate passes and ends the search, is passed over, or ends it with an error. -/
theorem go_cons_cases (lastErr : Option SignatureError) (s : CosignSignature)
    (rest : List CosignSignature) :
    (Accepted sig policy digest s ∧
      verifyKeyless.go sig policy digest lastErr (s :: rest) = .ok ()) ∨
    (¬ Accepted sig policy digest s ∧ PassedOver sig policy digest s ∧
      ∃ lastErr', verifyKeyless.go sig policy digest lastErr (s :: rest) =
        verifyKeyless.go sig policy digest lastErr' rest) ∨
    (¬ Accepted sig policy digest s ∧ ¬ PassedOver sig policy digest s ∧
      ∃ e, verifyKeyless.go sig policy digest lastErr (s :: rest) = .error e) := by
  rw [verifyKeyless.go]
  rcases hcert : s.certificatePem with _ | certPem
  · refine .inr (.inl ⟨?_, fun _ h => (by rw [hcert] at h; cases h), lastErr, rfl⟩)
    rintro ⟨certPem, h, -⟩
    rw [hcert] at h
    cases h
  rcases hpayload : sig.payloadJson s.payload with e | named
  · refine .inr (.inr ⟨?_, fun h => ?_, _, rfl⟩)
    · rintro ⟨_, -, h, -⟩
      rw [hpayload] at h
      cases h
    · obtain ⟨named, hnamed, -⟩ := h certPem hcert
      rw [hpayload] at hnamed
      cases hnamed
  have hbind : ∀ f : String → Except SignatureError Unit,
      (Except.mapError SignatureError.payloadParse (.ok named) >>= f) = f named := fun _ => rfl
  dsimp only
  rw [hbind]
  by_cases hdigest : named = digest.display
  · subst hdigest
    rw [if_neg (not_not.mpr rfl)]
    rcases hverify : verifyKeylessSignature sig policy certPem s with e | _
    · refine .inr (.inl ⟨?_, fun cert hcert' => ?_, some e, rfl⟩)
      · rintro ⟨cert, hcert', -, hok⟩
        grind
      grind
    · exact .inl ⟨⟨certPem, hcert, hpayload, hverify⟩, rfl⟩
  · rw [if_pos hdigest]
    refine .inr (.inl ⟨?_, fun _ _ => ⟨named, hpayload, fun h => absurd h hdigest⟩, lastErr, rfl⟩)
    rintro ⟨_, -, h, -⟩
    rw [hpayload] at h
    exact hdigest (Except.ok.inj h)

/-- EXACT: an image is accepted because of its first candidate that passes. -/
theorem verifyKeyless_ok_iff {signatures : List CosignSignature} :
    verifyKeyless sig policy signatures digest = .ok () ↔
      ∃ s, ReliesOn sig policy digest signatures s := by
  have hgo : ∀ (signatures : List CosignSignature) (lastErr : Option SignatureError),
      verifyKeyless.go sig policy digest lastErr signatures = .ok () ↔
        ∃ s, ReliesOn sig policy digest signatures s := by
    intro signatures
    induction signatures with
    | nil =>
      refine fun lastErr => ⟨fun h => (by cases h), ?_⟩
      rintro ⟨s, ⟨before, later, hsplit, -⟩, -⟩
      simp at hsplit
    | cons s rest ih =>
      intro lastErr
      simp only [reliesOn_cons_iff, exists_or, exists_and_left, exists_eq_left]
      grind [go_cons_cases]
  exact hgo signatures none

end Candidates

/-! ### Bundles of other artifacts -/

theorem bundleEntry_of_valid {key : Bytes} (hideal : log.Ideal sig key) {json : String}
    (h : ValidBundle sig key json) : ∃ entry, bundleEntry sig log json = some entry := by
  obtain ⟨⟨timestamp, payload⟩, hparse, h⟩ := Loop.bind_eq_ok h
  obtain ⟨set, -, h⟩ := Loop.bind_eq_ok h
  have hparsed : sig.bundleJson json = .ok (timestamp, payload) := by
    rcases hjson : sig.bundleJson json with e | found <;> rw [hjson] at hparse <;> cases hparse
    rfl
  have hsigned : sig.ecdsaP256 key (canonicalJson sig payload) set = true := by
    by_contra hnot
    simp [verifySignature, hnot, Except.mapError] at h
  obtain ⟨entry, hentry⟩ := Option.isSome_iff_exists.mp (hideal _ _ hsigned)
  exact ⟨entry, by simp only [bundleEntry, hparsed, hentry]⟩

theorem Candidate.withBundle {policy : KeylessPolicy} {digest : Digest} {s : CosignSignature}
    {certPem : String} {leaf : X509Certificate} (h : Candidate sig policy digest s certPem leaf)
    (json : String) : Candidate sig policy digest { s with bundleJson := some json } certPem leaf :=
  ⟨h.certificate, h.payload, h.parsed, h.valid, h.trusted, h.identity, h.signature⟩

theorem Candidate.reliesOn {policy : KeylessPolicy} {key : Bytes}
    (hkey : policy.rekorPublicKey = some key) {digest : Digest} {s : CosignSignature}
    {certPem : String} {leaf : X509Certificate} (h : Candidate sig policy digest s certPem leaf)
    {json : String} (hvalid : ValidBundle sig key json) :
    ReliesOn sig policy digest [{ s with bundleJson := some json }]
      { s with bundleJson := some json } := by
  refine reliesOn_cons_iff.mpr
    (.inl ⟨rfl, accepted_iff.mpr ⟨⟨certPem, leaf, h.withBundle json⟩, ?_⟩⟩)
  intro key' hkey'
  obtain rfl := Option.some.inj (hkey.symm.trans hkey')
  exact hvalid

variable (sig lib log)

/-- EXACT: with a key of Rekor in the policy, the entry that an accepted image relies on is in the
    log; but a candidate is accepted with every valid bundle, whatever it is for. So the entry is
    the one for the signature, the payload and the certificate of the candidate, for every set of
    signatures, if and only if each valid bundle there is carries the entry for each candidate whose
    certificate and signature pass. -/
theorem keyless_bound_iff (policy : KeylessPolicy) (key : Bytes)
    (hkey : policy.rekorPublicKey = some key) (hideal : log.Ideal sig key) (digest : Digest) :
    (∀ signatures s, ReliesOn sig policy digest signatures s →
      ∃ json entry, s.bundleJson = some json ∧ bundleEntry sig log json = some entry) ∧
    (∀ s certPem leaf json, Candidate sig policy digest s certPem leaf → ValidBundle sig key json →
      verifyKeyless sig policy [{ s with bundleJson := some json }] digest = .ok ()) ∧
    ((∀ signatures s, ReliesOn sig policy digest signatures s → Bound sig lib log s) ↔
      ∀ s certPem leaf json, Candidate sig policy digest s certPem leaf →
        ValidBundle sig key json → bundleEntry sig log json = some (entryFor lib s certPem)) := by
  have hbundle : ∀ {signatures s}, ReliesOn sig policy digest signatures s →
      ∃ json, s.bundleJson = some json ∧ ValidBundle sig key json := by
    intro signatures s h
    have hrekor := (accepted_iff.mp h.accepted).2 key hkey
    rcases hjson : s.bundleJson with _ | json
    · rw [hjson] at hrekor
      cases hrekor
    · rw [hjson] at hrekor
      exact ⟨json, rfl, hrekor⟩
  refine ⟨fun signatures s h => ?_, fun s certPem leaf json hc hvalid => ?_, ?_⟩
  · obtain ⟨json, hjson, hvalid⟩ := hbundle h
    obtain ⟨entry, hentry⟩ := bundleEntry_of_valid hideal hvalid
    exact ⟨json, entry, hjson, hentry⟩
  · exact verifyKeyless_ok_iff.mpr ⟨_, hc.reliesOn hkey hvalid⟩
  · constructor
    · intro hall s certPem leaf json hc hvalid
      obtain ⟨json', certPem', hjson, hcert, hentry⟩ := hall _ _ (hc.reliesOn hkey hvalid)
      obtain rfl := Option.some.inj hjson
      obtain rfl := Option.some.inj (hc.certificate.symm.trans hcert)
      exact hentry
    · intro hall signatures s h
      obtain ⟨json, hjson, hvalid⟩ := hbundle h
      obtain ⟨⟨certPem, leaf, hc⟩, -⟩ := accepted_iff.mp h.accepted
      exact ⟨json, certPem, hjson, hc.certificate, hall s certPem leaf json hc hvalid⟩

/-! ### A bundle that is copied -/

namespace CopiedBundle

def images : ImageLib where
  sha256 data := .replicate 32 (data.headD 0)
  manifestJson _ := .error "not a manifest"
  indexJson _ := .error "not an index"
  host := ⟨"x86_64", "linux", none⟩

def digest : Digest := images.digest [1]

def leaf : X509Certificate where
  subject := ""
  issuer := "fulcio"
  isValid := true
  publicKey := [1]
  extensions := [⟨"2.5.29.17", [], some [.rfc822Name "ci@org"]⟩, ⟨fulcioIssuerOidV1, [], none⟩]

/-- The certificate's key signed the payload `[10]`, and Rekor's key the log entry `[11]`. -/
def signatures : SignatureLib where
  ecdsaP256 key message signature :=
    (key, message, signature) = ([1], [10], [20]) || (key, message, signature) = ([2], [11], [7])
  ed25519 _ _ _ := false
  parsePem _ := .ok leaf
  fromDer _ := some { leaf with subject := "fulcio" }
  certSignedBy _ _ := true
  fromUtf8Lossy _ := "https://issuer"
  payloadJson _ := .ok digest.display
  bundleJson _ := .ok ("Bw==", .str "entry")
  scalarText _ := [11]

def policy : KeylessPolicy := ⟨[[0]], [⟨"ci@org", "https://issuer"⟩], some [2]⟩

/-- The entry is for another signature of another payload. -/
def rekor : RekorLog where
  entries payload := if payload = [11] then some ⟨[99], images.sha256 [98], "other"⟩ else none

def candidate : CosignSignature := ⟨[10], [20], some "pem", some "copied"⟩

theorem rekor_ideal : rekor.Ideal signatures [2] := by
  intro message signature h
  simp only [signatures, Bool.or_eq_true, decide_eq_true_eq, Prod.mk.injEq] at h
  rcases h with ⟨h, -⟩ | ⟨-, rfl, -⟩
  · cases h
  · rfl

theorem bundleEntry_eq (json : String) :
    bundleEntry signatures rekor json = some ⟨[99], images.sha256 [98], "other"⟩ := by
  simp only [bundleEntry, signatures, canonicalJson, rekor, if_true]

end CopiedBundle

open CopiedBundle

/-- The image is accepted, with the log entry of another artifact. -/
theorem copied_bundle_accepted :
    verifyKeyless signatures policy [candidate] digest = .ok () ∧
      ∀ s, ReliesOn signatures policy digest [candidate] s → ¬ Bound signatures images rekor s := by
  refine ⟨by decide +kernel, ?_⟩
  rintro s hrelies ⟨json, certPem, -, -, hentry⟩
  obtain rfl : s = candidate := by
    rcases reliesOn_cons_iff.mp hrelies with ⟨rfl, -⟩ | ⟨-, ⟨before, later, hsplit, -⟩, -⟩
    · rfl
    · simp at hsplit
  rw [bundleEntry_eq] at hentry
  cases hentry

/-- The entry relied on is in the log. -/
theorem copied_bundle_logged :
    policy.rekorPublicKey = some [2] ∧ rekor.Ideal signatures [2] ∧
      ∀ s, ReliesOn signatures policy digest [candidate] s →
        ∃ json entry, s.bundleJson = some json ∧ bundleEntry signatures rekor json = some entry :=
  ⟨rfl, rekor_ideal, (keyless_bound_iff signatures images rekor policy [2] rfl rekor_ideal digest).1
    [candidate]⟩

end Ekafleet.Oci
