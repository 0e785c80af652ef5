import Ekafleet.Oci.Manager

/-! Signature verification of cached images | source: agent/oci/pull.rs

    A signature check is made only when an image comes from the registry. A result from the local
    store is therefore as good as the pulls that wrote its manifest and its bundle. -/

namespace Ekafleet.Oci

variable {τ : Type} (lib : ImageLib) (sig : SignatureLib) (unp : Unpacker τ) (out : Outside τ)

/-- In the pull `r`, the signature of `digest` was verified under `policy`. -/
def VerifiedBy (policy : SignaturePolicy) (digest : Digest) (r : Record) : Prop :=
  r.call.signaturePolicy = some policy ∧ digest ∈ r.verified ∧
    ∃ n, verifyImageSignature sig lib (out.http n) r.call.image digest policy = .ok ()

def Verified (policy : SignaturePolicy) (digest : Digest) (history : List Record) : Prop :=
  ∃ r ∈ history, VerifiedBy lib sig out policy digest r

/-- The history up to the last pull that wrote `f`; that pull comes first. -/
def lastWrite (f : StoreFile) (history : List Record) : List Record :=
  history.dropWhile fun r => f ∉ r.written

/-- The newest pull was made under the policy, returned, and what it returned was verified. -/
def Trusted (policy : SignaturePolicy) : List Record → Prop
  | [] => False
  | r :: before => r.call.signaturePolicy = some policy ∧
      ∃ res, r.result = .ok res ∧ Verified lib sig out policy res.digest (r :: before)

/-- The newest pull was made under the policy and returned. -/
def Completed (policy : SignaturePolicy) : List Record → Prop
  | [] => False
  | r :: _ => r.call.signaturePolicy = some policy ∧ ∃ res, r.result = .ok res

/-- The result of a pull is verified, and neither its manifest nor its bundle was written by an
    unverified or failed pull. -/
structure Sound (policy : SignaturePolicy) (c : Call) (res : PullResult) (history : List Record) :
    Prop where
  verified : Verified lib sig out policy res.digest history
  manifest : Trusted lib sig out policy
    (lastWrite (.manifest (manifestCacheKey c.image)) history)
  bundle : Trusted lib sig out policy (lastWrite (.bundle c.serviceName) history)

/-- If the store answers the call, the manifest and the bundle it has for the call were last
    written by completed pulls under the policy. -/
def CacheTrusted (policy : SignaturePolicy) (c : Call) (a : Agent τ) : Prop :=
  fromStore lib out c a.world = true →
    Completed policy (lastWrite (.manifest (manifestCacheKey c.image)) a.history) ∧
      (a.store.bundles.lookup c.serviceName ≠ none →
        Completed policy (lastWrite (.bundle c.serviceName) a.history))

/-! ### Histories -/

theorem lastWrite_cons_of_mem {f : StoreFile} {r : Record} (h : f ∈ r.written)
    (history : List Record) : lastWrite f (r :: history) = r :: history :=
  List.dropWhile_cons_of_neg (by simpa using h)

theorem lastWrite_cons_of_not_mem {f : StoreFile} {r : Record} (h : f ∉ r.written)
    (history : List Record) : lastWrite f (r :: history) = lastWrite f history :=
  List.dropWhile_cons_of_pos (by simpa using h)

theorem lastWrite_suffix (f : StoreFile) (history : List Record) :
    lastWrite f history <:+ history := List.dropWhile_suffix _

variable {lib sig out}

theorem Verified.mono {policy : SignaturePolicy} {digest : Digest} {h h' : List Record}
    (hv : Verified lib sig out policy digest h) (hs : h <:+ h') :
    Verified lib sig out policy digest h' := by
  obtain ⟨r, hr, hv⟩ := hv
  exact ⟨r, hs.subset hr, hv⟩

theorem Trusted.completed {policy : SignaturePolicy} :
    ∀ {h : List Record}, Trusted lib sig out policy h → Completed policy h
  | _ :: _, ⟨hp, res, hres, _⟩ => ⟨hp, res, hres⟩

variable (lib sig out)

/-- Every returned pull under a policy was verified by then. -/
def AllVerified (history : List Record) : Prop :=
  ∀ r before, r :: before <:+ history → ∀ policy res, r.call.signaturePolicy = some policy →
    r.result = .ok res → Verified lib sig out policy res.digest (r :: before)

theorem trusted_of_completed {policy : SignaturePolicy} {history : List Record}
    (hall : AllVerified lib sig out history) {f : StoreFile}
    (h : Completed policy (lastWrite f history)) :
    Trusted lib sig out policy (lastWrite f history) := by
  have hs := lastWrite_suffix f history
  cases hw : lastWrite f history with
  | nil => rw [hw] at h; exact h
  | cons r before =>
    rw [hw] at h hs
    obtain ⟨hp, res, hres⟩ := h
    exact ⟨hp, res, hres, hall r before hs policy res hp hres⟩

/-! ### The manifest cache -/

/-- INVARIANT: a manifest whose last writer returned is the one that the writer returned and,
    under a policy, verified. -/
def CacheInv (a : Agent τ) : Prop :=
  ∀ key r before, lastWrite (.manifest key) a.history = r :: before → ∀ res, r.result = .ok res →
    (∃ raw, a.store.manifests.lookup key = some raw ∧ res.digest = lib.digest raw) ∧
      ∀ policy, r.call.signaturePolicy = some policy →
        VerifiedBy lib sig out policy res.digest r

section Step
variable {a : Agent τ} {c : Call} {res : PullResult}

theorem pullRecord_cases (h : (a.pullRecord lib sig unp out c).result = .ok res) :
    fromStore lib out c a.world = true ∧
        FromStore lib c res a.world (a.afterPull lib sig unp out c) ∨
      fromStore lib out c a.world = false ∧
        FromRegistry lib sig out c res (a.afterPull lib sig unp out c) :=
  pullImage_ok lib sig unp out (Prod.ext h rfl)

theorem FromStore.manifest_not_mem (h : FromStore lib c res a.world (a.afterPull lib sig unp out c))
    (key : String) :
    .manifest key ∉ (a.pullRecord lib sig unp out c).written := by
  intro hmem
  rcases h.touches.written _ hmem with hmem | ⟨hmem, -⟩ <;> cases hmem

theorem FromStore.bundle_not_mem (h : FromStore lib c res a.world (a.afterPull lib sig unp out c))
    (hb : a.store.bundles.lookup c.serviceName ≠ none) :
    .bundle c.serviceName ∉ (a.pullRecord lib sig unp out c).written := by
  intro hmem
  rcases h.touches.written _ hmem with hmem | ⟨-, hnone⟩
  · cases hmem
  · exact hb hnone

variable {policy : SignaturePolicy}

theorem FromRegistry.verifiedBy (h : FromRegistry lib sig out c res (a.afterPull lib sig unp out c))
    (hp : c.signaturePolicy = some policy) :
    VerifiedBy lib sig out policy res.digest (a.pullRecord lib sig unp out c) :=
  ⟨hp, h.verified policy hp⟩

theorem cacheInv_pull (hinv : CacheInv lib sig out a) (c : Call) :
    CacheInv lib sig out (step lib sig unp out a (.pull c)) := by
  have htouch : Touches _ a.world (a.afterPull lib sig unp out c) :=
    touches_pullImage lib sig unp out c a.world
  intro key r before (hlast : lastWrite _ (a.pullRecord lib sig unp out c :: a.history) = _)
    res hres
  by_cases hw : .manifest key ∈ (a.pullRecord lib sig unp out c).written
  · rw [lastWrite_cons_of_mem hw] at hlast
    cases hlast
    rcases pullRecord_cases lib sig unp out hres with ⟨-, hstore⟩ | ⟨-, hreg⟩
    · exact absurd hw (hstore.manifest_not_mem lib sig unp out key)
    · obtain rfl : key = manifestCacheKey c.image := by
        rcases htouch.written _ hw with h | h | h <;> cases h
        rfl
      exact ⟨hreg.manifest, fun policy hp => hreg.verifiedBy lib sig unp out hp⟩
  · rw [lastWrite_cons_of_not_mem hw] at hlast
    obtain ⟨hm, hv⟩ := hinv key r before hlast res hres
    refine ⟨?_, hv⟩
    rwa [show (step lib sig unp out a (.pull c)).store.manifests.lookup key =
      a.store.manifests.lookup key from (htouch.manifests key).resolve_right fun h => hw h.2]

theorem verified_of_completed (hinv : CacheInv lib sig out a)
    (hstore : FromStore lib c res a.world (a.afterPull lib sig unp out c))
    (h : Completed policy (lastWrite (.manifest (manifestCacheKey c.image)) a.history)) :
    Verified lib sig out policy res.digest a.history := by
  have hs := lastWrite_suffix (.manifest (manifestCacheKey c.image)) a.history
  cases hw : lastWrite (.manifest (manifestCacheKey c.image)) a.history with
  | nil => rw [hw] at h; exact h.elim
  | cons r before =>
    rw [hw] at h hs
    obtain ⟨hp, res', hres'⟩ := h
    obtain ⟨⟨raw, hraw, hdigest⟩, hv⟩ := hinv _ r before hw res' hres'
    obtain ⟨raw', hraw', hdigest'⟩ := hstore.manifest
    obtain rfl : raw = raw' := Option.some.inj (hraw.symm.trans hraw')
    exact ⟨r, hs.subset List.mem_cons_self, by rw [hdigest', ← hdigest]; exact hv policy hp⟩

/-- STEP: a call for which the cache is trusted gives a sound result. -/
theorem sound_of_cacheTrusted (hinv : CacheInv lib sig out a)
    (hall : AllVerified lib sig out a.history) (hp : c.signaturePolicy = some policy)
    (hres : (a.pullRecord lib sig unp out c).result = .ok res)
    (hcache : CacheTrusted lib out policy c a) :
    Sound lib sig out policy c res (a.pullRecord lib sig unp out c :: a.history) := by
  rcases pullRecord_cases lib sig unp out hres with ⟨hfrom, hstore⟩ | ⟨-, hreg⟩
  · obtain ⟨hmanifest, hbundle⟩ := hcache hfrom
    have hver := (verified_of_completed lib sig unp out hinv hstore hmanifest).mono
      (List.suffix_cons (a.pullRecord lib sig unp out c) a.history)
    refine ⟨hver, ?_, ?_⟩
    · rw [lastWrite_cons_of_not_mem (hstore.manifest_not_mem lib sig unp out _)]
      exact trusted_of_completed lib sig out hall hmanifest
    by_cases hb : a.store.bundles.lookup c.serviceName = none
    · rw [lastWrite_cons_of_mem (hstore.wroteBundle hb)]
      exact ⟨hp, res, hres, hver⟩
    · rw [lastWrite_cons_of_not_mem (hstore.bundle_not_mem lib sig unp out hb)]
      exact trusted_of_completed lib sig out hall (hbundle hb)
  · have hver : Verified lib sig out policy res.digest
        (a.pullRecord lib sig unp out c :: a.history) :=
      ⟨_, List.mem_cons_self, hreg.verifiedBy lib sig unp out hp⟩
    have htrusted : Trusted lib sig out policy (a.pullRecord lib sig unp out c :: a.history) :=
      ⟨hp, res, hres, hver⟩
    exact ⟨hver, by rwa [lastWrite_cons_of_mem hreg.wroteManifest],
      by rwa [lastWrite_cons_of_mem hreg.wroteBundle]⟩

/-- STEP, conversely: a sound result shows that the cache could be trusted. -/
theorem cacheTrusted_of_sound (hres : (a.pullRecord lib sig unp out c).result = .ok res)
    (h : Sound lib sig out policy c res (a.pullRecord lib sig unp out c :: a.history)) :
    CacheTrusted lib out policy c a := by
  intro hfrom
  rcases pullRecord_cases lib sig unp out hres with ⟨-, hstore⟩ | ⟨hreg, -⟩
  · have hm := h.manifest
    rw [lastWrite_cons_of_not_mem (hstore.manifest_not_mem lib sig unp out _)] at hm
    refine ⟨hm.completed, fun hb => ?_⟩
    have hbundle := h.bundle
    rw [lastWrite_cons_of_not_mem (hstore.bundle_not_mem lib sig unp out hb)] at hbundle
    exact hbundle.completed
  · rw [hfrom] at hreg
    cases hreg

end Step

/-! ### Runs -/

theorem cacheInv_after (events : List Event) :
    CacheInv lib sig out (after lib sig unp out events) := by
  induction events using List.reverseRecOn with
  | nil => intro key r before h; cases h
  | append_singleton events e ih =>
    rw [after_concat]
    cases e with
    | pull c => exact cacheInv_pull lib sig unp out ih c
    | other => exact ih

/-- The calls of a run that are made under a policy and return. -/
structure Returned (events : List Event) (pre : List Event) (c : Call) (policy : SignaturePolicy)
    (res : PullResult) : Prop where
  mem : pre ++ [.pull c] <+: events
  policy : c.signaturePolicy = some policy
  result : ((after lib sig unp out pre).pullImage lib sig unp out c).1 = .ok res

/-- RUN: while the cache can be trusted, every returned pull is verified. -/
theorem allVerified_after {events : List Event}
    (h : ∀ pre c policy res, Returned lib sig unp out events pre c policy res →
      CacheTrusted lib out policy c (after lib sig unp out pre)) :
    ∀ pre, pre <+: events → AllVerified lib sig out (after lib sig unp out pre).history := by
  intro pre
  induction pre using List.reverseRecOn with
  | nil =>
    rintro - r before ⟨pre, hpre⟩
    cases pre <;> cases hpre
  | append_singleton pre e ih =>
    intro hpre
    have hall := ih ((List.prefix_append pre [e]).trans hpre)
    rw [after_concat]
    cases e with
    | other => exact hall
    | pull c =>
      intro r before hsuffix policy res hp hres
      rcases List.suffix_cons_iff.mp hsuffix with heq | hold
      · cases heq
        exact (sound_of_cacheTrusted lib sig unp out (cacheInv_after lib sig unp out pre) hall hp
          hres (h pre c policy res ⟨hpre, hp, hres⟩)).verified
      · exact hall r before hold policy res hp hres

/-- EXACT: over the whole life of an agent, every result under a signature policy is verified and
    rests on completed pulls under that policy, if and only if this is true of the manifest and the
    bundle in the store each time the store answers. -/
theorem pulls_sound_iff (events : List Event) :
    (∀ pre c policy res, Returned lib sig unp out events pre c policy res →
      Sound lib sig out policy c res
        ((after lib sig unp out pre).pullImage lib sig unp out c).2.history) ↔
    ∀ pre c policy res, Returned lib sig unp out events pre c policy res →
      CacheTrusted lib out policy c (after lib sig unp out pre) := by
  constructor
  · intro h pre c policy res hr
    exact cacheTrusted_of_sound lib sig unp out hr.result (h pre c policy res hr)
  · intro h pre c policy res hr
    have hall := allVerified_after lib sig unp out h pre
      ((List.prefix_append pre [.pull c]).trans hr.mem)
    exact sound_of_cacheTrusted lib sig unp out (cacheInv_after lib sig unp out pre) hall hr.policy
      hr.result (h pre c policy res hr)

/-! ### An unsigned image under a policy -/

namespace Unsigned

/-- A hash that repeats the first byte; every manifest has no layers and the config blob `[2]`. -/
def images : ImageLib where
  sha256 data := .replicate 32 (data.headD 0)
  manifestJson _ := .ok ⟨⟨.ofHash ⟨List.replicate 32 2, rfl⟩, none, none⟩, []⟩
  indexJson _ := .error "not an index"
  host := ⟨"x86_64", "linux", none⟩

/-- No signature verifies. -/
def signatures : SignatureLib where
  ecdsaP256 _ _ _ := false
  ed25519 _ _ _ := false
  parsePem _ := .error "not a certificate"
  fromDer _ := none
  certSignedBy _ _ := false
  fromUtf8Lossy _ := ""
  payloadJson _ := .error "not a payload"
  bundleJson _ := .error "not a bundle"
  scalarText _ := []

def image : ImageReference := ⟨"ghcr.io", "org/app", some "v1", none⟩

def unpacker : Unpacker Unit := ⟨(), fun _ _ => (none, ())⟩

/-- The registry serves the manifest `[1]` and the blob `[2]`; there is no signature layer. -/
def registry : Outside Unit where
  http _ _ req := match req.accept with
    | some _ => .ok ⟨mediaTypeManifest, [1]⟩
    | none => .ok ⟨"application/octet-stream", [2]⟩
  head _ := .ok ⟨200, some (.ok (images.digest [1]).display)⟩
  readFault _ := none
  writeFault _ := none
  removeFault _ := none
  createFault _ := none

def policy : SignaturePolicy := .key (.ed25519 [])

/-- The agent after a pull without a signature policy. -/
def agent : Agent Unit :=
  after images signatures unpacker registry [.pull ⟨image, "web", .ifNotPresent, none⟩]

/-- A later pull under a signature policy. -/
def repull (p : PullPolicy) : Except PullError PullResult × Agent Unit :=
  agent.pullImage images signatures unpacker registry ⟨image, "web", p, some policy⟩

end Unsigned

open Unsigned in
/-- Once an unsigned image is in the store, every pull policy returns it under a signature policy,
    although no signature was ever verified. -/
theorem unsigned_image_returned :
    (∀ p : PullPolicy, (repull p).1 = .ok ⟨images.digest [1], "web", false⟩) ∧
      ∀ p : PullPolicy,
        ¬ Verified images signatures registry policy (images.digest [1]) (repull p).2.history := by
  refine ⟨fun p => by cases p <;> decide +kernel, fun p => ?_⟩
  have hnone : ∀ r ∈ (repull p).2.history, r.verified = [] := by
    cases p <;> decide +kernel
  rintro ⟨r, hr, -, hmem, -⟩
  rw [hnone r hr] at hmem
  cases hmem

end Ekafleet.Oci
