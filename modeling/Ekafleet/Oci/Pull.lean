import Ekafleet.Oci.Store

/-! Image pulls | source: agent/oci/{pull,mod}.rs

    `pullImage` decides between the local store and the registry, `doPull` fetches, verifies, stores
    and unpacks. `ImageManager.pull` chooses the signature policy and, when a fleet-wide policy is
    only advisory, pulls again without one. -/

namespace Ekafleet.Oci
open Effect

/-- When the registry is asked. -/
inductive PullPolicy where | always | ifNotPresent | never
  deriving DecidableEq, Repr

/-- What a pull returns. -/
structure PullResult where
  digest : Digest
  /-- The service whose root filesystem is returned. -/
  rootfs : String
  pulled : Bool
  deriving DecidableEq, Repr

/-- The arguments of `pull_image`. -/
structure Call where
  image : ImageReference
  serviceName : String
  policy : PullPolicy
  signaturePolicy : Option SignaturePolicy
  deriving DecidableEq, Repr

/-- The name a manifest is cached under. -/
def manifestCacheKey (image : ImageReference) : String :=
  match image.digest with
  | some d => d.hex
  | none =>
    let tag := image.tag.getD "latest"
    let name := s!"{image.registry}_{image.repository}__{tag}"
    String.ofList (name.toList.map fun c => if c = '/' ∨ c = ':' then '_' else c)

variable {τ : Type} (lib : ImageLib) (sig : SignatureLib) (unp : Unpacker τ) (out : Outside τ)

def fetchManifestOp (image : ImageReference) : Pull τ ManifestResponse := do
  let n ← nextOp
  lift .registry (fetchManifest lib (out.http n 0) image)

def fetchBlobOp (image : ImageReference) (digest : Digest) : Pull τ (Digest × Bytes) := do
  let n ← nextOp
  lift .registry (fetchBlob lib (out.http n 0) image digest)

/-- The manifest of the image for this host, resolving an index. -/
def resolveManifest (image : ImageReference) : Pull τ (ImageManifest × Bytes × Digest) := do
  let resp ← fetchManifestOp lib out image
  match resp.kind with
  | .manifest m => return (m, resp.raw, resp.digest)
  | .index idx => match idx.selectPlatform lib.host with
    | none => fail .noPlatformMatch
    | some desc => do
      let resp ← fetchManifestOp lib out { image with digest := some desc.digest, tag := none }
      match resp.kind with
      | .manifest m => return (m, resp.raw, resp.digest)
      | .index _ => fail (.manifestParse "nested image index not supported")

/-- Verify the signature if a policy asks for it, and record the digest that passed. -/
def checkSignature (image : ImageReference) (digest : Digest) :
    Option SignaturePolicy → Pull τ Unit
  | none => return ()
  | some policy => do
    let n ← nextOp
    lift .signature (verifyImageSignature sig lib (out.http n) image digest policy)
    update fun w => { w with verified := digest :: w.verified }

/-- Save the manifest that is about to be replaced, for rollback. -/
def savePrevious (serviceName manifestKey : String) (digest : Digest) : Pull τ Unit := do
  match ← attempt (getManifest out manifestKey) with
  | .ok (some previous) =>
    if lib.digest previous ≠ digest then putHistory out serviceName previous else return ()
  | _ => return ()

/-- Download a blob unless it is in the store. -/
def downloadBlob (image : ImageReference) (blob : Descriptor) : Pull τ PUnit := do
  if ← hasBlob blob.digest then return ⟨⟩
  else do
    let (digest, data) ← fetchBlobOp lib out image blob.digest
    putBlob out digest data

/-- Pull an image from its registry. -/
def doPull (image : ImageReference) (serviceName manifestKey : String)
    (signaturePolicy : Option SignaturePolicy) : Pull τ PullResult := do
  let (manifest, raw, digest) ← resolveManifest lib out image
  checkSignature lib sig out image digest signaturePolicy
  savePrevious lib out serviceName manifestKey digest
  putManifest out manifestKey raw
  manifest.layers.forM (downloadBlob lib out image)
  downloadBlob lib out image manifest.config
  unpackImage out unp serviceName manifest
  return ⟨digest, serviceName, true⟩

def headManifestOp : Pull τ (Except RegistryError (Option Digest)) := do
  let n ← nextOp
  return headManifest (out.head n)

/-- `PullPolicy::Never`: the image must be in the store; a missing bundle is unpacked again. -/
def pullNever (serviceName manifestKey : String) : Pull τ PullResult := do
  match ← getManifest out manifestKey with
  | none => fail .notFoundLocally
  | some raw =>
    let manifest ← lift .manifestParse (lib.manifestJson raw)
    if ← hasBundle serviceName then return ⟨lib.digest raw, serviceName, false⟩
    else do
      unpackImage out unp serviceName manifest
      return ⟨lib.digest raw, serviceName, false⟩

/-- `PullPolicy::IfNotPresent`, up to the actual pull. -/
def cachedIfPresent (serviceName manifestKey : String) : Pull τ (Option PullResult) := do
  match ← getManifest out manifestKey with
  | none => return none
  | some raw =>
    if ← hasBundle serviceName then return some ⟨lib.digest raw, serviceName, false⟩
    else return none

/-- `PullPolicy::Always`, up to the actual pull: the registry's digest must match. -/
def cachedIfCurrent (serviceName manifestKey : String) : Pull τ (Option PullResult) := do
  match ← getManifest out manifestKey with
  | none => return none
  | some raw =>
    let remote ← headManifestOp out
    let has ← hasBundle serviceName
    if remote = .ok (some (lib.digest raw)) ∧ has = true then
      return some ⟨lib.digest raw, serviceName, false⟩
    else return none

/-- `pull_image`. -/
def pullImage (c : Call) : Pull τ PullResult := do
  let manifestKey := manifestCacheKey c.image
  match c.policy with
  | .never => pullNever lib unp out c.serviceName manifestKey
  | .ifNotPresent => do
    match ← cachedIfPresent lib out c.serviceName manifestKey with
    | some result => return result
    | none => doPull lib sig unp out c.image c.serviceName manifestKey c.signaturePolicy
  | .always => do
    match ← cachedIfCurrent lib out c.serviceName manifestKey with
    | some result => return result
    | none => doPull lib sig unp out c.image c.serviceName manifestKey c.signaturePolicy

/-! ### What a pull changes -/

section Within
variable {lib out} {F : Set StoreFile} {R : World τ → World τ → Prop}
variable [Std.Refl R] [IsTrans (World τ) R] (h : Allows out lib F R)
include h

theorem within_fetchManifestOp (image : ImageReference) :
    Within R (fetchManifestOp lib out image) :=
  (within_nextOp h).bind fun _ => within_lift _ _

theorem within_resolveManifest (image : ImageReference) :
    Within R (resolveManifest lib out image) := by
  refine (within_fetchManifestOp h image).bind fun resp => ?_
  cases resp.kind with
  | manifest m => exact within_pure _
  | index idx =>
    dsimp only
    cases idx.selectPlatform lib.host with
    | none => exact within_fail _
    | some desc =>
      refine (within_fetchManifestOp h _).bind fun resp => ?_
      cases resp.kind with
      | manifest m => exact within_pure _
      | index _ => exact within_fail _

theorem within_checkSignature (image : ImageReference) (digest : Digest) :
    ∀ policy, Within R (checkSignature lib sig out image digest policy)
  | none => within_pure _
  | some _ => (within_nextOp h).bind fun _ => (within_lift _ _).bind fun _ =>
      within_update fun w => h.verify w digest

theorem within_savePrevious (serviceName key : String) (digest : Digest) :
    Within R (savePrevious lib out serviceName key digest) := by
  refine (within_getManifest h key).attempt.bind fun r => ?_
  split
  · split
    · exact within_putHistory h _ _
    · exact within_pure _
  · exact within_pure _

theorem within_downloadBlob (image : ImageReference) (blob : Descriptor) :
    Within R (downloadBlob lib out image blob) := by
  refine (within_read _).bind fun has => ?_
  split
  · exact within_pure _
  · intro w
    rw [bind_apply, fetchBlobOp, bind_apply]
    rcases hfetch : fetchBlob lib (out.http w.ops 0) image blob.digest with e | ⟨digest, data⟩
    · simp only [nextOp, hfetch, lift, fail]
      exact h.op w
    · obtain ⟨rfl, -⟩ := fetchBlob_ok lib hfetch
      simp only [nextOp, hfetch, lift, pure_apply]
      exact trans_of R (h.op w) (within_putBlob h data _)

theorem within_doPull {serviceName key : String} (hm : .manifest key ∈ F)
    (hb : .bundle serviceName ∈ F) (image : ImageReference) (policy : Option SignaturePolicy) :
    Within R (doPull lib sig unp out image serviceName key policy) :=
  (within_resolveManifest h image).bind fun _ =>
    (within_checkSignature sig h image _ policy).bind fun _ =>
    (within_savePrevious h serviceName key _).bind fun _ =>
    (within_putManifest h hm _).bind fun _ =>
    (within_forM (within_downloadBlob h image) _).bind fun _ =>
    (within_downloadBlob h image _).bind fun _ =>
    (within_unpackImage h unp hb _).bind fun _ => within_pure _

theorem within_pullNever {serviceName : String} (hb : .bundle serviceName ∈ F) (key : String) :
    Within R (pullNever lib unp out serviceName key) := by
  refine (within_getManifest h key).bind fun found => ?_
  cases found with
  | none => exact within_fail _
  | some raw =>
    refine (within_lift _ _).bind fun manifest => (within_read _).bind fun has => ?_
    split
    · exact within_pure _
    · exact (within_unpackImage h unp hb manifest).bind fun _ => within_pure _

theorem within_cachedIfPresent (serviceName key : String) :
    Within R (cachedIfPresent lib out serviceName key) := by
  refine (within_getManifest h key).bind fun found => ?_
  cases found with
  | none => exact within_pure _
  | some raw =>
    refine (within_read _).bind fun has => ?_
    split <;> exact within_pure _

theorem within_cachedIfCurrent (serviceName key : String) :
    Within R (cachedIfCurrent lib out serviceName key) := by
  refine (within_getManifest h key).bind fun found => ?_
  cases found with
  | none => exact within_pure _
  | some raw =>
    refine ((within_nextOp h).bind fun _ => within_pure _).bind fun remote =>
      (within_read _).bind fun has => ?_
    split <;> exact within_pure _

theorem within_pullImage {c : Call} (hm : .manifest (manifestCacheKey c.image) ∈ F)
    (hb : .bundle c.serviceName ∈ F) : Within R (pullImage lib sig unp out c) := by
  have hpull := within_doPull sig unp h hm hb c.image c.signaturePolicy
  rcases hc : c.policy with _ | _ | _ <;> simp only [pullImage, hc]
  case never => exact within_pullNever unp h hb _
  case ifNotPresent =>
    refine (within_cachedIfPresent h _ _).bind fun cached => ?_
    cases cached with
    | some r => exact within_pure _
    | none => exact hpull
  case always =>
    refine (within_cachedIfCurrent h _ _).bind fun cached => ?_
    cases cached with
    | some r => exact within_pure _
    | none => exact hpull

end Within

theorem touches_pullImage (c : Call) :
    Within (Touches {.manifest (manifestCacheKey c.image), .bundle c.serviceName})
      (pullImage lib sig unp out c) :=
  within_pullImage sig unp (Touches.allows out lib _) (.inl rfl) (.inr rfl)

/-! ### What a returned result says -/

/-- The manifest hashes to the digest, or is listed by its digest in an image index that does. -/
def ListedUnder (d : Digest) (raw : Bytes) : Prop :=
  lib.digest raw = d ∨ ∃ index idx desc, lib.digest index = d ∧ lib.indexJson index = .ok idx ∧
    desc ∈ idx.manifests ∧ desc.digest = lib.digest raw

variable {w w' : World τ} {c : Call}

theorem resolveManifest_ok {image : ImageReference} {manifest : ImageManifest} {raw : Bytes}
    {digest : Digest} (h : resolveManifest lib out image w = (.ok (manifest, raw, digest), w')) :
    digest = lib.digest raw ∧ lib.manifestJson raw = .ok manifest ∧
      ∀ d, image.digest = some d → ListedUnder lib d raw := by
  have hfetch {image : ImageReference} {resp : ManifestResponse} {w w' : World τ}
      (h : fetchManifestOp lib out image w = (.ok resp, w')) : resp.Genuine lib image := by
    obtain ⟨n, _, -, h⟩ := bind_ok h
    exact fetchManifest_ok lib (lift_ok h).1
  obtain ⟨resp, w₁, hresp, h⟩ := bind_ok h
  have hgenuine := hfetch hresp
  cases hk : resp.kind with
  | manifest m =>
    simp only [hk] at h
    cases h
    exact ⟨hgenuine.digest, hgenuine.manifest _ hk, fun d hd =>
      .inl (hgenuine.digest.symm.trans (hgenuine.pinned d hd))⟩
  | index idx =>
    simp only [hk] at h
    cases hp : idx.selectPlatform lib.host with
    | none => simp only [hp] at h; cases h
    | some desc =>
      simp only [hp] at h
      obtain ⟨resp', w₂, hresp', h⟩ := bind_ok h
      have hgenuine' := hfetch hresp'
      cases hk' : resp'.kind with
      | manifest m =>
        simp only [hk'] at h
        cases h
        refine ⟨hgenuine'.digest, hgenuine'.manifest _ hk', fun d hd => .inr
          ⟨resp.raw, idx, desc, ?_, hgenuine.index _ hk, List.mem_of_find?_eq_some hp, ?_⟩⟩
        · exact hgenuine.digest.symm.trans (hgenuine.pinned d hd)
        · exact (hgenuine'.pinned _ rfl).symm.trans hgenuine'.digest
      | index _ => simp only [hk'] at h; cases h

theorem checkSignature_ok {image : ImageReference} {digest : Digest} {policy : SignaturePolicy}
    (h : checkSignature lib sig out image digest (some policy) w = (.ok (), w')) :
    (∃ n, verifyImageSignature sig lib (out.http n) image digest policy = .ok ()) ∧
      digest ∈ w'.verified := by
  obtain ⟨n, w₁, -, h⟩ := bind_ok h
  obtain ⟨_, w₂, hverify, h⟩ := bind_ok h
  cases h
  exact ⟨⟨n, (lift_ok hverify).1⟩, List.mem_cons_self⟩

/-- A result that came from the registry: stored, unpacked and verified by this very call. -/
structure FromRegistry (c : Call) (res : PullResult) (w' : World τ) : Prop where
  manifest : ∃ raw, w'.store.manifests.lookup (manifestCacheKey c.image) = some raw ∧
    res.digest = lib.digest raw
  verified : ∀ policy, c.signaturePolicy = some policy → res.digest ∈ w'.verified ∧
    ∃ n, verifyImageSignature sig lib (out.http n) c.image res.digest policy = .ok ()
  wroteManifest : .manifest (manifestCacheKey c.image) ∈ w'.written
  wroteBundle : .bundle c.serviceName ∈ w'.written

theorem doPull_ok {res : PullResult}
    (h : doPull lib sig unp out c.image c.serviceName (manifestCacheKey c.image)
      c.signaturePolicy w = (.ok res, w')) : FromRegistry lib sig out c res w' := by
  obtain ⟨⟨manifest, raw, digest⟩, w₁, hresolve, h⟩ := bind_ok h
  obtain ⟨_, w₂, hcheck, h⟩ := bind_ok h
  obtain ⟨_, w₃, hprev, h⟩ := bind_ok h
  obtain ⟨_, w₄, hput, h⟩ := bind_ok h
  obtain ⟨_, w₅, hlayers, h⟩ := bind_ok h
  obtain ⟨_, w₆, hconfig, h⟩ := bind_ok h
  obtain ⟨_, w₇, hunpack, h⟩ := bind_ok h
  cases h
  -- after the manifest is stored, only the bundle is touched
  have hbundle := Touches.allows out lib {.bundle c.serviceName}
  have hrest : Touches {.bundle c.serviceName} w₄ w' :=
    trans_of _ ((within_forM (within_downloadBlob hbundle c.image) _).of_eq hlayers)
      (trans_of _ ((within_downloadBlob hbundle c.image _).of_eq hconfig)
        ((within_unpackImage hbundle unp (Set.mem_singleton _) _).of_eq hunpack))
  have hprev' : Touches Set.univ w₂ w₄ :=
    trans_of _ ((within_savePrevious (Touches.allows out lib _) _ _ _).of_eq hprev)
      ((within_putManifest (Touches.allows out lib _) (Set.mem_univ _) _).of_eq hput)
  obtain ⟨hstored, hwritten⟩ := putManifest_ok out hput
  refine ⟨⟨raw, ?_, (resolveManifest_ok lib out hresolve).1⟩, fun policy hp => ?_,
    hrest.recorded hwritten, unpackImage_ok out lib unp hunpack⟩
  · rcases hrest.manifests (manifestCacheKey c.image) with hsame | ⟨hmem, -⟩
    · rw [hsame, hstored]
    · cases hmem
  · rw [hp] at hcheck
    obtain ⟨hverify, hmem⟩ := checkSignature_ok lib sig out hcheck
    exact ⟨hrest.verified (hprev'.verified hmem), hverify⟩

/-- Is the call answered from the local store? -/
def fromStore (c : Call) (w : World τ) : Bool :=
  let bundle := (w.store.bundles.lookup c.serviceName).isSome
  match c.policy with
  | .never => true
  | .ifNotPresent => (w.store.manifests.lookup (manifestCacheKey c.image)).isSome && bundle
  | .always => match w.store.manifests.lookup (manifestCacheKey c.image) with
    | none => false
    | some raw => headManifest (out.head (w.ops + 1)) = .ok (some (lib.digest raw)) && bundle

/-- A result that came from the store: its digest is that of the stored manifest, and nothing but
    a missing bundle was written. -/
structure FromStore (c : Call) (res : PullResult) (w w' : World τ) : Prop where
  manifest : ∃ raw, w.store.manifests.lookup (manifestCacheKey c.image) = some raw ∧
    res.digest = lib.digest raw
  touches : Touches {f | f = .bundle c.serviceName ∧ w.store.bundles.lookup c.serviceName = none}
    w w'
  wroteBundle : w.store.bundles.lookup c.serviceName = none → .bundle c.serviceName ∈ w'.written

theorem pullNever_ok {res : PullResult}
    (h : pullNever lib unp out c.serviceName (manifestCacheKey c.image) w = (.ok res, w')) :
    FromStore lib c res w w' := by
  obtain ⟨found, w₁, hget, hrest⟩ := bind_ok h
  obtain ⟨rfl, rfl⟩ := getManifest_ok out hget
  cases hm : w.store.manifests.lookup (manifestCacheKey c.image) with
  | none => simp only [hm] at hrest; cases hrest
  | some raw =>
    simp only [hm] at hrest
    obtain ⟨manifest, w₂, hparse, hbundle⟩ := bind_ok hrest
    obtain ⟨has, w₃, hhas, hend⟩ := bind_ok hbundle
    obtain ⟨-, rfl⟩ := lift_ok hparse
    obtain ⟨rfl, rfl⟩ := read_ok hhas
    cases hb : w.store.bundles.lookup c.serviceName with
    | some rootfs =>
      simp only [hb, Option.isSome_some, if_true] at hend
      cases hend
      exact ⟨⟨raw, hm, rfl⟩, .of_same rfl rfl rfl (List.Subset.refl _), by simp [hb]⟩
    | none =>
      simp only [hb, Option.isSome_none, Bool.false_eq_true, if_false] at hend
      obtain ⟨_, w₄, hunpack, hpure⟩ := bind_ok hend
      cases hpure
      refine ⟨⟨raw, hm, rfl⟩, ?_, fun _ => unpackImage_ok out lib unp hunpack⟩
      have hF : StoreFile.bundle c.serviceName ∈
        {f | f = .bundle c.serviceName ∧ w.store.bundles.lookup c.serviceName = none} := ⟨rfl, hb⟩
      exact trans_of _ (.of_same rfl rfl rfl (List.Subset.refl _))
        ((within_unpackImage (Touches.allows out lib _) unp hF manifest).of_eq hunpack)

theorem cachedIfPresent_ok {res : Option PullResult} (hc : c.policy = .ifNotPresent)
    (h : cachedIfPresent lib out c.serviceName (manifestCacheKey c.image) w = (.ok res, w')) :
    res.isSome = fromStore lib out c w ∧ ∀ r ∈ res, FromStore lib c r w w' := by
  obtain ⟨found, w₁, hget, hrest⟩ := bind_ok h
  obtain ⟨rfl, rfl⟩ := getManifest_ok out hget
  cases hm : w.store.manifests.lookup (manifestCacheKey c.image) with
  | none => simp only [hm] at hrest; cases hrest; simp [fromStore, hc, hm]
  | some raw =>
    simp only [hm] at hrest
    obtain ⟨has, w₂, hhas, hend⟩ := bind_ok hrest
    obtain ⟨rfl, rfl⟩ := read_ok hhas
    cases hb : w.store.bundles.lookup c.serviceName with
    | none =>
      simp only [hb, Option.isSome_none, Bool.false_eq_true, if_false] at hend
      cases hend
      simp [fromStore, hc, hm, hb]
    | some rootfs =>
      simp only [hb, Option.isSome_some, if_true] at hend
      cases hend
      refine ⟨by simp [fromStore, hc, hm, hb], ?_⟩
      rintro r ⟨⟩
      exact ⟨⟨raw, hm, rfl⟩, .of_same rfl rfl rfl (List.Subset.refl _), by simp [hb]⟩

theorem cachedIfCurrent_ok {res : Option PullResult} (hc : c.policy = .always)
    (h : cachedIfCurrent lib out c.serviceName (manifestCacheKey c.image) w = (.ok res, w')) :
    res.isSome = fromStore lib out c w ∧ ∀ r ∈ res, FromStore lib c r w w' := by
  obtain ⟨found, w₁, hget, hrest⟩ := bind_ok h
  obtain ⟨rfl, rfl⟩ := getManifest_ok out hget
  cases hm : w.store.manifests.lookup (manifestCacheKey c.image) with
  | none => simp only [hm] at hrest; cases hrest; simp [fromStore, hc, hm]
  | some raw =>
    simp only [hm] at hrest
    obtain ⟨remote, w₂, hremote, hbundle⟩ := bind_ok hrest
    cases hremote
    obtain ⟨has, w₃, hhas, hend⟩ := bind_ok hbundle
    obtain ⟨rfl, rfl⟩ := read_ok hhas
    dsimp only at hend
    split_ifs at hend with hcur <;> cases hend
    · refine ⟨by simp [fromStore, hc, hm, hcur], ?_⟩
      rintro r ⟨⟩
      refine ⟨⟨raw, hm, rfl⟩, .of_same rfl rfl rfl (List.Subset.refl _), fun hb => ?_⟩
      simp [hb] at hcur
    · refine ⟨?_, by simp⟩
      simp only [fromStore, hc, hm]
      simpa using hcur

/-- EXACT: where the result of a pull came from. -/
theorem pullImage_ok {res : PullResult} (h : pullImage lib sig unp out c w = (.ok res, w')) :
    fromStore lib out c w = true ∧ FromStore lib c res w w' ∨
      fromStore lib out c w = false ∧ FromRegistry lib sig out c res w' := by
  rcases hc : c.policy with _ | _ | _ <;> simp only [pullImage, hc] at h
  case never => exact .inl ⟨by simp [fromStore, hc], pullNever_ok lib unp out h⟩
  case ifNotPresent =>
    obtain ⟨cached, w₁, hcached, hrest⟩ := bind_ok h
    obtain ⟨hsome, hfrom⟩ := cachedIfPresent_ok lib out hc hcached
    cases cached with
    | some r => cases hrest; exact .inl ⟨hsome.symm, hfrom res rfl⟩
    | none => exact .inr ⟨hsome.symm, doPull_ok lib sig unp out hrest⟩
  case always =>
    obtain ⟨cached, w₁, hcached, hrest⟩ := bind_ok h
    obtain ⟨hsome, hfrom⟩ := cachedIfCurrent_ok lib out hc hcached
    cases cached with
    | some r => cases hrest; exact .inl ⟨hsome.symm, hfrom res rfl⟩
    | none => exact .inr ⟨hsome.symm, doPull_ok lib sig unp out hrest⟩

end Ekafleet.Oci
