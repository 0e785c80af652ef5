import Ekafleet.Oci.Unpack
import Ekafleet.Oci.Verified

/-! Content integrity of the image store | source: agent/oci/{registry,pull,store,unpack}.rs

    Blobs are named by their digests. A blob is stored under the digest of what the registry
    answered, so the store can only hold wrong contents if a write is cut short. -/

namespace Ekafleet.Oci
open Effect

variable {τ : Type} (lib : ImageLib) (sig : SignatureLib) (unp : Unpacker τ) (out : Outside τ)

/-- Every blob hashes to the name it is stored under. -/
def BlobsSound (store : ImageStore τ) : Prop :=
  ∀ hex data, store.blobs.lookup hex = some data → (lib.digest data).hex = hex

/-- A write completes, or leaves nothing behind. -/
def Outside.WritesAtomic : Prop := ∀ n message left, out.writeFault n ≠ some (message, some left)

/-- The bundle of the service is what the stored blobs of the manifest's layers unpack to. -/
structure Unpacked (store : ImageStore τ) (serviceName : String) (manifest : ImageManifest)
    (blobs : List Bytes) (rootfs : τ) : Prop where
  stored : List.Forall₂ (fun layer blob => store.blobs.lookup layer.digest.hex = some blob)
    manifest.layers blobs
  unpacks : unp.unpackBlobs blobs = some rootfs
  bundle : store.bundles.lookup serviceName = some rootfs

/-! ### The blobs -/

/-- Sound blobs stay sound. -/
def KeepsSound (w w' : World τ) : Prop := BlobsSound lib w.store → BlobsSound lib w'.store

instance : Std.Refl (KeepsSound (τ := τ) lib) := ⟨fun _ => id⟩

instance : IsTrans (World τ) (KeepsSound lib) := ⟨fun _ _ _ h h' => h' ∘ h⟩

variable {lib out}

theorem BlobsSound.insert {store : ImageStore τ} (h : BlobsSound lib store) (data : Bytes) :
    BlobsSound lib
      { store with blobs := store.blobs.insert (lib.digest data).hex data } := by
  intro hex found hfound
  by_cases hhex : hex = (lib.digest data).hex
  · subst hhex
    rw [AList.lookup_insert] at hfound
    cases hfound
    rfl
  · rw [AList.lookup_insert_ne hhex] at hfound
    exact h hex found hfound

theorem allows_keepsSound (hwrites : out.WritesAtomic) :
    Allows out lib Set.univ (KeepsSound lib) where
  op _ := id
  verify _ _ := id
  history _ _ _ := id
  manifest _ _ _ _ := id
  bundle _ _ _ _ := id
  blob _ data h := h.insert data
  partialBlob n message left hfault := absurd hfault (hwrites n message left)

/-! ### The root filesystem -/

variable {w w' : World τ} {serviceName : String}

theorem getBlob_ok {digest : Digest} {blob : Bytes} (h : getBlob out digest w = (.ok blob, w')) :
    w.store.blobs.lookup digest.hex = some blob ∧ w' = { w with ops := w.ops + 1 } := by
  obtain ⟨_, _, hread, h⟩ := bind_ok h
  cases hread
  obtain ⟨found, w₁, hfile, h⟩ := bind_ok h
  obtain ⟨rfl, rfl⟩ := readFile_ok out hfile
  rcases hfound : w.store.blobs.lookup digest.hex with _ | data <;> simp only [hfound] at h <;>
    cases h
  exact ⟨rfl, rfl⟩

/-- STEP: a layer that was applied was in the store, and took the root filesystem one layer up. -/
theorem applyLayer_ok {layer : Descriptor} {rootfs : τ}
    (hrootfs : w.store.bundles.lookup serviceName = some rootfs)
    (h : applyLayer out unp serviceName layer w = (.ok ⟨⟩, w')) :
    ∃ blob unpacked, w.store.blobs.lookup layer.digest.hex = some blob ∧
      unp.unpackLayer blob rootfs = (none, unpacked) ∧ w'.store.blobs = w.store.blobs ∧
      w'.store.bundles.lookup serviceName = some unpacked := by
  obtain ⟨r, w₁, hget, h⟩ := bind_ok h
  cases hget
  rcases hblob : getBlob out layer.digest w with ⟨e | blob, w₂⟩
  · simp only [hblob] at h
    cases h
  obtain ⟨hstored, rfl⟩ := getBlob_ok hblob
  simp only [hblob] at h
  obtain ⟨n, w₃, hop, h⟩ := bind_ok h
  cases hop
  obtain ⟨_, _, hread, h⟩ := bind_ok h
  obtain ⟨rfl, rfl⟩ := read_ok hread
  simp only [hrootfs, Option.getD_some] at h
  rcases hfault : out.unpackFault (w.ops + 1) with _ | ⟨e, left⟩ <;> simp only [hfault] at h
  · rcases hunpack : unp.unpackLayer blob rootfs with ⟨_ | e, unpacked⟩ <;>
      simp only [hunpack] at h <;> cases h
    exact ⟨blob, unpacked, hstored, hunpack, rfl, AList.lookup_insert _⟩
  · cases h

/-- RUN: the layers that were applied. -/
theorem applyLayers_ok {serviceName : String} : ∀ {layers : List Descriptor} {rootfs : τ}
    {w w' : World τ}, w.store.bundles.lookup serviceName = some rootfs →
    layers.forM (applyLayer out unp serviceName) w = (.ok ⟨⟩, w') →
    ∃ blobs unpacked,
      List.Forall₂ (fun layer blob => w.store.blobs.lookup layer.digest.hex = some blob)
        layers blobs ∧
      blobs.foldlM unp.addBlob rootfs = some unpacked ∧
      w'.store.blobs = w.store.blobs ∧ w'.store.bundles.lookup serviceName = some unpacked
  | [], rootfs, w, w', hrootfs, h => by
    cases h
    exact ⟨[], rootfs, .nil, rfl, rfl, hrootfs⟩
  | layer :: layers, rootfs, w, w', hrootfs, h => by
    rw [forM_cons_apply] at h
    obtain ⟨_, w₁, hlayer, h⟩ := bind_ok h
    obtain ⟨blob, unpacked, hstored, hunpack, hblobs, hbundle⟩ := applyLayer_ok unp hrootfs hlayer
    obtain ⟨blobs, final, hall, hfold, hblobs', hfinal⟩ := applyLayers_ok hbundle h
    refine ⟨blob :: blobs, final, .cons hstored (hblobs ▸ hall), ?_, hblobs'.trans hblobs, hfinal⟩
    rw [List.foldlM_cons, Unpacker.addBlob, hunpack]
    exact hfold

theorem createRootfs_empty (h : createRootfs out unp serviceName w = (.ok ⟨⟩, w')) :
    w'.store.blobs = w.store.blobs ∧
      w'.store.bundles.lookup serviceName = some unp.emptyDir := by
  obtain ⟨n, w₁, hop, h⟩ := bind_ok h
  cases hop
  rcases hfault : out.createFault w.ops with _ | message <;> simp only [hfault] at h <;> cases h
  exact ⟨rfl, AList.lookup_insert _⟩

variable {manifest : ImageManifest} {res : PullResult}

theorem unpackImage_unpacked (h : unpackImage out unp serviceName manifest w = (.ok ⟨⟩, w')) :
    ∃ blobs rootfs, Unpacked unp w'.store serviceName manifest blobs rootfs := by
  obtain ⟨_, w₁, hremove, h⟩ := bind_ok h
  obtain ⟨_, w₂, hcreate, h⟩ := bind_ok h
  obtain ⟨-, hempty⟩ := createRootfs_empty unp hcreate
  obtain ⟨blobs, rootfs, hall, hfold, hblobs, hbundle⟩ := applyLayers_ok unp hempty h
  exact ⟨blobs, rootfs, hblobs ▸ hall, hfold, hbundle⟩

theorem doPull_unpacked {image : ImageReference} {key : String} {policy : Option SignaturePolicy}
    (h : doPull lib sig unp out image serviceName key policy w = (.ok res, w')) :
    ∃ raw manifest blobs rootfs, res.digest = lib.digest raw ∧ lib.manifestJson raw = .ok manifest ∧
      (∀ d, image.digest = some d → ListedUnder lib d raw) ∧
      Unpacked unp w'.store serviceName manifest blobs rootfs := by
  obtain ⟨⟨manifest, raw, digest⟩, w₁, hresolve, h⟩ := bind_ok h
  obtain ⟨_, w₂, -, h⟩ := bind_ok h
  obtain ⟨_, w₃, -, h⟩ := bind_ok h
  obtain ⟨_, w₄, -, h⟩ := bind_ok h
  obtain ⟨_, w₅, -, h⟩ := bind_ok h
  obtain ⟨_, w₆, -, h⟩ := bind_ok h
  obtain ⟨_, w₇, hunpack, h⟩ := bind_ok h
  cases h
  obtain ⟨hdigest, hparsed, hlisted⟩ := resolveManifest_ok lib out hresolve
  obtain ⟨blobs, rootfs, hunpacked⟩ := unpackImage_unpacked unp hunpack
  exact ⟨raw, manifest, blobs, rootfs, hdigest, hparsed, hlisted, hunpacked⟩

theorem Unpacked.hashes {store : ImageStore τ} {blobs : List Bytes} {rootfs : τ}
    (h : Unpacked unp store serviceName manifest blobs rootfs) (hsound : BlobsSound lib store) :
    List.Forall₂ (fun layer blob => lib.digest blob = layer.digest) manifest.layers blobs := by
  refine h.stored.imp fun layer blob hblob => ?_
  have hhex := hsound _ _ hblob
  generalize lib.digest blob = digest at hhex
  cases digest
  cases hhex
  rfl

/-! ### Sequences of pulls -/

/-- The arguments of `do_pull`. -/
structure DoPull where
  image : ImageReference
  serviceName : String
  manifestKey : String
  signaturePolicy : Option SignaturePolicy
  deriving DecidableEq, Repr

variable (lib out)

def DoPull.run (p : DoPull) : Pull τ PullResult :=
  doPull lib sig unp out p.image p.serviceName p.manifestKey p.signaturePolicy

/-- The world after a sequence of pulls, some of which may have failed. -/
def afterPulls (w : World τ) (pulls : List DoPull) : World τ :=
  pulls.foldl (fun w p => (p.run lib sig unp out w).2) w

variable {lib out}

theorem blobsSound_afterPulls (hwrites : out.WritesAtomic) (hw : BlobsSound lib w.store)
    (pulls : List DoPull) :
    BlobsSound lib (afterPulls lib sig unp out w pulls).store :=
  List.foldlRecOn (motive := fun w => BlobsSound lib w.store) _ _ hw fun w hw p _ =>
    within_doPull sig unp (allows_keepsSound hwrites) (Set.mem_univ _) (Set.mem_univ _) p.image
      p.signaturePolicy w hw

variable (lib out)

/-- Whatever the registries answer: after every sequence of pulls whose writes complete or leave
    nothing behind, every blob hashes to its name; and if a pull of a pinned reference returns, what
    was unpacked for the service is a manifest that hashes to the pinned digest, or is listed by
    digest in an index that does, and its layers are blobs that hash to the digests it lists. -/
theorem pulls_keep_integrity (hwrites : out.WritesAtomic) (w : World τ)
    (hw : BlobsSound lib w.store) (pulls : List DoPull) :
    BlobsSound lib (afterPulls lib sig unp out w pulls).store ∧
      ∀ (p : DoPull) (d : Digest) (res : PullResult), p.image.digest = some d →
        (p.run lib sig unp out (afterPulls lib sig unp out w pulls)).1 = .ok res →
        ∃ raw manifest blobs rootfs, res.digest = lib.digest raw ∧ ListedUnder lib d raw ∧
          lib.manifestJson raw = .ok manifest ∧
          Unpacked unp (afterPulls lib sig unp out w (pulls ++ [p])).store p.serviceName manifest
            blobs rootfs ∧
          List.Forall₂ (fun layer blob => lib.digest blob = layer.digest)
            manifest.layers blobs := by
  have hsound := blobsSound_afterPulls sig unp hwrites hw
  refine ⟨hsound pulls, fun p d res hd hres => ?_⟩
  have hafter : afterPulls lib sig unp out w (pulls ++ [p]) =
      (p.run lib sig unp out (afterPulls lib sig unp out w pulls)).2 := by
    rw [afterPulls, List.foldl_append]
    rfl
  obtain ⟨raw, manifest, blobs, rootfs, hdigest, hparsed, hlisted, hunpacked⟩ :=
    doPull_unpacked sig unp (Prod.ext hres hafter.symm)
  exact ⟨raw, manifest, blobs, rootfs, hdigest, hlisted d hd, hparsed, hunpacked,
    hunpacked.hashes unp (hsound (pulls ++ [p]))⟩

/-! ### Complete root filesystems -/

variable {lib out}

theorem pullNever_unpacked {key : String}
    (h : pullNever lib unp out serviceName key w = (.ok res, w'))
    (hnone : w.store.bundles.lookup serviceName = none) :
    ∃ raw manifest blobs rootfs, res.digest = lib.digest raw ∧ lib.manifestJson raw = .ok manifest ∧
      Unpacked unp w'.store serviceName manifest blobs rootfs := by
  obtain ⟨found, w₁, hget, h⟩ := bind_ok h
  obtain ⟨rfl, rfl⟩ := getManifest_ok out hget
  cases hm : w.store.manifests.lookup key with
  | none => simp only [hm] at h; cases h
  | some raw =>
    simp only [hm] at h
    obtain ⟨manifest, w₂, hparse, h⟩ := bind_ok h
    obtain ⟨has, w₃, hhas, h⟩ := bind_ok h
    obtain ⟨hparsed, rfl⟩ := lift_ok hparse
    cases hhas
    simp only [hnone, Option.isSome_none, Bool.false_eq_true, if_false] at h
    obtain ⟨_, w₄, hunpack, h⟩ := bind_ok h
    cases h
    obtain ⟨blobs, rootfs, hunpacked⟩ := unpackImage_unpacked unp hunpack
    exact ⟨raw, manifest, blobs, rootfs, rfl, hparsed, hunpacked⟩

theorem pullImage_unpacked {c : Call} (h : pullImage lib sig unp out c w = (.ok res, w'))
    (hfresh : fromStore lib out c w = true → w.store.bundles.lookup c.serviceName = none) :
    ∃ raw manifest blobs rootfs, res.digest = lib.digest raw ∧ lib.manifestJson raw = .ok manifest ∧
      Unpacked unp w'.store c.serviceName manifest blobs rootfs := by
  have hpull {w₁ : World τ} (h : doPull lib sig unp out c.image c.serviceName
      (manifestCacheKey c.image) c.signaturePolicy w₁ = (.ok res, w')) :
      ∃ raw manifest blobs rootfs, res.digest = lib.digest raw ∧
        lib.manifestJson raw = .ok manifest ∧
        Unpacked unp w'.store c.serviceName manifest blobs rootfs := by
    grind [doPull_unpacked]
  rcases hc : c.policy with _ | _ | _ <;> simp only [pullImage, hc] at h
  case never => exact pullNever_unpacked unp h (hfresh (by simp [fromStore, hc]))
  case ifNotPresent =>
    obtain ⟨cached, w₁, hcached, h⟩ := bind_ok h
    obtain ⟨hsome, -⟩ := cachedIfPresent_ok lib out hc hcached
    cases cached with
    | none => exact hpull h
    | some r =>
      have hnone := hfresh hsome.symm
      simp [fromStore, hc, hnone] at hsome
  case always =>
    obtain ⟨cached, w₁, hcached, h⟩ := bind_ok h
    obtain ⟨hsome, -⟩ := cachedIfCurrent_ok lib out hc hcached
    cases cached with
    | none => exact hpull h
    | some r =>
      have hnone := hfresh hsome.symm
      simp only [fromStore, hc, hnone, Option.isSome_none, Bool.and_false] at hsome
      split at hsome <;> cases hsome

section Complete
variable (lib out) (fs : FsLib τ)

/-- The root filesystem is the complete unpacking of a manifest with this digest. -/
def IsUnpacking (digest : Digest) (rootfs : τ) : Prop :=
  ∃ raw manifest blobs, lib.digest raw = digest ∧ lib.manifestJson raw = .ok manifest ∧
    List.Forall₂ (fun layer blob => lib.digest blob = layer.digest) manifest.layers blobs ∧
    fs.Contents blobs rootfs

/-- The service has a root filesystem that is complete for the digest. -/
def Complete (store : ImageStore τ) (serviceName : String) (digest : Digest) : Prop :=
  ∃ rootfs, store.bundles.lookup serviceName = some rootfs ∧ IsUnpacking lib fs digest rootfs

/-- If the store answers the call with the bundle it has for the service, the last call that wrote
    the bundle returned, with the digest of the manifest that the store has for the image. -/
def BundleWritten (c : Call) (a : Agent τ) : Prop :=
  fromStore lib out c a.world = true → ∀ raw rootfs,
    a.store.manifests.lookup (manifestCacheKey c.image) = some raw →
    a.store.bundles.lookup c.serviceName = some rootfs →
    ∃ r before res, lastWrite (.bundle c.serviceName) a.history = r :: before ∧
      r.result = .ok res ∧ res.digest = lib.digest raw

variable {lib out fs} {a : Agent τ} {c : Call} {res : PullResult}

/-- STEP: a call that is not answered with the bundle that is there leaves a complete one. -/
theorem complete_of_fresh (hsound : BlobsSound lib (a.afterPull lib sig fs.unpacker out c).store)
    (hres : (a.pullRecord lib sig fs.unpacker out c).result = .ok res)
    (hfresh : fromStore lib out c a.world = true → a.store.bundles.lookup c.serviceName = none) :
    Complete lib fs (a.afterPull lib sig fs.unpacker out c).store c.serviceName res.digest := by
  obtain ⟨raw, manifest, blobs, rootfs, hdigest, hparsed, hunpacked⟩ :=
    pullImage_unpacked sig fs.unpacker (Prod.ext hres rfl) hfresh
  exact ⟨rootfs, hunpacked.bundle, raw, manifest, blobs, hdigest.symm, hparsed,
    hunpacked.hashes fs.unpacker hsound, FsLib.contents_of_unpackBlobs hunpacked.unpacks⟩

/-- STEP: a call that is answered with the bundle that is there leaves it so. -/
theorem bundle_of_served (hres : (a.pullRecord lib sig fs.unpacker out c).result = .ok res)
    (hfrom : fromStore lib out c a.world = true) {rootfs : τ}
    (hbundle : a.store.bundles.lookup c.serviceName = some rootfs) :
    (∃ raw, a.store.manifests.lookup (manifestCacheKey c.image) = some raw ∧
      res.digest = lib.digest raw) ∧
    (a.afterPull lib sig fs.unpacker out c).store.bundles.lookup c.serviceName = some rootfs := by
  rcases pullRecord_cases lib sig fs.unpacker out hres with ⟨-, hstore⟩ | ⟨hreg, -⟩
  · refine ⟨hstore.manifest, ?_⟩
    rcases hstore.touches.bundles c.serviceName with hsame | ⟨⟨-, hnone⟩, -⟩
    · exact hsame.trans hbundle
    · have hsome : a.world.store.bundles.lookup c.serviceName = some rootfs := hbundle
      rw [hnone] at hsome
      cases hsome
  · rw [hfrom] at hreg
    cases hreg

/-! ### Who wrote the bundle -/

variable (lib fs) in
/-- INVARIANT: a bundle whose last writer returned is complete for the digest that it returned. -/
def BundleInv (a : Agent τ) : Prop :=
  ∀ service r before res rootfs, lastWrite (.bundle service) a.history = r :: before →
    r.result = .ok res → a.store.bundles.lookup service = some rootfs →
    IsUnpacking lib fs res.digest rootfs

theorem bundleInv_pull (hsound : BlobsSound lib (a.afterPull lib sig fs.unpacker out c).store)
    (hinv : BundleInv lib fs a) : BundleInv lib fs (step lib sig fs.unpacker out a (.pull c)) := by
  have htouch : Touches _ a.world (a.afterPull lib sig fs.unpacker out c) :=
    touches_pullImage lib sig fs.unpacker out c a.world
  intro service r before res rootfs
    (hlast : lastWrite _ (a.pullRecord lib sig fs.unpacker out c :: a.history) = _) hres
    (hbundle : (a.afterPull lib sig fs.unpacker out c).store.bundles.lookup service = some rootfs)
  by_cases hw : .bundle service ∈ (a.pullRecord lib sig fs.unpacker out c).written
  · rw [lastWrite_cons_of_mem hw] at hlast
    cases hlast
    obtain rfl : service = c.serviceName := by
      rcases htouch.written _ hw with h | h | h <;> cases h
      rfl
    -- the writer was not answered with the bundle that was there before
    have hfresh : fromStore lib out c a.world = true →
        a.store.bundles.lookup c.serviceName = none := by
      intro hfrom
      rcases pullRecord_cases lib sig fs.unpacker out hres with ⟨-, hstore⟩ | ⟨hreg, -⟩
      · by_contra hsome
        obtain ⟨rootfs', hbundle'⟩ := Option.ne_none_iff_exists'.mp hsome
        exact absurd hw (hstore.bundle_not_mem lib sig fs.unpacker out (by simp [hbundle']))
      · rw [hfrom] at hreg
        cases hreg
    obtain ⟨rootfs', hbundle', hunpacking⟩ := complete_of_fresh sig hsound hres hfresh
    obtain rfl := Option.some.inj (hbundle.symm.trans hbundle')
    exact hunpacking
  · rw [lastWrite_cons_of_not_mem hw] at hlast
    have hsame := (htouch.bundles service).resolve_right fun h => hw h.2
    exact hinv service r before res rootfs hlast hres (hsame ▸ hbundle)

variable (lib fs) in
/-- RUN: over the life of an agent, writes that complete or leave nothing behind keep the blobs
    sound and the bundles of calls that returned complete. -/
theorem bundleInv_after (hwrites : out.WritesAtomic) (events : List Event) :
    BlobsSound lib (after lib sig fs.unpacker out events).store ∧
      BundleInv lib fs (after lib sig fs.unpacker out events) := by
  induction events using List.reverseRecOn with
  | nil =>
    refine ⟨?_, ?_⟩
    · rintro _ _ ⟨⟩
    · rintro _ _ _ _ _ ⟨⟩
  | append_singleton events e ih =>
    obtain ⟨hsound, hinv⟩ := ih
    rw [after_concat]
    cases e with
    | pull c =>
      have hafter := within_pullImage (c := c) sig fs.unpacker (allows_keepsSound hwrites)
        (Set.mem_univ _) (Set.mem_univ _) (after lib sig fs.unpacker out events).world hsound
      exact ⟨hafter, bundleInv_pull sig hafter hinv⟩
    | other bundles blobs ops =>
      refine ⟨fun hex data hdata => hsound hex data (HashMap.lookup_of_foldl_erase hdata), ?_⟩
      intro service r before res rootfs hlast hres hbundle
      exact hinv service r before res rootfs hlast hres (HashMap.lookup_of_foldl_erase hbundle)

variable (lib out fs)

/-- The calls of a run that return. -/
structure Returns (events pre : List Event) (c : Call) (res : PullResult) : Prop where
  mem : pre ++ [.pull c] <+: events
  result : ((after lib sig fs.unpacker out pre).pullImage lib sig fs.unpacker out c).1 = .ok res

/-- Whenever a call returns a digest, the root filesystem of its service is complete for it. -/
def AllComplete (events : List Event) : Prop :=
  ∀ pre c res, Returns lib sig out fs events pre c res →
    Complete lib fs (after lib sig fs.unpacker out (pre ++ [.pull c])).store c.serviceName
      res.digest

end Complete

/-! ### Two images for one service -/

namespace TwoImages

/-- A hash that repeats the first byte. The manifest `[1]` has the layers `[11]` and `[12]`, the
    manifest `[2]` the layer `[21]`. -/
def images : ImageLib where
  sha256 data := .replicate 32 (data.headD 0)
  manifestJson data :=
    let blob (b : UInt8) : Descriptor :=
      ⟨.ofHash (.replicate 32 b), none, none⟩
    if data = [1] then .ok ⟨blob 7, [blob 11, blob 12]⟩
    else if data = [2] then .ok ⟨blob 7, [blob 21]⟩
    else .error "not a manifest"
  indexJson _ := .error "not an index"
  host := ⟨"x86_64", "linux", none⟩

/-- A root filesystem: its files, by their paths. -/
abbrev Files := List (List Component × Bytes)

/-- A file of an archive. -/
def entry (dir name : String) (data : Bytes) : TarEntry :=
  ⟨[.normal dir, .normal name], dir ++ "/" ++ name, data⟩

/-- The entries of the layers. The upper one of the first image removes a file of the lower one. -/
def layerEntries (data : Bytes) : List TarEntry :=
  if images.digest data = images.digest [11] then [entry "bin" "app" [11], entry "etc" "conf" [1]]
  else if images.digest data = images.digest [12] then
    [entry "etc" ".wh.conf" [], entry "etc" "hosts" [12]]
  else [entry "bin" "app" [21]]

/-- Remove what is at the path or below it. -/
def remove (path : List Component) (files : Files) : Option String × Files :=
  (none, files.filter fun file => ¬ path.isPrefixOf file.1)

/-- A file system in which no operation fails. -/
def filesLib : FsLib Files where
  emptyDir := []
  entries data := (layerEntries data).map .ok
  present path files := files.any fun file => path.isPrefixOf file.1
  isDir path files := files.any fun file => path.isPrefixOf file.1 && path.length < file.1.length
  readDir dir files := .ok <| (files.filterMap fun file =>
    if dir.isPrefixOf file.1 then (file.1.drop dir.length).head? else none).dedup.map .ok
  removeDirAll := remove
  removeFile := remove
  unpackIn e files := (none, files.filter (fun file => file.1 ≠ e.path) ++ [(e.path, e.data)])

abbrev unpacker : Unpacker Files := filesLib.unpacker

def first : ImageReference := ⟨"ghcr.io", "org/app", some "v1", none⟩
def second : ImageReference := ⟨"ghcr.io", "org/app", some "v2", none⟩
def pinned : ImageReference := ⟨"ghcr.io", "org/app", none, some (images.digest [1])⟩

def body (req : Request) : Option Bytes :=
  if req.url = first.manifestRequest.url ∨ req.url = pinned.manifestRequest.url then some [1]
  else if req.url = second.manifestRequest.url then some [2]
  else [[7], [11], [12], [21]].find? fun data =>
    req.url = (first.blobRequest (images.digest data)).url

/-- The files of the lower layer of the first image. -/
def lower : Files :=
  [([.normal "bin", .normal "app"], [11]), ([.normal "etc", .normal "conf"], [1])]

/-- The files of the first image. -/
def firstFiles : Files :=
  [([.normal "bin", .normal "app"], [11]), ([.normal "etc", .normal "hosts"], [12])]

/-- The files of the second image. -/
def secondFiles : Files := [([.normal "bin", .normal "app"], [21])]

/-- The registry has both images. Unpacking fails in operation `n`, if it gets that far. -/
def registry (n : Option ℕ) : Outside Files where
  http _ _ req := match body req with
    | some data => .ok ⟨mediaTypeManifest, data⟩
    | none => .error (.notFound req.url)
  head _ := .ok ⟨404, none⟩
  readFault _ := none
  writeFault _ := none
  removeFault _ := none
  createFault _ := none
  unpackFault m := if some m = n then some (.tar "disk full", lower) else none

def pull (image : ImageReference) (policy : PullPolicy) : Event :=
  .pull ⟨image, "web", policy, none⟩

def run (n : Option ℕ) (events : List Event) : Agent Files :=
  after images Unsigned.signatures unpacker (registry n) events

theorem writesAtomic (n : Option ℕ) : (registry n).WritesAtomic := by
  intro _ _ _ h
  cases h

/-- An empty store. -/
def fresh : World Files where
  store := {}
  ops := 0

def byDigest : DoPull := ⟨pinned, "web", "key", none⟩

def afterSecond : World Files :=
  afterPulls images Unsigned.signatures unpacker (registry none) fresh
    [⟨second, "web", "other", none⟩]

theorem blobsSound_fresh : BlobsSound images fresh.store := by
  intro _ _ h
  cases h

/-- Only one root filesystem is the unpacking of the first image. -/
theorem files_of_isUnpacking {rootfs : Files}
    (h : IsUnpacking images filesLib (images.digest [1]) rootfs) : rootfs = firstFiles := by
  obtain ⟨raw, manifest, blobs, hraw, hparsed, hall, layers, hlayers, happlied⟩ := h
  simp only [images] at hparsed
  split_ifs at hparsed with hfirst hsecond
  · cases hparsed
    obtain _ | ⟨hlow, _ | ⟨hhigh, _ | _⟩⟩ := hall
    obtain _ | ⟨hlow', _ | ⟨hhigh', _ | _⟩⟩ := hlayers
    -- the hashes determine the entries
    have hentries {data : Bytes} {l : List TarEntry}
        (hdata : (layerEntries data).map (Except.ok (ε := String)) = l.map .ok) :
        l = layerEntries data :=
      (List.map_injective_iff.mpr (fun _ _ => Except.ok.inj) hdata).symm
    have hlower : layerEntries _ = _ := if_pos (show _ = images.digest [11] from hlow)
    have hupper : layerEntries _ = _ :=
      (if_neg (by rw [hhigh]; decide +kernel)).trans
        (if_pos (show _ = images.digest [12] from hhigh))
    rw [hentries hlow', hentries hhigh', hlower, hupper] at happlied
    exact (congrArg Prod.snd happlied).symm.trans (by decide +kernel)
  · subst hsecond
    exact absurd hraw (by decide +kernel)

/-- The first image is returned, but its files are not there. -/
theorem not_allComplete (n : Option ℕ) (pre : List Event) (c : Call) (rootfs : Files)
    (hres : ((run n pre).pullImage images Unsigned.signatures unpacker (registry n) c).1 =
      .ok ⟨images.digest [1], "web", false⟩)
    (hstored : (run n (pre ++ [.pull c])).store.bundles.lookup c.serviceName = some rootfs)
    (hne : rootfs ≠ firstFiles) :
    ¬ AllComplete images Unsigned.signatures (registry n) filesLib (pre ++ [.pull c]) := by
  intro hall
  obtain ⟨rootfs', hbundle, hunpacking⟩ := hall pre c _ ⟨List.prefix_refl _, hres⟩
  obtain rfl := Option.some.inj (hstored.symm.trans hbundle)
  exact hne (files_of_isUnpacking hunpacking)

theorem bundleWritten_of_head {n : Option ℕ} {pre : List Event} {c : Call} (cached : Bytes)
    (res : PullResult)
    (hcached : (run n pre).store.manifests.lookup (manifestCacheKey c.image) = some cached)
    (hlast : (lastWrite (.bundle c.serviceName) (run n pre).history).head?.map (·.result) =
      some (.ok res))
    (hdigest : res.digest = images.digest cached) :
    BundleWritten images (registry n) c (run n pre) := by
  intro _ raw _ hraw _
  obtain rfl := Option.some.inj (hcached.symm.trans hraw)
  obtain ⟨r, hhead, hresult⟩ := Option.map_eq_some_iff.mp hlast
  obtain ⟨before, hcons⟩ := List.head?_eq_some_iff.mp hhead
  exact ⟨r, before, res, hcons, hresult, hdigest⟩

end TwoImages

open TwoImages

/-- After a pull of the second image, a pull by digest unpacks the manifest with that digest. -/
theorem pinned_pull_listed :
    (registry none).WritesAtomic ∧ BlobsSound images fresh.store ∧
      ∃ raw, ListedUnder images (images.digest [1]) raw ∧
        (byDigest.run images Unsigned.signatures unpacker (registry none) afterSecond).1 =
          .ok ⟨images.digest raw, "web", true⟩ := by
  refine ⟨writesAtomic none, blobsSound_fresh, ?_⟩
  obtain ⟨-, hpulls⟩ := pulls_keep_integrity images Unsigned.signatures unpacker (registry none)
    (writesAtomic none) fresh blobsSound_fresh [⟨second, "web", "other", none⟩]
  have hrun : (byDigest.run images Unsigned.signatures unpacker (registry none) afterSecond).1 =
      .ok ⟨images.digest [1], "web", true⟩ := by decide +kernel
  obtain ⟨raw, -, -, -, hdigest, hlisted, -⟩ := hpulls byDigest _ _ rfl hrun
  have hraw : images.digest [1] = images.digest raw := hdigest
  exact ⟨raw, hlisted, hraw ▸ hrun⟩

end Ekafleet.Oci
