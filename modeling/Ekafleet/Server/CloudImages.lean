import Ekafleet.Config
import Ekafleet.Lib.Effect
import Ekafleet.Lib.Text
import Ekafleet.Raft.State

/-! Machine images | source: server/cloud/image.rs, server/cloud/image_tracker.rs, server/api.rs

    An image is stored once for each provider, region and system, under the pool that built it
    first; a pool with the same system uses it too. Cleanup goes by pool: it spares what the pool
    that built an image still uses. -/

namespace Ekafleet.Server
open Raft (StateMachineInner applyNext)
open Effect

/-- An image registered at a provider. -/
structure RegisteredImage where
  imageId : String
  name : String
  storePathHash : String
  storePath : String
  createdAt : ℕ
  lastUsedAt : ℕ
  provider : String
  region : String
  pool : String
  fleetName : String
  storageUri : Option String
  deriving DecidableEq, Repr

/-! ### The tracker -/

def imageKeyStart : String := "cloud-image/"

def imageKey (provider region storePathHash : String) : String :=
  imageKeyStart ++ s!"{provider}/{region}/{storePathHash}"

def RegisteredImage.key (image : RegisteredImage) : String :=
  imageKey image.provider image.region image.storePathHash

/-- The images in the key-value store, each under its own key. -/
structure ImageTracker where
  images : HashMap String RegisteredImage
  keyed : ∀ k image, images.lookup k = some image → k = image.key

namespace ImageTracker

def empty : ImageTracker where
  images := ∅
  keyed := by
    intro k image h
    cases h

def get (t : ImageTracker) (provider region storePathHash : String) : Option RegisteredImage :=
  t.images.lookup (imageKey provider region storePathHash)

def put (t : ImageTracker) (image : RegisteredImage) : ImageTracker where
  images := t.images.insert image.key image
  keyed := by
    intro k i h
    by_cases hk : k = image.key
    · subst hk
      rw [AList.lookup_insert] at h
      cases h
      rfl
    · rw [AList.lookup_insert_ne hk] at h
      exact t.keyed k i h

def delete (t : ImageTracker) (provider region storePathHash : String) : ImageTracker where
  images := t.images.erase (imageKey provider region storePathHash)
  keyed := by
    intro k i h
    by_cases hk : k = imageKey provider region storePathHash
    · rw [hk, AList.lookup_erase] at h
      cases h
    · rw [AList.lookup_erase_ne hk] at h
      exact t.keyed k i h

def listAll (t : ImageTracker) : List RegisteredImage := HashMap.values t.images

def listForPool (t : ImageTracker) (fleetName pool : String) : List RegisteredImage :=
  t.listAll.filter fun i => i.fleetName = fleetName ∧ i.pool = pool

end ImageTracker

/-! ### Images for pools -/

def providerName : CloudProviderType → String
  | .aws => "aws"
  | .azure => "azure"
  | .gcp => "gcp"

def defaultDiskImageAttr : CloudProviderType → String
  | .aws => "amazonImage"
  | .azure => "azureImage"
  | .gcp => "gceImage"

/-- The hash in `/nix/store/<hash>-<name>`. -/
def extractStorePathHash (storePath : String) : Option String := do
  let basename ← Text.stripPrefix "/nix/store/" storePath
  let hash := (Text.splitFirst '-' basename).1
  if hash.utf8ByteSize = 32 then some hash else none

/-- What a cycle meets: the clock (seconds), the results of Nix builds for a pool, one after the
    other, and what the providers answer. -/
structure ImageCycle where
  now : ℕ
  registeredAt : (pool : String) → ℕ
  build : (pool : String) → (call : ℕ) → (attr : String) → Except String String
  registerImage : (pool path name storePathHash : String) → Except String (String × String)
  /-- Whether the provider deletes an image when a pool asks for it. -/
  deleteImage : (pool : String) → RegisteredImage → Bool

variable (w : ImageCycle)

def toplevelAttr (image : CloudImageConfig) : String :=
  s!"{image.nixosConfig}.config.system.build.toplevel"

/-- The image for the current system of a pool, which is built and registered if there is none. -/
def ensureImage (pool : String) (cloud : CloudProviderConfig) (image : CloudImageConfig)
    (fleetName : String) : Effect ImageTracker String String := do
  let storePath ← lift (fun e => s!"failed to build toplevel for pool {pool}: {e}")
    (w.build pool 0 (toplevelAttr image))
  match extractStorePathHash storePath with
  | none => fail s!"invalid store path format: {storePath}"
  | some storePathHash =>
    let cached ← Effect.read (·.get (providerName cloud.provider) cloud.region storePathHash)
    match cached with
    | some image => return image.imageId
    | none =>
      let diskAttr := image.diskImageAttr.getD (defaultDiskImageAttr cloud.provider)
      let path ← lift (fun e => s!"failed to build disk image for pool {pool}: {e}")
        (w.build pool 1 s!"{image.nixosConfig}.config.system.build.{diskAttr}")
      let start := image.namePrefix.getD s!"{fleetName}-{pool}"
      let name := s!"{start}-{String.ofList (storePathHash.toList.take 12)}"
      let result ← lift id (w.registerImage pool path name storePathHash)
      update (·.put {
        imageId := result.1
        name, storePathHash, storePath
        createdAt := w.registeredAt pool
        lastUsedAt := w.registeredAt pool
        provider := providerName cloud.provider
        region := cloud.region
        pool, fleetName
        storageUri := some result.2 })
      return result.1

/-- What resolving the images of all pools comes to. -/
structure Resolution where
  tracker : ImageTracker
  activeHashes : HashMap String String := ∅
  /-- Providers with an image manager. -/
  imageManagers : List String := []
  /-- The images that pools create their machines from. -/
  imageIds : HashMap String String := ∅

def resolvePool (fleetName : String) (r : Resolution) (e : Σ _ : String, NodePoolConfig) :
    Resolution :=
  match e.2.cloud with
  | none => r
  | some cloud =>
    match cloud.image with
    | none => r
    | some image =>
      match ensureImage w e.1 cloud image fleetName r.tracker with
      | (.error _, tracker) => { r with tracker }
      | (.ok imageId, tracker) =>
        let hash := (w.build e.1 2 (toplevelAttr image)).toOption.bind extractStorePathHash
        { tracker
          activeHashes := hash.elim r.activeHashes (r.activeHashes.insert e.1 ·)
          imageManagers := providerName cloud.provider :: r.imageManagers
          imageIds := r.imageIds.insert e.1 imageId }

/-- Find the image of every pool. -/
def resolveImages (cfg : FleetConfig) (t : ImageTracker) : Resolution :=
  cfg.nodePools.entries.foldl (resolvePool w cfg.name) { tracker := t }

/-! ### Cleanup -/

/-- The images of a pool other than the current one, newest first. -/
def inactiveImages (currentHash : Option String) (images : List RegisteredImage) :
    List RegisteredImage :=
  (images.filter fun i => currentHash ≠ some i.storePathHash).insertionSort
    fun a b => b.createdAt ≤ a.createdAt

/-- Those beyond the number to retain that are too old. -/
def expiredImages (image : CloudImageConfig) (now : ℕ) (currentHash : Option String)
    (images : List RegisteredImage) : List RegisteredImage :=
  ((inactiveImages currentHash images).drop image.retainCount.toNat).filter
    fun i => image.maxAgeSeconds ≤ now - i.createdAt

/-- What a cleanup leaves. -/
structure Cleanup where
  tracker : ImageTracker
  /-- The images that were deleted at their provider. -/
  deleted : List RegisteredImage := []

def deleteExpired (pool : String) (s : Cleanup) (img : RegisteredImage) : Cleanup :=
  if w.deleteImage pool img then
    ⟨s.tracker.delete img.provider img.region img.storePathHash, s.deleted ++ [img]⟩
  else s

variable (imageManagers : List String) (activeHashes : HashMap String String)

/-- The images that a pool has the provider delete. -/
def candidates (fleetName : String) (t : ImageTracker) (e : Σ _ : String, NodePoolConfig) :
    List RegisteredImage :=
  match e.2.cloud with
  | none => []
  | some cloud =>
    match cloud.image with
    | none => []
    | some image =>
      if providerName cloud.provider ∈ imageManagers then
        expiredImages image w.now (activeHashes.lookup e.1) (t.listForPool fleetName e.1)
      else []

def cleanupPool (fleetName : String) (s : Cleanup) (e : Σ _ : String, NodePoolConfig) : Cleanup :=
  (candidates w imageManagers activeHashes fleetName s.tracker e).foldl (deleteExpired w e.1) s

/-- Delete images past retention. -/
def cleanupExpiredImages (cfg : FleetConfig) (t : ImageTracker) : Cleanup :=
  cfg.nodePools.entries.foldl (cleanupPool w imageManagers activeHashes cfg.name) { tracker := t }

/-- A cycle: the images of all pools are resolved, and then expired ones deleted. -/
def imageCycle (cfg : FleetConfig) (t : ImageTracker) : Cleanup :=
  let r := resolveImages w cfg t
  cleanupExpiredImages w r.imageManagers r.activeHashes cfg r.tracker

/-! ### What a cleanup deletes -/

variable {t : ImageTracker} {img : RegisteredImage}

variable {pool : String} {e : Σ _ : String, NodePoolConfig}

theorem ImageTracker.mem_listForPool {fleetName : String}
    : img ∈ t.listForPool fleetName pool ↔
      t.images.lookup img.key = some img ∧ img.fleetName = fleetName ∧ img.pool = pool := by
  rw [listForPool, List.mem_filter, decide_eq_true_iff, listAll, HashMap.values, List.mem_map]
  refine and_congr_left fun _ => ?_
  constructor
  · rintro ⟨e, he, rfl⟩
    have hlookup : t.images.lookup e.1 = some e.2 := HashMap.lookup_of_mem he
    rwa [t.keyed _ _ hlookup] at hlookup
  · intro h
    exact ⟨_, HashMap.mem_of_lookup h, rfl⟩

theorem ImageTracker.nodup_listForPool (t : ImageTracker) (fleetName pool : String) :
    (t.listForPool fleetName pool).Nodup := by
  refine List.Nodup.filter _ (List.Nodup.of_map RegisteredImage.key ?_)
  have hkeys : t.listAll.map RegisteredImage.key = t.images.keys := by
    rw [listAll, HashMap.values, List.map_map]
    refine List.map_congr_left fun e he => ?_
    exact (t.keyed _ _ (HashMap.lookup_of_mem he)).symm
  rw [hkeys]
  exact t.images.keys_nodup

/-- FRAME: removing an image of another pool. -/
theorem ImageTracker.listForPool_delete (h : ∀ i, t.images.lookup img.key = some i → i.pool ≠ pool)
    (fleetName : String) :
    (t.delete img.provider img.region img.storePathHash).listForPool fleetName pool =
      t.listForPool fleetName pool := by
  refine HashMap.filter_values_erase fun i hi => ?_
  simp [h i hi]

variable {w imageManagers activeHashes} {fleetName : String}

theorem mem_inactiveImages {currentHash : Option String} {images : List RegisteredImage}
    :
    img ∈ inactiveImages currentHash images ↔
      img ∈ images ∧ currentHash ≠ some img.storePathHash := by
  rw [inactiveImages, List.mem_insertionSort, List.mem_filter, decide_eq_true_iff]

theorem mem_of_mem_candidates (h : img ∈ candidates w imageManagers activeHashes fleetName t e) :
    img ∈ t.listForPool fleetName e.1 := by
  rcases hcloud : e.2.cloud with _ | cloud
  · simp [candidates, hcloud] at h
  · rcases himage : cloud.image with _ | image
    · simp [candidates, hcloud, himage] at h
    · by_cases hmanager : providerName cloud.provider ∈ imageManagers
      · simp only [candidates, hcloud, himage, if_pos hmanager] at h
        exact (mem_inactiveImages.mp (List.mem_of_mem_drop (List.mem_filter.mp h).1)).1
      · simp [candidates, hcloud, himage, hmanager] at h

/-- RUN: the images of one pool that the provider agrees to delete are deleted, and the images of
    the other pools stay listed as they are. -/
theorem foldl_deleteExpired (w : ImageCycle) (fleetName : String) {pool : String} :
    ∀ (imgs : List RegisteredImage) {s : Cleanup},
      (∀ img ∈ imgs, ∀ i, s.tracker.images.lookup img.key = some i → i.pool = pool) →
      (imgs.foldl (deleteExpired w pool) s).deleted =
          s.deleted ++ imgs.filter (w.deleteImage pool) ∧
        ∀ other, other ≠ pool → (imgs.foldl (deleteExpired w pool) s).tracker.listForPool
          fleetName other = s.tracker.listForPool fleetName other
  | [], s, _ => by simp
  | img :: imgs, s, hpool => by
    obtain ⟨hfirst, hrest⟩ := List.forall_mem_cons.mp hpool
    rw [List.foldl_cons]
    by_cases hdelete : w.deleteImage pool img = true
    · have hnext : ∀ img' ∈ imgs, ∀ i,
          (deleteExpired w pool s img).tracker.images.lookup img'.key = some i → i.pool = pool := by
        intro img' himg' i hi
        rw [deleteExpired, if_pos hdelete] at hi
        have hkept : ([img.key].foldl (fun m k => m.erase k) s.tracker.images).lookup img'.key =
          some i := hi
        exact hrest img' himg' i (HashMap.lookup_of_foldl_erase hkept)
      obtain ⟨hdeleted, hframe⟩ := foldl_deleteExpired w fleetName imgs hnext
      refine ⟨?_, fun other hother => (hframe other hother).trans ?_⟩
      · rw [hdeleted, deleteExpired, if_pos hdelete, List.filter_cons_of_pos hdelete]
        simp
      · rw [deleteExpired, if_pos hdelete]
        refine ImageTracker.listForPool_delete (fun i hi => ?_) fleetName
        rw [hfirst i hi]
        exact Ne.symm hother
    · rw [deleteExpired, if_neg hdelete, List.filter_cons_of_neg hdelete]
      exact foldl_deleteExpired w fleetName imgs hrest

theorem candidates_congr {t' : ImageTracker}
    (h : t.listForPool fleetName e.1 = t'.listForPool fleetName e.1) :
    candidates w imageManagers activeHashes fleetName t e =
      candidates w imageManagers activeHashes fleetName t' e := by
  rw [candidates, candidates, h]

/-- RUN: each pool deletes what it would delete alone. -/
theorem foldl_cleanupPool (t : ImageTracker) :
    ∀ (pools : List (Σ _ : String, NodePoolConfig)) {s : Cleanup}, pools.NodupKeys →
      (∀ e ∈ pools, s.tracker.listForPool fleetName e.1 = t.listForPool fleetName e.1) →
      (pools.foldl (cleanupPool w imageManagers activeHashes fleetName) s).deleted =
        s.deleted ++ pools.flatMap fun e =>
          (candidates w imageManagers activeHashes fleetName t e).filter (w.deleteImage e.1)
  | [], s, _, _ => by simp
  | e :: pools, s, hnodup, hsame => by
    obtain ⟨hfresh, hnodup⟩ := List.nodupKeys_cons.mp hnodup
    obtain ⟨hfirst, hrest⟩ := List.forall_mem_cons.mp hsame
    have hpool : ∀ img ∈ candidates w imageManagers activeHashes fleetName s.tracker e, ∀ i,
        s.tracker.images.lookup img.key = some i → i.pool = e.1 := by
      intro img himg i hi
      obtain ⟨hlookup, -, hpool⟩ := ImageTracker.mem_listForPool.mp (mem_of_mem_candidates himg)
      rw [hlookup] at hi
      cases hi
      exact hpool
    obtain ⟨hdeleted, hframe⟩ := foldl_deleteExpired w fleetName _ hpool
    rw [List.foldl_cons, foldl_cleanupPool t pools hnodup fun e' he' => ?_]
    · rw [cleanupPool, hdeleted, candidates_congr hfirst, List.flatMap_cons, List.append_assoc]
    · rw [← hrest e' he']
      refine hframe e'.1 fun heq => hfresh ?_
      rw [← heq]
      exact List.mem_keys_of_mem he'

/-- EXACT: the images that a cleanup deletes. -/
theorem cleanupExpiredImages_deleted (cfg : FleetConfig) (t : ImageTracker) :
    (cleanupExpiredImages w imageManagers activeHashes cfg t).deleted =
      cfg.nodePools.entries.flatMap fun e =>
        (candidates w imageManagers activeHashes cfg.name t e).filter (w.deleteImage e.1) := by
  rw [cleanupExpiredImages, foldl_cleanupPool t _ cfg.nodePools.nodupKeys fun _ _ => rfl]
  rfl

/-! ### Current images -/

/-- The pool creates its machines from images that are managed here. -/
def Manages (e : Σ _ : String, NodePoolConfig) (cloud : CloudProviderConfig)
    (image : CloudImageConfig) : Prop :=
  e.2.cloud = some cloud ∧ cloud.image = some image

/-- The image is the one for the present system of some pool. -/
def IsCurrent (cfg : FleetConfig) (system : (pool : String) → String) (t : ImageTracker)
    (img : RegisteredImage) : Prop :=
  ∃ e ∈ cfg.nodePools.entries, ∃ cloud image, Manages e cloud image ∧
    t.get (providerName cloud.provider) cloud.region (system e.1) = some img

/-- What keeps an image that is listed under a pool: the pool uses it, it is one of the newest that
    are retained, it is young, or the provider does not delete it. -/
def Spared (w : ImageCycle) (activeHashes : HashMap String String) (pool : String)
    (image : CloudImageConfig) (listed : List RegisteredImage) (img : RegisteredImage) : Prop :=
  activeHashes.lookup pool = some img.storePathHash ∨
    img ∈ (inactiveImages (activeHashes.lookup pool) listed).take image.retainCount.toNat ∨
    w.now - img.createdAt < image.maxAgeSeconds ∨ w.deleteImage pool img = false

theorem mem_drop_iff {l : List RegisteredImage} (h : l.Nodup) {n : ℕ} :
    img ∈ l.drop n ↔ img ∈ l ∧ img ∉ l.take n := by
  constructor
  · intro hdrop
    exact ⟨List.mem_of_mem_drop hdrop, fun htake => List.disjoint_take_drop h le_rfl htake hdrop⟩
  · rintro ⟨hmem, htake⟩
    rw [← List.take_append_drop n l] at hmem
    exact (List.mem_append.mp hmem).resolve_left htake

theorem mem_expired_iff {image : CloudImageConfig} (himg : img ∈ t.listForPool fleetName pool) :
    img ∈ expiredImages image w.now (activeHashes.lookup pool) (t.listForPool fleetName pool) ∧
        w.deleteImage pool img = true ↔
      ¬ Spared w activeHashes pool image (t.listForPool fleetName pool) img := by
  have hnodup : (inactiveImages (activeHashes.lookup pool) (t.listForPool fleetName pool)).Nodup :=
    (List.perm_insertionSort _ _).nodup_iff.mpr ((t.nodup_listForPool fleetName pool).filter _)
  rw [expiredImages, List.mem_filter, mem_drop_iff hnodup, mem_inactiveImages, decide_eq_true_iff,
    Spared, not_or, not_or, not_or, not_lt, Bool.not_eq_false]
  simp only [himg, true_and, and_assoc, ne_eq]

/-- EXACT: whatever `ensure_image` came to in the cycle, and whatever the pools share, a cleanup
    spares the current images of all pools if and only if each of them is spared by the pool it is
    listed under. -/
theorem cleanup_spares_current_iff (cfg : FleetConfig) (system : (pool : String) → String)
    (w : ImageCycle) (imageManagers : List String) (activeHashes : HashMap String String)
    (t : ImageTracker) :
    (∀ img ∈ (cleanupExpiredImages w imageManagers activeHashes cfg t).deleted,
        ¬ IsCurrent cfg system t img) ↔
      ∀ e ∈ cfg.nodePools.entries, ∀ cloud image, Manages e cloud image →
        providerName cloud.provider ∈ imageManagers →
        ∀ img ∈ t.listForPool cfg.name e.1, IsCurrent cfg system t img →
          Spared w activeHashes e.1 image (t.listForPool cfg.name e.1) img := by
  rw [cleanupExpiredImages_deleted]
  constructor
  · rintro h e he cloud image ⟨hcloud, himage⟩ hmanager img himg hcurrent
    by_contra hnot
    obtain ⟨hexpired, hdelete⟩ := (mem_expired_iff himg).mpr hnot
    refine h img (List.mem_flatMap.mpr ⟨e, he, List.mem_filter.mpr ⟨?_, hdelete⟩⟩) hcurrent
    simpa only [candidates, hcloud, himage, if_pos hmanager] using hexpired
  · intro h img hdeleted hcurrent
    obtain ⟨e, he, hmem⟩ := List.mem_flatMap.mp hdeleted
    obtain ⟨hcandidate, hdelete⟩ := List.mem_filter.mp hmem
    have himg := mem_of_mem_candidates hcandidate
    rcases hcloud : e.2.cloud with _ | cloud
    · simp [candidates, hcloud] at hcandidate
    · rcases himage : cloud.image with _ | image
      · simp [candidates, hcloud, himage] at hcandidate
      · by_cases hmanager : providerName cloud.provider ∈ imageManagers
        · simp only [candidates, hcloud, himage, if_pos hmanager] at hcandidate
          exact (mem_expired_iff himg).mp ⟨hcandidate, hdelete⟩
            (h e he cloud image ⟨hcloud, himage⟩ hmanager img himg hcurrent)
        · simp [candidates, hcloud, himage, hmanager] at hcandidate

/-! ### An image in use is deleted -/

namespace Shared

/-- A pool of machines at the same provider and in the same region, with the default retention. -/
def poolConfig (nixosConfig : String) : NodePoolConfig where
  cloud := some { provider := .aws, region := "eu-west-1", image := some { nixosConfig } }

/-- Two pools, which start out with the same system. -/
def config : FleetConfig where
  name := "fleet"
  nodePools := [⟨"a", poolConfig "web"⟩, ⟨"b", poolConfig "batch"⟩].toAList

def hash (n : ℕ) : String := s!"{n}zf0q4d7mvj3k9xw2ch8ys5br6nlpaig"

/-- The system of the first pool is a new one in each cycle; the second pool stays with the first.
    -/
def system (n : ℕ) (pool : String) : String := if pool = "a" then hash n else hash 1

/-- A cycle every eight days, in which nothing fails. -/
def cycle (n : ℕ) : ImageCycle where
  now := n * 691200
  registeredAt _ := n * 691200
  build pool _ _ := .ok s!"/nix/store/{system n pool}-nixos-system"
  registerImage _ _ name _ := .ok (name, "s3://images")
  deleteImage _ _ := true

/-- The tracked images after three cycles. -/
def tracker : ImageTracker :=
  (imageCycle (cycle 3) config (imageCycle (cycle 2) config
    (imageCycle (cycle 1) config ImageTracker.empty).tracker).tracker).tracker

/-- The image that both pools start out with. -/
def image : RegisteredImage where
  imageId := "fleet-a-1zf0q4d7mvj3"
  name := "fleet-a-1zf0q4d7mvj3"
  storePathHash := hash 1
  storePath := s!"/nix/store/{hash 1}-nixos-system"
  createdAt := 691200
  lastUsedAt := 691200
  provider := "aws"
  region := "eu-west-1"
  pool := "a"
  fleetName := "fleet"
  storageUri := some "s3://images"

def resolved : Resolution := resolveImages (cycle 4) config tracker

/-- The fourth cycle resolves the image of the second pool, which the first one built, and then
    deletes it for the first one. -/
theorem shared_image_deleted :
    resolved.imageIds.lookup "b" = some image.imageId ∧
      IsCurrent config (system 4) resolved.tracker image ∧
      image ∈ (cleanupExpiredImages (cycle 4) resolved.imageManagers resolved.activeHashes config
        resolved.tracker).deleted := by
  -- the cycles are evaluated once
  obtain ⟨hid, hcurrent, hdeleted⟩ : resolved.imageIds.lookup "b" = some image.imageId ∧
      resolved.tracker.get (providerName .aws) "eu-west-1" (system 4 "b") = some image ∧
      image ∈ (cleanupExpiredImages (cycle 4) resolved.imageManagers resolved.activeHashes config
        resolved.tracker).deleted := by decide +kernel
  refine ⟨hid, ⟨⟨"b", poolConfig "batch"⟩, ?_, _, _, ⟨rfl, rfl⟩, hcurrent⟩, hdeleted⟩
  exact HashMap.mem_of_lookup rfl

end Shared

end Ekafleet.Server
