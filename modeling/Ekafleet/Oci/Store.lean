import Ekafleet.Lib.Effect
import Ekafleet.Oci.Signature

/-! The local image store | source: agent/oci/{store,unpack}.rs

    A directory is a map from names to contents. Operations of the outside world are numbered; what
    the registry answers to the `n`-th one, and whether a disk operation fails and what it leaves
    behind then, is fixed by an arbitrary `Outside`. How one layer is unpacked onto a root
    filesystem is a parameter here, and `FsLib.unpacker` is the one of the source. A `World` also
    records which manifests and bundles were written and which signatures were verified. -/

namespace Ekafleet.Oci

/-- Why an operation of the store failed. -/
inductive StoreError where
  | io (message : String)
  | notFound (digest : Digest)
  deriving DecidableEq, Repr

/-- Why a layer could not be unpacked. -/
inductive UnpackError where
  | io (message : String)
  | blobNotFound (digest : Digest)
  | tar (message : String)
  deriving DecidableEq, Repr

/-- Why a pull failed. -/
inductive PullError where
  | registry (e : RegistryError)
  | store (e : StoreError)
  | unpack (e : UnpackError)
  | signature (e : SignatureError)
  | noPlatformMatch
  | notFoundLocally
  | manifestParse (message : String)
  deriving DecidableEq, Repr

/-- Blobs by digest, manifests by cache key, history by `<service>.<generation>`, and the root
    filesystems by service. -/
structure ImageStore (τ : Type) where
  blobs : HashMap String Bytes := ∅
  manifests : HashMap String Bytes := ∅
  history : HashMap String Bytes := ∅
  bundles : HashMap String τ := ∅

/-- The files whose writers are recorded. -/
inductive StoreFile where
  | manifest (key : String)
  | bundle (serviceName : String)
  deriving DecidableEq, Repr

/-- The store, and what was done to it. -/
structure World (τ : Type) where
  store : ImageStore τ
  ops : ℕ
  verified : List Digest := []
  written : List StoreFile := []

/-- What the world outside does at each operation. A failed write may leave other contents in the
    file, a failed removal some rest of the directory, a failed unpacking any directory. -/
structure Outside (τ : Type) where
  http : ℕ → Network
  head : ℕ → Except RegistryError HeadAnswer
  readFault : ℕ → Option String
  writeFault : ℕ → Option (String × Option Bytes)
  removeFault : ℕ → Option (String × τ)
  createFault : ℕ → Option String
  unpackFault : ℕ → Option (UnpackError × τ) := fun _ => none

/-- Unpacking a layer: the filesystem it leaves, and the error if it failed. -/
structure Unpacker (τ : Type) where
  emptyDir : τ
  unpackLayer : Bytes → τ → Option UnpackError × τ

/-- An operation of the image manager. -/
abbrev Pull (τ : Type) := Effect (World τ) PullError

open Effect

variable {τ : Type} (out : Outside τ)

/-- Count an operation of the outside world. -/
def nextOp : Pull τ ℕ := fun w => (.ok w.ops, { w with ops := w.ops + 1 })

def onStore (f : ImageStore τ → ImageStore τ) : Pull τ Unit :=
  update fun w => { w with store := f w.store }

/-! ### Files -/

/-- Write a file; `put` stores contents under its name. -/
def writeFile (put : Bytes → Pull τ Unit) (data : Bytes) : Pull τ Unit := do
  let n ← nextOp
  match out.writeFault n with
  | none => put data
  | some (message, some left) => do put left; fail (.store (.io message))
  | some (message, none) => fail (.store (.io message))

def readFile (data : Option Bytes) : Pull τ (Option Bytes) := do
  let n ← nextOp
  match data, out.readFault n with
  | some _, some message => fail (.store (.io message))
  | data, _ => return data

def hasBlob (digest : Digest) : Pull τ Bool := read fun w => w.store.blobs.keys.contains digest.hex

/-- Write a blob. -/
def putBlob (digest : Digest) (data : Bytes) : Pull τ Unit :=
  writeFile out (fun d => onStore fun st => { st with blobs := st.blobs.insert digest.hex d }) data

/-- Read a blob. -/
def getBlob (digest : Digest) : Pull τ Bytes := do
  let found ← readFile out (← read (·.store.blobs.lookup digest.hex))
  match found with
  | none => fail (.store (.notFound digest))
  | some data => return data

/-- Write a manifest. -/
def putManifest (key : String) (data : Bytes) : Pull τ Unit :=
  writeFile out (fun d => update fun w =>
    { w with
      store := { w.store with manifests := w.store.manifests.insert key d }
      written := .manifest key :: w.written }) data

/-- Read a manifest. -/
def getManifest (key : String) : Pull τ (Option Bytes) := do
  readFile out (← read (·.store.manifests.lookup key))

/-! ### Manifest history -/

/-- The generations stored for a service, newest first. -/
def historyEntries (serviceName : String) (dir : HashMap String Bytes) : List (ℕ × Bytes) :=
  (dir.entries.filterMap fun e => do
    let generation ← Text.parseUnsigned (2 ^ 64) (← Text.stripPrefix s!"{serviceName}." e.1)
    return (generation, e.2)).insertionSort fun a b => b.1 ≤ a.1

/-- The generation after the newest one. -/
def nextGeneration (serviceName : String) (dir : HashMap String Bytes) : ℕ :=
  match historyEntries serviceName dir with
  | [] => 1
  | (generation, _) :: _ => (generation + 1) % 2 ^ 64

/-- A history that cannot be listed starts again at generation 1. -/
def nextHistoryGeneration (serviceName : String) : Pull τ ℕ := do
  let n ← nextOp
  let dir ← read (·.store.history)
  return match out.readFault n with
    | some _ => 1
    | none => nextGeneration serviceName dir

/-- Write the next generation. -/
def putHistory (serviceName : String) (data : Bytes) : Pull τ Unit := do
  let generation ← nextHistoryGeneration out serviceName
  writeFile out (fun d => onStore fun st =>
    { st with history := st.history.insert s!"{serviceName}.{generation}" d }) data

/-! ### Bundles -/

def hasBundle (serviceName : String) : Pull τ Bool :=
  read fun w => (w.store.bundles.lookup serviceName).isSome

/-- Set or remove the root filesystem of a service. -/
def setBundle (serviceName : String) (rootfs : Option τ) : Pull τ Unit :=
  update fun w =>
    { w with
      store := { w.store with
        bundles := match rootfs with
          | some t => w.store.bundles.insert serviceName t
          | none => w.store.bundles.erase serviceName }
      written := .bundle serviceName :: w.written }

/-- Clean up any previous root filesystem. -/
def removeRootfs (serviceName : String) : Pull τ Unit := do
  if ← hasBundle serviceName then
    let n ← nextOp
    match out.removeFault n with
    | none => setBundle serviceName none
    | some (message, left) =>
      setBundle serviceName (some left)
      fail (.unpack (.io message))

/-- Make an empty root file system. -/
def createRootfs (unp : Unpacker τ) (serviceName : String) : Pull τ Unit := do
  let n ← nextOp
  match out.createFault n with
  | none => setBundle serviceName (some unp.emptyDir)
  | some message => fail (.unpack (.io message))

/-- Apply one layer; whatever goes wrong in reading it is reported as a missing blob. -/
def applyLayer (unp : Unpacker τ) (serviceName : String) (layer : Descriptor) : Pull τ PUnit := do
  match ← attempt (getBlob out layer.digest) with
  | .error _ => fail (.unpack (.blobNotFound layer.digest))
  | .ok blob =>
    let n ← nextOp
    let rootfs ← read fun w => (w.store.bundles.lookup serviceName).getD unp.emptyDir
    let (error, unpacked) := match out.unpackFault n with
      | some (e, left) => (some e, left)
      | none => unp.unpackLayer blob rootfs
    setBundle serviceName (some unpacked)
    match error with
    | some e => fail (.unpack e)
    | none => return ⟨⟩

/-- Unpack an image's layers, bottom up, into a fresh root filesystem. -/
def unpackImage (unp : Unpacker τ) (serviceName : String) (manifest : ImageManifest) :
    Pull τ Unit := do
  removeRootfs out serviceName
  createRootfs out unp serviceName
  manifest.layers.forM (applyLayer out unp serviceName)

/-! ### What the operations change -/

/-- The relation allows every single change that an operation makes: the manifests and bundles that
    are written are in `F`, and a blob is stored under its digest, unless its write fails. -/
structure Allows (lib : ImageLib) (F : Set StoreFile) (R : World τ → World τ → Prop) : Prop where
  op : ∀ w, R w { w with ops := w.ops + 1 }
  verify : ∀ w digest, R w { w with verified := digest :: w.verified }
  history : ∀ w name data, R w
    { w with store := { w.store with history := w.store.history.insert name data } }
  manifest : ∀ w key data, .manifest key ∈ F → R w
    { w with
      store := { w.store with manifests := w.store.manifests.insert key data }
      written := .manifest key :: w.written }
  bundle : ∀ serviceName rootfs, .bundle serviceName ∈ F → Within R (setBundle serviceName rootfs)
  blob : ∀ w data, R w
    { w with store := { w.store with blobs := w.store.blobs.insert (lib.digest data).hex data } }
  partialBlob : ∀ n message left, out.writeFault n = some (message, some left) →
    ∀ w hex, R w { w with store := { w.store with blobs := w.store.blobs.insert hex left } }

section Within
variable {out} {lib : ImageLib} {F : Set StoreFile} {R : World τ → World τ → Prop}
variable [Std.Refl R] [IsTrans (World τ) R] (h : Allows out lib F R)
include h

omit [Std.Refl R] [IsTrans (World τ) R] in
theorem within_nextOp : Within R (nextOp : Pull τ ℕ) := h.op

theorem within_readFile (data : Option Bytes) : Within R (readFile out data) := by
  refine (within_nextOp h).bind fun n => ?_
  split
  · exact within_fail _
  · exact within_pure _

theorem within_writeFile {put : Bytes → Pull τ Unit} {data : Bytes} (hput : Within R (put data))
    (hleft : ∀ n message left, out.writeFault n = some (message, some left) →
      Within R (put left)) : Within R (writeFile out put data) := by
  refine (within_nextOp h).bind fun n => ?_
  split
  · exact hput
  · next hfault => exact (hleft n _ _ hfault).bind fun _ => within_fail _
  · exact within_fail _

theorem within_putBlob (data : Bytes) : Within R (putBlob out (lib.digest data) data) :=
  within_writeFile h (fun w => h.blob w data) fun n message left hfault w =>
    h.partialBlob n message left hfault w _

theorem within_getBlob (digest : Digest) : Within R (getBlob out digest) := by
  refine (within_read _).bind fun _ => (within_readFile h _).bind fun found => ?_
  cases found with
  | none => exact within_fail _
  | some _ => exact within_pure _

theorem within_getManifest (key : String) : Within R (getManifest out key) :=
  (within_read _).bind fun _ => within_readFile h _

theorem within_putHistory (serviceName : String) (data : Bytes) :
    Within R (putHistory out serviceName data) := by
  refine Within.bind ?_ fun generation => within_writeFile h (fun w => h.history w _ _)
    fun _ _ left _ w => h.history w _ left
  exact (within_nextOp h).bind fun _ => (within_read _).bind fun _ => within_pure _

theorem within_putManifest {key : String} (hF : .manifest key ∈ F) (data : Bytes) :
    Within R (putManifest out key data) :=
  within_writeFile h (fun w => h.manifest w key data hF) fun _ _ left _ w =>
    h.manifest w key left hF

variable {serviceName : String}

theorem within_removeRootfs (hF : .bundle serviceName ∈ F) :
    Within R (removeRootfs out serviceName) := by
  refine (within_read _).bind fun has => ?_
  cases has with
  | false => exact within_pure _
  | true =>
    refine (within_nextOp h).bind fun n => ?_
    split
    · exact h.bundle _ _ hF
    · exact (h.bundle _ _ hF).bind fun _ => within_fail _

theorem within_createRootfs (unp : Unpacker τ) (hF : .bundle serviceName ∈ F)
    : Within R (createRootfs out unp serviceName) := by
  refine (within_nextOp h).bind fun n => ?_
  split
  · exact h.bundle _ _ hF
  · exact within_fail _

theorem within_applyLayer (unp : Unpacker τ) (hF : .bundle serviceName ∈ F) (layer : Descriptor) :
    Within R (applyLayer out unp serviceName layer) := by
  refine (within_getBlob h _).attempt.bind fun r => ?_
  cases r with
  | error _ => exact within_fail _
  | ok blob =>
    refine (within_nextOp h).bind fun n => (within_read _).bind fun rootfs =>
      (h.bundle _ _ hF).bind fun _ => ?_
    split
    · exact within_fail _
    · exact within_pure _

theorem within_unpackImage (unp : Unpacker τ) (hF : .bundle serviceName ∈ F)
    (manifest : ImageManifest) :
    Within R (unpackImage out unp serviceName manifest) :=
  (within_removeRootfs h hF).bind fun _ => (within_createRootfs h unp hF).bind fun _ =>
    within_forM (within_applyLayer h unp hF) _

end Within

/-- From `w` to `w'`, at most the files in `F` were written, and every write was recorded. -/
structure Touches (F : Set StoreFile) (w w' : World τ) : Prop where
  manifests : ∀ k, w'.store.manifests.lookup k = w.store.manifests.lookup k ∨
    .manifest k ∈ F ∧ .manifest k ∈ w'.written
  bundles : ∀ s, w'.store.bundles.lookup s = w.store.bundles.lookup s ∨
    .bundle s ∈ F ∧ .bundle s ∈ w'.written
  recorded : w.written ⊆ w'.written
  written : ∀ f ∈ w'.written, f ∈ w.written ∨ f ∈ F
  verified : w.verified ⊆ w'.verified

namespace Touches

variable {F : Set StoreFile}

theorem of_same {w w' : World τ} (hm : w'.store.manifests = w.store.manifests)
    (hb : w'.store.bundles = w.store.bundles) (hw : w'.written = w.written)
    (hv : w.verified ⊆ w'.verified) : Touches F w w' where
  manifests _ := .inl (by rw [hm])
  bundles _ := .inl (by rw [hb])
  recorded := by rw [hw]; exact List.Subset.refl _
  written f hf := .inl (hw ▸ hf)
  verified := hv

instance : Std.Refl (Touches (τ := τ) F) := ⟨fun _ => of_same rfl rfl rfl (List.Subset.refl _)⟩

instance : IsTrans (World τ) (Touches F) where
  trans a b c h h' :=
    { manifests := fun k => by
        rcases h'.manifests k with e | hk
        · rw [e]; exact (h.manifests k).imp_right fun hk => ⟨hk.1, h'.recorded hk.2⟩
        · exact .inr hk
      bundles := fun s => by
        rcases h'.bundles s with e | hs
        · rw [e]; exact (h.bundles s).imp_right fun hs => ⟨hs.1, h'.recorded hs.2⟩
        · exact .inr hs
      recorded := List.Subset.trans h.recorded h'.recorded
      written := fun f hf => (h'.written f hf).elim (h.written f) .inr
      verified := List.Subset.trans h.verified h'.verified }

theorem putManifest {key : String} (hF : .manifest key ∈ F) (w : World τ) (data : Bytes) :
    Touches F w { w with
      store := { w.store with manifests := w.store.manifests.insert key data }
      written := .manifest key :: w.written } := by
  refine ⟨fun k => ?_, fun _ => .inl rfl, List.subset_cons_self _ _, fun f hf => ?_,
    List.Subset.refl _⟩
  · by_cases hk : k = key
    · subst hk; exact .inr ⟨hF, List.mem_cons_self⟩
    · exact .inl (AList.lookup_insert_ne hk)
  grind

theorem setBundle {serviceName : String} (hF : .bundle serviceName ∈ F) (rootfs : Option τ) :
    Within (Touches F) (Oci.setBundle serviceName rootfs) := by
  refine within_update fun w => ⟨fun _ => .inl rfl, fun s => ?_, List.subset_cons_self _ _,
    fun f hf => ?_, List.Subset.refl _⟩
  · grind [List.mem_cons_self, AList.lookup_erase_ne, AList.lookup_insert_ne]
  grind

theorem allows (lib : ImageLib) (F : Set StoreFile) : Allows out lib F (Touches F) where
  op _ := .of_same rfl rfl rfl (List.Subset.refl _)
  verify _ _ := .of_same rfl rfl rfl (List.subset_cons_self _ _)
  history _ _ _ := .of_same rfl rfl rfl (List.Subset.refl _)
  manifest w _ data hF := putManifest hF w data
  bundle _ rootfs hF := setBundle hF rootfs
  blob _ _ := .of_same rfl rfl rfl (List.Subset.refl _)
  partialBlob _ _ _ _ _ _ := .of_same rfl rfl rfl (List.Subset.refl _)

end Touches

variable {w w' : World τ}

theorem createRootfs_ok (unp : Unpacker τ) {serviceName : String}
    (h : createRootfs out unp serviceName w = (.ok (), w')) :
    .bundle serviceName ∈ w'.written := by
  obtain ⟨n, w₁, -, h⟩ := bind_ok h
  cases hf : out.createFault n with
  | none => simp only [hf] at h; cases h; exact List.mem_cons_self
  | some e => simp only [hf] at h; cases h

theorem unpackImage_ok (lib : ImageLib) (unp : Unpacker τ) {serviceName : String}
    {manifest : ImageManifest}
    (h : unpackImage out unp serviceName manifest w = (.ok (), w')) :
    .bundle serviceName ∈ w'.written := by
  obtain ⟨_, w₁, -, h⟩ := bind_ok h
  obtain ⟨_, w₂, hcreate, h⟩ := bind_ok h
  have hlayers :
    Within (Touches Set.univ) (manifest.layers.forM (applyLayer out unp serviceName)) :=
    within_forM (within_applyLayer (Touches.allows out lib _) unp (Set.mem_univ _)) _
  exact (hlayers.of_eq h).recorded (createRootfs_ok out unp hcreate)

theorem writeFile_ok {put : Bytes → Pull τ Unit} {data : Bytes}
    (h : writeFile out put data w = (.ok (), w')) : ∃ w₁, put data w₁ = (.ok (), w') := by
  obtain ⟨n, w₁, -, h⟩ := bind_ok h
  rcases hf : out.writeFault n with _ | ⟨message, _ | left⟩ <;> simp only [hf] at h
  · exact ⟨w₁, h⟩
  · cases h
  · obtain ⟨_, _, -, h⟩ := bind_ok h
    cases h

theorem readFile_ok {data found : Option Bytes} (h : readFile out data w = (.ok found, w')) :
    found = data ∧ w' = { w with ops := w.ops + 1 } := by
  obtain ⟨n, w₁, hop, h⟩ := bind_ok h
  cases hop
  rcases data with _ | bytes <;> rcases hf : out.readFault w.ops with _ | message <;>
    simp only [hf] at h <;> cases h <;> exact ⟨rfl, rfl⟩

theorem putManifest_ok {key : String} {data : Bytes}
    (h : putManifest out key data w = (.ok (), w')) :
    w'.store.manifests.lookup key = some data ∧ .manifest key ∈ w'.written := by
  obtain ⟨w₁, h⟩ := writeFile_ok out h
  cases h
  exact ⟨AList.lookup_insert _, List.mem_cons_self⟩

theorem getManifest_ok {key : String} {found : Option Bytes}
    (h : getManifest out key w = (.ok found, w')) :
    found = w.store.manifests.lookup key ∧ w' = { w with ops := w.ops + 1 } := by
  obtain ⟨_, _, hread, hfile⟩ := bind_ok h
  obtain ⟨rfl, rfl⟩ := read_ok hread
  exact readFile_ok out hfile

end Ekafleet.Oci
