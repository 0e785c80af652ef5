import Ekafleet.Oci.Store

/-! Unpacking a layer | source: agent/oci/unpack.rs

    A layer is an archive whose entries are applied one after the other to a root filesystem. An
    entry with a whiteout name removes something; the others are unpacked. The archive format and
    the operations of the file system are parameters. -/

namespace Ekafleet.Oci
open Effect

/-- A part of a path. -/
inductive Component where
  | rootDir
  | curDir
  | parentDir
  | normal (name : String)
  /-- A name that is not UTF-8. -/
  | raw (name : Bytes)
  deriving DecidableEq, Repr

/-- What is joined to a path for a name without a slash. -/
def Component.ofName : String → Component
  | "." => .curDir
  | ".." => .parentDir
  | name => .normal name

/-- An entry of an archive. -/
structure TarEntry where
  path : List Component
  display : String
  data : Bytes
  deriving DecidableEq, Repr

/-- The archive formats, and the file system below a root directory: an operation that fails has a
    message, and may have changed something. -/
structure FsLib (τ : Type) where
  emptyDir : τ
  entries : Bytes → List (Except String TarEntry)
  present : List Component → τ → Bool
  isDir : List Component → τ → Bool
  readDir : List Component → τ → Except String (List (Except String Component))
  removeDirAll : List Component → τ → Option String × τ
  removeFile : List Component → τ → Option String × τ
  unpackIn : TarEntry → τ → Option String × τ

namespace FsLib
variable {τ : Type} (fs : FsLib τ)

/-- Run an operation of the file system, its message made an error by `wrap`. -/
def act (wrap : String → UnpackError) (op : τ → Option String × τ) : Effect τ UnpackError PUnit :=
  fun t => match op t with
    | (none, t') => (.ok ⟨⟩, t')
    | (some message, t') => (.error (wrap message), t')

/-- Remove all contents of a directory without removing the directory itself. -/
def removeDirContents (dir : List Component) : Effect τ UnpackError PUnit := do
  let names ← lift .io (← read (fs.readDir dir))
  names.forM fun name => do
    let path := dir ++ [← lift .io name]
    if ← read (fs.isDir path) then act .io (fs.removeDirAll path)
    else act .io (fs.removeFile path)

/-- Delete the entry that a whiteout names. -/
def removeTarget (path : List Component) : Effect τ UnpackError PUnit := do
  let wrap (e : String) : UnpackError := .tar s!"whiteout removal failed: {e}"
  if ← read (fs.isDir path) then act wrap (fs.removeDirAll path)
  else if ← read (fs.present path) then act wrap (fs.removeFile path)
  else pure ⟨⟩

/-- The body of the loop of `unpack_layer`. Entries that would escape the root filesystem, and those
    without a name, are skipped. -/
def unpackEntry (entry : TarEntry) : Effect τ UnpackError PUnit :=
  if entry.path.head? = some .rootDir ∨ .parentDir ∈ entry.path then pure ⟨⟩
  else match entry.path.getLast? with
    | some (.normal fileName) =>
      let parent := entry.path.dropLast
      if fileName = ".wh..wh..opq" then do
        if ← read (fs.present parent) then fs.removeDirContents parent else pure ⟨⟩
      else match Text.stripPrefix ".wh." fileName with
        | some target => fs.removeTarget (parent ++ [.ofName target])
        | none =>
          act (fun e => .tar s!"unpack entry {entry.display}: {e}") (fs.unpackIn entry)
    | _ => pure ⟨⟩

/-- Unpack a single layer into the root filesystem, handling whiteouts. -/
def unpackLayer (data : Bytes) : Effect τ UnpackError PUnit :=
  (fs.entries data).forM fun entry => do
    let entry ← lift .tar entry
    fs.unpackEntry entry

/-- The unpacking of layers that the image store uses. -/
def unpacker : Unpacker τ where
  emptyDir := fs.emptyDir
  unpackLayer data t := match fs.unpackLayer data t with
    | (.ok _, t') => (none, t')
    | (.error e, t') => (some e, t')

end FsLib

/-! ### Complete unpackings -/

section Blobs
variable {τ : Type} (unp : Unpacker τ)

/-- The root filesystem with one more blob, if it can be unpacked. -/
def Unpacker.addBlob (rootfs : τ) (blob : Bytes) : Option τ :=
  match unp.unpackLayer blob rootfs with
  | (none, unpacked) => some unpacked
  | (some _, _) => none

/-- Unpack blobs bottom up into a fresh root filesystem. -/
def Unpacker.unpackBlobs (blobs : List Bytes) : Option τ := blobs.foldlM unp.addBlob unp.emptyDir

end Blobs

namespace FsLib
variable {τ : Type} (fs : FsLib τ)

/-- The root filesystem after every entry of every layer: each layer is a readable archive, and its
    entries are applied without an error, bottom up, to an empty directory. -/
def Contents (blobs : List Bytes) (rootfs : τ) : Prop :=
  ∃ layers : List (List TarEntry),
    List.Forall₂ (fun blob entries => fs.entries blob = entries.map .ok) blobs layers ∧
    layers.flatten.forM fs.unpackEntry fs.emptyDir = (.ok ⟨⟩, rootfs)

variable {fs}

/-- A layer that was unpacked was read to its end, and all its entries were applied. -/
theorem unpackLayer_ok {data : Bytes} {t t' : τ} (h : fs.unpackLayer data t = (.ok ⟨⟩, t')) :
    ∃ entries : List TarEntry, fs.entries data = entries.map .ok ∧
      entries.forM fs.unpackEntry t = (.ok ⟨⟩, t') := by
  unfold unpackLayer at h
  generalize fs.entries data = results at h
  induction results generalizing t with
  | nil =>
    cases h
    exact ⟨[], rfl, rfl⟩
  | cons result rest ih =>
    rw [forM_cons_apply] at h
    obtain ⟨_, t₁, hfirst, hrest⟩ := bind_ok h
    obtain ⟨entry, t₂, hlift, hentry⟩ := bind_ok hfirst
    obtain ⟨rfl, rfl⟩ := lift_ok hlift
    obtain ⟨entries, rfl, hall⟩ := ih hrest
    refine ⟨entry :: entries, rfl, ?_⟩
    rw [forM_cons_apply, bind_apply, hentry]
    exact hall

/-- RUN: layers that were unpacked one after the other, from any directory. -/
theorem entries_of_addBlobs {blobs : List Bytes} {t rootfs : τ}
    (h : blobs.foldlM fs.unpacker.addBlob t = some rootfs) :
    ∃ layers : List (List TarEntry),
      List.Forall₂ (fun blob entries => fs.entries blob = entries.map .ok) blobs layers ∧
      layers.flatten.forM fs.unpackEntry t = (.ok ⟨⟩, rootfs) := by
  induction blobs generalizing t with
  | nil =>
    cases h
    exact ⟨[], .nil, rfl⟩
  | cons blob blobs ih =>
    rw [List.foldlM_cons] at h
    obtain ⟨t₁, hfirst, hrest⟩ := Option.bind_eq_some_iff.mp h
    rcases hrun : fs.unpackLayer blob t with ⟨e | ⟨⟩, t₂⟩ <;>
      simp only [Unpacker.addBlob, unpacker, hrun] at hfirst <;> cases hfirst
    obtain ⟨entries, hentries, happlied⟩ := unpackLayer_ok hrun
    obtain ⟨layers, hlayers, hall⟩ := ih hrest
    exact ⟨entries :: layers, .cons hentries hlayers, forM_append_ok happlied hall⟩

/-- Layers that were unpacked have all their contents. -/
theorem contents_of_unpackBlobs {blobs : List Bytes} {rootfs : τ}
    (h : fs.unpacker.unpackBlobs blobs = some rootfs) : fs.Contents blobs rootfs :=
  entries_of_addBlobs h

end FsLib

end Ekafleet.Oci
