import Ekafleet.Raft.Durability

/-! The snapshot a boot loads | source: raft/storage.rs, server/mod.rs

    A snapshot file carries its index in its name, but the loader takes the file that the directory
    lists last. Housekeeping compacts the log up to the snapshot it has just saved. -/

namespace Ekafleet.Raft
open RaftStorage

/-- A snapshot that housekeeping takes; its index is a 64-bit number. -/
structure Round where
  last : ℕ
  inRange : last < 2 ^ 64
  nonce : Nonce
  snapshot : Bytes

namespace RaftStorage

/-- The names of snapshot files. -/
def isSnapshot (name : String) : Bool := (Text.fileParts name).2 = some "snap"

theorem fileParts_snapName (i : ℕ) :
    Text.fileParts (snapName i) = (Text.padded 20 i, some (String.ofList ['s', 'n', 'a', 'p'])) :=
  Text.fileParts_padded_append 20 i (by decide) (by decide) (by decide)

theorem nameIndex_logName {i : ℕ} (h : i < 2 ^ 64) : nameIndex (logName i) = some i := by
  have hparts : Text.fileParts (logName i) =
      (Text.padded 20 i, some (String.ofList ['l', 'o', 'g'])) :=
    Text.fileParts_padded_append 20 i (by decide) (by decide) (by decide)
  rw [nameIndex, hparts, Text.parseUnsigned_padded h]

theorem nameIndex_snapName {i : ℕ} (h : i < 2 ^ 64) : nameIndex (snapName i) = some i := by
  rw [nameIndex, fileParts_snapName, Text.parseUnsigned_padded h]

theorem snapName_inj {i j : ℕ} (h : snapName i = snapName j) : i = j := by
  have hstem : Text.padded 20 i = Text.padded 20 j := by
    have hparts := congrArg (fun name => (Text.fileParts name).1) h
    simpa only [fileParts_snapName] using hparts
  have hparse := congrArg (Text.parseUnsigned (i + j + 1)) hstem
  rw [Text.parseUnsigned_padded (by omega), Text.parseUnsigned_padded (by omega)] at hparse
  exact Option.some.inj hparse

theorem isSnapshot_snapName (i : ℕ) : isSnapshot (snapName i) = true := by
  rw [isSnapshot, fileParts_snapName, decide_eq_true_eq]

theorem map_fst_latestSnapshotFile (snapshots : Dir) :
    (latestSnapshotFile snapshots).map (·.1) = (snapshots.keys.filter isSnapshot).getLast? := by
  rw [latestSnapshotFile, AList.keys, List.keys, List.filter_map, List.getLast?_map]
  rfl

theorem isSnapshot_of_latest_none {snapshots : Dir} (h : latestSnapshotFile snapshots = none)
    {f : Σ _ : String, Bytes} (hf : f ∈ snapshots.entries) : isSnapshot f.1 = false :=
  Bool.eq_false_iff.mpr (List.filter_eq_nil_iff.mp (List.getLast?_eq_none_iff.mp h) f hf)

theorem mem_compactLog {disk : Disk} {upTo : ℕ} {f : Σ _ : String, Bytes} :
    f ∈ (compactLog disk upTo).log.entries ↔
      f ∈ disk.log.entries ∧ upTo < (nameIndex f.1).getD (2 ^ 64 - 1) := by
  have hnodup : (disk.log.entries.filter fun f =>
      decide (upTo < (nameIndex f.1).getD (2 ^ 64 - 1))).NodupKeys :=
    disk.log.nodupKeys.sublist List.filter_sublist
  rw [compactLog, HashMap.mem_entries_toAList hnodup, List.mem_filter, decide_eq_true_eq]

/-! ### What rounds of housekeeping leave on disk -/

/-- A snapshot file: the index in its name, and its sealed contents. -/
structure SnapFile where
  last : ℕ
  sealed : Bytes

section Files
variable {α : Type} (file : α → SnapFile)

/-- Save a snapshot file and compact the log up to its index. -/
def keepFile (disk : Disk) (a : α) : Disk :=
  compactLog
    { disk with snapshots := disk.snapshots.insert (snapName (file a).last) (file a).sealed }
    (file a).last

def keepFiles (disk : Disk) (l : List α) : Disk := l.foldl (keepFile file) disk

/-- The last snapshot saved under an index. -/
def lastUnder (l : List α) (i : ℕ) : Option α := (l.filter fun a => (file a).last = i).getLast?

variable {file}

theorem lastUnder_concat (l : List α) (a : α) (i : ℕ) :
    lastUnder file (l ++ [a]) i = if (file a).last = i then some a else lastUnder file l i := by
  rw [lastUnder, List.filter_append]
  split
  · next h => simp [h]
  · next h => simp [h, lastUnder]

variable {l : List α}

theorem exists_lastUnder (file : α → SnapFile) {a : α} (h : a ∈ l) :
    ∃ b, lastUnder file l (file a).last = some b := by
  have hne : l.filter (fun b => (file b).last = (file a).last) ≠ [] :=
    List.ne_nil_of_mem (List.mem_filter.mpr ⟨h, by simp⟩)
  exact ⟨_, List.getLast?_eq_some_getLast hne⟩

theorem keepFiles_concat (disk : Disk) (l : List α) (a : α) :
    keepFiles file disk (l ++ [a]) = keepFile file (keepFiles file disk l) a := by
  rw [keepFiles, List.foldl_append]
  rfl

theorem lookup_keepFiles (disk : Disk) (i : ℕ) (l : List α) :
    (keepFiles file disk l).snapshots.lookup (snapName i) =
      ((lastUnder file l i).map fun a => (file a).sealed).or
        (disk.snapshots.lookup (snapName i)) := by
  induction l using List.reverseRecOn with
  | nil => rfl
  | append_singleton l a ih =>
    rw [keepFiles_concat, lastUnder_concat]
    change ((keepFiles file disk l).snapshots.insert (snapName (file a).last) _).lookup _ = _
    by_cases h : (file a).last = i
    · subst h
      rw [AList.lookup_insert, if_pos rfl]
      rfl
    · have hne : snapName i ≠ snapName (file a).last := fun heq => h (snapName_inj heq.symm)
      rw [AList.lookup_insert_ne hne, ih, if_neg h]

variable {disk : Disk} {f : Σ _ : String, Bytes}

theorem exists_of_mem_keepFiles (hnone : ∀ name ∈ disk.snapshots.keys, isSnapshot name = false)
    (l : List α) {name : String} (hmem : name ∈ (keepFiles file disk l).snapshots.keys)
    (hsnap : isSnapshot name = true) : ∃ a ∈ l, name = snapName (file a).last := by
  induction l using List.reverseRecOn with
  | nil => exact absurd hsnap (by simp [hnone name hmem])
  | append_singleton l a ih =>
    rw [keepFiles_concat] at hmem
    have hmem' : name ∈ (keepFiles file disk l).snapshots.insert (snapName (file a).last) _ := hmem
    rcases (AList.mem_insert _).mp hmem' with rfl | hmem
    · exact ⟨a, by simp, rfl⟩
    · obtain ⟨b, hb, hname⟩ := ih hmem
      exact ⟨b, List.mem_append_left _ hb, hname⟩

theorem mem_log_keepFiles (l : List α) :
    f ∈ (keepFiles file disk l).log.entries ↔
      f ∈ disk.log.entries ∧ ∀ a ∈ l, (file a).last < (nameIndex f.1).getD (2 ^ 64 - 1) := by
  induction l using List.reverseRecOn with
  | nil => simp [keepFiles]
  | append_singleton l a ih =>
    rw [keepFiles_concat, keepFile, mem_compactLog]
    grind

theorem mem_keepFiles_of_lastUnder (disk : Disk) {i : ℕ} {a : α} (h : lastUnder file l i = some a) :
    (⟨snapName i, (file a).sealed⟩ : Σ _ : String, Bytes) ∈
      (keepFiles file disk l).snapshots.entries := by
  refine AList.mem_lookup_iff.mp ?_
  rw [lookup_keepFiles, h]
  rfl

theorem contents_keepFiles (hnone : ∀ name ∈ disk.snapshots.keys, isSnapshot name = false)
    (hfile : f ∈ (keepFiles file disk l).snapshots.entries) (hsnap : isSnapshot f.1 = true) :
    ∃ a b, a ∈ l ∧ f.1 = snapName (file a).last ∧ lastUnder file l (file a).last = some b ∧
      f.2 = (file b).sealed := by
  obtain ⟨a, ha, hname⟩ := exists_of_mem_keepFiles hnone l (List.mem_keys_of_mem hfile) hsnap
  obtain ⟨b, hb⟩ := exists_lastUnder file ha
  have hlookup := HashMap.lookup_of_mem (k := f.1) (v := f.2) hfile
  rw [hname, lookup_keepFiles, hb] at hlookup
  exact ⟨a, b, ha, hname, hb, (Option.some.inj hlookup).symm⟩

theorem latestSnapshotFile_keepFiles {listed : Disk}
    (hnone : ∀ name ∈ disk.snapshots.keys, isSnapshot name = false)
    (hlisted : listed.snapshots.entries.Perm (keepFiles file disk l).snapshots.entries)
    (hlast : latestSnapshotFile listed.snapshots = some f) :
    ∃ a b, a ∈ l ∧ f.1 = snapName (file a).last ∧ lastUnder file l (file a).last = some b ∧
      f.2 = (file b).sealed := by
  obtain ⟨hentry, hsnap⟩ := List.mem_filter.mp (List.mem_of_getLast? hlast)
  exact contents_keepFiles hnone (hlisted.mem_iff.mp hentry) hsnap

end Files

variable (st : RaftStorage)

/-- Save the snapshot and then compact the log. -/
def housekeep (disk : Disk) (r : Round) : Disk :=
  compactLog (st.saveSnapshot r.nonce disk r.last r.snapshot) r.last

/-- The disk after a number of rounds. -/
def housekeepAll (disk : Disk) (rounds : List Round) : Disk := rounds.foldl st.housekeep disk

/-- The file that a round leaves. -/
def roundFile (r : Round) : SnapFile := ⟨r.last, st.encrypt r.nonce r.snapshot snapshotAad⟩

theorem housekeepAll_eq (disk : Disk) (rounds : List Round) :
    st.housekeepAll disk rounds = keepFiles st.roundFile disk rounds := rfl

end RaftStorage

/-! ### What a boot loads -/

variable {st : RaftStorage} {rounds : List Round} {disk listed : Disk}

/-- The greatest index under which a snapshot was saved. -/
def IsNewest (rounds : List Round) (i : ℕ) : Prop :=
  (∃ r ∈ rounds, r.last = i) ∧ ∀ r ∈ rounds, r.last ≤ i

/-- The boot loads the newest snapshot, as it was saved. -/
def LoadsNewest (st : RaftStorage) (rounds : List Round) (listed : Disk) : Prop :=
  ∀ i r, IsNewest rounds i → lastUnder st.roundFile rounds i = some r →
    st.loadLatestSnapshot listed = .ok (some (i, r.snapshot))

/-- No log entry after the snapshot that the boot loads is missing. -/
def LogCovers (st : RaftStorage) (disk listed : Disk) : Prop :=
  ∀ i data, st.loadLatestSnapshot listed = .ok (some (i, data)) →
    ∀ f ∈ disk.log.entries, ∀ j, nameIndex f.1 = some j → i < j → f ∈ listed.log.entries

/-- The listing of the snapshot files ends with the newest one. -/
def EndsWithNewest (rounds : List Round) (names : List String) : Prop :=
  ∀ i, IsNewest rounds i → (names.filter isSnapshot).getLast? = some (snapName i)

theorem exists_newest {r : Round} (h : r ∈ rounds) : ∃ i, IsNewest rounds i := by
  have hne : rounds.map (·.last) ≠ [] := by
    rw [Ne, List.map_eq_nil_iff]
    exact List.ne_nil_of_mem h
  obtain ⟨i, hi⟩ := Option.isSome_iff_exists.mp (List.isSome_max?_of_ne_nil hne)
  obtain ⟨hmem, hle⟩ := List.max?_eq_some_iff.mp hi
  obtain ⟨r', hr', rfl⟩ := List.mem_map.mp hmem
  exact ⟨_, ⟨r', hr', rfl⟩, fun r'' h'' => hle _ (List.mem_map_of_mem h'')⟩

theorem loadLatestSnapshot_eq (hnone : ∀ name ∈ disk.snapshots.keys, isSnapshot name = false)
    (hlisted : listed.SameFiles (st.housekeepAll disk rounds)) {f : Σ _ : String, Bytes}
    (hlast : latestSnapshotFile listed.snapshots = some f) :
    ∃ r r', r ∈ rounds ∧ f.1 = snapName r.last ∧ lastUnder st.roundFile rounds r.last = some r' ∧
      st.loadLatestSnapshot listed = .ok (some (r.last, r'.snapshot)) := by
  rw [housekeepAll_eq] at hlisted
  obtain ⟨r, r', hr, hname, hr', hcontents⟩ := latestSnapshotFile_keepFiles hnone hlisted.2 hlast
  refine ⟨r, r', hr, hname, hr', ?_⟩
  have hname' : f.1 = snapName r.last := hname
  have hcontents' : f.2 = st.encrypt r'.nonce r'.snapshot snapshotAad := hcontents
  rw [loadLatestSnapshot, hlast]
  simp only [hcontents', st.decrypt_encrypt, hname', nameIndex_snapName r.inRange]
  rfl

/-- EXACT: the boot loads the newest snapshot, and the log is not compacted beyond it, if and only
    if the listing of the snapshot files ends with the newest one. -/
theorem loads_newest_iff (st : RaftStorage) (disk : Disk)
    (hnone : ∀ name ∈ disk.snapshots.keys, isSnapshot name = false) (rounds : List Round)
    (listed : Disk) (hlisted : listed.SameFiles (st.housekeepAll disk rounds)) :
    LoadsNewest st rounds listed ∧ LogCovers st disk listed ↔
      EndsWithNewest rounds listed.snapshots.keys := by
  constructor
  · rintro ⟨hloads, -⟩ i hi
    obtain ⟨r₀, hr₀, hlast₀⟩ := hi.1
    obtain ⟨r₁, hr₁⟩ : ∃ r₁, lastUnder st.roundFile rounds i = some r₁ :=
      hlast₀ ▸ exists_lastUnder st.roundFile hr₀
    have hload := hloads i r₁ hi hr₁
    rw [← map_fst_latestSnapshotFile]
    rcases hlast : latestSnapshotFile listed.snapshots with _ | f
    · rw [loadLatestSnapshot, hlast] at hload
      cases hload
    · obtain ⟨r, r', -, hname, -, hload'⟩ := loadLatestSnapshot_eq hnone hlisted hlast
      obtain ⟨heq, -⟩ : i = r.last ∧ r₁.snapshot = r'.snapshot := by
        simpa using hload.symm.trans hload'
      rw [heq]
      exact congrArg some hname
  · intro hends
    -- what is loaded is the newest
    have hnewest : ∀ f, latestSnapshotFile listed.snapshots = some f → ∃ r r' : Round,
        IsNewest rounds r.last ∧ lastUnder st.roundFile rounds r.last = some r' ∧
        st.loadLatestSnapshot listed = .ok (some (r.last, r'.snapshot)) := by
      intro f hlast
      obtain ⟨r, r', hr, hname, hr', hload⟩ := loadLatestSnapshot_eq hnone hlisted hlast
      obtain ⟨i, hi⟩ := exists_newest hr
      have hkey := hends i hi
      rw [← map_fst_latestSnapshotFile, hlast, Option.map_some, hname] at hkey
      cases snapName_inj (Option.some.inj hkey)
      exact ⟨r, r', hi, hr', hload⟩
    constructor
    · intro i r hi hr
      have hkey := hends i hi
      rw [← map_fst_latestSnapshotFile] at hkey
      obtain ⟨f, hlast, -⟩ := Option.map_eq_some_iff.mp hkey
      obtain ⟨r₁, r₁', hi₁, hr₁, hload⟩ := hnewest f hlast
      obtain ⟨r₀, hr₀, rfl⟩ := hi.1
      obtain ⟨r₂, hr₂, hlast₂⟩ := hi₁.1
      -- two greatest indices are equal
      have heq : r₁.last = r₀.last := le_antisymm (hlast₂ ▸ hi.2 r₂ hr₂) (hi₁.2 r₀ hr₀)
      rw [heq] at hr₁ hload
      cases hr.symm.trans hr₁
      exact hload
    · intro i data hload f hf j hj hlt
      rcases hlast : latestSnapshotFile listed.snapshots with _ | g
      · rw [loadLatestSnapshot, hlast] at hload
        cases hload
      · obtain ⟨r, r', hi, -, hload'⟩ := hnewest g hlast
        cases hload.symm.trans hload'
        rw [housekeepAll_eq] at hlisted
        refine hlisted.1.mem_iff.mpr ((mem_log_keepFiles rounds).mpr ⟨hf, fun r'' hr'' => ?_⟩)
        rw [hj, Option.getD_some]
        exact (hi.2 r'' hr'').trans_lt hlt

/-! ### Two snapshots -/

def someNonce : Nonce := ⟨List.replicate 12 0, rfl⟩
def firstRound : Round := ⟨1, by norm_num, someNonce, [1]⟩
def secondRound : Round := ⟨2, by norm_num, someNonce, [2]⟩

/-- A log with the entry that the second round covers. -/
def oneEntry : Disk := { log := [⟨logName 2, [0]⟩].toAList }

/-- A log with that entry and the next. -/
def twoEntries : Disk := { log := [⟨logName 2, [0]⟩, ⟨logName 3, [0]⟩].toAList }

/-- The directory lists the newer file first. -/
theorem entries_twoRounds (st : RaftStorage) (log : Dir) :
    (st.housekeepAll { log } [firstRound, secondRound]).snapshots.entries =
      [⟨snapName 2, st.encrypt someNonce [2] snapshotAad⟩,
        ⟨snapName 1, st.encrypt someNonce [1] snapshotAad⟩] := by
  have hne : snapName 2 ∉ (AList.insert (snapName 1)
      (st.encrypt someNonce [1] snapshotAad) (∅ : Dir)) := by
    intro h
    rcases (AList.mem_insert _).mp h with h | h
    · exact absurd (snapName_inj h) (by norm_num)
    · cases h
  exact AList.entries_insert_of_notMem hne

/-- The disk after both rounds, with its snapshots listed in the order of their indices. -/
def listedInOrder (st : RaftStorage) : Disk :=
  let disk := st.housekeepAll twoEntries [firstRound, secondRound]
  { disk with snapshots := ⟨disk.snapshots.entries.reverse,
      (List.perm_nodupKeys (List.reverse_perm _)).mpr disk.snapshots.nodupKeys⟩ }

theorem loads_second_snapshot : Nonempty RaftStorage ∧ ∀ st : RaftStorage,
    LoadsNewest st [firstRound, secondRound] (listedInOrder st) ∧
      LogCovers st twoEntries (listedInOrder st) := by
  refine ⟨RaftStorage.nonempty, fun st => ?_⟩
  have hnone : ∀ name ∈ twoEntries.snapshots.keys, isSnapshot name = false := by
    intro name h
    cases h
  refine (loads_newest_iff st twoEntries hnone [firstRound, secondRound] (listedInOrder st)
    ⟨.refl _, List.reverse_perm _⟩).mpr ?_
  rintro i ⟨⟨r, hr, rfl⟩, hmax⟩
  have hlast : r.last = 2 := by
    have hle : 2 ≤ r.last := hmax secondRound (by simp)
    rcases List.mem_pair.mp hr with rfl | rfl
    · exact absurd hle (by decide)
    · rfl
  have hkeys : (listedInOrder st).snapshots.keys = [snapName 1, snapName 2] := by
    change (List.reverse _).map Sigma.fst = _
    rw [twoEntries, entries_twoRounds]
    rfl
  rw [hlast, hkeys]
  simp [isSnapshot_snapName]

/-- With every storage, two snapshots listed newest first: the boot loads the older one, and the log
    entry after it is gone. -/
theorem older_snapshot_loaded : Nonempty RaftStorage ∧ ∀ st : RaftStorage,
    ∃ listed : Disk, listed.SameFiles (st.housekeepAll oneEntry [firstRound, secondRound]) ∧
      st.loadLatestSnapshot listed = .ok (some (1, [1])) ∧
      (⟨logName 2, [0]⟩ : Σ _ : String, Bytes) ∈ oneEntry.log.entries ∧
      nameIndex (logName 2) = some 2 ∧
      (⟨logName 2, [0]⟩ : Σ _ : String, Bytes) ∉ listed.log.entries := by
  refine ⟨RaftStorage.nonempty, fun st => ?_⟩
  refine ⟨st.housekeepAll oneEntry [firstRound, secondRound], ⟨.refl _, .refl _⟩, ?_, ?_,
    nameIndex_logName (by norm_num), ?_⟩
  · have hlast : latestSnapshotFile (st.housekeepAll oneEntry [firstRound, secondRound]).snapshots =
        some ⟨snapName 1, st.encrypt someNonce [1] snapshotAad⟩ := by
      have hsnap : ∀ i, decide ((Text.fileParts (snapName i)).2 = some "snap") = true :=
        isSnapshot_snapName
      rw [latestSnapshotFile, oneEntry, entries_twoRounds]
      simp [hsnap]
    rw [loadLatestSnapshot, hlast]
    simp only [st.decrypt_encrypt, nameIndex_snapName (i := 1) (by norm_num)]
    rfl
  · exact List.mem_singleton_self _
  · rw [housekeepAll_eq, mem_log_keepFiles]
    rintro ⟨-, hall⟩
    have hlt := hall secondRound (by simp)
    rw [nameIndex_logName (by norm_num)] at hlt
    exact lt_irrefl 2 hlt

end Ekafleet.Raft
