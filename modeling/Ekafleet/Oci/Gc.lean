import Ekafleet.Oci.Store

/-! Image history and garbage collection | source: agent/oci/{store,gc,mod}.rs

    The history of a service is a set of files `<service>.<generation>` in one directory. What is
    listed or pruned for a service is found by a whole file name, and the last dot of a name tells
    whose it is; what is removed is found by a beginning of the name. Files are not
    touched by anyone else here, and no operation on them fails. -/

namespace Ekafleet.Oci

/-! ### The history of one service -/

def historyKey (serviceName : String) (generation : ℕ) : String := s!"{serviceName}.{generation}"

/-- The generation a file is listed with for a service. -/
def generationOf (serviceName file : String) : Option ℕ := do
  Text.parseUnsigned (2 ^ 64) (← Text.stripPrefix s!"{serviceName}." file)

/-- The generations beyond the `retain` newest ones. -/
def excessGenerations (serviceName : String) (retain : ℕ) (dir : HashMap String Bytes) : List ℕ :=
  ((historyEntries serviceName dir).drop retain).map (·.1)

/-- Keep the newest generations. -/
def pruneHistory (serviceName : String) (retain : ℕ) (dir : HashMap String Bytes) :
    HashMap String Bytes :=
  (excessGenerations serviceName retain dir).foldl
    (fun dir generation => dir.erase (historyKey serviceName generation)) dir

/-- Delete a service's history. -/
def removeHistory (serviceName : String) (dir : HashMap String Bytes) : HashMap String Bytes :=
  dir.retain fun file _ => !(s!"{serviceName}.".toList.isPrefixOf file.toList)

/-- What is done to the history of a service. -/
inductive HistoryOp where
  | put (data : Bytes)
  | list
  | prune (retain : ℕ)
  | remove

/-- What an operation on the history of a service leaves in the directory, and what it has read. -/
def HistoryOp.apply (serviceName : String) (dir : HashMap String Bytes) :
    HistoryOp → HashMap String Bytes × List (ℕ × Bytes)
  | .put data =>
    (dir.insert (historyKey serviceName (nextGeneration serviceName dir)) data,
      historyEntries serviceName dir)
  | .list => (dir, historyEntries serviceName dir)
  | .prune retain => (pruneHistory serviceName retain dir, historyEntries serviceName dir)
  | .remove => (removeHistory serviceName dir, [])

/-- The other name goes on with a dot where the name ends. -/
def Extends (name other : String) : Prop := s!"{name}.".toList <+: other.toList

instance (name other : String) : Decidable (Extends name other) :=
  inferInstanceAs (Decidable (_ <+: _))

/-! ### Whose file it is -/

theorem toList_historyKey (name : String) (generation : ℕ) :
    (historyKey name generation).toList = name.toList ++ '.' :: (Nat.toDigits 10 generation) := by
  simp [historyKey]
  rfl

theorem toList_interpolate_dot (name : String) : (s!"{name}.").toList = name.toList ++ ['.'] := by
  simp
  rfl

theorem dot_not_mem_toDigits (n : ℕ) : '.' ∉ Nat.toDigits 10 n := by
  intro h
  exact absurd (Nat.isDigit_of_mem_toDigits (by decide) (by decide) h) (by decide)

/-- The last separator splits a text in one way only. -/
theorem append_last_inj {s s' t t' : List Char} (ht : '.' ∉ t) (ht' : '.' ∉ t')
    (h : s ++ '.' :: t = s' ++ '.' :: t') : s = s' ∧ t = t' := by
  have hlast := congrArg (fun l => Text.afterLast '.' (String.ofList l)) h
  simp only [Text.afterLast_append ht, Text.afterLast_append ht', String.ofList_inj] at hlast
  subst hlast
  exact ⟨List.append_cancel_right h, rfl⟩

theorem dot_not_mem_of_parseUnsigned {bound n : ℕ} {s : String}
    (h : Text.parseUnsigned bound s = some n) : '.' ∉ s.toList := by
  intro hdot
  unfold Text.parseUnsigned at h
  simp only [Option.ite_none_right_eq_some, Bool.and_eq_true, List.all_eq_true] at h
  obtain ⟨⟨⟨-, hall⟩, -⟩, -⟩ := h
  split at hall
  · next ds hplus =>
    rw [hplus] at hdot
    rcases List.mem_cons.mp hdot with h | h
    · cases h
    · exact absurd (hall _ h) (by decide)
  · exact absurd (hall _ hdot) (by decide)

variable {name other file : String} {dir : HashMap String Bytes} {data : Bytes}

variable {g retain : ℕ}

theorem owner_of_generationOf {generation : ℕ}
    (h : generationOf name (historyKey other generation) = some g) : name = other := by
  obtain ⟨t, hstrip, hparse⟩ := Option.bind_eq_some_iff.mp h
  have heq := congrArg String.toList (Text.stripPrefix_eq_some hstrip)
  rw [toList_historyKey, String.toList_append, toList_interpolate_dot, List.append_assoc] at heq
  have hsame := (append_last_inj (dot_not_mem_toDigits generation)
    (dot_not_mem_of_parseUnsigned hparse) heq).1
  exact (String.toList_inj.mp hsame).symm

theorem historyKey_inj {g' : ℕ} :
    historyKey name g = historyKey other g' ↔ name = other ∧ g = g' := by
  refine ⟨fun h => ?_, by rintro ⟨rfl, rfl⟩; rfl⟩
  have hlist := congrArg String.toList h
  rw [toList_historyKey, toList_historyKey] at hlist
  obtain ⟨hname, hdigits⟩ :=
    append_last_inj (dot_not_mem_toDigits g) (dot_not_mem_toDigits g') hlist
  exact ⟨String.toList_inj.mp hname, Text.repr_inj.mp (congrArg String.ofList hdigits)⟩

/-- EXACT: the beginning that removal looks for is that of the other's files exactly when the
    other name goes on behind a dot. -/
theorem removes_iff (hne : name ≠ other) (generation : ℕ) :
    s!"{name}.".toList.isPrefixOf (historyKey other generation).toList = true ↔
      Extends name other := by
  rw [ List.isPrefixOf_iff_prefix, Extends, toList_historyKey, toList_interpolate_dot]
  refine ⟨fun hstart => ?_, fun h => h.trans (List.prefix_append _ _)⟩
  obtain ⟨rest, h⟩ := hstart
  rcases List.append_eq_append_iff.mp h with ⟨a, hother, -⟩ | ⟨c, hname, hdigits⟩
  · exact ⟨a, hother.symm⟩
  · -- The beginning ends inside the generation, which has no dot.
    rcases c with _ | ⟨x, c⟩
    · rw [List.append_nil] at hname
      exact ⟨[], by simpa using hname⟩
    · obtain ⟨rfl, hrest⟩ := List.cons.inj hdigits
      have hdot : '.' ∉ c := fun hc => dot_not_mem_toDigits generation
        (hrest ▸ List.mem_append_left _ hc)
      obtain ⟨hsame, -⟩ := append_last_inj (by simp) hdot hname
      exact absurd (String.toList_inj.mp hsame) hne

/-! ### Isolation -/

theorem historyEntries_eq (name : String) (dir : HashMap String Bytes) :
    historyEntries name dir = (dir.entries.filterMap fun e =>
      (generationOf name e.1).map fun g => (g, e.2)).insertionSort fun a b => b.1 ≤ a.1 := by
  unfold historyEntries
  congr 2
  funext e
  rw [generationOf]
  rcases Text.stripPrefix s!"{name}." e.1 with _ | t
  · rfl
  · change (Text.parseUnsigned (2 ^ 64) t).bind _ = Option.map _ (Text.parseUnsigned (2 ^ 64) t)
    cases Text.parseUnsigned (2 ^ 64) t <;> rfl

/-- A file that is not listed for a service can be taken away unnoticed. -/
theorem historyEntries_erase (h : generationOf name file = none) (dir : HashMap String Bytes) :
    historyEntries name (dir.erase file) = historyEntries name dir := by
  rw [historyEntries_eq, historyEntries_eq]
  congr 1
  change List.filterMap _ (dir.entries.kerase file) = _
  induction dir.entries with
  | nil => rfl
  | cons e l ih =>
    by_cases hfile : file = e.1
    · rw [List.kerase_cons_eq hfile, List.filterMap_cons_none]
      rw [← hfile, h]
      rfl
    · rw [List.kerase_cons_ne hfile, List.filterMap_cons, List.filterMap_cons, ih]

theorem lookup_foldl_erase {α : Type} (key : α → String) (k : String) (l : List α)
    (dir : HashMap String Bytes) :
    (l.foldl (fun dir a => dir.erase (key a)) dir).lookup k =
      if k ∈ l.map key then none else dir.lookup k := by
  induction l generalizing dir with
  | nil => simp
  | cons a l ih =>
    rw [List.foldl_cons, ih, HashMap.lookup_erase]
    grind

theorem lookup_pruneHistory (name : String) (retain : ℕ) (dir : HashMap String Bytes) (k : String) :
    (pruneHistory name retain dir).lookup k =
      if ∃ g ∈ excessGenerations name retain dir, historyKey name g = k then none
      else dir.lookup k := by
  rw [pruneHistory, lookup_foldl_erase]
  simp only [List.mem_map]

theorem lookup_of_pruneHistory (h : (pruneHistory name retain dir).lookup file = some data) :
    dir.lookup file = some data := by
  rw [lookup_pruneHistory] at h
  split_ifs at h
  exact h

theorem lookup_removeHistory (hne : name ≠ other) (generation : ℕ) (dir : HashMap String Bytes) :
    (removeHistory name dir).lookup (historyKey other generation) =
      if Extends name other then none else dir.lookup (historyKey other generation) := by
  have hiff := removes_iff hne generation
  ext v
  rw [removeHistory, HashMap.lookup_retain_eq_some]
  split_ifs with hextends
  · rw [hiff.mpr hextends]
    simp
  · rw [Bool.eq_false_iff.mpr (mt hiff.mp hextends)]
    simp

/-- EXACT: no operation on the history of one service reads or changes a file of the other one,
    whatever is in the directory, exactly when the other name does not go on behind a dot where
    the first one ends. -/
theorem history_isolated_iff {name other : String} (hne : name ≠ other) :
    (∀ (op : HistoryOp) (dir : HashMap String Bytes) (generation : ℕ),
      (op.apply name dir).1.lookup (historyKey other generation) =
          dir.lookup (historyKey other generation) ∧
        (op.apply name (dir.erase (historyKey other generation))).2 = (op.apply name dir).2) ↔
      ¬ Extends name other := by
  constructor
  · intro h hextends
    have hkept := (h .remove ((∅ : HashMap String Bytes).insert (historyKey other 1) []) 1).1
    change (removeHistory name _).lookup _ = _ at hkept
    rw [lookup_removeHistory hne, if_pos hextends, AList.lookup_insert] at hkept
    cases hkept
  · intro hapart op dir generation
    have hforeign : generationOf name (historyKey other generation) = none :=
      Option.eq_none_iff_forall_ne_some.mpr fun g hg => hne (owner_of_generationOf hg)
    have hread := historyEntries_erase hforeign dir
    cases op with
    | put data =>
      refine ⟨AList.lookup_insert_ne fun h => hne (historyKey_inj.mp h).1.symm, hread⟩
    | list => exact ⟨rfl, hread⟩
    | prune retain =>
      refine ⟨?_, hread⟩
      change (pruneHistory name retain dir).lookup _ = _
      rw [lookup_pruneHistory, if_neg]
      rintro ⟨g, -, hkey⟩
      exact hne (historyKey_inj.mp hkey).1
    | remove =>
      refine ⟨?_, rfl⟩
      change (removeHistory name dir).lookup _ = _
      rw [lookup_removeHistory hne, if_neg hapart]

/-- The history of `web.api` goes with that of `web`. -/
theorem removing_web_removes_web_api :
    (HistoryOp.remove.apply "web"
      ((∅ : HashMap String Bytes).insert (historyKey "web.api" 1) [123, 125])).1.lookup
        (historyKey "web.api" 1) = none := by
  decide +kernel

theorem history_isolated_web_db :
    (HistoryOp.remove.apply "web"
      ((∅ : HashMap String Bytes).insert (historyKey "db" 1) [123, 125])).1.lookup
        (historyKey "db" 1) = some [123, 125] :=
  ((history_isolated_iff (by decide)).mpr (by decide) .remove _ 1).1.trans
    (AList.lookup_insert _)

/-! ### The collector -/

/-- The directories of the image store. -/
structure StoreDirs where
  blobs : HashMap String Bytes := ∅
  bundles : List String := []
  history : HashMap String Bytes := ∅

/-- What a collection reports. -/
structure GcResult where
  blobsRemoved : ℕ
  bundlesRemoved : ℕ
  bytesFreed : ℕ
  deriving DecidableEq, Repr

def ImageManifest.digests (m : ImageManifest) : List Digest :=
  m.config.digest :: m.layers.map (·.digest)

def listBlobs (blobs : HashMap String Bytes) : List Digest :=
  blobs.keys.filterMap fun hex => (Digest.parse s!"sha256:{hex}").toOption

/-- The manifests among the newest history entries of a service; others are passed over. -/
def retainedOf (lib : ImageLib) (retain : ℕ) (dir : HashMap String Bytes) (service : String) :
    List ImageManifest :=
  ((historyEntries service dir).take retain).filterMap fun e => (lib.manifestJson e.2).toOption

/-- The blobs nothing refers to. -/
def unreferenced (blobs : HashMap String Bytes) (referenced : List Digest) : List Digest :=
  (listBlobs blobs).filter (· ∉ referenced)

/-- Remove what is not in use. -/
def collect (st : StoreDirs) (activeServices : List String)
    (activeManifests : List (String × ImageManifest)) (retainedManifests : List ImageManifest) :
    StoreDirs × GcResult :=
  let referenced := activeManifests.flatMap (·.2.digests) ++
    retainedManifests.flatMap (·.digests)
  let dead := unreferenced st.blobs referenced
  let inactive := st.bundles.filter (· ∉ activeServices)
  ({ blobs := dead.foldl (fun blobs d => blobs.erase d.hex) st.blobs
     bundles := st.bundles.filter (· ∈ activeServices)
     history := inactive.foldl (fun dir name => removeHistory name dir) st.history },
    { blobsRemoved := dead.length
      bundlesRemoved := inactive.length
      bytesFreed := (dead.map fun d =>
        ((st.blobs.lookup d.hex).map List.length).getD 0).sum })

/-- The retained manifests and the pruned history, one active service after the other. -/
def retainAll (lib : ImageLib) (activeServices : List String) (retain : ℕ)
    (dir : HashMap String Bytes) : List ImageManifest × HashMap String Bytes :=
  activeServices.foldl (fun acc service =>
    (acc.1 ++ retainedOf lib retain acc.2 service, pruneHistory service retain acc.2)) ([], dir)

/-- Collect, with retained generations. -/
def gc (lib : ImageLib) (st : StoreDirs) (activeServices : List String)
    (activeManifests : List (String × ImageManifest)) (retainGenerations : ℕ) :
    StoreDirs × GcResult :=
  let (retained, history) := retainAll lib activeServices retainGenerations st.history
  collect { st with history } activeServices activeManifests retained

/-- The blobs that an active manifest or a retained one refers to. -/
def live (lib : ImageLib) (st : StoreDirs) (activeServices : List String)
    (activeManifests : List (String × ImageManifest)) (retain : ℕ) : List Digest :=
  activeManifests.flatMap (·.2.digests) ++
    (activeServices.flatMap (retainedOf lib retain st.history)).flatMap (·.digests)

/-- The history directory holds what `put_history` writes. -/
def CanonicalHistory (dir : HashMap String Bytes) : Prop :=
  ∀ file data, dir.lookup file = some data →
    ∃ service generation, generation < 2 ^ 64 ∧ file = historyKey service generation

theorem nextGeneration_lt (name : String) (dir : HashMap String Bytes) :
    nextGeneration name dir < 2 ^ 64 := by
  unfold nextGeneration
  split
  · decide
  · exact Nat.mod_lt _ (by decide)

/-- STEP: an operation on the history of any service leaves entries only. -/
theorem CanonicalHistory.apply (h : CanonicalHistory dir) (name : String) (op : HistoryOp)
    : CanonicalHistory (op.apply name dir).1 := by
  intro file data hlookup
  cases op with
  | put bytes =>
    rw [HistoryOp.apply, HashMap.lookup_insert] at hlookup
    split_ifs at hlookup with hsame
    · exact ⟨name, _, nextGeneration_lt name dir, hsame⟩
    · exact h file data hlookup
  | list => exact h file data hlookup
  | prune retain => exact h file data (lookup_of_pruneHistory hlookup)
  | remove => exact h file data (HashMap.lookup_retain_eq_some.mp hlookup).1

theorem Digest.parse_hex (hex : String) (d : Digest) :
    (Digest.parse s!"sha256:{hex}").toOption = some d ↔ d.hex = hex := by
  constructor
  · intro h
    have hstrip : Text.stripPrefix "sha256:" s!"sha256:{hex}" = some hex :=
      Text.stripPrefix_append "sha256:" hex
    rw [Digest.parse, hstrip] at h
    simp only at h
    split_ifs at h
    · cases h
    · cases h
      rfl
    · cases h
  · rintro rfl
    exact congrArg Except.toOption d.parse_display

theorem mem_listBlobs {blobs : HashMap String Bytes} {d : Digest} :
    d ∈ listBlobs blobs ↔ d.hex ∈ blobs := by
  simp only [listBlobs, List.mem_filterMap, Digest.parse_hex]
  constructor
  · rintro ⟨hex, hmem, h⟩
    exact h ▸ hmem
  · exact fun h => ⟨d.hex, h, rfl⟩

/-! ### What is left of the history -/

theorem historyEntries_pruneHistory (hne : other ≠ name) (retain : ℕ) (dir : HashMap String Bytes) :
    historyEntries other (pruneHistory name retain dir) = historyEntries other dir := by
  rw [pruneHistory]
  induction excessGenerations name retain dir generalizing dir with
  | nil => rfl
  | cons g l ih =>
    have hforeign : generationOf other (historyKey name g) = none :=
      Option.eq_none_iff_forall_ne_some.mpr fun g hg => hne (owner_of_generationOf hg)
    rw [List.foldl_cons, ih, historyEntries_erase hforeign]

variable {active names : List String} {service : String}

theorem retainAll_eq (lib : ImageLib) (hnodup : active.Nodup) (retain : ℕ)
    (dir : HashMap String Bytes) :
    retainAll lib active retain dir = (active.flatMap (retainedOf lib retain dir),
      active.foldl (fun dir service => pruneHistory service retain dir) dir) := by
  suffices h : ∀ acc, active.foldl (fun acc service =>
      (acc.1 ++ retainedOf lib retain acc.2 service, pruneHistory service retain acc.2))
        (acc, dir) =
      (acc ++ active.flatMap (retainedOf lib retain dir),
        active.foldl (fun dir service => pruneHistory service retain dir) dir) by
    exact h []
  intro acc
  induction active generalizing acc dir with
  | nil => simp
  | cons service rest ih =>
    obtain ⟨hnot, hrest⟩ := List.nodup_cons.mp hnodup
    have hsame : rest.flatMap (retainedOf lib retain (pruneHistory service retain dir)) =
        rest.flatMap (retainedOf lib retain dir) := by
      refine List.flatMap_congr fun other hother => ?_
      rw [retainedOf, historyEntries_pruneHistory (ne_of_mem_of_not_mem hother hnot), retainedOf]
    rw [List.foldl_cons, ih hrest, hsame, List.flatMap_cons, List.foldl_cons, List.append_assoc]

theorem lookup_pruneHistory_key (name other : String) (retain g : ℕ) (dir : HashMap String Bytes) :
    (pruneHistory name retain dir).lookup (historyKey other g) =
      if name = other ∧ g ∈ excessGenerations name retain dir then none
      else dir.lookup (historyKey other g) := by
  rw [lookup_pruneHistory]
  simp only [historyKey_inj]
  refine if_congr ⟨?_, ?_⟩ rfl rfl
  · rintro ⟨g', hg', hname, heq⟩
    exact ⟨hname, heq ▸ hg'⟩
  · rintro ⟨hname, hg⟩
    exact ⟨g, hg, hname, rfl⟩

theorem lookup_prunes (hnodup : active.Nodup) (retain : ℕ) (g : ℕ) (dir : HashMap String Bytes) :
    (active.foldl (fun dir service => pruneHistory service retain dir) dir).lookup
        (historyKey service g) =
      if service ∈ active ∧ g ∈ excessGenerations service retain dir then none
      else dir.lookup (historyKey service g) := by
  induction active generalizing dir with
  | nil => simp
  | cons name rest ih =>
    obtain ⟨hnot, hrest⟩ := List.nodup_cons.mp hnodup
    rw [List.foldl_cons, ih hrest, lookup_pruneHistory_key]
    by_cases hname : service = name
    · subst hname
      simp [hnot]
    · rw [excessGenerations, historyEntries_pruneHistory hname, ← excessGenerations]
      simp [hname, Ne.symm hname]

theorem lookup_removals (h : ∀ name ∈ names, name ≠ service ∧ ¬ Extends name service) (g : ℕ)
    (dir : HashMap String Bytes) :
    (names.foldl (fun dir name => removeHistory name dir) dir).lookup (historyKey service g) =
      dir.lookup (historyKey service g) := by
  induction names generalizing dir with
  | nil => rfl
  | cons name rest ih =>
    rw [List.forall_mem_cons] at h
    rw [List.foldl_cons, ih h.2, lookup_removeHistory h.1.1, if_neg h.1.2]

theorem lookup_of_prunes :
    ∀ {dir : HashMap String Bytes},
      (active.foldl (fun dir service => pruneHistory service retain dir) dir).lookup file =
        some data → dir.lookup file = some data := by
  induction active with
  | nil => exact id
  | cons name rest ih => exact fun h => lookup_of_pruneHistory (ih h)

theorem lookup_of_removals :
    ∀ {dir : HashMap String Bytes},
      (names.foldl (fun dir name => removeHistory name dir) dir).lookup file = some data →
        dir.lookup file = some data := by
  induction names with
  | nil => exact id
  | cons name rest ih =>
    intro dir h
    exact (HashMap.lookup_retain_eq_some.mp (ih h)).1

theorem generationOf_historyKey (hg : g < 2 ^ 64) (name : String) :
    generationOf name (historyKey name g) = some g := by
  have hstrip : Text.stripPrefix s!"{name}." (historyKey name g) = some (toString g) :=
    Text.stripPrefix_append s!"{name}." (toString g)
  have hparse : Text.parseUnsigned (2 ^ 64) (toString g) = some g := by
    have hpadded := Text.parseUnsigned_padded hg 0
    rwa [Text.padded, List.leftpad, Nat.zero_sub, List.replicate_zero, List.nil_append,
      String.ofList_toList] at hpadded
  rw [generationOf, hstrip]
  exact hparse

/-- EXACT: what is listed of a directory that holds entries only. -/
theorem CanonicalHistory.mem_historyEntries (h : CanonicalHistory dir) :
    (g, data) ∈ historyEntries name dir ↔
      g < 2 ^ 64 ∧ dir.lookup (historyKey name g) = some data := by
  rw [historyEntries_eq, List.mem_insertionSort, List.mem_filterMap]
  constructor
  · rintro ⟨⟨file, data'⟩, hmem, hlisted⟩
    obtain ⟨g', hg', heq⟩ := Option.map_eq_some_iff.mp hlisted
    cases heq
    have hlookup := HashMap.lookup_of_mem hmem
    obtain ⟨service, generation, hlt, rfl⟩ := h file data' hlookup
    obtain rfl := owner_of_generationOf hg'
    rw [generationOf_historyKey hlt] at hg'
    cases hg'
    exact ⟨hlt, hlookup⟩
  · rintro ⟨hlt, hlookup⟩
    exact ⟨⟨_, data⟩, HashMap.mem_of_lookup hlookup, by rw [generationOf_historyKey hlt]; rfl⟩

theorem CanonicalHistory.nodup_historyEntries (h : CanonicalHistory dir) (name : String)
    : (historyEntries name dir).Nodup := by
  rw [historyEntries_eq, (List.perm_insertionSort _ _).nodup_iff, List.Nodup,
    List.pairwise_filterMap]
  refine (List.nodupKeys_iff_pairwise.mp dir.nodupKeys).imp_of_mem ?_
  rintro ⟨file, data⟩ ⟨file', data'⟩ hmem hmem' hne p hp p' hp' rfl
  obtain ⟨g, hg, rfl⟩ := Option.map_eq_some_iff.mp hp
  obtain ⟨g', hg', heq⟩ := Option.map_eq_some_iff.mp hp'
  cases heq
  obtain ⟨service, generation, hlt, rfl⟩ := h file data (HashMap.lookup_of_mem hmem)
  obtain ⟨service', generation', hlt', rfl⟩ := h file' data (HashMap.lookup_of_mem hmem')
  obtain rfl := owner_of_generationOf hg
  obtain rfl := owner_of_generationOf hg'
  rw [generationOf_historyKey hlt] at hg
  rw [generationOf_historyKey hlt', ← hg] at hg'
  cases hg'
  exact hne rfl

/-- The newest entries of an active service are still its newest ones after a collection. -/
theorem take_subset_take (hnodup : active.Nodup) (hcanonical : CanonicalHistory dir)
    (hactive : service ∈ active)
      (hnames : ∀ name ∈ names, name ≠ service ∧ ¬ Extends name service) :
    (historyEntries service dir).take retain ⊆
      (historyEntries service (names.foldl (fun dir name => removeHistory name dir)
        (active.foldl (fun dir service => pruneHistory service retain dir) dir))).take retain := by
  set dir' := names.foldl (fun dir name => removeHistory name dir)
    (active.foldl (fun dir service => pruneHistory service retain dir) dir) with hdir'
  have hcanonical' : CanonicalHistory dir' := fun file data h =>
    hcanonical file data (lookup_of_prunes (lookup_of_removals h))
  have hlookup : ∀ g, dir'.lookup (historyKey service g) =
      if g ∈ excessGenerations service retain dir then none
      else dir.lookup (historyKey service g) := by
    intro g
    rw [hdir', lookup_removals hnames, lookup_prunes hnodup]
    simp [hactive]
  have hsplit := List.take_append_drop retain (historyEntries service dir)
  -- What is left are the newest entries, and no others.
  have hiff : ∀ e, e ∈ historyEntries service dir' ↔
      e ∈ (historyEntries service dir).take retain := by
    rintro ⟨g, data⟩
    rw [hcanonical'.mem_historyEntries, hlookup]
    constructor
    · rintro ⟨hlt, hdata⟩
      split_ifs at hdata with hexcess
      have hmem := hcanonical.mem_historyEntries.mpr ⟨hlt, hdata⟩
      rw [← hsplit, List.mem_append] at hmem
      exact hmem.resolve_right fun hdrop => hexcess (List.mem_map.mpr ⟨_, hdrop, rfl⟩)
    · intro htake
      obtain ⟨hlt, hdata⟩ := hcanonical.mem_historyEntries.mp (List.mem_of_mem_take htake)
      refine ⟨hlt, ?_⟩
      rw [if_neg, hdata]
      intro hexcess
      obtain ⟨⟨g', data'⟩, hdrop, rfl⟩ := List.mem_map.mp hexcess
      have hdata' := (hcanonical.mem_historyEntries.mp (List.mem_of_mem_drop hdrop)).2
      cases hdata.symm.trans hdata'
      have hnodup := hcanonical.nodup_historyEntries service
      rw [← hsplit, List.nodup_append] at hnodup
      exact hnodup.2.2 _ htake _ hdrop rfl
  have hlength : (historyEntries service dir').length ≤ retain :=
    ((hcanonical'.nodup_historyEntries service).subperm fun e he => (hiff e).mp he).length_le.trans
      (List.length_take_le _ _)
  intro e he
  rw [List.take_of_length_le hlength]
  exact (hiff e).mpr he

/-! ### Exactness -/

section Exact
variable (lib : ImageLib) (st : StoreDirs) {active : List String}
  (manifests : List (String × ImageManifest)) (retain : ℕ)

theorem mem_unreferenced {blobs : HashMap String Bytes} {referenced : List Digest} {d : Digest} :
    d ∈ unreferenced blobs referenced ↔ d.hex ∈ blobs ∧ d ∉ referenced := by
  rw [unreferenced, List.mem_filter, mem_listBlobs, decide_eq_true_eq]

theorem gc_eq (hnodup : active.Nodup) :
    gc lib st active manifests retain = collect
      { st with
        history := active.foldl (fun dir service => pruneHistory service retain dir) st.history }
      active manifests
      (active.flatMap (retainedOf lib retain st.history)) := by
  rw [gc, retainAll_eq lib hnodup]

/-- EXACT: the blobs that are left. -/
theorem lookup_blobs_gc (hnodup : active.Nodup) (file : String) (data : Bytes) :
    (gc lib st active manifests retain).1.blobs.lookup file = some data ↔
      st.blobs.lookup file = some data ∧
        ∀ d : Digest, d.hex = file → d ∈ live lib st active manifests retain := by
  rw [gc_eq lib st manifests retain hnodup]
  change (List.foldl (fun blobs (d : Digest) => blobs.erase d.hex) st.blobs _).lookup file = _ ↔ _
  rw [lookup_foldl_erase]
  constructor
  · intro h
    split_ifs at h with hdead
    refine ⟨h, fun d hd => by_contra fun hlive => hdead (List.mem_map.mpr ⟨d, ?_, hd⟩)⟩
    exact mem_unreferenced.mpr ⟨HashMap.mem_iff_exists_lookup.mpr ⟨data, hd ▸ h⟩, hlive⟩
  · rintro ⟨h, hlive⟩
    rw [if_neg, h]
    intro hdead
    obtain ⟨d, hd, hhex⟩ := List.mem_map.mp hdead
    exact (mem_unreferenced.mp hd).2 (hlive d hhex)

/-- Collecting again finds nothing unreferenced. -/
theorem live_subset_live (hnodup : active.Nodup) (hcanonical : CanonicalHistory st.history)
    (hapart : ∀ name ∈ st.bundles, name ∉ active → ∀ service ∈ active, ¬ Extends name service) :
    live lib st active manifests retain ⊆
      live lib (gc lib st active manifests retain).1 active manifests retain := by
  intro d hd
  rcases List.mem_append.mp hd with hd | hd
  · exact List.mem_append_left _ hd
  · obtain ⟨m, hm, hdigest⟩ := List.mem_flatMap.mp hd
    obtain ⟨service, hservice, hretained⟩ := List.mem_flatMap.mp hm
    obtain ⟨e, he, hparsed⟩ := List.mem_filterMap.mp hretained
    refine List.mem_append_right _ (List.mem_flatMap.mpr ⟨m, List.mem_flatMap.mpr
      ⟨service, hservice, List.mem_filterMap.mpr ⟨e, ?_, hparsed⟩⟩, hdigest⟩)
    rw [gc_eq lib st manifests retain hnodup]
    refine take_subset_take hnodup hcanonical hservice (fun name hname => ?_) he
    rw [List.mem_filter, decide_eq_true_eq] at hname
    exact ⟨fun h => hname.2 (h ▸ hservice), hapart name hname.1 hname.2 service hservice⟩

/-- CORRECT: the collector removes exactly the blobs no active and no retained manifest refers to
    and the bundles of the services that are not active, and keeps every blob of those manifests.
    With entries only in the history, and no service name that goes on behind a dot where another
    one ends, it removes nothing when it runs again. -/
theorem gc_removes_exactly_the_unreferenced (hnodup : active.Nodup) :
    let after := (gc lib st active manifests retain).1
    (∀ file data, after.blobs.lookup file = some data ↔ st.blobs.lookup file = some data ∧
      ∀ d : Digest, d.hex = file → d ∈ live lib st active manifests retain) ∧
    (∀ name, name ∈ after.bundles ↔ name ∈ st.bundles ∧ name ∈ active) ∧
    (∀ d ∈ live lib st active manifests retain,
      after.blobs.lookup d.hex = st.blobs.lookup d.hex) ∧
    (CanonicalHistory st.history →
      (∀ name ∈ st.bundles, name ∉ active → ∀ service ∈ active, ¬ Extends name service) →
      (gc lib after active manifests retain).1.blobs = after.blobs ∧
      (gc lib after active manifests retain).1.bundles = after.bundles ∧
      (gc lib after active manifests retain).2 = ⟨0, 0, 0⟩) := by
  intro after
  have hblobs := lookup_blobs_gc lib st manifests retain hnodup
  have hbundles : after.bundles = st.bundles.filter (· ∈ active) := by
    change (gc lib st active manifests retain).1.bundles = _
    rw [gc_eq lib st manifests retain hnodup]
    rfl
  refine ⟨hblobs, fun name => by rw [hbundles]; simp, fun d hd => ?_, fun hcanonical hapart => ?_⟩
  · ext data
    rw [hblobs]
    refine and_iff_left fun d' hhex => ?_
    obtain ⟨hex, _⟩ := d
    obtain ⟨hex', _⟩ := d'
    cases hhex
    exact hd
  · have hnone : unreferenced after.blobs (live lib after active manifests retain) = [] := by
      refine List.eq_nil_iff_forall_not_mem.mpr fun d hd => ?_
      rw [mem_unreferenced, HashMap.mem_iff_exists_lookup] at hd
      obtain ⟨⟨data, hdata⟩, hdead⟩ := hd
      exact hdead (live_subset_live lib st manifests retain hnodup hcanonical hapart
        (((hblobs _ _).mp hdata).2 d rfl))
    have hinactive : after.bundles.filter (· ∉ active) = [] := by
      rw [hbundles]
      simp
    rw [gc_eq lib after manifests retain hnodup]
    rw [live] at hnone
    simp only [collect, hnone, hinactive]
    refine ⟨rfl, ?_, rfl⟩
    rw [hbundles]
    simp

end Exact

/-- The digest that has one byte throughout. -/
def mark (b : UInt8) : Digest := .ofHash ⟨List.replicate 32 b, rfl⟩

/-- An image whose configuration is its only blob. -/
def marked (b : UInt8) : ImageManifest := ⟨⟨mark b, none, none⟩, []⟩

/-- A library that reads a single byte as the image marked with it. -/
def markLib : ImageLib where
  sha256 data := ⟨List.replicate 32 (data.headD 0), rfl⟩
  manifestJson
    | [b] => .ok (marked b)
    | _ => .error "no manifest"
  indexJson _ := .error "no index"
  host := ⟨"amd64", "linux", none⟩

/-- The history of `web` after the images 3 and 2. -/
def markHistory : HashMap String Bytes :=
  ((HistoryOp.put [2]).apply "web" ((HistoryOp.put [3]).apply "web" ∅).1).1

/-- Four blobs, the bundles of an old service and of an active one, and two generations. -/
def markStore : StoreDirs where
  blobs := [⟨(mark 1).hex, [1]⟩, ⟨(mark 2).hex, [2]⟩, ⟨(mark 3).hex, [3]⟩,
    ⟨(mark 4).hex, [4]⟩].toAList
  bundles := ["old", "web"]
  history := markHistory

/-- Image 1 is active, the newest generation retains 2 and 3 is pruned; nothing refers to 4. -/
theorem gc_keeps_active_and_retained :
    let after := (gc markLib markStore ["web"] [("web", marked 1)] 1).1
    after.blobs.lookup (mark 1).hex = some [1] ∧ after.blobs.lookup (mark 2).hex = some [2] ∧
      after.blobs.lookup (mark 3).hex ≠ some [3] ∧ after.blobs.lookup (mark 4).hex ≠ some [4] ∧
      "old" ∉ after.bundles ∧ "web" ∈ after.bundles ∧
      (gc markLib after ["web"] [("web", marked 1)] 1).2 = ⟨0, 0, 0⟩ := by
  intro after
  obtain ⟨hblobs, hbundles, hkept, hagain⟩ := gc_removes_exactly_the_unreferenced markLib markStore
    [("web", marked 1)] 1 (List.nodup_singleton "web")
  have hlive : live markLib markStore ["web"] [("web", marked 1)] 1 = [mark 1, mark 2] := by
    decide +kernel
  have hempty : CanonicalHistory ∅ := fun _ _ h => by cases h
  rw [hlive] at hblobs hkept
  refine ⟨(hkept _ (by decide +kernel)).trans (by decide +kernel),
    (hkept _ (by decide +kernel)).trans (by decide +kernel),
    fun h => absurd (((hblobs _ _).mp h).2 (mark 3) rfl) (by decide +kernel),
    fun h => absurd (((hblobs _ _).mp h).2 (mark 4) rfl) (by decide +kernel),
    fun h => absurd ((hbundles "old").mp h).2 (by decide), (hbundles "web").mpr (by decide), ?_⟩
  exact (hagain ((hempty.apply "web" _).apply "web" _) (by decide)).2.2

end Ekafleet.Oci
