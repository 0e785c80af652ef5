import Ekafleet.Raft.Snapshots

/-! The encrypted log | source: raft/storage.rs

    The index of an entry stands in the name of its file, filled up with zeros to the length of the
    largest index, so the order of the names is that of the indices. -/

namespace Ekafleet.Raft
namespace RaftStorage

/-! ### The order of file names -/

/-- Digits of the same length that stand for a smaller number come first. -/
theorem lt_of_ofDigitChars_lt (suffix : List Char) : ∀ {l l' : List Char} {a b : ℕ},
    l.length = l'.length → (∀ c ∈ l, c.isDigit = true) → (∀ c ∈ l', c.isDigit = true) →
    Nat.ofDigitChars 10 l a < Nat.ofDigitChars 10 l' b →
      a < b ∨ a = b ∧ l ++ suffix < l' ++ suffix
  | [], [], a, b, _, _, _, h => .inl h
  | c :: l, c' :: l', a, b, hlength, hl, hl', h => by
    have hdigit : ∀ d : Char, d.isDigit = true → 48 ≤ d.toNat ∧ d.toNat ≤ 57 := fun d hd => by
      simp only [Char.isDigit, Bool.and_eq_true, decide_eq_true_eq] at hd
      exact hd
    obtain ⟨hlo, hhi⟩ := hdigit c (hl c List.mem_cons_self)
    obtain ⟨hlo', hhi'⟩ := hdigit c' (hl' c' List.mem_cons_self)
    rw [Nat.ofDigitChars_cons, Nat.ofDigitChars_cons] at h
    change Nat.ofDigitChars 10 l (10 * a + (c.toNat - 48)) <
      Nat.ofDigitChars 10 l' (10 * b + (c'.toNat - 48)) at h
    have hrest := lt_of_ofDigitChars_lt suffix (Nat.succ.inj hlength)
      (fun d hd => hl d (List.mem_cons_of_mem _ hd))
      (fun d hd => hl' d (List.mem_cons_of_mem _ hd)) h
    rw [List.cons_append, List.cons_append, List.cons_lt_cons_iff, Char.lt_def,
      ← Char.toNat_inj, UInt32.lt_iff_toNat_lt]
    change a < b ∨ a = b ∧ (c.toNat < c'.toNat ∨ _)
    rcases hrest with hlt | ⟨heq, hlt⟩
    · omega
    · have hsame : a = b ∧ c.toNat = c'.toNat := by omega
      exact .inr ⟨hsame.1, .inr ⟨hsame.2, hlt⟩⟩

theorem logName_lt {i j : ℕ} (hj : j < 2 ^ 64) (h : i < j) : logName i < logName j := by
  have hvalue : ∀ n, Nat.ofDigitChars 10 (Text.padded 20 n).toList 0 = n := fun n => by
    rw [Text.toList_padded, Nat.ofDigitChars_append, Nat.ofDigitChars_replicate_zero, Nat.mul_zero,
      Nat.ofDigitChars_toDigits (by decide) (by decide)]
  have hlength : ∀ n < 2 ^ 64, (Text.padded 20 n).toList.length = 20 := fun n hn => by
    have hle : (Nat.toDigits 10 n).length ≤ 20 :=
      (Nat.length_toDigits_le_iff (by decide) (by decide)).mpr (by omega)
    rw [Text.toList_padded, List.length_append, List.length_replicate]
    omega
  rw [String.lt_iff, logName, logName, String.toList_append, String.toList_append]
  have hlt := lt_of_ofDigitChars_lt ".log".toList (a := 0) (b := 0)
    ((hlength i (h.trans hj)).trans (hlength j hj).symm) (fun c => Text.isDigit_of_mem_padded)
    (fun c => Text.isDigit_of_mem_padded) (by rwa [hvalue, hvalue])
  exact (hlt.resolve_left (lt_irrefl 0)).2

theorem logName_lt_iff {i j : ℕ} (hi : i < 2 ^ 64) (hj : j < 2 ^ 64) :
    logName i < logName j ↔ i < j := by
  refine ⟨fun h => ?_, logName_lt hj⟩
  rcases lt_trichotomy i j with hlt | rfl | hgt
  · exact hlt
  · exact absurd h (String.lt_irrefl _)
  · exact absurd h (String.lt_asymm (logName_lt hi hgt))

theorem logName_inj {i j : ℕ} (hi : i < 2 ^ 64) (hj : j < 2 ^ 64) :
    logName i = logName j ↔ i = j := by
  refine ⟨fun h => ?_, congrArg logName⟩
  have hlt := logName_lt_iff hi hj
  have hgt := logName_lt_iff hj hi
  rw [h, iff_false_left (String.lt_irrefl _)] at hlt hgt
  omega

/-! ### The files of a log -/

section Log
variable (st : RaftStorage)

/-- The contents of the file of an entry. -/
def sealedEntry (x : Nonce × LogEntry) : Bytes :=
  st.encrypt x.1 (st.entryJson.encode x.2) logAad

/-- The log directory after entries have been appended to an empty one. -/
def appended (entries : List (Nonce × LogEntry)) : Disk :=
  entries.foldl (fun disk x => st.appendLog x.1 disk x.2) {}

/-- The indices are 64-bit numbers, and no two entries have the same. -/
def Distinct (entries : List (Nonce × LogEntry)) : Prop :=
  (∀ x ∈ entries, x.2.index < 2 ^ 64) ∧ (entries.map (·.2.index)).Nodup

variable {st} {entries : List (Nonce × LogEntry)}

theorem lookup_appended (h : Distinct entries) {file : String} {data : Bytes} :
    (st.appended entries).log.lookup file = some data ↔
      ∃ x ∈ entries, file = logName x.2.index ∧ data = st.sealedEntry x := by
  induction entries using List.reverseRecOn with
  | nil =>
    constructor
    · intro h
      cases h
    · rintro ⟨x, hx, -⟩
      cases hx
  | append_singleton entries x ih =>
    obtain ⟨hrange, hnodup⟩ := h
    rw [List.map_append, List.nodup_append] at hnodup
    have ih := ih ⟨fun y hy => hrange y (List.mem_append_left _ hy), hnodup.1⟩
    rw [appended, List.foldl_append]
    change ((st.appended entries).log.insert (logName x.2.index) (st.sealedEntry x)).lookup file =
      some data ↔ _
    rw [HashMap.lookup_insert]
    simp only [List.mem_append, List.mem_singleton, or_and_right, exists_or, exists_eq_left]
    split_ifs with hfile
    · subst hfile
      refine ⟨fun h => .inr ⟨rfl, (Option.some.inj h).symm⟩, ?_⟩
      rintro (⟨y, hy, hname, -⟩ | ⟨-, rfl⟩)
      · have hindex := (logName_inj (hrange x (by simp)) (hrange y (by simp [hy]))).mp hname
        exact absurd hindex.symm (hnodup.2.2 _ (List.mem_map_of_mem hy) _ (by simp))
      · rfl
    · rw [ih]
      exact ⟨.inl, fun h => h.resolve_right fun h => hfile h.1⟩

theorem readEntry_sealedEntry (x : Nonce × LogEntry) :
    st.readEntry (st.sealedEntry x) = .ok x.2 := by
  obtain ⟨entry, hdecode, rfl⟩ := st.entryJson.decode_encode x.2
  simp only [readEntry, sealedEntry, st.decrypt_encrypt, bind, Except.bind, hdecode]
  rfl

/-- Files that can all be read give their entries, in the same order. -/
theorem mapM_readEntry {P : (Σ _ : String, Bytes) → LogEntry → Prop} :
    ∀ {files : List (Σ _ : String, Bytes)}, (∀ f ∈ files, ∃ e, st.readEntry f.2 = .ok e ∧ P f e) →
      ∃ es, (files.mapM fun f => st.readEntry f.2) = .ok es ∧ List.Forall₂ P files es
  | [], _ => ⟨[], rfl, .nil⟩
  | f :: files, h => by
    obtain ⟨e, he, hP⟩ := h f List.mem_cons_self
    obtain ⟨es, hes, hrest⟩ := mapM_readEntry fun g hg => h g (List.mem_cons_of_mem _ hg)
    refine ⟨e :: es, ?_, .cons hP hrest⟩
    rw [List.mapM_cons, he]
    simp only [bind, Except.bind, hes]
    rfl

/-- A file holds an entry that was appended, under the name for its index. -/
def FileOf (st : RaftStorage) (entries : List (Nonce × LogEntry)) (f : Σ _ : String, Bytes)
    (e : LogEntry) : Prop :=
  ∃ nonce, (nonce, e) ∈ entries ∧ f.1 = logName e.index ∧ f.2 = st.sealedEntry (nonce, e)

/-- EXACT: the files that are left after a compaction, in whatever order they are listed. -/
theorem mem_compacted (h : Distinct entries) {upTo : ℕ} {log : Dir}
    (hlog : log.entries.Perm (st.appended entries).log.entries) {f : Σ _ : String, Bytes} :
    f ∈ (compactLog { log } upTo).log.entries ↔ ∃ e, FileOf st entries f e ∧ upTo < e.index := by
  obtain ⟨file, data⟩ := f
  rw [mem_compactLog, hlog.mem_iff, ← AList.mem_lookup_iff, Option.mem_def, lookup_appended h]
  constructor
  · rintro ⟨⟨⟨nonce, e⟩, hx, rfl, rfl⟩, hlt⟩
    rw [nameIndex_logName (h.1 _ hx)] at hlt
    exact ⟨e, ⟨nonce, hx, rfl, rfl⟩, hlt⟩
  · rintro ⟨e, ⟨nonce, hx, hfile, hdata⟩, hlt⟩
    refine ⟨⟨(nonce, e), hx, hfile, hdata⟩, ?_⟩
    change file = _ at hfile
    rw [hfile, nameIndex_logName (h.1 _ hx)]
    exact hlt

theorem FileOf.unique (h : Distinct entries) {f g : Σ _ : String, Bytes} {e e' : LogEntry}
    (he : FileOf st entries f e) (he' : FileOf st entries g e') (hname : f.1 = g.1) : e = e' := by
  obtain ⟨nonce, hx, hf, -⟩ := he
  obtain ⟨nonce', hx', hg, -⟩ := he'
  rw [hf, hg, logName_inj (h.1 _ hx) (h.1 _ hx')] at hname
  have hsame := List.inj_on_of_nodup_map h.2 hx hx' hname
  exact congrArg Prod.snd hsame

/-- CORRECT: entries appended in any order, with the directory listed in any order at every look at
    it: what is read from an index on after a compaction are the entries behind the compaction
    from that index on, in the order of their indices. -/
theorem read_after_compaction (st : RaftStorage) {entries : List (Nonce × LogEntry)}
    (h : Distinct entries) (upTo fromIndex : ℕ) {log log' : Dir}
    (hlog : log.entries.Perm (st.appended entries).log.entries)
    (hlog' : log'.entries.Perm (compactLog { log } upTo).log.entries) :
    ∃ es, st.readLogFrom { log := log' } fromIndex = .ok es ∧
      es.Pairwise (·.index < ·.index) ∧
      ∀ e, e ∈ es ↔ (∃ nonce, (nonce, e) ∈ entries) ∧ upTo < e.index ∧ fromIndex ≤ e.index := by
  have htotal : Std.Total fun a b : (Σ _ : String, Bytes) => a.1 ≤ b.1 :=
    ⟨fun a b => String.le_total a.1 b.1⟩
  have htrans : IsTrans (Σ _ : String, Bytes) fun a b => a.1 ≤ b.1 :=
    ⟨fun a b c => String.le_trans⟩
  set files := log'.entries.insertionSort fun a b => a.1 ≤ b.1 with hfiles
  have hmem : ∀ f, f ∈ files ↔ ∃ e, FileOf st entries f e ∧ upTo < e.index := fun f => by
    rw [hfiles, List.mem_insertionSort, hlog'.mem_iff, mem_compacted h hlog]
  have hread : ∀ f ∈ files, ∃ e, st.readEntry f.2 = .ok e ∧
      FileOf st entries f e ∧ upTo < e.index := fun f hf => by
    obtain ⟨e, ⟨nonce, hx, hname, hdata⟩, hlt⟩ := (hmem f).mp hf
    exact ⟨e, hdata ▸ readEntry_sealedEntry (nonce, e), ⟨nonce, hx, hname, hdata⟩, hlt⟩
  obtain ⟨es, hes, hall⟩ := mapM_readEntry hread
  -- The names are all different, so the sorted names increase strictly.
  have hsorted : files.Pairwise fun a b => a.1 < b.1 := by
    have hle := List.pairwise_insertionSort (fun a b : (Σ _ : String, Bytes) => a.1 ≤ b.1)
      log'.entries
    have hne : files.Pairwise fun a b => a.1 ≠ b.1 :=
      (List.perm_insertionSort _ _).pairwise_iff (fun h => h.symm) |>.mpr
        (List.nodupKeys_iff_pairwise.mp log'.nodupKeys)
    refine (hle.and hne).imp fun hab => ?_
    exact Decidable.not_not.mp fun hnot => hab.2 (String.le_antisymm hab.1 (String.not_lt.mp hnot))
  have hat : ∀ i (hi : i < files.length) (hi' : i < es.length),
      FileOf st entries (files.get ⟨i, hi⟩) (es.get ⟨i, hi'⟩) ∧ upTo < (es.get ⟨i, hi'⟩).index :=
    fun i hi hi' => hall.get hi hi'
  have hlength := hall.length_eq
  have hincreasing : es.Pairwise (·.index < ·.index) := by
    rw [List.pairwise_iff_get] at hsorted ⊢
    intro i j hij
    have hlt := hsorted ⟨i, i.2.trans_eq hlength.symm⟩ ⟨j, j.2.trans_eq hlength.symm⟩ hij
    obtain ⟨⟨_, hx, hname, -⟩, -⟩ := hat i (i.2.trans_eq hlength.symm) i.2
    obtain ⟨⟨_, hx', hname', -⟩, -⟩ := hat j (j.2.trans_eq hlength.symm) j.2
    rwa [hname, hname', logName_lt_iff (h.1 _ hx) (h.1 _ hx')] at hlt
  refine ⟨es.filter fun e => fromIndex ≤ e.index, ?_, hincreasing.filter _, fun e => ?_⟩
  · simp only [readLogFrom, ← hfiles, hes, bind, Except.bind]
    rfl
  · rw [List.mem_filter, decide_eq_true_eq, ← and_assoc]
    refine and_congr_left fun _ => ⟨fun he => ?_, ?_⟩
    · obtain ⟨i, rfl⟩ := List.get_of_mem he
      obtain ⟨⟨nonce, hx, -⟩, hlt⟩ := hat i (i.2.trans_eq hlength.symm) i.2
      exact ⟨⟨nonce, hx⟩, hlt⟩
    · rintro ⟨⟨nonce, hx⟩, hlt⟩
      have hfile : FileOf st entries ⟨logName e.index, st.sealedEntry (nonce, e)⟩ e :=
        ⟨nonce, hx, rfl, rfl⟩
      obtain ⟨i, hi⟩ := List.get_of_mem ((hmem _).mpr ⟨e, hfile, hlt⟩)
      obtain ⟨hfile', -⟩ := hat i i.2 (i.2.trans_eq hlength)
      rw [hfile.unique h hfile' (by rw [hi])]
      exact List.get_mem _ _

end Log

/-- Of entries 10 and 9, appended in this order, the first is read after a compaction up to 9. -/
theorem read_after_compaction_ten : Nonempty RaftStorage ∧ ∀ st : RaftStorage, ∃ es,
    st.readLogFrom (compactLog { log := (st.appended [(someNonce, ⟨10, 1, .kvDelete "k"⟩),
      (someNonce, ⟨9, 1, .kvDelete "l"⟩)]).log } 9) 0 = .ok es ∧
      ⟨10, 1, .kvDelete "k"⟩ ∈ es := by
  refine ⟨RaftStorage.nonempty, fun st => ?_⟩
  have hdistinct : Distinct [(someNonce, ⟨10, 1, .kvDelete "k"⟩),
    (someNonce, ⟨9, 1, .kvDelete "l"⟩)] := ⟨by simp, by simp⟩
  obtain ⟨es, hread, -, hmem⟩ := st.read_after_compaction hdistinct 9 0 (.refl _) (.refl _)
  exact ⟨es, hread, (hmem _).mpr ⟨⟨someNonce, by simp⟩, by decide, by decide⟩⟩

end RaftStorage
end Ekafleet.Raft
