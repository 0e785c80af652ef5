import Mathlib.Data.List.DropRight
import Ekafleet.Lib.HashMap
import Ekafleet.Lib.Run

/-! Versioned secrets | source: secrets/versioned.rs

    Of every secret the store keeps a list of versions in ascending order and drops the oldest
    ones over a bound. The reference is an archive that drops nothing. -/

namespace Ekafleet.Secrets.Versioned

/-- One version of a secret. -/
structure SecretVersion where
  version : ℕ
  encryptedValue : List UInt8
  deriving DecidableEq, Repr

/-- The last versions of each secret. -/
structure VersionedSecretStore where
  secrets : HashMap String (List SecretVersion)
  maxVersions : ℕ

/-- The order of `sort_by_key`. -/
def Older (a b : SecretVersion) : Prop := a.version ≤ b.version

instance : DecidableRel Older := fun a b => inferInstanceAs (Decidable (a.version ≤ b.version))

/-- The loop that removes the first version while there are too many. -/
def trim (maxVersions : ℕ) : List SecretVersion → List SecretVersion
  | [] => []
  | v :: versions =>
    if maxVersions < (v :: versions).length then trim maxVersions versions else v :: versions

namespace VersionedSecretStore

def new (maxVersions : ℕ) : VersionedSecretStore := ⟨∅, maxVersions⟩

variable (store : VersionedSecretStore)

def versions (key : String) : List SecretVersion := (store.secrets.lookup key).getD []

def setVersions (key : String) (versions : List SecretVersion) : VersionedSecretStore :=
  { store with secrets := store.secrets.insert key versions }

/-- Store a version. -/
def put (key : String) (version : ℕ) (encryptedValue : List UInt8) : VersionedSecretStore :=
  let versions := store.versions key
  -- The entry is made also when the version turns out to be held.
  if versions.any (·.version = version) then store.setVersions key versions
  else
    let pushed : List SecretVersion := versions ++ [⟨version, encryptedValue⟩]
    store.setVersions key (trim store.maxVersions (pushed.insertionSort Older))

/-- The newest version. -/
def getCurrent (key : String) : Option (ℕ × List UInt8) :=
  (store.versions key).getLast?.map fun v => (v.version, v.encryptedValue)

/-- One version of a secret. -/
def getVersion (key : String) (version : ℕ) : Option (List UInt8) :=
  ((store.versions key).find? (·.version = version)).map (·.encryptedValue)

/-- `none` when the new version number does not fit into 64 bits. -/
def rollback (key : String) (toVersion : ℕ) : Option (VersionedSecretStore × Option ℕ) :=
  match store.getVersion key toVersion with
  | none => some (store, none)
  | some value =>
    let versions := store.versions key
    let newVersion := (versions.getLast?.map (·.version + 1)).getD 1
    if newVersion < 2 ^ 64 then
      some (store.setVersions key (trim store.maxVersions (versions ++ [⟨newVersion, value⟩])),
        some newVersion)
    else none

end VersionedSecretStore

/-- The calls to the store. -/
inductive Call where
  | put (key : String) (version : ℕ) (encryptedValue : List UInt8)
  | rollback (key : String) (toVersion : ℕ)

/-- The store with what its calls have done so far: the versions that were accepted, in order,
    and the version numbers that were handed out. -/
structure Journal where
  store : VersionedSecretStore
  accepted : List (String × SecretVersion)
  handedOut : List (String × ℕ)

namespace Journal

def new (maxVersions : ℕ) : Journal := ⟨.new maxVersions, [], []⟩

/-- One call, if it returns. -/
def step (j : Journal) : Call → Option Journal
  | .put key version value =>
    some { j with
      store := j.store.put key version value
      accepted := j.accepted ++
        if (j.store.getVersion key version).isSome then [] else [(key, ⟨version, value⟩)] }
  | .rollback key toVersion => do
    let (store, answer) ← j.store.rollback key toVersion
    match answer, j.store.getVersion key toVersion with
    | some n, some value => some {
        store := store
        accepted := j.accepted ++ [(key, ⟨n, value⟩)]
        handedOut := j.handedOut ++ [(key, n)] }
    | _, _ => some { j with store := store }

def acceptedFor (j : Journal) (key : String) : List SecretVersion :=
  (j.accepted.filter (·.1 = key)).map (·.2)

def handedOutFor (j : Journal) (key : String) : List ℕ :=
  (j.handedOut.filter (·.1 = key)).map (·.2)

end Journal

/-! ### The archive -/

/-- Every version with the value it came with first, in ascending order. -/
def record (archive : List SecretVersion) (v : SecretVersion) : List SecretVersion :=
  if archive.any (·.version = v.version) then archive else archive.orderedInsert Older v

def archive (accepted : List SecretVersion) : List SecretVersion := accepted.foldl record []

def Ascending (l : List SecretVersion) : Prop := l.Pairwise (·.version < ·.version)

variable {l full : List SecretVersion} {v : SecretVersion} {n : ℕ}

theorem Ascending.older (h : Ascending l) : l.Pairwise Older :=
  h.imp fun hlt => Nat.le_of_lt hlt

theorem Ascending.eq_of_version (h : Ascending l) {a b : SecretVersion} (ha : a ∈ l) (hb : b ∈ l)
    (hab : a.version = b.version) : a = b := by
  induction l with
  | nil => cases ha
  | cons v l ih =>
    obtain ⟨hv, hl⟩ := List.pairwise_cons.mp h
    have ih := ih hl
    grind

theorem Ascending.orderedInsert (h : Ascending l) (hfresh : ∀ w ∈ l, w.version ≠ v.version)
    : Ascending (l.orderedInsert Older v) := by
  induction l with
  | nil => exact List.pairwise_singleton _ _
  | cons w l ih =>
    obtain ⟨hw, hl⟩ := List.pairwise_cons.mp h
    rw [List.forall_mem_cons] at hfresh
    by_cases hvw : Older v w
    · rw [List.orderedInsert_cons_of_le _ _ hvw]
      refine List.pairwise_cons.mpr ⟨?_, h⟩
      grind [Older]
    · rw [List.orderedInsert_of_not_le _ _ hvw]
      refine List.pairwise_cons.mpr ⟨fun x hx => ?_, ih hl hfresh.2⟩
      grind [Older, List.mem_orderedInsert]

theorem ascending_record (h : Ascending l) (v : SecretVersion) :
    Ascending (record l v) := by
  unfold record
  split_ifs with hany
  · exact h
  · exact h.orderedInsert (by simpa using hany)

theorem ascending_archive (accepted : List SecretVersion) : Ascending (archive accepted) := by
  induction accepted using List.reverseRecOn with
  | nil => exact List.Pairwise.nil
  | append_singleton accepted v ih =>
    rw [archive, List.foldl_concat]
    exact ascending_record ih v

/-- EXACT: a version is in the archive with the value it was first accepted with. -/
theorem mem_archive_iff {accepted : List SecretVersion} :
    v ∈ archive accepted ↔ accepted.find? (·.version = v.version) = some v := by
  induction accepted using List.reverseRecOn generalizing v with
  | nil => simp [archive]
  | append_singleton accepted w ih =>
    rw [archive, List.foldl_concat, List.find?_append, List.find?_singleton]
    change v ∈ record (archive accepted) w ↔ _
    rcases hfind : accepted.find? (·.version = w.version) with _ | u
    · have hany : ¬ (archive accepted).any (·.version = w.version) = true := by
        rw [List.any_eq_true]
        rintro ⟨u, hu, hversion⟩
        rw [ih, of_decide_eq_true hversion, hfind] at hu
        cases hu
      rw [record, if_neg hany, List.mem_orderedInsert, ih]
      by_cases hv : w.version = v.version <;> grind
    · have hu : u.version = w.version := by simpa using List.find?_some hfind
      have hany : (archive accepted).any (·.version = w.version) = true :=
        List.any_eq_true.mpr ⟨u, ih.mpr (by rw [hu, hfind]), decide_eq_true hu⟩
      rw [record, if_pos hany, ih]
      by_cases hv : w.version = v.version <;> grind

/-! ### The end of the archive -/

theorem trim_eq_rtake (maxVersions : ℕ) (l : List SecretVersion) :
    trim maxVersions l = l.rtake maxVersions := by
  induction l with
  | nil => simp [trim]
  | cons v l ih =>
    rw [trim]
    split_ifs with hmany
    · have hlength : (v :: l).length - maxVersions = l.length - maxVersions + 1 := by
        rw [List.length_cons] at hmany ⊢
        omega
      rw [ih, List.rtake, List.rtake, hlength, List.drop_succ_cons]
    · rw [List.rtake, Nat.sub_eq_zero_of_le (Nat.not_lt.mp hmany), List.drop_zero]

theorem insertionSort_concat (h : Ascending l) (hfresh : ∀ w ∈ l, w.version ≠ v.version) :
    (l ++ [v]).insertionSort Older = l.orderedInsert Older v := by
  have : IsTrans SecretVersion Older := ⟨fun _ _ _ => Nat.le_trans⟩
  have : Std.Total Older := ⟨fun a b => Nat.le_total a.version b.version⟩
  have hinserted := h.orderedInsert hfresh
  have hperm : ((l ++ [v]).insertionSort Older).Perm (l.orderedInsert Older v) :=
    (List.perm_insertionSort _ _).trans
      (List.perm_append_singleton v l |>.trans (List.perm_orderedInsert _ _ _).symm)
  refine List.Perm.eq_of_pairwise ?_ (List.pairwise_insertionSort _ _) hinserted.older hperm
  intro a b ha hb hab hba
  have hsame : a.version = b.version := Nat.le_antisymm hab hba
  exact hinserted.eq_of_version (hperm.mem_iff.mp ha) hb hsame

theorem rtake_append_of_length (h : l.length = n) (before : List SecretVersion)
    : (before ++ l).rtake n = l := by
  simp [List.rtake, ← h]

theorem orderedInsert_of_forall_older (h : ∀ w ∈ l, Older v w) :
    l.orderedInsert Older v = v :: l := by
  cases l with
  | nil => rfl
  | cons w l => exact List.orderedInsert_cons_of_le _ _ (h w (by simp))

/-- An insertion before the end of an ascending list leaves the end as it is. -/
theorem rtake_orderedInsert {pre : List SecretVersion} (h : Ascending (pre ++ l))
    (hlength : pre ≠ [] → l.length = n) :
    ((pre ++ l).orderedInsert Older v).rtake n = (l.orderedInsert Older v).rtake n := by
  induction pre with
  | nil => rfl
  | cons p pre ih =>
    have hn := hlength (List.cons_ne_nil p pre)
    obtain ⟨hp, hrest⟩ := List.pairwise_cons.mp h
    by_cases hv : Older v p
    · have hall : ∀ w ∈ l, Older v w := fun w hw =>
        Nat.le_trans hv (Nat.le_of_lt (hp w (List.mem_append_right _ hw)))
      rw [List.cons_append, List.orderedInsert_cons_of_le _ _ hv,
        orderedInsert_of_forall_older hall]
      exact (rtake_append_of_length hn (v :: p :: pre)).trans
        (rtake_append_of_length hn [v]).symm
    · rw [List.cons_append, List.orderedInsert_of_not_le _ _ hv, ← ih hrest fun _ => hn]
      have hlong : n ≤ ((pre ++ l).orderedInsert Older v).length := by
        simp only [List.orderedInsert_length, List.length_append]
        omega
      simp only [List.rtake, List.length_cons, Nat.succ_sub hlong, List.drop_succ_cons]

/-- EXACT: pushing, sorting and trimming the end of an ascending list is the end of the list
    with the new version recorded in it. -/
theorem trim_insertionSort_rtake (h : Ascending full)
    (hfresh : ∀ w ∈ full.rtake n, w.version ≠ v.version) :
    trim n ((full.rtake n ++ [v]).insertionSort Older) = (record full v).rtake n := by
  have hend : Ascending (full.rtake n) := h.sublist (List.drop_sublist _ _)
  rw [trim_eq_rtake, insertionSort_concat hend hfresh]
  obtain ⟨pre, held, hfull, hheld, hlength⟩ : ∃ pre held, full = pre ++ held ∧
      full.rtake n = held ∧ (pre ≠ [] → held.length = n) := by
    refine ⟨full.take (full.length - n), _, (List.take_append_drop _ _).symm, rfl, fun hne => ?_⟩
    have hpos := List.length_pos_iff.mpr hne
    rw [List.length_take] at hpos
    rw [List.length_drop]
    omega
  rw [hheld] at hfresh ⊢
  rw [hfull] at h ⊢
  rw [← rtake_orderedInsert h hlength, record]
  split_ifs with hany
  · -- The version was dropped before: it is older than all that is held and is dropped again.
    obtain ⟨w, hw, hversion⟩ := List.any_eq_true.mp hany
    have hversion := of_decide_eq_true hversion
    have hpre : w ∈ pre := (List.mem_append.mp hw).resolve_right fun hin => hfresh w hin hversion
    have hn := hlength (List.ne_nil_of_mem hpre)
    have hall : ∀ x ∈ held, Older v x := by
      intro x hx
      have hlt := (List.pairwise_append.mp h).2.2 w hpre x hx
      exact Nat.le_of_lt (hversion ▸ hlt)
    rw [rtake_orderedInsert h hlength, orderedInsert_of_forall_older hall]
    exact (rtake_append_of_length hn [v]).trans (rtake_append_of_length hn pre).symm
  · rfl

theorem rtake_concat_rtake (n : ℕ) (full : List SecretVersion) (v : SecretVersion) :
    (full.rtake n ++ [v]).rtake n = (full ++ [v]).rtake n := by
  cases n with
  | zero => simp [List.rtake]
  | succ n =>
    rw [List.rtake_concat_succ, List.rtake_concat_succ]
    simp only [List.rtake, List.length_drop, List.drop_drop]
    congr 2
    omega

/-- A version above all others is recorded at the end. -/
theorem record_newest (h : ∀ w ∈ full, w.version < v.version) : record full v = full ++ [v] := by
  have hany : ¬ full.any (·.version = v.version) = true := by
    rw [List.any_eq_true]
    rintro ⟨w, hw, hversion⟩
    exact (h w hw).ne (of_decide_eq_true hversion)
  rw [record, if_neg hany]
  induction full with
  | nil => rfl
  | cons w full ih =>
    rw [List.forall_mem_cons] at h
    have hw : ¬ Older v w := Nat.not_le.mpr h.1
    rw [List.orderedInsert_of_not_le _ _ hw, List.cons_append]
    grind

theorem Ascending.le_getLast (h : Ascending full) (hn : 1 ≤ n) {last : SecretVersion}
    (hlast : (full.rtake n).getLast? = some last) :
    ∀ w ∈ full, w.version ≤ last.version := by
  obtain ⟨n, rfl⟩ : ∃ m, n = m + 1 := ⟨n - 1, by omega⟩
  cases full using List.reverseRecOn with
  | nil => simp
  | append_singleton full v =>
    rw [List.rtake_concat_succ, List.getLast?_concat] at hlast
    cases hlast
    have hbelow : ∀ w ∈ full, w.version < last.version := fun w hw =>
      (List.pairwise_append.mp h).2.2 w hw last (by simp)
    intro w hw
    rcases List.mem_append.mp hw with hw | hw
    · exact (hbelow w hw).le
    · rw [List.mem_singleton.mp hw]

/-! ### Runs -/

@[simp] theorem VersionedSecretStore.versions_setVersions (store : VersionedSecretStore)
    (key key' : String) (l : List SecretVersion) :
    (store.setVersions key l).versions key' = if key' = key then l else store.versions key' := by
  grind [setVersions, versions]

/-- What is held is the end of the archive, and what was handed out is in it. -/
structure Journal.Inv (n : ℕ) (j : Journal) : Prop where
  max : j.store.maxVersions = n
  held : ∀ key, j.store.versions key = (archive (j.acceptedFor key)).rtake n
  increasing : ∀ key, (j.handedOutFor key).Pairwise (· < ·)
  archived : ∀ key, ∀ m ∈ j.handedOutFor key, ∃ v ∈ archive (j.acceptedFor key), v.version = m

theorem archive_concat (accepted : List SecretVersion) (v : SecretVersion) :
    archive (accepted ++ [v]) = record (archive accepted) v := by
  rw [archive, List.foldl_concat, archive]

theorem mem_record_of_mem {w : SecretVersion} (h : w ∈ full) :
    w ∈ record full v := by
  grind [record, List.mem_orderedInsert]

theorem Journal.acceptedFor_concat (j : Journal) (key key' : String) (v : SecretVersion) :
    ({ j with accepted := j.accepted ++ [(key, v)] } : Journal).acceptedFor key' =
      if key = key' then j.acceptedFor key' ++ [v] else j.acceptedFor key' := by
  by_cases hkey : key = key' <;> simp [acceptedFor, hkey]

theorem Journal.handedOutFor_concat (j : Journal) (store : VersionedSecretStore)
    (accepted : List (String × SecretVersion)) (key key' : String) (m : ℕ) :
    (Journal.mk store accepted (j.handedOut ++ [(key, m)])).handedOutFor key' =
      if key = key' then j.handedOutFor key' ++ [m] else j.handedOutFor key' := by
  by_cases hkey : key = key' <;> simp [handedOutFor, hkey]

/-- STEP: a version recorded in the archive of its secret and in what is held of it. -/
theorem Journal.Inv.accept {j : Journal} (h : j.Inv n) (key : String) (v : SecretVersion)
    {held : List SecretVersion} (hheld : held = (record (archive (j.acceptedFor key)) v).rtake n) :
    ({ j with
        store := j.store.setVersions key held
        accepted := j.accepted ++ [(key, v)] } : Journal).Inv n := by
  refine ⟨h.max, fun key' => ?_, h.increasing, fun key' m hm => ?_⟩
  · change (j.store.setVersions key held).versions key' =
      (archive (({ j with accepted := j.accepted ++ [(key, v)] } : Journal).acceptedFor key')).rtake
        n
    rw [Journal.acceptedFor_concat, VersionedSecretStore.versions_setVersions]
    by_cases hkey : key = key'
    · subst hkey
      rw [if_pos rfl, if_pos rfl, archive_concat, hheld]
    · rw [if_neg hkey, if_neg (Ne.symm hkey), h.held]
  · obtain ⟨w, hw, hversion⟩ := h.archived key' m hm
    refine ⟨w, ?_, hversion⟩
    change w ∈ archive
      (({ j with accepted := j.accepted ++ [(key, v)] } : Journal).acceptedFor key')
    rw [Journal.acceptedFor_concat]
    split_ifs
    · rw [archive_concat]
      exact mem_record_of_mem hw
    · exact hw

theorem VersionedSecretStore.isSome_getVersion (store : VersionedSecretStore) (key : String)
    (version : ℕ) :
    (store.getVersion key version).isSome = (store.versions key).any (·.version = version) := by
  rw [getVersion, Option.isSome_map, Bool.eq_iff_iff, List.find?_isSome, List.any_eq_true]

/-- EXACT: what a rollback to a held version does. -/
theorem VersionedSecretStore.rollback_held {store : VersionedSecretStore} {key : String}
    {toVersion : ℕ} {value : List UInt8} (h : store.getVersion key toVersion = some value) :
    ∃ last, (store.versions key).getLast? = some last ∧
      store.rollback key toVersion =
        if last.version + 1 < 2 ^ 64 then
          some (store.setVersions key (trim store.maxVersions
            (store.versions key ++ [⟨last.version + 1, value⟩])), some (last.version + 1))
        else none := by
  rcases hlast : (store.versions key).getLast? with _ | last
  · rw [List.getLast?_eq_none_iff] at hlast
    rw [getVersion, hlast] at h
    cases h
  · refine ⟨last, rfl, ?_⟩
    rw [rollback, h]
    simp only [hlast, Option.map_some, Option.getD_some]

theorem Journal.Inv.put {j : Journal} (h : j.Inv n) (key : String) (version : ℕ)
    (value : List UInt8) {j' : Journal} (hstep : j.step (.put key version value) = some j') :
    j'.Inv n := by
  cases hstep
  rw [VersionedSecretStore.isSome_getVersion, VersionedSecretStore.put]
  by_cases hany : (j.store.versions key).any (·.version = version) = true
  · simp only [hany, if_true, List.append_nil]
    refine ⟨h.max, fun key' => ?_, h.increasing, h.archived⟩
    rw [VersionedSecretStore.versions_setVersions]
    split_ifs with hkey
    · rw [← hkey, h.held]
      rfl
    · exact h.held key'
  · simp only [hany, if_false, Bool.false_eq_true]
    refine h.accept _ _ ?_
    rw [h.max, h.held]
    refine trim_insertionSort_rtake (ascending_archive _) ?_
    rw [← h.held]
    simpa using hany

theorem Journal.Inv.rollback (hn : 1 ≤ n) {j : Journal} (h : j.Inv n) (key : String) (toVersion : ℕ)
    {j' : Journal} (hstep : j.step (.rollback key toVersion) = some j') :
    j'.Inv n := by
  rcases hget : j.store.getVersion key toVersion with _ | value
  · simp only [Journal.step, VersionedSecretStore.rollback, hget] at hstep
    cases hstep
    exact h
  · obtain ⟨last, hlast, hroll⟩ := VersionedSecretStore.rollback_held hget
    rw [h.held] at hlast
    have hnewest := (ascending_archive (j.acceptedFor key)).le_getLast hn hlast
    simp only [Journal.step, hroll, hget] at hstep
    split_ifs at hstep with hfits
    · cases hstep
      have hrecord := record_newest (v := ⟨last.version + 1, value⟩) fun w hw =>
        Nat.lt_succ_of_le (hnewest w hw)
      have hheld : trim j.store.maxVersions (j.store.versions key ++ [⟨last.version + 1, value⟩]) =
          (record (archive (j.acceptedFor key)) ⟨last.version + 1, value⟩).rtake n := by
        rw [trim_eq_rtake, h.max, h.held, rtake_concat_rtake, hrecord]
      have haccept := h.accept key ⟨last.version + 1, value⟩ hheld
      refine ⟨haccept.max, haccept.held, fun key' => ?_, fun key' m hm => ?_⟩
      · rw [Journal.handedOutFor_concat]
        split_ifs with hkey
        · refine List.pairwise_append.mpr ⟨h.increasing key', List.pairwise_singleton _ _, ?_⟩
          intro m hm m' hm'
          obtain ⟨w, hw, rfl⟩ := h.archived key' m hm
          rw [List.mem_singleton.mp hm']
          exact Nat.lt_succ_of_le (hnewest w (hkey ▸ hw))
        · exact h.increasing key'
      · rw [Journal.handedOutFor_concat] at hm
        split_ifs at hm with hkey
        · subst hkey
          rcases List.mem_append.mp hm with hm | hm
          · exact haccept.archived key m hm
          · refine ⟨⟨last.version + 1, value⟩, ?_, (List.mem_singleton.mp hm).symm⟩
            change _ ∈ archive (Journal.acceptedFor { j with
              accepted := j.accepted ++ [(key, ⟨last.version + 1, value⟩)] } key)
            rw [Journal.acceptedFor_concat, if_pos rfl, archive_concat, hrecord]
            simp
        · exact haccept.archived key' m hm
    · cases hstep

/-- RUN: the invariant holds after any calls. -/
theorem Journal.inv_of_run (hn : 1 ≤ n) {calls : List Call} {j : Journal}
    (h : Run.run Journal.step (Journal.new n) calls = some j) : j.Inv n := by
  refine Run.invariant Journal.step (Journal.Inv n) ?_ ?_ h
  · exact ⟨rfl, fun _ => (List.rtake_nil _).symm, fun _ => List.Pairwise.nil,
      by simp [Journal.handedOutFor, Journal.new]⟩
  · intro j call j' hinv hstep
    cases call with
    | put key version value => exact hinv.put key version value hstep
    | rollback key toVersion => exact hinv.rollback hn key toVersion hstep

/-- CORRECT: after any calls without an overflow, what is held of a secret are the largest
    versions ever accepted, as many as the bound allows, each with its first value; the numbers
    handed out increase; and a rollback to a held version makes its value current under a number
    above all others. -/
theorem holds_the_largest_versions {n : ℕ} (hn : 1 ≤ n) {calls : List Call} {j : Journal}
    (h : Run.run Journal.step (Journal.new n) calls = some j) (key : String) :
    j.store.versions key = (archive (j.acceptedFor key)).rtake n ∧
      Ascending (archive (j.acceptedFor key)) ∧
      (∀ v, v ∈ archive (j.acceptedFor key) ↔
        (j.acceptedFor key).find? (·.version = v.version) = some v) ∧
      (j.handedOutFor key).Pairwise (· < ·) ∧
      ∀ toVersion value, j.store.getVersion key toVersion = some value →
        ∃ last current, j.store.getCurrent key = some (last, current) ∧
          (∀ v ∈ archive (j.acceptedFor key), v.version < last + 1) ∧
          (last + 1 < 2 ^ 64 → ∃ store,
            j.store.rollback key toVersion = some (store, some (last + 1)) ∧
              store.getCurrent key = some (last + 1, value)) := by
  have hinv := Journal.inv_of_run hn h
  refine ⟨hinv.held key, ascending_archive _, fun v => mem_archive_iff, hinv.increasing key, ?_⟩
  intro toVersion value hget
  obtain ⟨last, hlast, hroll⟩ := VersionedSecretStore.rollback_held hget
  refine ⟨last.version, last.encryptedValue, by rw [VersionedSecretStore.getCurrent, hlast]; rfl,
    fun v hv => ?_, fun hfits => ⟨_, by rw [hroll, if_pos hfits], ?_⟩⟩
  · rw [hinv.held] at hlast
    exact Nat.lt_succ_of_le ((ascending_archive _).le_getLast hn hlast v hv)
  · obtain ⟨n, rfl⟩ : ∃ m, n = m + 1 := ⟨n - 1, by omega⟩
    rw [VersionedSecretStore.getCurrent, VersionedSecretStore.versions_setVersions, if_pos rfl,
      trim_eq_rtake, hinv.max, List.rtake_concat_succ, List.getLast?_concat]
    rfl

/-- Two versions are kept; the third one and a rollback push the older ones out. -/
theorem holds_the_largest_two :
    (Run.run Journal.step (.new 2) [.put "db" 1 [1], .put "db" 3 [3], .put "db" 2 [2],
      .rollback "db" 2]).map (·.store.versions "db") = some [⟨3, [3]⟩, ⟨4, [2]⟩] := by
  have hrun : ∃ j, Run.run Journal.step (.new 2) [.put "db" 1 [1], .put "db" 3 [3],
      .put "db" 2 [2], .rollback "db" 2] = some j ∧
        (archive (j.acceptedFor "db")).rtake 2 = [⟨3, [3]⟩, ⟨4, [2]⟩] := ⟨_, rfl, by decide⟩
  obtain ⟨j, hj, hend⟩ := hrun
  rw [hj, Option.map_some, (holds_the_largest_versions (by decide) hj "db").1, hend]

end Ekafleet.Secrets.Versioned
