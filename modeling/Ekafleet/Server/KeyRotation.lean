import Ekafleet.Raft.Snapshots
import Ekafleet.Secrets.Store
import Ekafleet.Server.AclTokens
import Ekafleet.Server.Seal

/-! Snapshots across key rotations | source: server/mod.rs, server/api.rs

    The storage of a running server keeps the key that it read at boot. A rotation writes a new key
    to the key file, which the next boot reads. -/

namespace Ekafleet.Server
open Raft Raft.RaftStorage Run
open Secrets (MasterKey)

/-! ### The key file -/

/-- Why the fleet key cannot be read. -/
inductive FleetKeyError where
  | read (error : Seal.ReadError)
  | encoding
  | hex
  | length (n : ℕ)
  /-- A slice of the text that is out of range, or that cuts a character. -/
  | panic
  | rng
  | sealing (error : SealError)
  deriving DecidableEq, Repr

def hexDigit (b : UInt8) : Option ℕ :=
  if 48 ≤ b ∧ b ≤ 57 then some (b.toNat - 48)
  else if 97 ≤ b ∧ b ≤ 102 then some (b.toNat - 87)
  else if 65 ≤ b ∧ b ≤ 70 then some (b.toNat - 55)
  else none

/-- Two hexadecimal digits, or a plus sign and one. -/
def fromStrRadix16 (a b : UInt8) : Option UInt8 :=
  match hexDigit a, hexDigit b with
  | some high, some low => some (UInt8.ofNat (16 * high + low))
  | none, some low => if a = 43 then some (UInt8.ofNat low) else none
  | _, none => none

def isContinuation (b : UInt8) : Bool := 128 ≤ b && b < 192

/-- The slices of two bytes, one after the other; the first failure ends the loop. -/
def parseHex : Bytes → Except FleetKeyError Bytes
  | [] => .ok []
  | [_] => .error .panic
  | a :: b :: rest =>
    if isContinuation a || rest.head?.any isContinuation then .error .panic
    else match fromStrRadix16 a b with
      | none => .error .hex
      | some byte => (parseHex rest).map (byte :: ·)

/-- The key in the text of a key file. -/
def parseFleetKey (data : Bytes) : Except FleetKeyError MasterKey :=
  match Text.fromUtf8 data with
  | none => .error .encoding
  | some text =>
    match parseHex (Text.utf8 (Text.trim text)) with
    | .error e => .error e
    | .ok key => if h : key.length = 32 then .ok ⟨key, h⟩ else .error (.length key.length)

/-- The text of a key. -/
def fleetKeyText (key : MasterKey) : Bytes := Text.utf8 (hex key)

section KeyFile
variable (lib : SealLib) (passphrase : Option String)

/-- Open and decode the key file. -/
def readFleetKey (data : Bytes) : Except FleetKeyError MasterKey :=
  match Seal.readMaybeSealed lib passphrase (some data) with
  | .error e => .error (.read e)
  | .ok text => parseFleetKey text

/-- The key of a boot and the key file that it leaves. -/
def getOrCreateFleetKey (file : Option Bytes) (random : Option MasterKey)
    (draw : Option Seal.Draw) : Except FleetKeyError (MasterKey × Bytes) :=
  match file with
  | some data => (readFleetKey lib passphrase data).map (·, data)
  | none =>
    match random with
    | none => .error .rng
    | some key =>
      match Seal.writeMaybeSealed lib passphrase draw (fleetKeyText key) with
      | .error e => .error (.sealing e)
      | .ok data => .ok (key, data)

end KeyFile

theorem utf8EncodeChar_digitChar : ∀ n < 16,
    String.utf8EncodeChar (Nat.digitChar n) = [(Nat.digitChar n).toNat.toUInt8] := by
  decide

theorem isWhitespace_digitChar : ∀ n < 16, Text.isWhitespace (Nat.digitChar n) = false := by
  decide

theorem isContinuation_digitChar : ∀ n < 16,
    isContinuation (Nat.digitChar n).toNat.toUInt8 = false := by
  decide

theorem fromStrRadix16_digitChar : ∀ n < 16, ∀ m < 16,
    fromStrRadix16 (Nat.digitChar n).toNat.toUInt8 (Nat.digitChar m).toNat.toUInt8 =
      some (UInt8.ofNat (16 * n + m)) := by
  decide

theorem digitChar_ne_magic : ∀ n < 16, (Nat.digitChar n).toNat.toUInt8 ≠ 69 := by
  decide

theorem div_sixteen_lt (b : UInt8) : b.toNat / 16 < 16 := by
  have := b.toNat_lt
  omega

theorem mod_sixteen_lt (b : UInt8) : b.toNat % 16 < 16 := Nat.mod_lt _ (by norm_num)

/-- The two bytes of the text for a byte. -/
def hexPair (b : UInt8) : Bytes :=
  [(Nat.digitChar (b.toNat / 16)).toNat.toUInt8, (Nat.digitChar (b.toNat % 16)).toNat.toUInt8]

theorem utf8_hex (bytes : Bytes) : Text.utf8 (hex bytes) = bytes.flatMap hexPair := by
  rw [hex, Text.utf8_ofList, List.flatMap_assoc]
  congr 1
  funext b
  simp [utf8EncodeChar_digitChar _ (div_sixteen_lt b),
    utf8EncodeChar_digitChar _ (mod_sixteen_lt b), hexPair]

theorem trim_hex (bytes : Bytes) : Text.trim (hex bytes) = hex bytes := by
  refine Text.trim_eq_self fun c hc => ?_
  rw [hex, String.toList_ofList, List.mem_flatMap] at hc
  obtain ⟨b, -, hc⟩ := hc
  simp only [List.mem_cons, List.not_mem_nil, or_false] at hc
  rcases hc with rfl | rfl
  · exact isWhitespace_digitChar _ (div_sixteen_lt b)
  · exact isWhitespace_digitChar _ (mod_sixteen_lt b)

theorem parseHex_hexPair (bytes : Bytes) : parseHex (bytes.flatMap hexPair) = .ok bytes := by
  induction bytes with
  | nil => rfl
  | cons b rest ih =>
    have hnext : (rest.flatMap hexPair).head?.any isContinuation = false := by
      cases rest with
      | nil => rfl
      | cons c rest => exact isContinuation_digitChar _ (div_sixteen_lt c)
    have hbyte : UInt8.ofNat (16 * (b.toNat / 16) + b.toNat % 16) = b := by
      rw [Nat.div_add_mod, UInt8.ofNat_toNat]
    rw [List.flatMap_cons, hexPair, List.cons_append, List.cons_append, List.nil_append, parseHex,
      hnext, isContinuation_digitChar _ (div_sixteen_lt b), ih,
      fromStrRadix16_digitChar _ (div_sixteen_lt b) _ (mod_sixteen_lt b), hbyte]
    rfl

theorem parseFleetKey_fleetKeyText (key : MasterKey) :
    parseFleetKey (fleetKeyText key) = .ok key := by
  rw [parseFleetKey, fleetKeyText, Text.fromUtf8_utf8]
  simp only [trim_hex, utf8_hex, parseHex_hexPair, key.2, dif_pos]

theorem isSealed_fleetKeyText (key : MasterKey) : Seal.isSealed (fleetKeyText key) = false := by
  obtain ⟨bytes, hlen⟩ := key
  rw [fleetKeyText, utf8_hex]
  cases bytes with
  | nil => rfl
  | cons b rest =>
    simp [Seal.isSealed, Seal.magic, hexPair, digitChar_ne_magic _ (div_sixteen_lt b)]

variable {key : MasterKey}

theorem readFleetKey_of_write {lib : SealLib} {passphrase : Option String} {draw : Option Seal.Draw}
    {data : Bytes} (h : Seal.writeMaybeSealed lib passphrase draw (fleetKeyText key) = .ok data) :
    readFleetKey lib passphrase data = .ok key := by
  rw [readFleetKey, Seal.readMaybeSealed_writeMaybeSealed (isSealed_fleetKeyText key) h]
  exact parseFleetKey_fleetKeyText key

theorem readFleetKey_text (lib : SealLib) (key : MasterKey) :
    readFleetKey lib none (fleetKeyText key) = .ok key :=
  readFleetKey_of_write (by rfl : Seal.writeMaybeSealed lib none none _ = .ok _)

/-! ### The server with its key file -/

/-- A snapshot that was taken: the key of the storage that sealed it, and the state it holds. -/
structure Taken where
  key : MasterKey
  last : ℕ
  nonce : Raft.Nonce
  state : StateMachineInner

/-- The server, the key of its storage, and the key file. The state that housekeeping captured and
    the list of snapshots taken are history only: no step reads them. -/
structure Installation where
  raft : Raft.Server := {}
  storageKey : MasterKey
  keyFile : Bytes
  captured : StateMachineInner := {}
  taken : List Taken := []

/-- What happens to an installation. -/
inductive KeyEvent where
  | apply (now : ℕ) (command : Command)
  | tick
  | capture
  | write (nonce : Raft.Nonce)
  | rotate (newKey : MasterKey) (draw : Option Seal.Draw)
  | restart (now : ℕ) (listed : Disk)

variable (lib : SealLib) (passphrase : Option String) (st : RaftStorage)

/-- The storage that a boot opens with a key. -/
def storageWith (key : MasterKey) : RaftStorage := { st with key := key }

def takenFile (t : Taken) : SnapFile :=
  ⟨t.last, (storageWith st t.key).encrypt t.nonce (st.stateJson.encode t.state) snapshotAad⟩

/-- The first boot of an empty directory. -/
def firstBoot (random : Option MasterKey) (draw : Option Seal.Draw) :
    Except FleetKeyError Installation :=
  (getOrCreateFleetKey lib passphrase none random draw).map fun boot =>
    { storageKey := boot.1, keyFile := boot.2 }

/-- A step of the running server; its storage has the key from its boot. -/
def serveRaft (s : Installation) (e : Raft.Event) : Option Installation :=
  (Raft.step (storageWith st s.storageKey) s.raft e).map fun raft => { s with raft }

/-- One event of an installation. -/
def keyStep (s : Installation) : KeyEvent → Option Installation
  | .apply now command => serveRaft st s (.apply now command)
  | .tick => serveRaft st s .tick
  | .capture => (serveRaft st s .capture).map fun s' => { s' with captured := s.raft.raftState }
  | .write nonce =>
    match s.raft.housekeeping with
    | .captured last _ =>
      (serveRaft st s (.write nonce .ok)).map fun s' =>
        { s' with taken := s.taken ++ [⟨s.storageKey, last, nonce, s.captured⟩] }
    | _ => none
  | .rotate newKey draw =>
    -- the secret store and the key for the agents change too; the storage does not
    match Seal.writeMaybeSealed lib passphrase draw (fleetKeyText newKey) with
    | .error _ => some s
    | .ok keyFile => some { s with keyFile }
  | .restart now listed =>
    match getOrCreateFleetKey lib passphrase (some s.keyFile) none none with
    | .error _ => none
    | .ok (key, keyFile) =>
      (Raft.step (storageWith st key) s.raft (.restart now listed)).map fun raft =>
        { s with raft, storageKey := key, keyFile }

/-! ### What a restart finds -/

/-- The state of the last snapshot; the empty state before the first. -/
def lastTaken (s : Installation) : StateMachineInner := (s.taken.getLast?.map (·.state)).getD {}

/-- A storage with the key can read every snapshot file. -/
def CanRead (key : MasterKey) (snapshots : Dir) : Prop :=
  ∀ f ∈ snapshots.entries, isSnapshot f.1 = true →
    ∃ data, (storageWith st key).decrypt f.2 snapshotAad = .ok data

/-- The restarted server has the state of the last snapshot, and can read the others. -/
def Recovered (s s' : Installation) (listed : Disk) : Prop :=
  Raft.SameState s'.raft.raftState (lastTaken s) ∧ CanRead st s'.storageKey listed.snapshots

/-- Every restart of a run boots and recovers. -/
def Recovers (s₀ : Installation) (trace : List KeyEvent) : Prop :=
  ∀ pre now listed s, pre ++ [.restart now listed] <+: trace →
    run (keyStep lib passphrase st) s₀ pre = some s → listed.SameFiles s.raft.disk →
    ∃ s', keyStep lib passphrase st s (.restart now listed) = some s' ∧ Recovered st s s' listed

/-- All snapshots that are on disk were sealed under the key in the key file. -/
def SealedUnderKeyFile (s : Installation) : Prop :=
  ∀ i t, lastUnder (takenFile st) s.taken i = some t →
    readFleetKey lib passphrase s.keyFile = .ok t.key

/-- The snapshot that is listed last holds the state of the last one taken. -/
def ListsLastTaken (s : Installation) (listed : Disk) : Prop :=
  ∀ i t, (listed.snapshots.keys.filter isSnapshot).getLast? = some (snapName i) →
    lastUnder (takenFile st) s.taken i = some t → Raft.SameState t.state (lastTaken s)

/-- What every state of a run satisfies. -/
structure KeyInvariant (s : Installation) : Prop where
  log : s.raft.disk.log.entries = []
  files : s.raft.disk.snapshots.entries.Perm
    (keepFiles (takenFile st) {} s.taken).snapshots.entries
  keyRead : ∃ key, readFleetKey lib passphrase s.keyFile = .ok key
  captured : ∀ last snapshot, s.raft.housekeeping = .captured last snapshot →
    snapshot = st.stateJson.encode s.captured

variable {lib passphrase st} {s s' : Installation}

theorem serveRaft_eq_some {e : Raft.Event} (h : serveRaft st s e = some s') :
    ∃ raft, Raft.step (storageWith st s.storageKey) s.raft e = some raft ∧
      s' = { s with raft } := by
  obtain ⟨raft, hraft, rfl⟩ := Option.map_eq_some_iff.mp h
  exact ⟨raft, hraft, rfl⟩

theorem keyInvariant_firstBoot {random : Option MasterKey} {draw : Option Seal.Draw}
    (h : firstBoot lib passphrase random draw = .ok s) : KeyInvariant lib passphrase st s := by
  simp only [firstBoot, getOrCreateFleetKey] at h
  cases random with
  | none => cases h
  | some key =>
    cases hwrite : Seal.writeMaybeSealed lib passphrase draw (fleetKeyText key) with
    | error e =>
      simp only [hwrite] at h
      cases h
    | ok data =>
      simp only [hwrite] at h
      cases h
      refine ⟨rfl, .refl _, ⟨key, readFleetKey_of_write hwrite⟩, ?_⟩
      rintro _ _ ⟨⟩

variable {listed : Disk}

theorem keyStep_restart {now : ℕ} (hkey : readFleetKey lib passphrase s.keyFile = .ok key)
    (hsame : listed.SameFiles s.raft.disk) :
    keyStep lib passphrase st s (.restart now listed) =
      some { s with
        raft :=
          { raftState := (storageWith st key).restoreRaftState now {} listed, disk := listed }
        storageKey := key } := by
  have hget : getOrCreateFleetKey lib passphrase (some s.keyFile) none none =
      .ok (key, s.keyFile) := by
    rw [getOrCreateFleetKey, hkey]
    rfl
  simp only [keyStep, hget, Raft.step, if_pos hsame, Option.map_some]

/-- STEP: the invariant. -/
theorem keyInvariant_step {e : KeyEvent} (hs : KeyInvariant lib passphrase st s)
    (h : keyStep lib passphrase st s e = some s') : KeyInvariant lib passphrase st s' := by
  cases e with
  | apply now command =>
    obtain ⟨raft, hraft, rfl⟩ := serveRaft_eq_some h
    cases hraft
    exact ⟨hs.log, hs.files, hs.keyRead, hs.captured⟩
  | tick =>
    obtain ⟨raft, hraft, rfl⟩ := serveRaft_eq_some h
    simp only [Raft.step] at hraft
    split at hraft
    · cases hraft
      refine ⟨hs.log, hs.files, hs.keyRead, fun last snapshot hcap => ?_⟩
      simp only at hcap
      split at hcap <;> cases hcap
    · cases hraft
  | capture =>
    obtain ⟨s₁, hserve, rfl⟩ := Option.map_eq_some_iff.mp h
    obtain ⟨raft, hraft, rfl⟩ := serveRaft_eq_some hserve
    simp only [Raft.step] at hraft
    split at hraft
    · cases hraft
      refine ⟨hs.log, hs.files, hs.keyRead, fun last snapshot hcap => ?_⟩
      cases hcap
      rfl
    · cases hraft
  | write nonce =>
    simp only [keyStep] at h
    split at h
    · next last snapshot hcap =>
      obtain ⟨s₁, hserve, rfl⟩ := Option.map_eq_some_iff.mp h
      obtain ⟨raft, hraft, rfl⟩ := serveRaft_eq_some hserve
      simp only [Raft.step, hcap] at hraft
      cases hraft
      refine ⟨?_, ?_, hs.keyRead, ?_⟩
      · simp only [compactLog, saveSnapshot, hs.log]
        rfl
      · rw [keepFiles_concat, hs.captured last snapshot hcap]
        exact AList.perm_insert hs.files
      · rintro _ _ ⟨⟩
    · cases h
  | rotate newKey draw =>
    simp only [keyStep] at h
    split at h
    · cases h
      exact hs
    · next keyFile hwrite =>
      cases h
      exact ⟨hs.log, hs.files, ⟨newKey, readFleetKey_of_write hwrite⟩, hs.captured⟩
  | restart now listed =>
    obtain ⟨key, hkey⟩ := hs.keyRead
    have hsame : listed.SameFiles s.raft.disk := by
      by_contra hno
      simp only [keyStep, Raft.step, if_neg hno, Option.map_none] at h
      split at h <;> cases h
    rw [keyStep_restart hkey hsame] at h
    cases h
    refine ⟨?_, hsame.2.trans hs.files, ⟨key, hkey⟩, ?_⟩
    · exact List.perm_nil.mp (hs.log ▸ hsame.1)
    · rintro _ _ ⟨⟩

/-- RUN: the invariant. -/
theorem keyInvariant_run {s₀ : Installation} (h₀ : KeyInvariant lib passphrase st s₀)
    {trace : List KeyEvent} (h : run (keyStep lib passphrase st) s₀ trace = some s) :
    KeyInvariant lib passphrase st s :=
  invariant (keyStep lib passphrase st) _ h₀ (fun _ _ _ => keyInvariant_step) h

theorem decrypt_takenFile (hideal : st.aead.Ideal) (key : MasterKey) (t : Taken) :
    (∃ data, (storageWith st key).decrypt (takenFile st t).sealed snapshotAad = .ok data) ↔
      t.key = key := by
  constructor
  · rintro ⟨data, hdata⟩
    by_contra hne
    have hlen : t.nonce.toList.length = 12 := t.nonce.2
    have hopen := hideal t.key key t.nonce.toList snapshotAad (st.stateJson.encode t.state)
      (fun h => hne (Subtype.ext h))
    have hlong : ¬ (takenFile st t).sealed.length < 12 := by
      rw [takenFile, encrypt, List.length_append, hlen]
      omega
    rw [decrypt, if_neg hlong] at hdata
    simp only [takenFile, encrypt, storageWith, List.take_left' hlen, List.drop_left' hlen,
      hopen] at hdata
    cases hdata
  · rintro rfl
    exact ⟨_, decrypt_encrypt _ _ _ _⟩

theorem latest_cases (hs : KeyInvariant lib passphrase st s)
    (hsame : listed.SameFiles s.raft.disk) :
    (latestSnapshotFile listed.snapshots = none ∧ s.taken = []) ∨
      ∃ (f : Σ _ : String, Bytes) (a b : Taken),
        latestSnapshotFile listed.snapshots = some f ∧ f.1 = snapName a.last ∧
        lastUnder (takenFile st) s.taken a.last = some b ∧ f.2 = (takenFile st b).sealed := by
  have hperm := hsame.2.trans hs.files
  rcases hlatest : latestSnapshotFile listed.snapshots with _ | f
  · refine .inl ⟨rfl, List.eq_nil_iff_forall_not_mem.mpr fun t ht => ?_⟩
    obtain ⟨b, hb⟩ := exists_lastUnder (takenFile st) ht
    have hfile := hperm.mem_iff.mpr (mem_keepFiles_of_lastUnder {} hb)
    have hnot := isSnapshot_of_latest_none hlatest hfile
    rw [isSnapshot_snapName] at hnot
    cases hnot
  · obtain ⟨a, b, -, hname, hb, hcontents⟩ :=
      latestSnapshotFile_keepFiles (by rintro _ ⟨⟩) hperm hlatest
    exact .inr ⟨f, a, b, rfl, hname, hb, hcontents⟩

theorem canRead_iff (hideal : st.aead.Ideal) (hs : KeyInvariant lib passphrase st s)
    (hkey : readFleetKey lib passphrase s.keyFile = .ok key)
      (hsame : listed.SameFiles s.raft.disk) :
    CanRead st key listed.snapshots ↔ SealedUnderKeyFile lib passphrase st s := by
  have hperm := hsame.2.trans hs.files
  constructor
  · intro hread i t ht
    have hfile := hperm.mem_iff.mpr (mem_keepFiles_of_lastUnder {} ht)
    rw [hkey, (decrypt_takenFile hideal key t).mp (hread _ hfile (isSnapshot_snapName i))]
  · intro hsealed f hf hsnap
    obtain ⟨a, b, -, -, hb, hcontents⟩ :=
      contents_keepFiles (by rintro _ ⟨⟩) (hperm.mem_iff.mp hf) hsnap
    rw [hcontents, decrypt_takenFile hideal]
    exact Except.ok.inj ((hsealed _ b hb).symm.trans hkey)

theorem restored_iff (hs : KeyInvariant lib passphrase st s)
    (hkey : readFleetKey lib passphrase s.keyFile = .ok key)
    (hsealed : SealedUnderKeyFile lib passphrase st s) (now : ℕ)
    (hsame : listed.SameFiles s.raft.disk) :
    Raft.SameState ((storageWith st key).restoreRaftState now {} listed) (lastTaken s) ↔
      ListsLastTaken st s listed := by
  have hlog : listed.log.entries = [] := List.perm_nil.mp (hs.log ▸ hsame.1)
  rw [restoreRaftState_of_log_nil _ now hlog, latestContents, ListsLastTaken,
    ← map_fst_latestSnapshotFile]
  rcases latest_cases hs hsame with ⟨hnone, hnil⟩ | ⟨f, a, b, hlatest, hname, hb, hcontents⟩
  · have hlast : lastTaken s = {} := by rw [lastTaken, hnil]; rfl
    simp only [hnone, hlast]
    refine iff_of_true (Raft.SameState.refl _) ?_
    rintro _ _ ⟨⟩
  · have hbkey : b.key = key := Except.ok.inj ((hsealed _ b hb).symm.trans hkey)
    obtain ⟨m, hdecode, hm⟩ := st.stateJson.decode_encode b.state
    have hdecrypt : (storageWith st key).decrypt f.2 snapshotAad =
        .ok (st.stateJson.encode b.state) := by
      rw [hcontents, ← hbkey]
      exact decrypt_encrypt _ _ _ _
    have hdecode' : (storageWith st key).stateJson.decode (st.stateJson.encode b.state) = some m :=
      hdecode
    simp only [hlatest, hdecrypt, hdecode', Option.getD_some, Option.map_some, hname]
    constructor
    · intro hsame i t hi ht
      obtain rfl := snapName_inj (Option.some.inj hi)
      obtain rfl := Option.some.inj (hb.symm.trans ht)
      exact hm.symm.trans hsame
    · intro hlists
      exact hm.trans (hlists _ b rfl hb)

/-- EXACT: in a run from the first boot of an empty directory, every restart recovers the state of
    the last snapshot and can read the others if and only if, at every restart, all snapshots on
    disk were sealed under the key in the key file and the one listed last holds the state of the
    last one taken. -/
theorem recovers_iff (hideal : st.aead.Ideal) {random : Option MasterKey} {draw : Option Seal.Draw}
    {s₀ : Installation} (h₀ : firstBoot lib passphrase random draw = .ok s₀)
      (trace : List KeyEvent) :
    Recovers lib passphrase st s₀ trace ↔
      ∀ pre now listed s, pre ++ [.restart now listed] <+: trace →
        run (keyStep lib passphrase st) s₀ pre = some s → listed.SameFiles s.raft.disk →
        SealedUnderKeyFile lib passphrase st s ∧ ListsLastTaken st s listed := by
  refine forall₄_congr fun pre now listed s => forall₃_congr fun _ hrun hsame => ?_
  have hs : KeyInvariant lib passphrase st s := keyInvariant_run (keyInvariant_firstBoot h₀) hrun
  obtain ⟨key, hkey⟩ := hs.keyRead
  rw [keyStep_restart hkey hsame]
  constructor
  · rintro ⟨s', hs', hstate, hread⟩
    cases hs'
    have hsealed := (canRead_iff hideal hs hkey hsame).mp hread
    exact ⟨hsealed, (restored_iff hs hkey hsealed now hsame).mp hstate⟩
  · rintro ⟨hsealed, hlists⟩
    exact ⟨_, rfl, (restored_iff hs hkey hsealed now hsame).mpr hlists,
      (canRead_iff hideal hs hkey hsame).mpr hsealed⟩

/-! ### A snapshot, with and without a rotation -/

def bootKey : MasterKey := ⟨List.replicate 32 1, rfl⟩
def rotatedKey : MasterKey := ⟨List.replicate 32 3, rfl⟩

/-- The first boot, without a passphrase. -/
def bootedServer : Installation := { storageKey := bootKey, keyFile := fleetKeyText bootKey }

theorem firstBoot_bootKey (lib : SealLib) :
    firstBoot lib none (some bootKey) none = .ok bootedServer := rfl

/-- One command and the first snapshot. -/
def snapshotTrace : List KeyEvent :=
  .apply 0 (.kvPut "k" [1]) :: (List.replicate 99 .tick ++ [.tick, .capture, .write someNonce])

def snapshotState : StateMachineInner := (applyNext 0 {} (.kvPut "k" [1])).1

def snapshotTaken : Taken := ⟨bootKey, 1, someNonce, snapshotState⟩

theorem run_ticks (n : ℕ) : ∀ s : Installation, s.raft.housekeeping = .idle →
    s.raft.tickCount + n < 100 → run (keyStep lib passphrase st) s (List.replicate n .tick) =
      some { s with raft := { s.raft with tickCount := s.raft.tickCount + n } } := by
  induction n with
  | zero => exact fun _ _ _ => rfl
  | succ n ih =>
    intro s hidle hn
    have hmod : ¬ ((s.raft.tickCount + 1) % 100 = 0 ∧ 0 < s.raft.raftState.lastApplied) := by
      omega
    have htick : keyStep lib passphrase st s .tick =
        some { s with raft := { s.raft with tickCount := s.raft.tickCount + 1 } } := by
      simp only [keyStep, serveRaft, Raft.step, hidle, if_neg hmod, Option.map_some]
    have hrest := ih { s with raft := { s.raft with tickCount := s.raft.tickCount + 1 } } hidle
      (by simp only; omega)
    rw [List.replicate_succ, run_cons, htick, Option.bind_some, hrest]
    simp only [Nat.add_assoc, Nat.add_comm 1 n]

/-- The server after the first snapshot. -/
def snapshotServer (st : RaftStorage) : Installation where
  raft :=
    { raftState := snapshotState
      tickCount := 100
      disk := compactLog ((storageWith st bootKey).saveSnapshot someNonce {} 1
        (st.stateJson.encode snapshotState)) 1 }
  storageKey := bootKey
  keyFile := fleetKeyText bootKey
  captured := snapshotState
  taken := [snapshotTaken]

theorem run_snapshotTrace (lib : SealLib) (st : RaftStorage) :
    run (keyStep lib none st) bootedServer snapshotTrace = some (snapshotServer st) := by
  have happly : keyStep lib none st bootedServer (.apply 0 (.kvPut "k" [1])) =
      some { bootedServer with raft := { raftState := snapshotState } } := rfl
  rw [snapshotTrace, run_cons, happly, Option.bind_some, run_append,
    run_ticks 99 _ rfl (by decide)]
  rfl

theorem lastUnder_singleton {t t' : Taken} {i : ℕ} (h : lastUnder (takenFile st) [t] i = some t')
    : t' = t :=
  List.mem_singleton.mp (List.mem_of_mem_filter (List.mem_of_getLast? h))

theorem exists_ideal_storage : ∃ st : RaftStorage, st.aead.Ideal := by
  obtain ⟨st⟩ := RaftStorage.nonempty
  obtain ⟨aead, hideal⟩ := Aead.exists_ideal
  exact ⟨{ st with aead }, hideal⟩

/-- Without a rotation, the restart after the first snapshot recovers it, whatever the listing. -/
theorem snapshot_recovered : (∃ st : RaftStorage, st.aead.Ideal) ∧
    ∀ (lib : SealLib) (st : RaftStorage) (listed : Disk), st.aead.Ideal →
      Recovers lib none st bootedServer (snapshotTrace ++ [.restart 0 listed]) := by
  refine ⟨exists_ideal_storage, fun lib st listed hideal => ?_⟩
  refine (recovers_iff hideal (firstBoot_bootKey lib) _).mpr ?_
  intro pre now listed' s hpre hrun _
  have htrace : pre = snapshotTrace := by
    rcases concat_prefix_concat_iff.mp hpre with ⟨heq, -⟩ | hpre
    · exact heq
    · have hmem := hpre.subset (List.mem_concat_self)
      simp [snapshotTrace] at hmem
  rw [htrace, run_snapshotTrace] at hrun
  cases hrun
  constructor
  · intro i t ht
    rw [lastUnder_singleton ht]
    exact readFleetKey_text lib bootKey
  · intro i t _ ht
    rw [lastUnder_singleton ht]
    exact Raft.SameState.refl _

/-- With every ideal cipher: a key is put, the first snapshot is taken, the fleet key is rotated and
    the server restarts. Its state is empty. -/
theorem snapshot_lost_by_rotation : (∃ st : RaftStorage, st.aead.Ideal) ∧
    ∀ (lib : SealLib) (st : RaftStorage), st.aead.Ideal → ∃ s s',
      run (keyStep lib none st) bootedServer (snapshotTrace ++ [.rotate rotatedKey none]) = some s ∧
      (lastTaken s).data.kv "k" = some [1] ∧
      keyStep lib none st s (.restart 0 s.raft.disk) = some s' ∧ s'.raft.raftState = {} ∧
      ¬ Recovers lib none st bootedServer
        (snapshotTrace ++ [.rotate rotatedKey none] ++ [.restart 0 s.raft.disk]) := by
  refine ⟨exists_ideal_storage, fun lib st hideal => ?_⟩
  let s : Installation := { snapshotServer st with keyFile := fleetKeyText rotatedKey }
  have hrun : run (keyStep lib none st) bootedServer
      (snapshotTrace ++ [.rotate rotatedKey none]) = some s :=
    (run_concat_iff _).mpr ⟨_, run_snapshotTrace lib st, rfl⟩
  have hs : KeyInvariant lib none st s :=
    keyInvariant_run (keyInvariant_firstBoot (firstBoot_bootKey lib)) hrun
  have hkey : readFleetKey lib none s.keyFile = .ok rotatedKey :=
    readFleetKey_text lib rotatedKey
  have hsame : s.raft.disk.SameFiles s.raft.disk := ⟨.refl _, .refl _⟩
  have hstep : keyStep lib none st s (.restart 0 s.raft.disk) = some _ := keyStep_restart hkey hsame
  have hempty : (storageWith st rotatedKey).restoreRaftState 0 {} s.raft.disk = {} := by
    rw [restoreRaftState_of_log_nil _ 0 hs.log, latestContents]
    rcases latest_cases hs hsame with ⟨-, hnil⟩ | ⟨f, a, b, hlatest, -, hb, hcontents⟩
    · cases hnil
    · -- the only snapshot was sealed under the key of the first boot
      have hunread : ¬ ∃ data, (storageWith st rotatedKey).decrypt f.2 snapshotAad = .ok data := by
        rw [hcontents, decrypt_takenFile hideal, lastUnder_singleton hb]
        decide
      rw [hlatest]
      rcases hdecrypt : (storageWith st rotatedKey).decrypt f.2 snapshotAad with e | data
      · simp only [hdecrypt]
      · exact absurd ⟨data, hdecrypt⟩ hunread
  have hkv : (lastTaken s).data.kv "k" = some [1] :=
    (by decide : snapshotState.data.kv "k" = some [1])
  refine ⟨s, _, hrun, hkv, hstep, hempty, fun hrec => ?_⟩
  obtain ⟨s', hs', hstate, -⟩ := hrec _ 0 s.raft.disk s List.prefix_rfl hrun hsame
  rw [hstep] at hs'
  cases hs'
  rw [hempty] at hstate
  have hlost := congrArg (FleetData.kv · "k") hstate.1
  simp only [hkv] at hlost
  cases hlost

end Ekafleet.Server
