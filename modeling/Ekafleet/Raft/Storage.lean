import Ekafleet.Lib.Text
import Ekafleet.Raft.State

/-! Log and snapshot files | source: raft/storage.rs, server/mod.rs

    A directory is a map from file names to contents whose order is the order of a directory
    listing. The cipher and the JSON formats are parameters. Reads of existing files succeed. -/

namespace Ekafleet.Raft

/-- An entry of the log. -/
structure LogEntry where
  index : ℕ
  term : ℕ
  command : Command
  deriving Countable

/-- JSON keeps a state up to the iteration order of its maps. -/
def SameState (a b : StateMachineInner) : Prop := a.data = b.data ∧ a.lastApplied = b.lastApplied

theorem SameState.refl (a : StateMachineInner) : SameState a a := ⟨rfl, rfl⟩

theorem SameState.symm {a b : StateMachineInner} (h : SameState a b) : SameState b a :=
  ⟨h.1.symm, h.2.symm⟩

theorem SameState.trans {a b c : StateMachineInner} (h : SameState a b) (h' : SameState b c) :
    SameState a c :=
  ⟨h.1.trans h'.1, h.2.trans h'.2⟩

/-- The storage: its key, and the third-party cipher and formats it uses. -/
structure RaftStorage where
  key : Bytes
  aead : Aead
  stateJson : Codec SameState
  entryJson : Codec (Eq : LogEntry → LogEntry → Prop)

theorem RaftStorage.nonempty : Nonempty RaftStorage := by
  obtain ⟨aead⟩ := Aead.nonempty
  obtain ⟨stateJson⟩ : Nonempty (Codec SameState) :=
    Codec.nonempty_of_countable fun _ => ⟨rfl, rfl⟩
  obtain ⟨entryJson⟩ : Nonempty (Codec (Eq : LogEntry → LogEntry → Prop)) :=
    Codec.nonempty_of_countable fun _ => rfl
  exact ⟨⟨[], aead, stateJson, entryJson⟩⟩

/-- AES-256-GCM nonces have 12 bytes. -/
abbrev Nonce := List.Vector UInt8 12

/-- File name to contents, in listing order. -/
abbrev Dir := HashMap String Bytes

/-- The two directories of the storage. -/
structure Disk where
  log : Dir := ∅
  snapshots : Dir := ∅

/-- Errors of kind `InvalidData`: "sealed data too short", "decryption failed", and whatever the
    JSON parser says. -/
inductive StorageError where | sealedDataTooShort | decryptionFailed | invalidJson
  deriving DecidableEq, Repr

namespace RaftStorage
variable (st : RaftStorage)

/-- `nonce || ciphertext || tag`. -/
def encrypt (nonce : Nonce) (plaintext aad : Bytes) : Bytes :=
  nonce.toList ++ st.aead.sealWith st.key nonce.toList aad plaintext

def decrypt (sealed aad : Bytes) : Except StorageError Bytes :=
  if sealed.length < 12 then .error .sealedDataTooShort
  else match st.aead.openWith st.key (sealed.take 12) aad (sealed.drop 12) with
    | some plaintext => .ok plaintext
    | none => .error .decryptionFailed

theorem decrypt_encrypt (nonce : Nonce) (plaintext aad : Bytes) :
    st.decrypt (st.encrypt nonce plaintext aad) aad = .ok plaintext := by
  simp [encrypt, List.length_append, decrypt, List.take_left',
    List.drop_left', Aead.open_seal]

def logAad : Bytes := "raft-log".toUTF8.toList

def snapshotAad : Bytes := "raft-snapshot".toUTF8.toList

def logName (index : ℕ) : String := Text.padded 20 index ++ ".log"

def snapName (index : ℕ) : String := Text.padded 20 index ++ ".snap"

/-- The index a file name carries. -/
def nameIndex (name : String) : Option ℕ := Text.parseUnsigned (2 ^ 64) (Text.fileParts name).1

/-- Append a log entry (encrypted at rest). -/
def appendLog (nonce : Nonce) (disk : Disk) (entry : LogEntry) : Disk :=
  { disk with
    log := disk.log.insert (logName entry.index)
      (st.encrypt nonce (st.entryJson.encode entry) logAad) }

/-- Open and parse a log entry. -/
def readEntry (sealed : Bytes) : Except StorageError LogEntry := do
  let json ← st.decrypt sealed logAad
  match st.entryJson.decode json with
  | some entry => return entry
  | none => throw .invalidJson

/-- Read log entries from a given index, in the order of the file names. -/
def readLogFrom (disk : Disk) (fromIndex : ℕ) : Except StorageError (List LogEntry) := do
  let files := disk.log.entries.insertionSort fun a b => a.1 ≤ b.1
  let entries ← files.mapM fun f => st.readEntry f.2
  return entries.filter fun e => fromIndex ≤ e.index

/-- Save a snapshot (encrypted at rest). -/
def saveSnapshot (nonce : Nonce) (disk : Disk) (index : ℕ) (data : Bytes) : Disk :=
  { disk with
    snapshots := disk.snapshots.insert (snapName index) (st.encrypt nonce data snapshotAad) }

/-- The snapshot file a listing ends with. Its index is not compared with the others'. -/
def latestSnapshotFile (snapshots : Dir) : Option (Σ _ : String, Bytes) :=
  (snapshots.entries.filter fun f => (Text.fileParts f.1).2 = some "snap").getLast?

/-- Open the newest snapshot. -/
def loadLatestSnapshot (disk : Disk) : Except StorageError (Option (ℕ × Bytes)) :=
  match latestSnapshotFile disk.snapshots with
  | none => .ok none
  | some f => do
    let data ← st.decrypt f.2 snapshotAad
    return some ((nameIndex f.1).getD 0, data)

/-- Remove the log entries up to and including an index. -/
def compactLog (disk : Disk) (upTo : ℕ) : Disk :=
  { disk with
    log := (disk.log.entries.filter fun f =>
      upTo < (nameIndex f.1).getD (2 ^ 64 - 1)).toAList }

/-- Restore at boot: the snapshot, then the log entries after it. The caller only logs an error, so
    the result is the state at the point of failure. -/
def restoreRaftState (now : ℕ) (state : StateMachineInner) (disk : Disk) : StateMachineInner :=
  let replay (state : StateMachineInner) (snapshotIndex : ℕ) :=
    match st.readLogFrom disk (snapshotIndex + 1) with
    | .error _ => state
    | .ok entries => entries.foldl (fun s e => apply now s e.index e.command) state
  match st.loadLatestSnapshot disk with
  | .error _ => state
  | .ok none => replay state 0
  | .ok (some (index, data)) =>
    match st.stateJson.decode data with
    | none => state
    | some restored => replay restored index

end RaftStorage

end Ekafleet.Raft
