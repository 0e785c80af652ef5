import Ekafleet.Lib.Run
import Ekafleet.Raft.Storage

/-! Restarts and acknowledged commands | source: server/mod.rs

    The server as a transition system: commands change memory only, housekeeping writes a snapshot
    on every hundredth tick, and a crash at any point is followed by a boot from disk. Housekeeping
    reads the index, takes the snapshot and writes the file in three steps, between which commands
    may be applied. Nothing appends to the log. -/

namespace Ekafleet.Raft
open RaftStorage

/-- Where the housekeeping task is in its snapshot step. -/
inductive Housekeeping where
  | idle
  | indexRead (last : ℕ)
  | captured (last : ℕ) (snapshot : Bytes)

/-- The server: memory, housekeeping and disk. -/
structure Server where
  raftState : StateMachineInner := {}
  tickCount : ℕ := 0
  housekeeping : Housekeeping := .idle
  disk : Disk := {}

/-- A failed write may leave the file as it was or with other contents. -/
inductive WriteOutcome where
  | ok
  | failed (left : Option Bytes)

/-- What happens to the server. -/
inductive Event where
  | apply (now : ℕ) (command : Command)
  | tick
  | capture
  | write (nonce : Nonce) (outcome : WriteOutcome)
  /-- Crash and boot; the directories are listed in some order. -/
  | restart (now : ℕ) (listed : Disk)

def Disk.SameFiles (a b : Disk) : Prop :=
  a.log.entries.Perm b.log.entries ∧ a.snapshots.entries.Perm b.snapshots.entries

instance (a b : Disk) : Decidable (a.SameFiles b) := inferInstanceAs (Decidable (_ ∧ _))

variable (st : RaftStorage)

/-- One event of the server. -/
def step (s : Server) : Event → Option Server
  | .apply now command => some { s with raftState := (applyNext now s.raftState command).1 }
  | .tick =>
    match s.housekeeping with
    | .idle =>
      let tickCount := s.tickCount + 1
      let last := s.raftState.lastApplied
      some { s with
        tickCount
        housekeeping := if tickCount % 100 = 0 ∧ 0 < last then .indexRead last else .idle }
    | _ => none
  | .capture =>
    match s.housekeeping with
    | .indexRead last =>
      some { s with housekeeping := .captured last (st.stateJson.encode s.raftState) }
    | _ => none
  | .write nonce outcome =>
    match s.housekeeping, outcome with
    | .captured last snapshot, .ok =>
      some { s with
        housekeeping := .idle
        disk := compactLog (st.saveSnapshot nonce s.disk last snapshot) last }
    | .captured _ _, .failed none => some { s with housekeeping := .idle }
    | .captured last _, .failed (some left) =>
      some { s with
        housekeeping := .idle
        disk := { s.disk with snapshots := s.disk.snapshots.insert (snapName last) left } }
    | _, _ => none
  | .restart now listed =>
    if listed.SameFiles s.disk
    then some { raftState := st.restoreRaftState now {} listed, disk := listed }
    else none

/-- The commands acknowledged along a trace, with their times. -/
def acknowledged (trace : List Event) : List (ℕ × Command) :=
  trace.filterMap fun
    | .apply now command => some (now, command)
    | _ => none

/-- The data after a list of commands. -/
noncomputable def effects (commands : List (ℕ × Command)) : FleetData :=
  commands.foldl (fun d c => c.2.effect c.1 d) FleetData.empty

/-- In every state reached, the data is that of all commands acknowledged so far. -/
def Durable (trace : List Event) : Prop :=
  ∀ pre s, pre <+: trace → Run.run (step st) {} pre = some s →
    s.raftState.data = effects (acknowledged pre)

/-- The state that the snapshot listed last holds; the empty one if there is none to read. -/
def latestContents (snapshots : Dir) : StateMachineInner :=
  match latestSnapshotFile snapshots with
  | none => {}
  | some f =>
    match st.decrypt f.2 snapshotAad with
    | .error _ => {}
    | .ok data => (st.stateJson.decode data).getD {}

/-- The snapshot listed last holds what memory holds. -/
def Saved (snapshots : Dir) (mem : StateMachineInner) : Prop :=
  (latestContents st snapshots).data = mem.data

/-! ### Steps -/

variable {s s' : Server}

theorem step_cases {e : Event} (h : step st s e = some s') :
    (∃ now c, e = .apply now c ∧ s'.disk = s.disk ∧
      s'.raftState = applyLocked now s.raftState (s.raftState.lastApplied + 1) c) ∨
    (∃ now listed, e = .restart now listed ∧ listed.SameFiles s.disk ∧ s'.disk = listed ∧
      s'.raftState = st.restoreRaftState now {} listed) ∨
    (acknowledged [e] = [] ∧ (∀ now listed, e ≠ .restart now listed) ∧
      s'.raftState = s.raftState ∧
      (s'.disk.log = s.disk.log ∨ ∃ upTo, s'.disk.log = (compactLog s.disk upTo).log)) := by
  cases e with
  | apply now c => cases h; exact .inl ⟨now, c, rfl, rfl, rfl⟩
  | restart now listed =>
    simp only [step] at h
    grind
  | tick =>
    simp only [step] at h
    split at h
    · cases h; exact .inr (.inr ⟨rfl, nofun, rfl, .inl rfl⟩)
    · cases h
  | capture =>
    simp only [step] at h
    split at h
    · cases h; exact .inr (.inr ⟨rfl, nofun, rfl, .inl rfl⟩)
    · cases h
  | write nonce outcome =>
    simp only [step] at h
    split at h
    · cases h; exact .inr (.inr ⟨rfl, nofun, rfl, .inr ⟨_, rfl⟩⟩)
    · cases h; exact .inr (.inr ⟨rfl, nofun, rfl, .inl rfl⟩)
    · cases h; exact .inr (.inr ⟨rfl, nofun, rfl, .inl rfl⟩)
    · cases h

theorem acknowledged_append (tr tr' : List Event) :
    acknowledged (tr ++ tr') = acknowledged tr ++ acknowledged tr' :=
  List.filterMap_append

theorem effects_concat (tr : List Event) (now : ℕ) (c : Command) :
    effects (acknowledged (tr ++ [.apply now c])) = c.effect now (effects (acknowledged tr)) := by
  rw [acknowledged_append, effects, List.foldl_append]; rfl

theorem acknowledged_restart (tr : List Event) (now : ℕ) (listed : Disk) :
    acknowledged (tr ++ [.restart now listed]) = acknowledged tr := by
  rw [acknowledged_append]; exact List.append_nil _

theorem step_log_nil {e : Event} (h : step st s e = some s') (hlog : s.disk.log.entries = [])
    : s'.disk.log.entries = [] := by
  rcases step_cases st h with ⟨now, c, -, hdisk, -⟩ | ⟨now, listed, -, hsame, hdisk, -⟩ |
    ⟨-, -, -, hdisk | ⟨upTo, hdisk⟩⟩
  · rw [hdisk, hlog]
  · rw [hdisk]
    exact List.perm_nil.mp (hlog ▸ hsame.1)
  · rw [hdisk, hlog]
  · rw [hdisk, compactLog, hlog]; rfl

theorem run_log_nil {tr : List Event} (h : Run.run (step st) {} tr = some s) :
    s.disk.log.entries = [] :=
  Run.invariant (step st) (fun s => s.disk.log.entries = []) rfl
    (fun _ _ _ hlog h => step_log_nil st h hlog) h

theorem restoreRaftState_of_log_nil (now : ℕ) {listed : Disk} (hlog : listed.log.entries = []) :
    st.restoreRaftState now {} listed = latestContents st listed.snapshots := by
  have hread : ∀ i, st.readLogFrom listed i = .ok [] := fun i => by
    simp only [readLogFrom, hlog]; rfl
  simp only [restoreRaftState, loadLatestSnapshot, latestContents, hread]
  cases latestSnapshotFile listed.snapshots with
  | none => rfl
  | some f =>
    cases hdec : st.decrypt f.2 snapshotAad with
    | error e => simp [hdec, bind, Except.bind]
    | ok data =>
      cases hjson : st.stateJson.decode data <;>
        simp [hdec, bind, Except.bind, pure, Except.pure, hjson]

theorem restart_data_iff {tr : List Event} {now : ℕ} {listed : Disk}
    (hs : Run.run (step st) {} tr = some s) (h : step st s (.restart now listed) = some s') :
    s'.raftState.data = s.raftState.data ↔ Saved st listed.snapshots s.raftState := by
  have hlog : listed.log.entries = [] := by
    have hsame : listed.SameFiles s.disk := by
      by_contra hno
      simp [step, hno] at h
    exact List.perm_nil.mp (run_log_nil st hs ▸ hsame.1)
  have hmem : s'.raftState = latestContents st listed.snapshots := by
    rw [← restoreRaftState_of_log_nil st now hlog]
    simp only [step] at h
    split at h <;> cases h
    rfl
  rw [hmem, Saved]

/-! ### Housekeeping -/

/-- A directory that ends with the snapshot of a state holds its data. -/
theorem saved_of_saveSnapshot {nonce : Nonce} {disk : Disk} {last : ℕ} {mem : StateMachineInner}
    {listed : Dir}
    (hfiles : listed.entries.Perm
      (st.saveSnapshot nonce disk last (st.stateJson.encode mem)).snapshots.entries)
    (hlast : (latestSnapshotFile listed).map (·.1) = some (snapName last)) :
    Saved st listed mem := by
  obtain ⟨f, hf, hname⟩ := Option.map_eq_some_iff.mp hlast
  have hmem := hfiles.mem_iff.mp (List.mem_of_mem_filter (List.mem_of_getLast? hf))
  have hcontents : f.2 = st.encrypt nonce (st.stateJson.encode mem) snapshotAad := by
    have hlookup := HashMap.lookup_of_mem hmem
    rw [hname] at hlookup
    exact Option.some.inj (hlookup.symm.trans (AList.lookup_insert _))
  obtain ⟨restored, hdecode, hsame⟩ := st.stateJson.decode_encode mem
  simp only [Saved, latestContents, hf, hcontents, st.decrypt_encrypt, hdecode]
  exact hsame.1

/-- RUN: a hundredth tick, the capture and the write that follow it leave memory as it is. On disk
    they leave its snapshot and the log after it, and a boot that lists the snapshot last has its
    data. -/
theorem housekeeping_saves (nonce : Nonce) (hidle : s.housekeeping = .idle)
    (htick : (s.tickCount + 1) % 100 = 0) (happlied : 0 < s.raftState.lastApplied) :
    ∃ s', Run.run (step st) s [.tick, .capture, .write nonce .ok] = some s' ∧
      s'.raftState = s.raftState ∧ s'.disk.log = (compactLog s.disk s.raftState.lastApplied).log ∧
      ∀ listed : Dir, listed.entries.Perm s'.disk.snapshots.entries →
        (latestSnapshotFile listed).map (·.1) = some (snapName s.raftState.lastApplied) →
        Saved st listed s'.raftState := by
  let last := s.raftState.lastApplied
  let disk := st.saveSnapshot nonce s.disk last (st.stateJson.encode s.raftState)
  refine ⟨⟨s.raftState, s.tickCount + 1, .idle, compactLog disk last⟩, ?_, rfl, rfl, ?_⟩
  · simp [step, hidle, htick, happlied, disk, last]
  intro listed hfiles hlast
  exact saved_of_saveSnapshot st hfiles hlast

/-! ### Runs -/

/-- STEP: what was acknowledged stays in effect, except in a restart from a directory that does not
    hold it. -/
theorem durable_step_iff {tr : List Event} {e : Event} (hrun : Run.run (step st) {} tr = some s)
    (hdata : s.raftState.data = effects (acknowledged tr)) (hstep : step st s e = some s') :
    s'.raftState.data = effects (acknowledged (tr ++ [e])) ↔
      ∀ now listed, e = .restart now listed → Saved st listed.snapshots s.raftState := by
  rcases step_cases st hstep with ⟨now, c, rfl, -, hmem⟩ | ⟨now, listed, rfl, -⟩ |
    ⟨hack, hnot, hmem, -⟩
  · refine iff_of_true ?_ fun _ _ he => by cases he
    rw [hmem, data_applyLocked, hdata, effects_concat]
  · grind [acknowledged_restart, restart_data_iff]
  · refine iff_of_true ?_ fun now listed he => absurd he (hnot now listed)
    rw [hmem, hdata, acknowledged_append, hack, List.append_nil]

/-- EXACT: a run from a fresh install keeps the effect of every acknowledged command through all
    its restarts if and only if, at every restart, the snapshot that the directory listing ends
    with holds the data that was in memory. -/
theorem durable_iff_saved (trace : List Event) :
    Durable st trace ↔ ∀ pre now listed s s', pre ++ [.restart now listed] <+: trace →
      Run.run (step st) {} pre = some s → step st s (.restart now listed) = some s' →
      Saved st listed.snapshots s.raftState := by
  refine (Run.along_iff (step st) (P := fun tr s => s.raftState.data = effects (acknowledged tr))
    data_init (fun _ _ _ _ hrun hdata hstep => durable_step_iff st hrun hdata hstep) trace).trans ?_
  constructor
  · intro h pre now listed s s' hpre hs hs'
    exact h pre _ s s' hpre hs hs' now listed rfl
  · rintro h pre e s s' hpre hs hs' now listed rfl
    exact h pre now listed s s' hpre hs hs'

/-- With every storage, one acknowledged `KvPut` is gone after a crash before the first snapshot. -/
theorem kvPut_lost_on_restart : Nonempty RaftStorage ∧ ∀ st : RaftStorage,
    ∃ s, Run.run (step st) {} [.apply 0 (.kvPut "k" [1]), .restart 0 {}] = some s ∧
      s.raftState.data.kv "k" = none ∧
      (effects (acknowledged [.apply 0 (.kvPut "k" [1]), .restart 0 {}])).kv "k" = some [1] ∧
      ¬ Durable st [.apply 0 (.kvPut "k" [1]), .restart 0 {}] := by
  refine ⟨RaftStorage.nonempty, fun st => ?_⟩
  have hrun : Run.run (step st) {} [.apply 0 (.kvPut "k" [1]), .restart 0 {}] =
      some { raftState := st.restoreRaftState 0 {} {}, disk := {} } := by
    simp [step, Disk.SameFiles]
  have hstate : st.restoreRaftState 0 {} {} = {} := restoreRaftState_of_log_nil st 0 rfl
  have heffect : (effects (acknowledged [.apply 0 (.kvPut "k" [1]), .restart 0 {}])).kv "k" =
      some [1] := by
    simp [effects, acknowledged, Command.effect]
  refine ⟨_, hrun, by rw [hstate]; rfl, heffect, fun hdur => ?_⟩
  have hkv := congrArg (FleetData.kv · "k") (hdur _ _ List.prefix_rfl hrun)
  simp only [hstate, heffect] at hkv
  cases hkv

end Ekafleet.Raft
