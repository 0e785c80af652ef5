import Ekafleet.Lib.Replay
import Ekafleet.Raft.Storage

/-! Replay at boot | source: raft/state.rs, server/mod.rs

    Commands are deterministic except for two readings of the clock: when a service was deployed and
    when an instance joined. -/

namespace Ekafleet.Raft

/-! ### Data without the two times -/

def DeploymentState.timeless (d : DeploymentState) : DeploymentState := { d with deployedAt := 0 }

/-- Whether an instance has joined is kept. -/
def TrackedCloudInstance.timeless (i : TrackedCloudInstance) : TrackedCloudInstance :=
  { i with joinedAt := i.joinedAt.map fun _ => 0 }

def FleetData.timeless (d : FleetData) : FleetData :=
  { d with
    deployments := fun k => (d.deployments k).map DeploymentState.timeless
    cloudInstances := fun k => (d.cloudInstances k).map TrackedCloudInstance.timeless }

/-- STEP: what a command does to the rest does not depend on the two times. -/
theorem timeless_effect (now : ℕ) (d : FleetData) (c : Command) :
    (c.effect now d).timeless = c.effect 0 d.timeless := by
  cases c with
  | deploy serviceName storePath placements =>
    simp only [Command.effect, FleetData.timeless, map_update, Option.map_some, Option.map_map]
    rfl
  | updateCloudInstance instanceId fleetNodeId =>
    simp only [Command.effect, FleetData.timeless, map_update, Option.map_map]
    rfl
  | undeploy | trackCloudInstance | untrackCloudInstance =>
    simp only [Command.effect, FleetData.timeless, map_update]
    rfl
  | putSecret | deleteSecret | updateDns | kvPut | kvDelete | allocateNamespaceIp
  | releaseNamespaceIp => rfl

/-- The same state, but for the two times. -/
def SameButTimes (a b : StateMachineInner) : Prop :=
  a.data.timeless = b.data.timeless ∧ a.lastApplied = b.lastApplied

/-! ### Applying and replaying -/

/-- All commands from the empty state; the clock says when each index is applied. -/
def applyAll (clock : ℕ → ℕ) (commands : List Command) : StateMachineInner :=
  commands.foldl (fun s c => (applyNext (clock (s.lastApplied + 1)) s c).1) {}

/-- The loop of `restore_raft_state` over the log entries. -/
def replayEntries (clock : ℕ → ℕ) (state : StateMachineInner) (entries : List LogEntry) :
    StateMachineInner :=
  entries.foldl (fun s e => apply (clock e.index) s e.index e.command) state

/-- The state machine as a replayable one, seen without the two times. -/
noncomputable def replayable (clock : ℕ → ℕ) : Replayable StateMachineInner Command FleetData where
  position := (·.lastApplied)
  act s i c := applyLocked (clock i) s i c
  view s := s.data.timeless
  effect d c := c.effect 0 d
  position_act _ _ _ := rfl
  view_act s i c := by rw [data_applyLocked, timeless_effect]

theorem applyAll_eq (clock : ℕ → ℕ) (commands : List Command) :
    applyAll clock commands = commands.foldl (replayable clock).next {} := rfl

theorem replayEntries_eq (clock : ℕ → ℕ) (state : StateMachineInner) (entries : List LogEntry) :
    replayEntries clock state entries =
      (entries.map fun e => (e.index, e.command)).foldl (replayable clock).guarded state := by
  rw [List.foldl_map]
  rfl

theorem timeless_applyAll (clock : ℕ → ℕ) (commands : List Command) :
    (applyAll clock commands).data.timeless =
      commands.foldl (fun d c => c.effect 0 d) FleetData.empty := by
  rw [applyAll_eq]
  exact (replayable clock).view_nexts {} commands

theorem lastApplied_applyAll (clock : ℕ → ℕ) (commands : List Command) :
    (applyAll clock commands).lastApplied = commands.length := by
  rw [applyAll_eq]
  exact ((replayable clock).position_nexts {} commands).trans (Nat.zero_add _)

/-- CORRECT: the snapshot that was taken after the first `k` commands can be read back, and
    replaying entries that cover the log above `k`, whatever they hold at or below `k`, gives the
    state after all commands, up to the two times. -/
theorem replay_equivalent (st : RaftStorage) (commands : List Command) (k : ℕ)
    (hk : k ≤ commands.length) (entries : List LogEntry)
    (hcovers : Replayable.Covers commands k (entries.map fun e => (e.index, e.command)))
    (clock clock' clock'' : ℕ → ℕ) :
    ∃ restored,
      st.stateJson.decode (st.stateJson.encode (applyAll clock (commands.take k))) =
        some restored ∧
      SameButTimes (replayEntries clock' restored entries) (applyAll clock'' commands) := by
  obtain ⟨restored, hdecode, hdata, hlast⟩ :=
    st.stateJson.decode_encode (applyAll clock (commands.take k))
  refine ⟨restored, hdecode, ?_⟩
  have hposition : restored.lastApplied = k := by
    rw [hlast, lastApplied_applyAll, List.length_take, min_eq_left hk]
  have hview : restored.data.timeless =
      (commands.take k).foldl (fun d c => c.effect 0 d) FleetData.empty := by
    rw [hdata, timeless_applyAll]
  obtain ⟨hend, heffect⟩ := (replayable clock').replay_covers hcovers hk hposition
  rw [← replayEntries_eq] at hend heffect
  constructor
  · calc (replayEntries clock' restored entries).data.timeless
        = (commands.drop k).foldl (fun d c => c.effect 0 d) restored.data.timeless := heffect
      _ = (commands.take k ++ commands.drop k).foldl (fun d c => c.effect 0 d)
            FleetData.empty := by
          rw [hview, List.foldl_append]
      _ = (applyAll clock'' commands).data.timeless := by
          rw [List.take_append_drop, timeless_applyAll]
  · rw [lastApplied_applyAll]
    exact hend

/-- Two deployments of a service and another command, and the log of all three. -/
def threeCommands : List Command :=
  [.deploy "web" "/a" [], .deploy "web" "/b" [], .kvDelete "k"]
def threeEntries : List LogEntry :=
  [⟨1, 1, .deploy "web" "/a" []⟩, ⟨2, 1, .deploy "web" "/b" []⟩, ⟨3, 1, .kvDelete "k"⟩]

/-- The snapshot is that of the first deployment, and the log is replayed from its start: the second
    deployment has generation 2. -/
theorem deployments_replayed : Nonempty RaftStorage ∧ ∀ st : RaftStorage, ∃ restored,
    st.stateJson.decode (st.stateJson.encode (applyAll id (threeCommands.take 1))) =
      some restored ∧
    SameButTimes (replayEntries (· + 100) restored threeEntries)
      (applyAll (· + 200) threeCommands) ∧
    ((applyAll (· + 200) threeCommands).deployments.lookup "web").map (·.generation) = some 2 := by
  refine ⟨RaftStorage.nonempty, fun st => ?_⟩
  have hcovers : Replayable.Covers threeCommands 1
      (threeEntries.map fun e => (e.index, e.command)) := by
    refine ⟨by simp [threeEntries], by simp [threeEntries, threeCommands], fun i hlt hle => ?_⟩
    have hi : i = 2 ∨ i = 3 := by
      have hlen : threeCommands.length = 3 := rfl
      omega
    rcases hi with rfl | rfl <;> simp [threeEntries]
  obtain ⟨restored, hdecode, hsame⟩ :=
    replay_equivalent st threeCommands 1 (by decide) threeEntries hcovers id (· + 100) (· + 200)
  exact ⟨restored, hdecode, hsame, by decide⟩

end Ekafleet.Raft
