import Ekafleet.Agent.Handlers

/-! Running units | source: agent/supervisor.rs

    Which units run on a host, read off the systemctl calls made on it: a unit runs when the last
    call about it started it. Without faults the supervisor's records and the running units agree
    over every history of messages. -/

namespace Ekafleet.Agent
open Proto

/-- Whether a call starts (`true`) or stops (`false`) a unit. -/
def HostCall.power (unit : String) : HostCall → Option Bool
  | .systemctl (.restart u) | .systemctl (.enableNow u) => if u = unit then some true else none
  | .systemctl (.disableNow u) => if u = unit then some false else none
  | _ => none

/-- Whether a unit runs after a sequence of successful calls. -/
def unitActive (calls : List HostCall) (unit : String) : Bool :=
  ((calls.filterMap (·.power unit)).getLast?).getD false

theorem getLast?_filterMap_append {α β : Type} {f : α → Option β} {old new : List α} {v : β}
    (hall : ∀ a ∈ new, ∀ b, f a = some b → b = v) (h : ∃ a ∈ new, f a = some v) :
    ((old ++ new).filterMap f).getLast? = some v := by
  obtain ⟨a, ha, hv⟩ := h
  have hne : new.filterMap f ≠ [] := List.ne_nil_of_mem (List.mem_filterMap.mpr ⟨a, ha, hv⟩)
  rw [List.filterMap_append, List.getLast?_append_of_ne_nil _ hne,
    List.getLast?_eq_some_getLast hne]
  obtain ⟨c, hc, hb⟩ := List.mem_filterMap.mp (List.getLast_mem hne)
  rw [hall c hc _ hb]

theorem getLast?_filterMap_append_none {α β : Type} {f : α → Option β} {old new : List α}
    (h : ∀ a ∈ new, f a = none) :
    ((old ++ new).filterMap f).getLast? = (old.filterMap f).getLast? := by
  rw [List.filterMap_append, List.filterMap_eq_nil_iff.mpr h, List.append_nil]

theorem unitActive_append {calls new : List HostCall} {unit : String} {v : Bool}
    (hall : ∀ c ∈ new, ∀ b, c.power unit = some b → b = v)
    (h : unitActive calls unit = v ∨ ∃ c ∈ new, c.power unit = some v) :
    unitActive (calls ++ new) unit = v := by
  by_cases hsome : ∃ c ∈ new, c.power unit = some v
  · rw [unitActive, getLast?_filterMap_append hall hsome, Option.getD_some]
  · have hnone : ∀ c ∈ new, c.power unit = none := by
      intro c hc
      rcases hb : c.power unit with _ | b
      · rfl
      · exact absurd ⟨c, hc, hall c hc b hb ▸ hb⟩ hsome
    rw [unitActive, getLast?_filterMap_append_none hnone]
    exact h.resolve_right hsome

theorem unitName_injective : Function.Injective unitName := by
  intro a b h
  simp only [unitName, ← String.toList_inj, String.toList_append, toString] at h
  exact String.toList_inj.mp (List.append_cancel_left (List.append_cancel_right h))

/-! ### The calls of one service -/

section Calls
variable {dataDir : String} {managed : HashMap String UnitState}

variable {name : String} {c : HostCall} {b : Bool}

theorem power_installCalls {cmd : String → Systemctl} {unit : String} {spec : ServiceSpec}
    (hc : c ∈ installCalls dataDir cmd name spec) (hb : c.power unit = some b)
    : c = .systemctl (cmd (unitName name)) := by
  rcases mem_installCalls hc with heq | rfl | hother
  · exact heq
  · cases hb
  · cases c with
    | systemctl u => exact absurd rfl (hother u)
    | createDir | write | removeFile | symlink | nixStore => cases hb

variable {service : Σ _ : String, ServiceSpec}

theorem power_serviceCalls {k : String} (hc : c ∈ serviceCalls dataDir managed service)
    (hb : c.power (unitName k) = some b)
    : service.1 = k ∧ b = true := by
  have hcmd : c = .systemctl (.restart (unitName service.1)) ∨
      c = .systemctl (.enableNow (unitName service.1)) := by
    unfold serviceCalls at hc
    split at hc
    · split at hc
      · cases hc
      · exact .inl (power_installCalls hc hb)
    · exact .inr (power_installCalls hc hb)
  grind [HostCall.power, unitName_injective]

theorem exists_power_serviceCalls
    (h : ∀ unit, managed.lookup service.1 = some unit → unit.versionKey ≠ versionKeyFor service.2) :
    ∃ c ∈ serviceCalls dataDir managed service, c.power (unitName service.1) = some true := by
  unfold serviceCalls
  rcases hl : managed.lookup service.1 with _ | unit
  · exact ⟨.systemctl (.enableNow (unitName service.1)), by simp [installCalls],
      by simp [HostCall.power]⟩
  · simp only [h unit hl, if_false]
    exact ⟨.systemctl (.restart (unitName service.1)), by simp [installCalls],
      by simp [HostCall.power]⟩

theorem power_stopCalls {k : String} (hunits : ∀ unit, managed.lookup name = some unit →
    unit.unitName = unitName name)
    (hc : c ∈ stopCalls dataDir managed name) (hb : c.power (unitName k) = some b) :
    name = k ∧ b = false := by
  unfold stopCalls at hc
  rcases hl : managed.lookup name with _ | state <;> rw [hl] at hc
  · cases hc
  · simp only [hunits state hl, List.mem_cons, List.not_mem_nil, or_false] at hc
    grind [HostCall.power, unitName_injective]

theorem exists_power_stopCalls {unit : UnitState} (hl : managed.lookup name = some unit)
    (hunit : unit.unitName = unitName name) :
    ∃ c ∈ stopCalls dataDir managed name, c.power (unitName name) = some false := by
  unfold stopCalls
  simp only [hl]
  exact ⟨_, List.mem_cons_self, by simp [HostCall.power, hunit]⟩

theorem power_removed {removed : List String} (hunits : ∀ k unit, managed.lookup k = some unit →
    unit.unitName = unitName k)
    (hc : c ∈ removed.flatMap (stopCalls dataDir managed)) (hb : c.power (unitName name) = some b)
    : name ∈ removed ∧ b = false := by
  grind [power_stopCalls]

theorem power_desired {order : HashMap.Order} {desired : Specs}
        (hc : c ∈ (order.arrange desired.entries).flatMap (serviceCalls dataDir managed))
    (hb : c.power (unitName name) = some b) : name ∈ desired ∧ b = true := by
  obtain ⟨service, hmem, hc⟩ := List.mem_flatMap.mp hc
  obtain ⟨rfl, htrue⟩ := power_serviceCalls hc hb
  exact ⟨AList.mem_keys.mpr (List.mem_map.mpr ⟨service, order.mem_arrange.mp hmem, rfl⟩), htrue⟩

end Calls

/-! ### Records and running units -/

/-- The running units are the recorded ones. -/
structure Supervisor.Tracked (s : Supervisor) : Prop where
  unitNames : ∀ name unit, s.managedUnits.lookup name = some unit → unit.unitName = unitName name
  active : ∀ name, unitActive s.calls (unitName name) = true ↔ name ∈ s.managedUnits

theorem Supervisor.Tracked.unitAfter {s : Supervisor} (h : s.Tracked) (name : String)
    (spec : ServiceSpec) : (unitAfter s.managedUnits name spec).unitName = unitName name := by
  unfold Agent.unitAfter
  split
  · next existing hl =>
    split
    · exact h.unitNames name existing hl
    · rfl
  · rfl

section NoFaults
variable {dataDir : String} {order : HashMap.Order}

/-- STEP: taking over desired services keeps records and running units in agreement. -/
theorem tracked_adopt {a : AgentState} (h : a.supervisor.Tracked) (desired : Specs) :
    (a.adopt noFaults dataDir order desired).supervisor.Tracked := by
  obtain ⟨acts, s', hs', hlookup, removed, hremoved, hcalls⟩ :=
    reconcile_noFaults dataDir order desired a.supervisor
  rw [AgentState.adopt, hs']
  refine ⟨fun name unit hunit => ?_, fun name => ?_⟩
  · rw [hlookup] at hunit
    obtain ⟨spec, -, rfl⟩ := Option.map_eq_some_iff.mp hunit
    exact h.unitAfter name spec
  have hmanaged : name ∈ s'.managedUnits ↔ name ∈ desired := by
    rw [← AList.lookup_isSome, hlookup, Option.isSome_map, AList.lookup_isSome]
  rw [hcalls, hmanaged, ← List.append_assoc]
  by_cases hdes : name ∈ desired
  · refine iff_of_true (unitActive_append (fun c hc b hb => ?_) (.inl
      (unitActive_append (fun c hc b hb => (power_desired hc hb).2) ?_))) hdes
    · exact absurd hdes ((hremoved name).mp (power_removed h.unitNames hc hb).1).2
    -- running at the desired version already, or started now
    obtain ⟨spec, hspec⟩ := HashMap.mem_iff_exists_lookup.mp hdes
    by_cases hsame : ∃ unit, a.supervisor.managedUnits.lookup name = some unit ∧
        unit.versionKey = versionKeyFor spec
    · obtain ⟨unit, hunit, -⟩ := hsame
      exact .inl ((h.active name).mpr (HashMap.mem_iff_exists_lookup.mpr ⟨_, hunit⟩))
    · obtain ⟨c, hc, hpow⟩ : ∃ c ∈ serviceCalls dataDir _ ⟨name, spec⟩, _ :=
        exists_power_serviceCalls fun unit hunit hkey => hsame ⟨unit, hunit, hkey⟩
      exact .inr ⟨c, List.mem_flatMap.mpr
        ⟨⟨name, spec⟩, order.mem_arrange.mpr (HashMap.mem_of_lookup hspec), hc⟩, hpow⟩
  · refine iff_of_false (ne_true_of_eq_false
      (unitActive_append (fun c hc b hb => (power_removed h.unitNames hc hb).2) ?_)) hdes
    -- stopped now, or not running before
    by_cases hmem : name ∈ a.supervisor.managedUnits
    · obtain ⟨unit, hunit⟩ := HashMap.mem_iff_exists_lookup.mp hmem
      obtain ⟨c, hc, hpow⟩ : ∃ c ∈ stopCalls dataDir _ name, _ :=
        exists_power_stopCalls hunit (h.unitNames name unit hunit)
      grind
    · refine .inl (unitActive_append (fun c hc b hb => ?_) (.inl ?_))
      · exact absurd (power_desired hc hb).1 hdes
      · exact Bool.eq_false_iff.mpr fun hact => hmem ((h.active name).mp hact)

theorem tracked_handle {a : AgentState} (h : a.supervisor.Tracked) (m : ServerMessage) :
    (handleServerMessage noFaults dataDir order a m).supervisor.Tracked := by
  cases m with
  | desiredState ds => exact tracked_adopt h _
  | deploy cmd => exact tracked_adopt h _
  | dns records => exact h
  | migrateVolume cmd => exact h

end NoFaults

/-- A fresh agent after a history of messages, each handled with the maps in some order. -/
def AgentState.after (dataDir : String) (history : List (HashMap.Order × ServerMessage)) :
    AgentState :=
  history.foldl (fun a m => handleServerMessage noFaults dataDir m.1 a m.2) {}

theorem tracked_fresh : ({} : AgentState).supervisor.Tracked :=
  ⟨fun _ _ h => (Option.some_ne_none _ h.symm).elim, fun _ => iff_of_false Bool.false_ne_true
    (AList.notMem_empty _)⟩

/-- RUN: over every history the running units are the recorded ones. -/
theorem tracked_after (dataDir : String) (history : List (HashMap.Order × ServerMessage)) :
    (AgentState.after dataDir history).supervisor.Tracked :=
  List.foldlRecOn (motive := fun a : AgentState => a.supervisor.Tracked) _ _ tracked_fresh
    fun _ h m _ => tracked_handle h m.2

/-- How many instances of a service run on the agent's host: its unit runs, or it does not. -/
def AgentState.instances (a : AgentState) (name : String) : ℕ :=
  if unitActive a.supervisor.calls (unitName name) then 1 else 0

/-- EXACT: after a desired state, one instance runs of each service it names, and none of any
    other. -/
theorem instances_desiredState (dataDir : String) (order : HashMap.Order)
    (history : List (HashMap.Order × ServerMessage)) (ds : DesiredState) (name : String) :
    (handleServerMessage noFaults dataDir order (.after dataDir history)
      (.desiredState ds)).instances name = if name ∈ servicesByName ds.services then 1 else 0 := by
  have htracked : (handleServerMessage noFaults dataDir order (.after dataDir history)
      (.desiredState ds)).supervisor.Tracked := tracked_handle (tracked_after dataDir history) _
  rw [AgentState.instances]
  refine if_congr ((htracked.active name).trans ?_) rfl rfl
  rw [← AList.lookup_isSome, ← AList.lookup_isSome, ← Option.isSome_map, handleServerMessage,
    adopt_managed, Option.isSome_map]

/-! ### Deploy commands -/

/-- The managed services are the known ones, and the running units are the managed ones. -/
structure AgentState.Regular (a : AgentState) : Prop where
  tracked : a.supervisor.Tracked
  managed : ∀ name, name ∈ a.supervisor.managedUnits ↔ name ∈ a.desiredServices

theorem AgentState.Regular.instances {a : AgentState} (h : a.Regular) (name : String) :
    a.instances name = if name ∈ a.desiredServices then 1 else 0 := by
  rw [AgentState.instances]
  exact if_congr ((h.tracked.active name).trans (h.managed name)) rfl rfl

section Regular
variable {dataDir : String} {order : HashMap.Order}

variable {a : AgentState}

theorem regular_adopt (h : a.Regular) (desired : Specs) :
    (a.adopt noFaults dataDir order desired).Regular := by
  refine ⟨tracked_adopt h.tracked desired, fun name => ?_⟩
  have hmanaged : ((a.adopt noFaults dataDir order desired).supervisor.managedUnits.lookup
      name).map (·.versionKey) = (desired.lookup name).map versionKeyFor :=
        adopt_managed a desired name
  have hsome := congrArg Option.isSome hmanaged
  rw [Option.isSome_map, Option.isSome_map] at hsome
  rw [← AList.lookup_isSome, hsome, AList.lookup_isSome]
  rfl

/-- STEP. -/
theorem regular_handle (h : a.Regular) (m : ServerMessage) :
    (handleServerMessage noFaults dataDir order a m).Regular := by
  cases m with
  | desiredState ds => exact regular_adopt h _
  | deploy cmd => exact regular_adopt h _
  | dns records => exact h
  | migrateVolume cmd => exact h

/-- RUN: every history leaves an agent regular. -/
theorem regular_after (dataDir : String) (history : List (HashMap.Order × ServerMessage)) :
    (AgentState.after dataDir history).Regular :=
  List.foldlRecOn (motive := AgentState.Regular) _ _
    ⟨tracked_fresh, fun _ => iff_of_false (AList.notMem_empty _) (AList.notMem_empty _)⟩
    fun _ h m _ => regular_handle h m.2

theorem instances_deploy (h : a.Regular) (cmd : DeployCommand) (name : String) :
    (handleServerMessage noFaults dataDir order a (.deploy cmd)).instances name =
      a.instances name := by
  rw [(regular_handle h _).instances, h.instances]
  refine if_congr ?_ rfl rfl
  rw [← AList.lookup_isSome, ← AList.lookup_isSome]
  change ((HashMap.adjust _ _ _).lookup name).isSome = true ↔ _
  by_cases hname : name = cmd.serviceName
  · rw [hname, HashMap.lookup_adjust_self, Option.isSome_map]
  · rw [HashMap.lookup_adjust_ne hname]

end Regular

end Ekafleet.Agent
