import Ekafleet.Agent.Handlers

/-! Convergence of the supervisor | source: agent/supervisor.rs

    On a host without faults one reconciliation brings the records to the desired services at their
    desired versions, reports a start, restart or stop for each difference and nothing else, and
    leaves nothing for the next one to do. -/

namespace Ekafleet.Agent
open Proto Effect

/-- The service an action is about. -/
def SupervisorAction.service : SupervisorAction → String
  | .started name | .restarted name | .stopped name => name

/-- The service runs with another version than the desired one. -/
def Changed (managed : HashMap String UnitState) (desired : Specs)
    (name : String) : Prop :=
  ∃ spec unit, desired.lookup name = some spec ∧ managed.lookup name = some unit ∧
    unit.versionKey ≠ versionKeyFor spec

section Actions
variable {managed : HashMap String UnitState} {desired : Specs}

variable {service : Σ _ : String, ServiceSpec} {name : String}

/-- EXACT: a desired service that is not managed is started, one at another version restarted. -/
theorem mem_serviceActions {act : SupervisorAction} :
    act ∈ serviceActions managed service ↔
      (act = .started service.1 ∧ service.1 ∉ managed) ∨
      (act = .restarted service.1 ∧ ∃ unit, managed.lookup service.1 = some unit ∧
        unit.versionKey ≠ versionKeyFor service.2) := by
  rw [serviceActions, ← AList.lookup_eq_none]
  grind

theorem nodup_serviceActions (service : Σ _ : String, ServiceSpec) :
    (serviceActions managed service).Nodup := by
  rw [serviceActions]
  split
  · split <;> simp
  · simp

theorem service_of_mem {act : SupervisorAction} (h : act ∈ serviceActions managed service)
    : act.service = service.1 := by
  rcases mem_serviceActions.mp h with ⟨rfl, -⟩ | ⟨rfl, -⟩ <;> rfl

variable {removed : List String} {order : HashMap.Order}

theorem nodup_actions {l : List (Σ _ : String, ServiceSpec)} (hl : l.NodupKeys)
    (hremoved : removed.Nodup) (hdisjoint : ∀ e ∈ l, e.1 ∉ removed) :
    (l.flatMap (serviceActions managed) ++ removed.map SupervisorAction.stopped).Nodup := by
  rw [List.nodup_append]
  refine ⟨List.nodup_flatMap.mpr ⟨fun e _ => nodup_serviceActions e, ?_⟩, ?_, ?_⟩
  · refine (List.nodupKeys_iff_pairwise.mp hl).imp fun {e e'} hne act hact hact' => ?_
    exact hne ((service_of_mem hact).symm.trans (service_of_mem hact'))
  · exact hremoved.map fun _ _ heq => SupervisorAction.stopped.inj heq
  · intro act hact act' hact' heq
    obtain ⟨e, he, hmem⟩ := List.mem_flatMap.mp hact
    obtain ⟨name, hname, rfl⟩ := List.mem_map.mp hact'
    have hservice := service_of_mem (heq ▸ hmem)
    exact hdisjoint e he (hservice ▸ hname)

theorem started_mem_iff :
    .started name ∈ (order.arrange desired.entries).flatMap (serviceActions managed) ++
        removed.map .stopped ↔ name ∈ desired ∧ name ∉ managed := by
  simp only [List.mem_append, List.mem_flatMap, HashMap.Order.mem_arrange, mem_serviceActions,
    List.mem_map, reduceCtorEq, and_false, exists_false, or_false, false_and,
    SupervisorAction.started.injEq]
  constructor
  · rintro ⟨e, he, rfl, hnot⟩
    exact ⟨HashMap.mem_iff_exists_lookup.mpr ⟨_, HashMap.lookup_of_mem he⟩, hnot⟩
  · rintro ⟨hname, hnot⟩
    obtain ⟨spec, hspec⟩ := HashMap.mem_iff_exists_lookup.mp hname
    exact ⟨_, HashMap.mem_of_lookup hspec, rfl, hnot⟩

theorem restarted_mem_iff :
    .restarted name ∈ (order.arrange desired.entries).flatMap (serviceActions managed) ++
        removed.map .stopped ↔ Changed managed desired name := by
  simp only [List.mem_append, List.mem_flatMap, HashMap.Order.mem_arrange, mem_serviceActions,
    List.mem_map, reduceCtorEq, and_false, exists_false, or_false, false_and, false_or,
    SupervisorAction.restarted.injEq]
  constructor
  · rintro ⟨e, he, rfl, unit, hunit, hkey⟩
    exact ⟨e.2, unit, HashMap.lookup_of_mem he, hunit, hkey⟩
  · rintro ⟨spec, unit, hspec, hunit, hkey⟩
    exact ⟨_, HashMap.mem_of_lookup hspec, rfl, unit, hunit, hkey⟩

theorem stopped_mem_iff :
    .stopped name ∈ (order.arrange desired.entries).flatMap (serviceActions managed) ++
        removed.map .stopped ↔ name ∈ removed := by
  simp [mem_serviceActions]

end Actions

/-! ### Nothing left to do -/

/-- The managed services are the desired ones, recorded at the versions of their specifications. -/
def Supervisor.InStep (s : Supervisor) (desired : Specs) : Prop :=
  ∀ name, (s.managedUnits.lookup name).map (·.versionKey) = (desired.lookup name).map versionKeyFor

theorem Supervisor.InStep.mem_iff {s : Supervisor} {desired : Specs} (h : s.InStep desired)
    (name : String) : name ∈ s.managedUnits ↔ name ∈ desired := by
  have hsome := congrArg Option.isSome (h name)
  rw [Option.isSome_map, Option.isSome_map] at hsome
  rw [← AList.lookup_isSome, hsome, AList.lookup_isSome]

theorem reconcile_inStep (out : Outcomes) (dataDir : String) (order : HashMap.Order)
    {desired : Specs} {s : Supervisor} (h : s.InStep desired) :
    reconcile out dataDir order desired s = (.ok [], s) := by
  have hservices : collect (reconcileService out dataDir) (order.arrange desired.entries) s =
      (.ok [], s) := by
    refine collect_fixed fun service hservice => ?_
    have hspec := HashMap.lookup_of_mem (order.mem_arrange.mp hservice)
    have hrecord := h service.1
    rw [hspec, Option.map_some, Option.map_eq_some_iff] at hrecord
    obtain ⟨unit, hunit, hkey⟩ := hrecord
    simp only [reconcileService, Effect.read, bind_apply, hunit, hkey, if_true, pure_apply]
  have hremoved : order.arrange (s.managedUnits.keys.filter (· ∉ desired)) = [] := by
    have hnone : s.managedUnits.keys.filter (· ∉ desired) = [] := by
      refine List.filter_eq_nil_iff.mpr fun name hname => ?_
      simpa using (h.mem_iff name).mp (AList.mem_keys.mpr hname)
    rw [hnone]
    exact (order.perm _).eq_nil
  simp only [reconcile, bind_apply, hservices, Effect.read, hremoved, collect, pure_apply,
    List.append_nil]

theorem inStep_reconcile (dataDir : String) (order : HashMap.Order) (desired : Specs)
    (s : Supervisor) :
    (reconcile noFaults dataDir order desired s).2.InStep desired := by
  obtain ⟨s', removed, hs', hlookup, -⟩ := reconcile_exact dataDir order desired s
  intro name
  rw [hs', hlookup, Option.map_map]
  congr 1
  funext spec
  exact versionKey_unitAfter _ _ _

/-- CORRECT: on a host without faults `reconcile` returns with the desired services managed at the
    versions of their specifications; its actions are one start for each that was not managed, one
    restart for each at another version and one stop for each that is no longer desired; and the
    next one with the same services does nothing. -/
theorem reconcile_converges (dataDir : String) (order order' : HashMap.Order) (desired : Specs)
    (s : Supervisor) :
    ∃ acts s', reconcile noFaults dataDir order desired s = (.ok acts, s') ∧
      s'.InStep desired ∧ acts.Nodup ∧
      (∀ name, .started name ∈ acts ↔ name ∈ desired ∧ name ∉ s.managedUnits) ∧
      (∀ name, .restarted name ∈ acts ↔ Changed s.managedUnits desired name) ∧
      (∀ name, .stopped name ∈ acts ↔ name ∈ s.managedUnits ∧ name ∉ desired) ∧
      reconcile noFaults dataDir order' desired s' = (.ok [], s') := by
  obtain ⟨s', removed, hs', -, hnodup, hremoved, -⟩ := reconcile_exact dataDir order desired s
  have hinStep : s'.InStep desired := by
    have := inStep_reconcile dataDir order desired s
    rwa [hs'] at this
  refine ⟨_, s', hs', hinStep, nodup_actions ?_ hnodup ?_, fun name => started_mem_iff,
    fun name => restarted_mem_iff, fun name => stopped_mem_iff.trans (hremoved name),
    reconcile_inStep noFaults dataDir order' hinStep⟩
  · exact (List.perm_nodupKeys (order.perm _)).mpr desired.nodupKeys
  · intro e he hmem
    refine ((hremoved e.1).mp hmem).2 (HashMap.mem_iff_exists_lookup.mpr ⟨e.2, ?_⟩)
    exact HashMap.lookup_of_mem (order.mem_arrange.mp he)

end Ekafleet.Agent
