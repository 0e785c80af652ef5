import Ekafleet.Agent.Supervisor

/-! Messages an agent receives | source: agent/handlers.rs

    A desired state replaces the services the agent knows; a deploy command sets the store path of
    one of them. Both end in a reconcile of the supervisor, whose errors are only logged. DNS
    updates and volume migrations do not reach the supervisor. -/

namespace Ekafleet.Agent
open Proto

/-- What an agent keeps: the services it was told to run, and its supervisor. -/
structure AgentState where
  desiredServices : Specs := ∅
  supervisor : Supervisor := {}

/-- The services of a message by name; of several with one name the last is kept. -/
def servicesByName (services : List ServiceSpec) : Specs :=
  services.foldl (fun m svc => m.insert svc.name svc) ∅

section Handler
variable (out : Outcomes) (dataDir : String) (order : HashMap.Order)

/-- Take over a set of desired services and reconcile. -/
def AgentState.adopt (a : AgentState) (desired : Specs) : AgentState where
  desiredServices := desired
  supervisor := (reconcile out dataDir order desired a.supervisor).2

/-- What the agent does with a message. -/
def handleServerMessage (a : AgentState) : ServerMessage → AgentState
  | .desiredState ds => a.adopt out dataDir order (servicesByName ds.services)
  | .deploy cmd => a.adopt out dataDir order
      (HashMap.adjust cmd.serviceName (fun svc => { svc with storePath := cmd.storePath })
        a.desiredServices)
  | .dns _ | .migrateVolume _ => a

end Handler

theorem lookup_servicesByName (services : List ServiceSpec) (name : String) :
    (servicesByName services).lookup name = services.reverse.find? (·.name = name) := by
  induction services using List.reverseRecOn with
  | nil => rfl
  | append_singleton rest svc ih =>
    rw [servicesByName, List.foldl_append, List.foldl_cons, List.foldl_nil, List.reverse_append]
    by_cases h : svc.name = name
    · subst h; simp
    · rw [AList.lookup_insert_ne (Ne.symm h)]
      simpa [h, servicesByName] using ih

variable {services : List ServiceSpec}

theorem mem_servicesByName {name : String} :
    name ∈ servicesByName services ↔ ∃ svc ∈ services, svc.name = name := by
  rw [← AList.lookup_isSome, lookup_servicesByName, List.find?_isSome]
  simp

theorem lookup_servicesByName_some {name : String} {spec : ServiceSpec}
    (h : (servicesByName services).lookup name = some spec) :
    spec ∈ services ∧ spec.name = name := by
  rw [lookup_servicesByName] at h
  exact ⟨List.mem_reverse.mp (List.mem_of_find?_eq_some h), by simpa using List.find?_some h⟩

/-! ### Disturbed services -/

/-- Calls that take a running service down, for good or for a moment. -/
def HostCall.disturbs : HostCall → Bool
  | .systemctl (.restart _) | .systemctl (.disableNow _) => true
  | _ => false

section NoFaults
variable {dataDir : String} {order : HashMap.Order}

/-- The calls the supervisor makes when it takes over `desired`. -/
def newCalls (s s' : Supervisor) : List HostCall := s'.calls.drop s.calls.length

theorem disturbs_installCalls {cmd : String → Systemctl} {name : String} {spec : ServiceSpec}
    {c : HostCall} (hc : c ∈ installCalls dataDir cmd name spec) (hd : c.disturbs = true) :
    c = .systemctl (cmd (unitName name)) := by
  rcases mem_installCalls hc with heq | rfl | hother
  · exact heq
  · cases hd
  · cases c with
    | systemctl u => exact absurd rfl (hother u)
    | createDir | write | removeFile | symlink | nixStore => cases hd

variable {managed : HashMap String UnitState}

theorem exists_disturbs_serviceCalls {service : Σ _ : String, ServiceSpec} :
    (∃ c ∈ serviceCalls dataDir managed service, c.disturbs = true) ↔
      ∃ unit, managed.lookup service.1 = some unit ∧ unit.versionKey ≠ versionKeyFor service.2 := by
  unfold serviceCalls
  rcases managed.lookup service.1 with _ | unit
  · refine ⟨fun ⟨c, hc, hd⟩ => ?_, fun ⟨u, hu, _⟩ => by cases hu⟩
    rw [disturbs_installCalls hc hd] at hd
    cases hd
  · by_cases hk : unit.versionKey = versionKeyFor service.2
    · simp [hk]
    · simp only [hk, if_false]
      refine ⟨fun _ => ⟨unit, rfl, hk⟩, fun _ =>
        ⟨.systemctl (.restart (unitName service.1)), ?_, rfl⟩⟩
      simp [installCalls]

theorem exists_disturbs_stopCalls {name : String} :
    (∃ c ∈ stopCalls dataDir managed name, c.disturbs = true) ↔ name ∈ managed := by
  unfold stopCalls
  rw [← AList.lookup_isSome]
  rcases managed.lookup name with _ | state
  · simp
  · exact ⟨fun _ => rfl, fun _ => ⟨_, List.mem_cons_self, rfl⟩⟩

/-- EXACT: taking over `desired` without faults disturbs no service if and only if every managed
    service is desired, at the version it is managed with. -/
theorem adopt_undisturbed_iff (a : AgentState) (desired : Specs) :
    (∀ c ∈ newCalls a.supervisor (a.adopt noFaults dataDir order desired).supervisor,
        c.disturbs = false) ↔
      ∀ name unit, a.supervisor.managedUnits.lookup name = some unit →
        ∃ spec, desired.lookup name = some spec ∧ versionKeyFor spec = unit.versionKey := by
  obtain ⟨acts, s', hs', -, removed, hremoved, hcalls⟩ :=
    reconcile_noFaults dataDir order desired a.supervisor
  rw [newCalls, AgentState.adopt, hs', hcalls, List.drop_left]
  constructor
  · intro h name unit hunit
    have hdesired : name ∈ desired := by
      by_contra hnot
      have hmem : name ∈ a.supervisor.managedUnits := HashMap.mem_iff_exists_lookup.mpr ⟨_, hunit⟩
      obtain ⟨c, hc, hd⟩ : ∃ c ∈ stopCalls dataDir _ name, _ := exists_disturbs_stopCalls.mpr hmem
      grind
    obtain ⟨spec, hspec⟩ := HashMap.mem_iff_exists_lookup.mp hdesired
    refine ⟨spec, hspec, ?_⟩
    by_contra hkey
    obtain ⟨c, hc, hd⟩ : ∃ c ∈ serviceCalls dataDir _ ⟨name, spec⟩, _ :=
      exists_disturbs_serviceCalls.mpr ⟨unit, hunit, Ne.symm hkey⟩
    have := h c (List.mem_append_left _ (List.mem_flatMap.mpr
      ⟨⟨name, spec⟩, order.mem_arrange.mpr (HashMap.mem_of_lookup hspec), hc⟩))
    simp [hd] at this
  · intro h c hc
    by_contra hd
    rw [Bool.not_eq_false] at hd
    rcases List.mem_append.mp hc with hc | hc
    · obtain ⟨⟨name, spec⟩, hmem, hc⟩ := List.mem_flatMap.mp hc
      obtain ⟨unit, hunit, hkey⟩ := exists_disturbs_serviceCalls.mp ⟨c, hc, hd⟩
      obtain ⟨spec', hspec', hkey'⟩ := h name unit hunit
      rw [HashMap.lookup_of_mem (order.mem_arrange.mp hmem)] at hspec'
      cases hspec'
      exact hkey hkey'.symm
    grind [HashMap.mem_iff_exists_lookup]

theorem adopt_calls (a : AgentState) (desired : Specs) :
    ∃ new, (a.adopt noFaults dataDir order desired).supervisor.calls =
      a.supervisor.calls ++ new := by
  obtain ⟨acts, s', hs', -, removed, -, hcalls⟩ :=
    reconcile_noFaults dataDir order desired a.supervisor
  exact ⟨_, by rw [AgentState.adopt, hs', hcalls]⟩

theorem versionKey_unitAfter (managed : HashMap String UnitState) (name : String)
    (spec : ServiceSpec) : (unitAfter managed name spec).versionKey = versionKeyFor spec := by
  unfold unitAfter
  split
  · split
    · assumption
    · rfl
  · rfl

theorem adopt_managed (a : AgentState) (desired : Specs) (name : String) :
    ((a.adopt noFaults dataDir order desired).supervisor.managedUnits.lookup name).map
      (·.versionKey) = (desired.lookup name).map versionKeyFor := by
  obtain ⟨acts, s', hs', hlookup, -⟩ := reconcile_noFaults dataDir order desired a.supervisor
  rw [AgentState.adopt, hs', hlookup, Option.map_map]
  congr 1
  funext spec
  exact versionKey_unitAfter _ _ _

end NoFaults

end Ekafleet.Agent
