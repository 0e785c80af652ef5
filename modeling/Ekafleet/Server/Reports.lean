import Ekafleet.Server.FleetState

/-! Reports of agents | source: server/state.rs

    Agents send what they run and, on a timer of its own, how healthy it is. The status of the fleet
    should show the latest of both. A status report replaces the services of its node, kept by name
    and with unknown health; a health report changes services that are there. -/

namespace Ekafleet.Server

/-! ### The latest values -/

/-- What a node has reported since it registered. -/
structure NodeView where
  /-- The latest status report. -/
  report : List ServiceInstance := []
  /-- The health last reported for a service. -/
  health : String → HealthStatus := fun _ => .unknown
  /-- The health last reported for a service since the latest status report. -/
  fresh : String → HealthStatus := fun _ => .unknown

/-- A health report in front of what was known. -/
def latestHealth (services : List ServiceHealth) (health : String → HealthStatus) :
    String → HealthStatus :=
  services.foldl (fun health svc => Function.update health svc.serviceName svc.status) health

/-- What an event says about the nodes. -/
def FleetEvent.observe (view : String → NodeView) : FleetEvent → String → NodeView
  | .register _ nodeId => Function.update view nodeId {}
  | .status nodeId services => Function.update view nodeId
    { view nodeId with report := services, fresh := fun _ => .unknown }
  | .health nodeId services => Function.update view nodeId { view nodeId with
    health := latestHealth services (view nodeId).health
    fresh := latestHealth services (view nodeId).fresh }
  | _ => view

/-- The latest values after a history. -/
def latestView (events : List FleetEvent) : String → NodeView :=
  events.foldl FleetEvent.observe fun _ => {}

/-- The instances of the latest status report, each with the latest health of its service. -/
def NodeView.listing (v : NodeView) (nodeId : String) : List (String × InstanceStatus) :=
  v.report.map fun i =>
    (i.serviceName, ⟨i.instanceId, nodeId, i.state, v.health i.serviceName⟩)

/-- The report names no service twice, and the health of every service in it is either unknown or
    has been reported again since. -/
def NodeView.Settled (v : NodeView) : Prop :=
  (v.report.map (·.serviceName)).Nodup ∧
    ∀ i ∈ v.report, v.fresh i.serviceName = v.health i.serviceName

/-- What `update_status` keeps of a service. -/
def NodeView.kept (v : NodeView) (name : String) : Option AgentServiceInfo :=
  (v.report.filter (·.serviceName = name)).getLast?.map fun i =>
    ⟨i.instanceId, i.storePath, i.state, v.fresh name⟩

/-- The lines of `fleet_status` about a node. -/
def FleetState.listedOn (order : HashMap.Order) (s : FleetState) (nodeId : String) :
    List (String × InstanceStatus) :=
  (s.fleetStatus order).flatMap fun svc =>
    (svc.instances.filter (·.nodeId = nodeId)).map (Prod.mk svc.name)

/-- The lines that the services of a node make. -/
def NodeInfo.lines (n : NodeInfo) (nodeId : String) : List (String × InstanceStatus) :=
  n.services.entries.map fun svc =>
    (svc.1, ⟨svc.2.instanceId, nodeId, svc.2.state, svc.2.health⟩)

/-! ### What is listed of a node -/

theorem FleetState.listedOn_perm_filter (order : HashMap.Order) (s : FleetState) (nodeId : String) :
    (s.listedOn order nodeId).Perm (s.reports.filter (·.2.nodeId = nodeId)) := by
  have hall : ((s.fleetStatus order).flatMap fun svc => svc.instances.map (Prod.mk svc.name)).Perm
      s.reports := by
    rw [fleetStatus, List.flatMap_map]
    refine ((order.perm _).flatMap_right _).trans ?_
    simpa using HashMap.groupBy_perm Prod.fst Prod.snd s.reports
  have hlisted : s.listedOn order nodeId = ((s.fleetStatus order).flatMap fun svc =>
      svc.instances.map (Prod.mk svc.name)).filter (·.2.nodeId = nodeId) := by
    rw [listedOn, List.filter_flatMap]
    refine List.flatMap_congr fun svc _ => ?_
    rw [List.filter_map]
    rfl
  rw [hlisted]
  exact hall.filter _

theorem filter_lines_of_ne {nodeId : String} {l : List (Σ _ : String, NodeInfo)}
    (h : ∀ n ∈ l, n.1 ≠ nodeId) :
    (l.flatMap fun n => n.2.lines n.1).filter (·.2.nodeId = nodeId) = [] := by
  rw [List.filter_eq_nil_iff]
  intro line hline
  obtain ⟨n, hn, hline⟩ := List.mem_flatMap.mp hline
  obtain ⟨svc, -, rfl⟩ := List.mem_map.mp hline
  simpa using h n hn

theorem filter_lines_self (n : NodeInfo) (nodeId : String) :
    (n.lines nodeId).filter (·.2.nodeId = nodeId) = n.lines nodeId := by
  rw [List.filter_eq_self]
  intro line hline
  obtain ⟨svc, -, rfl⟩ := List.mem_map.mp hline
  simp

/-- EXACT: the lines about a node are those of its services. -/
theorem FleetState.listedOn_perm {s : FleetState} {nodeId : String} {n : NodeInfo}
    (hn : s.nodes.lookup nodeId = some n) (order : HashMap.Order) :
    (s.listedOn order nodeId).Perm (n.lines nodeId) := by
  refine (s.listedOn_perm_filter order nodeId).trans (List.Perm.of_eq ?_)
  obtain ⟨before, later, hsplit⟩ := List.append_of_mem (HashMap.mem_of_lookup hn)
  have hkeys := s.nodes.nodupKeys
  rw [hsplit, List.NodupKeys, List.keys, List.map_append, List.map_cons, List.nodup_middle,
    List.nodup_cons, List.mem_append, not_or] at hkeys
  obtain ⟨⟨hbefore, hlater⟩, -⟩ := hkeys
  have hothers : ∀ l : List (Σ _ : String, NodeInfo), nodeId ∉ l.map Sigma.fst →
      ∀ n ∈ l, n.1 ≠ nodeId := fun l hl n hn heq => hl (List.mem_map.mpr ⟨n, hn, heq⟩)
  change (s.nodes.entries.flatMap fun n => n.2.lines n.1).filter _ = _
  rw [hsplit, List.flatMap_append, List.flatMap_cons, List.filter_append, List.filter_append,
    filter_lines_of_ne (hothers before hbefore), filter_lines_of_ne (hothers later hlater),
    filter_lines_self, List.append_nil, List.nil_append]

/-! ### The services of a node over histories -/

/-- The services of every registered node are what is kept of its latest values. -/
def FleetState.Tracks (s : FleetState) (view : String → NodeView) : Prop :=
  ∀ nodeId n, s.nodes.lookup nodeId = some n →
    ∀ name, n.services.lookup name = (view nodeId).kept name

namespace FleetState

variable {s : FleetState} {view : String → NodeView}

theorem lookup_foldl_health (base : String → Option AgentServiceInfo)
    (services : List ServiceHealth) :
    ∀ (m : HashMap String AgentServiceInfo) (health : String → HealthStatus),
      (∀ name, m.lookup name = (base name).map ({ · with health := health name })) →
      ∀ name, (services.foldl (fun m svc =>
          HashMap.adjust svc.serviceName (fun i => { i with health := svc.status }) m) m).lookup
            name =
        (base name).map ({ · with health := latestHealth services health name }) := by
  induction services with
  | nil => exact fun _ _ h => h
  | cons svc services ih =>
    intro m health h
    refine ih _ (Function.update health svc.serviceName svc.status) fun name => ?_
    by_cases hname : name = svc.serviceName
    · subst hname
      rw [HashMap.lookup_adjust_self, h, Option.map_map, Function.update_self]
      rfl
    · rw [HashMap.lookup_adjust_ne hname, h, Function.update_of_ne hname]

theorem map_kept (v : NodeView) (health fresh : String → HealthStatus) (name : String) :
    (v.kept name).map ({ · with health := fresh name }) =
      NodeView.kept { v with health, fresh } name := by
  rw [NodeView.kept, NodeView.kept, Option.map_map]
  rfl

theorem Tracks.adjust {nodeId : String} {f : NodeInfo → NodeInfo} {v : NodeView} (h : s.Tracks view)
    (hf : ∀ n, (∀ name, n.services.lookup name = (view nodeId).kept name) →
      ∀ name, (f n).services.lookup name = v.kept name) :
    Tracks ⟨HashMap.adjust nodeId f s.nodes⟩ (Function.update view nodeId v) := by
  intro m n hn
  by_cases hm : m = nodeId
  · subst hm
    rw [HashMap.lookup_adjust_self] at hn
    obtain ⟨n₀, hn₀, rfl⟩ := Option.map_eq_some_iff.mp hn
    rw [Function.update_self]
    exact hf n₀ (h m n₀ hn₀)
  · rw [HashMap.lookup_adjust_ne hm] at hn
    rw [Function.update_of_ne hm]
    exact h m n hn

theorem Tracks.adjust_other {nodeId : String} {f : NodeInfo → NodeInfo} (h : s.Tracks view)
    (hf : ∀ n, (f n).services = n.services) : Tracks ⟨HashMap.adjust nodeId f s.nodes⟩ view := by
  have hadjust : Tracks ⟨HashMap.adjust nodeId f s.nodes⟩
      (Function.update view nodeId (view nodeId)) := h.adjust fun n hn => by rwa [hf n]
  rwa [Function.update_eq_self] at hadjust

theorem Tracks.deregister (h : s.Tracks view) (nodeId : String) :
    (s.deregisterAgent nodeId).Tracks view := by
  intro m n hn
  by_cases hm : m = nodeId
  · rw [deregisterAgent, hm, AList.lookup_erase] at hn
    cases hn
  · rw [deregisterAgent, AList.lookup_erase_ne hm] at hn
    exact h m n hn

/-- STEP: every event keeps the services as the latest values say. -/
theorem Tracks.step (h : s.Tracks view) (e : FleetEvent) : (s.step e).Tracks (e.observe view) := by
  cases e with
  | register now nodeId =>
    intro m n hn
    by_cases hm : m = nodeId
    · subst hm
      rw [FleetState.step, registerAgent, AList.lookup_insert] at hn
      cases hn
      simp [FleetEvent.observe, NodeView.kept]
    · rw [FleetState.step, registerAgent, AList.lookup_insert_ne hm] at hn
      rw [FleetEvent.observe, Function.update_of_ne hm]
      exact h m n hn
  | deregister nodeId => exact h.deregister nodeId
  | evict now timeoutSecs =>
    exact List.foldlRecOn (motive := fun s : FleetState => s.Tracks view) _ _ h fun s hs id _ =>
      hs.deregister id
  | heartbeat | meshIp | setSchedulable => exact h.adjust_other fun _ => rfl
  | health nodeId services =>
    refine h.adjust fun n hn name => ?_
    have hsame : ∀ name, n.services.lookup name =
        ((view nodeId).kept name).map ({ · with health := (view nodeId).fresh name }) :=
      fun name => (hn name).trans (map_kept (view nodeId) (view nodeId).health _ name).symm
    exact (lookup_foldl_health _ services n.services _ hsame name).trans (map_kept _ _ _ name)
  | status nodeId services =>
    refine h.adjust fun n _ name => ?_
    rw [HashMap.lookup_foldl_insert (fun svc : ServiceInstance => svc.serviceName)]
    simp [NodeView.kept]
  | drain order ext machine =>
    rcases s.step_drain order ext machine with hdrain | hrefused
    · rw [hdrain]
      exact h.adjust_other fun _ => rfl
    · rw [hrefused]
      exact h

/-- RUN: the same after every history. -/
theorem tracks_after (events : List FleetEvent) : (after events).Tracks (latestView events) := by
  induction events using List.reverseRecOn with
  | nil =>
    intro nodeId n hn
    cases hn
  | append_singleton events e ih =>
    rw [after, latestView, List.foldl_append, List.foldl_append]
    exact ih.step e

end FleetState

/-! ### Listed as reported -/

namespace NodeView

variable {v : NodeView} {n : NodeInfo} {nodeId : String}

theorem kept_of_mem (hnodup : (v.report.map (·.serviceName)).Nodup) {i : ServiceInstance}
    (hi : i ∈ v.report) :
    v.kept i.serviceName = some ⟨i.instanceId, i.storePath, i.state, v.fresh i.serviceName⟩ := by
  have hne : v.report.filter (·.serviceName = i.serviceName) ≠ [] :=
    List.ne_nil_of_mem (List.mem_filter.mpr ⟨hi, by simp⟩)
  grind [List.getLast_mem, List.inj_on_of_nodup_map, kept,
    List.getLast?_eq_some_getLast]

theorem mem_of_kept {name : String} {info : AgentServiceInfo} (h : v.kept name = some info) :
    ∃ i ∈ v.report, i.serviceName = name ∧
      info = ⟨i.instanceId, i.storePath, i.state, v.fresh name⟩ := by
  obtain ⟨i, hi, rfl⟩ := Option.map_eq_some_iff.mp h
  grind

theorem nodup_lines (n : NodeInfo) (nodeId : String) : ((n.lines nodeId).map Prod.fst).Nodup := by
  rw [NodeInfo.lines, List.map_map]
  exact n.services.nodupKeys

theorem map_fst_listing (v : NodeView) (nodeId : String) :
    (v.listing nodeId).map Prod.fst = v.report.map (·.serviceName) := by
  rw [listing, List.map_map]
  rfl

/-- EXACT: what is kept is what was reported. -/
theorem lines_perm_iff (htracks : ∀ name, n.services.lookup name = v.kept name) :
    (n.lines nodeId).Perm (v.listing nodeId) ↔ v.Settled := by
  constructor
  · intro hperm
    have hnodup : (v.report.map (·.serviceName)).Nodup :=
      map_fst_listing v nodeId ▸ (hperm.map Prod.fst).nodup_iff.mp (nodup_lines n nodeId)
    refine ⟨hnodup, fun i hi => ?_⟩
    have hline := hperm.mem_iff.mpr (List.mem_map.mpr ⟨i, hi, rfl⟩)
    obtain ⟨svc, hsvc, heq⟩ := List.mem_map.mp hline
    rw [Prod.mk.injEq, InstanceStatus.mk.injEq] at heq
    obtain ⟨hname, -, -, -, hhealth⟩ := heq
    have hkept := (HashMap.lookup_of_mem hsvc).symm.trans (htracks svc.1)
    rw [hname, kept_of_mem hnodup hi] at hkept
    rw [← hhealth, Option.some.inj hkept]
  · rintro ⟨hnodup, hfresh⟩
    refine (List.perm_ext_iff_of_nodup (nodup_lines n nodeId).of_map ?_).mpr fun line => ?_
    · exact List.Nodup.of_map Prod.fst (map_fst_listing v nodeId ▸ hnodup)
    · rw [NodeInfo.lines, listing, List.mem_map, List.mem_map]
      constructor
      · rintro ⟨svc, hsvc, rfl⟩
        have hkept := (htracks svc.1).symm.trans (HashMap.lookup_of_mem hsvc)
        grind [mem_of_kept]
      · rintro ⟨i, hi, rfl⟩
        have hlookup := (htracks i.serviceName).trans (kept_of_mem hnodup hi)
        exact ⟨_, HashMap.mem_of_lookup hlookup, by rw [hfresh i hi]⟩

end NodeView

/-- EXACT: `fleet_status` lists, for every registered node, the instances of its latest status
    report with the health last reported for their services, if and only if no such report names a
    service twice and none came after the latest health of a service in it. -/
theorem fleetStatus_latest_iff (events : List FleetEvent) (order : HashMap.Order) :
    (∀ nodeId ∈ (FleetState.after events).nodes,
      ((FleetState.after events).listedOn order nodeId).Perm
        ((latestView events nodeId).listing nodeId)) ↔
    ∀ nodeId ∈ (FleetState.after events).nodes, (latestView events nodeId).Settled := by
  refine forall₂_congr fun nodeId hnode => ?_
  obtain ⟨n, hn⟩ := HashMap.mem_iff_exists_lookup.mp hnode
  rw [(FleetState.listedOn_perm hn order).congr_left]
  exact NodeView.lines_perm_iff (FleetState.tracks_after events nodeId n hn)

/-- A second status report discards the health; of two instances of a service one is listed. -/
theorem status_discards_health :
    (FleetState.after [.register 0 "n1",
      .status "n1" [⟨"web", "web-0", "/nix/store/web", .running⟩],
      .health "n1" [⟨"web", .healthy⟩],
      .status "n1" [⟨"web", "web-0", "/nix/store/web", .running⟩]]).listedOn .asBuilt "n1" =
        [("web", ⟨"web-0", "n1", .running, .unknown⟩)] ∧
    (latestView [.register 0 "n1", .status "n1" [⟨"web", "web-0", "/nix/store/web", .running⟩],
      .health "n1" [⟨"web", .healthy⟩],
      .status "n1" [⟨"web", "web-0", "/nix/store/web", .running⟩]] "n1").listing "n1" =
        [("web", ⟨"web-0", "n1", .running, .healthy⟩)] ∧
    (FleetState.after [.register 0 "n1", .status "n1" [⟨"web", "web-0", "/nix/store/web", .running⟩,
      ⟨"web", "web-1", "/nix/store/web", .running⟩]]).listedOn .asBuilt "n1" =
        [("web", ⟨"web-1", "n1", .running, .unknown⟩)] := by
  decide

end Ekafleet.Server
