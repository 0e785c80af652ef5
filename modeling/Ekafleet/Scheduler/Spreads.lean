import Ekafleet.Scheduler.Accounting
import Ekafleet.Scheduler.Feasibility

/-! Required spreads and the balance of domains | source: server/scheduler/constraints.rs

    A required spread should keep the numbers of instances in any two domains within `max_skew`. The
    check counts, for each domain, the machines that hold the service and not its instances, and the
    minimum is taken over domains that have at least one. So a domain without instances is no lower
    bound, and further instances on a machine are not seen. A replicated job stays balanced when
    neither happens: no machine gets two instances, and no domain is left empty while another takes
    more than the skew. -/

namespace Ekafleet.Scheduler

/-- Whether a machine lies in a domain: it has that attribute value. -/
def inDomain (candidates : List Candidate) (attr domain machine : String) : Bool :=
  candidates.any fun c => c.name == machine && getAttribute c attr == some domain

/-- The placements of a service in a domain. -/
def domainPlacements (candidates : List Candidate) (name attr domain : String)
    (placements : List Placement) : List Placement :=
  placements.filter fun p =>
    p.serviceName == name && inDomain candidates attr domain p.machineName

/-- The number of instances of a service in a domain. -/
def instancesIn (s : SchedState) (name attr domain : String) : ℕ :=
  (domainPlacements s.candidates name attr domain s.plan.placements).length

/-- Domains with an eligible machine differ by at most `k` instances. -/
def Balanced (F : Type) [F64 F] (re : RegexEngine) (service : Σ _ : String, ServiceConfig)
    (attr : String) (k : ℕ) (s : SchedState) : Prop :=
  ∀ c ∈ s.candidates, ∀ c' ∈ s.candidates, eligible F re service c = true →
    eligible F re service c' = true → ∀ d d', getAttribute c attr = some d →
      getAttribute c' attr = some d' →
      instancesIn s service.1 attr d ≤ instancesIn s service.1 attr d' + k

/-- Before a domain takes more than `k` instances, every domain in which a machine is eligible at
    the end has one. -/
def FillsFirst (F : Type) [F64 F] (re : RegexEngine) (service : Σ _ : String, ServiceConfig)
    (attr : String) (k : ℕ) (s : SchedState) : Prop :=
  ∀ i < s.plan.placements.length, ∀ c ∈ s.candidates, ∀ d ∈ getAttribute c attr,
    k < (domainPlacements s.candidates service.1 attr d (s.plan.placements.take (i + 1))).length →
    ∀ c' ∈ s.candidates, eligible F re service c' = true → ∀ d' ∈ getAttribute c' attr,
      domainPlacements s.candidates service.1 attr d' (s.plan.placements.take i) ≠ []

instance (F : Type) [F64 F] (re : RegexEngine) (service : Σ _ : String, ServiceConfig)
    (attr : String) (k : ℕ) (s : SchedState) : Decidable (FillsFirst F re service attr k s) := by
  unfold FillsFirst
  infer_instance

/-! ### What the check counts -/

/-- The machines of a domain that hold a service. -/
def holders (candidates : List Candidate) (name attr domain : String) : List Candidate :=
  candidates.filter fun c =>
    c.assignedServices.contains name && getAttribute c attr == some domain

theorem getD_domainCounts (name attr domain : String) (all : List Candidate) :
    ((domainCounts name attr all).lookup domain).getD 0 =
      (holders all name attr domain).length := by
  induction all using List.reverseRecOn with
  | nil => rfl
  | append_singleton all c ih =>
    rw [domainCounts, List.foldl_append, ← domainCounts, holders, List.filter_append,
      List.length_append, ← holders, ← ih]
    by_cases hholds : name ∈ c.assignedServices
    · rcases hattr : getAttribute c attr with _ | val
      · simp [hattr]
      · by_cases hval : val = domain
        · simp [hholds, hattr, HashMap.upsert, hval]
        · simp [hholds, hattr, HashMap.upsert, hval, Ne.symm hval]
    · simp [hholds]

theorem min_domainCounts_le {name attr domain : String} {all : List Candidate}
    (h : holders all name attr domain ≠ []) :
    (HashMap.values (domainCounts name attr all)).min?.getD 0 ≤
      (holders all name attr domain).length := by
  have hcount := getD_domainCounts name attr domain all
  rcases hlookup : (domainCounts name attr all).lookup domain with _ | n
  · rw [hlookup] at hcount
    exact absurd (List.length_eq_zero_iff.mp hcount.symm) h
  · rw [hlookup] at hcount
    rw [← hcount]
    have hmem : n ∈ HashMap.values (domainCounts name attr all) :=
      List.mem_map.mpr ⟨⟨domain, n⟩, HashMap.mem_of_lookup hlookup, rfl⟩
    obtain ⟨low, hlow⟩ := Option.ne_none_iff_exists'.mp
      (fun hnone => List.ne_nil_of_mem hmem (List.min?_eq_none_iff.mp hnone))
    rw [hlow]
    exact (List.min?_eq_some_iff.mp hlow).2 n hmem

theorem spreadPasses_le {c : Candidate} {name d d' : String} {all : List Candidate}
    {spread : SpreadConfig} {k : ℕ} (hrequired : spread.required = true)
    (hskew : spread.maxSkew = some k) (hd : getAttribute c spread.attr = some d)
    (hd' : holders all name spread.attr d' ≠ []) (h : spreadPasses c name all spread = true) :
    (holders all name spread.attr d).length + 1 ≤ (holders all name spread.attr d').length + k := by
  have hmin := min_domainCounts_le hd'
  simp only [spreadPasses, hrequired, hskew, hd, getD_domainCounts, Bool.not_true,
    Bool.false_eq_true, if_false, decide_eq_true_eq] at h
  omega

/-! ### Machines and instances -/

section Run
variable {F : Type} [F64 F] {re : RegexEngine} {services : Services}
  {machines : Machines} {nodePools : NodePools}
  {s t : SchedState} {name attr domain : String}

theorem inDomain_of_static (hs : Ledger machines nodePools s) (ht : Ledger machines nodePools t)
    (hstatic : IsStatic attr) (domain : String) :
    inDomain s.candidates attr domain = inDomain t.candidates attr domain := by
  have hblank : ∀ cs : List Candidate,
      inDomain cs attr domain = inDomain (cs.map Candidate.blank) attr domain := by
    intro cs
    funext machine
    simp only [inDomain, List.any_map, Function.comp_def, getAttribute_blank hstatic]
    rfl
  rw [hblank, hblank t.candidates, hs.static, ht.static]

theorem getAttribute_of_inDomain (h : Ledger machines nodePools t) {c : Candidate}
    (hc : c ∈ t.candidates) (hin : inDomain t.candidates attr domain c.name = true) :
    getAttribute c attr = some domain := by
  simp only [inDomain, List.any_eq_true, Bool.and_eq_true, beq_iff_eq] at hin
  obtain ⟨c', hc', hname, hattr⟩ := hin
  rwa [List.inj_on_of_nodup_map h.nodup hc' hc hname] at hattr

theorem mem_holders (h : Ledger machines nodePools t) {c : Candidate} :
    c ∈ holders t.candidates name attr domain ↔ c ∈ t.candidates ∧
      getAttribute c attr = some domain ∧
      ∃ p ∈ t.plan.placements, p.serviceName = name ∧ p.machineName = c.name := by
  rw [holders, List.mem_filter, Bool.and_eq_true, beq_iff_eq, List.contains_iff_mem]
  refine and_congr_right fun hc => ?_
  rw [h.assigned c hc, servicesOn]
  grind

theorem mem_domainPlacements {candidates : List Candidate} {placements : List Placement}
    {p : Placement} : p ∈ domainPlacements candidates name attr domain placements ↔
      p ∈ placements ∧ p.serviceName = name ∧
        ∃ c ∈ candidates, c.name = p.machineName ∧ getAttribute c attr = some domain := by
  simp [domainPlacements, inDomain]

/-- Every machine that holds the service has an instance. -/
theorem holders_le_instances (h : Ledger machines nodePools t) (name attr domain : String) :
    (holders t.candidates name attr domain).length ≤ instancesIn t name attr domain := by
  have hnodup : ((holders t.candidates name attr domain).map (·.name)).Nodup :=
    h.nodup.sublist (List.filter_sublist.map _)
  have hsub : (holders t.candidates name attr domain).map (·.name) ⊆
      (domainPlacements t.candidates name attr domain t.plan.placements).map (·.machineName) := by
    intro machine hmachine
    obtain ⟨c, hc, rfl⟩ := List.mem_map.mp hmachine
    obtain ⟨hmem, hattr, p, hp, hname, heq⟩ := (mem_holders h).mp hc
    exact List.mem_map.mpr ⟨p, mem_domainPlacements.mpr ⟨hp, hname, c, hmem, heq.symm, hattr⟩, heq⟩
  simpa [instancesIn] using (hnodup.subperm hsub).length_le

/-- When no machine has two instances, each is on a machine of its own. -/
theorem instances_le_holders (h : Ledger machines nodePools t)
    (hone : ∀ machine, (instancesOn t.plan name machine).length ≤ 1) (attr domain : String) :
    instancesIn t name attr domain ≤ (holders t.candidates name attr domain).length := by
  have hnodup : ((domainPlacements t.candidates name attr domain t.plan.placements).map
      (·.machineName)).Nodup := by
    rw [List.nodup_iff_count_le_one]
    intro machine
    rw [List.count_eq_length_filter, List.filter_map, List.length_map]
    refine le_trans (List.Sublist.length_le ?_) (hone machine)
    rw [domainPlacements, instancesOn, List.filter_filter]
    refine List.monotone_filter_right _ fun p hp => ?_
    simp only [Function.comp_apply, Bool.and_eq_true] at hp ⊢
    exact ⟨hp.2.1, hp.1⟩
  have hsub : (domainPlacements t.candidates name attr domain t.plan.placements).map
      (·.machineName) ⊆ (holders t.candidates name attr domain).map (·.name) := by
    intro machine hmachine
    obtain ⟨p, hp, rfl⟩ := List.mem_map.mp hmachine
    obtain ⟨hmem, hname, c, hc, heq, hattr⟩ := mem_domainPlacements.mp hp
    exact List.mem_map.mpr ⟨c, (mem_holders h).mpr ⟨hc, hattr, p, hmem, hname, heq.symm⟩, heq⟩
  simpa [instancesIn] using (hnodup.subperm hsub).length_le

/-! ### Every placement passed the check -/

/-- The state in which a placement was made, with the ones before it: its machine passed the
    required spreads. -/
structure Checked (machines : Machines)
    (nodePools : NodePools) (svc : ServiceConfig) (before : List Placement)
    (p : Placement) (t : SchedState) : Prop where
  ledger : Ledger machines nodePools t
  placements : t.plan.placements = before
  passed : ∃ c ∈ t.candidates, c.name = p.machineName ∧
    passesRequiredSpreads c svc.scheduling.spread p.serviceName t.candidates = true

/-- Every placement of the service was checked. -/
def AllChecked (machines : Machines) (nodePools : NodePools)
    (name : String) (svc : ServiceConfig) (s : SchedState) : Prop :=
  ∀ i p, s.plan.placements[i]? = some p → p.serviceName = name →
    ∃ t, Checked machines nodePools svc (s.plan.placements.take i) p t

/-- STEP: a move adds at most one placement, which is checked in the state before. -/
theorem AllChecked.step {svc svc' : ServiceConfig} {name' : String} {s' : SchedState}
    (hjob : replicated svc.scheduling.jobType = true) (hsvc : services.lookup name = some svc)
    (hsvc' : services.lookup name' = some svc') (hledger : Ledger machines nodePools s)
    (h : AllChecked machines nodePools name svc s) (hmove : Move F re ⟨name', svc'⟩ s s') :
    AllChecked machines nodePools name svc s' := by
  cases hmove with
  | @place idx c c' id hc heligible hc' hspread =>
    intro i p hp hname
    simp only [SchedState.record] at hp ⊢
    rcases Nat.lt_or_ge i s.plan.placements.length with hlt | hge
    · rw [List.getElem?_append_left hlt] at hp
      rw [List.take_append_of_le_length hlt.le]
      exact h i p hp hname
    · obtain ⟨rfl, rfl⟩ : i = s.plan.placements.length ∧ ⟨name', id, c.name⟩ = p := by
        grind
      obtain rfl := hname
      obtain rfl := Option.some.inj (hsvc.symm.trans hsvc')
      exact ⟨s, hledger, by simp, c, List.mem_of_getElem? hc, rfl, hspread hjob⟩
  | block => exact h

variable (F re machines nodePools) in
/-- RUN: in the final state all placements of a replicated job are checked. -/
theorem allChecked_of_finalState {currentPlacements : CurrentPlacements} {svc : ServiceConfig}
    (hb : PrioritiesBounded services) (hsvc : services.lookup name = some svc)
    (hjob : replicated svc.scheduling.jobType = true)
    (h : finalState F re services machines nodePools currentPlacements = some s) :
    Ledger machines nodePools s ∧ AllChecked machines nodePools name svc s := by
  obtain ⟨s', hs', hrun, -⟩ := schedule_moves F re services machines nodePools currentPlacements hb
  obtain rfl := Option.some.inj (h.symm.trans hs')
  exact invariant_of_moves (fun _ _ hp => absurd hp (by simp [initState]))
    (fun _ _ _ _ hsvc' hledger h hmove => h.step hjob hsvc hsvc' hledger hmove) hrun

/-! ### Balance -/

section Balance
variable {svc : ServiceConfig} {spread : SpreadConfig} {k : ℕ}

/-- A placement of the service in `d` was checked against every domain that had an instance. -/
theorem Checked.instances_le {before : List Placement} {p : Placement}
    (h : Checked machines nodePools svc before p t) (hs : Ledger machines nodePools s)
    (hspread : spread ∈ svc.scheduling.spread) (hrequired : spread.required = true)
    (hskew : spread.maxSkew = some k) (hstatic : IsStatic spread.attr)
    (hone : ∀ machine, (instancesOn t.plan p.serviceName machine).length ≤ 1) {d d' : String}
    (hd : inDomain s.candidates spread.attr d p.machineName = true)
    (hd' : domainPlacements s.candidates p.serviceName spread.attr d' before ≠ []) :
    (domainPlacements s.candidates p.serviceName spread.attr d before).length + 1 ≤
      (domainPlacements s.candidates p.serviceName spread.attr d' before).length + k := by
  obtain ⟨c, hc, hname, hpasses⟩ := h.passed
  have hplacements : ∀ domain,
      (domainPlacements s.candidates p.serviceName spread.attr domain before).length =
        instancesIn t p.serviceName spread.attr domain := by
    intro domain
    rw [instancesIn, domainPlacements, domainPlacements, h.placements,
      inDomain_of_static hs h.ledger hstatic]
  rw [inDomain_of_static hs h.ledger hstatic, ← hname] at hd
  rw [ne_eq, ← List.length_eq_zero_iff, hplacements] at hd'
  have hhere := instances_le_holders h.ledger hone spread.attr d
  have hthere := instances_le_holders h.ledger hone spread.attr d'
  have hheld := holders_le_instances h.ledger p.serviceName spread.attr d'
  have hholder : holders t.candidates p.serviceName spread.attr d' ≠ [] := by
    intro hnil
    rw [hnil] at hthere
    exact hd' (Nat.le_zero.mp hthere)
  have hchecked := spreadPasses_le hrequired hskew (getAttribute_of_inDomain h.ledger hc hd) hholder
    (List.all_eq_true.mp hpasses spread hspread)
  rw [hplacements, hplacements]
  omega

/-- RUN over the plan: after each placement a domain has at most `k` instances, or at most `k` more
    than any domain with an eligible machine. -/
theorem take_balanced (hledger : Ledger machines nodePools s)
    (hchecked : AllChecked machines nodePools name svc s)
    (hspread : spread ∈ svc.scheduling.spread) (hrequired : spread.required = true)
    (hskew : spread.maxSkew = some k) (hstatic : IsStatic spread.attr)
    (hone : ∀ machine, (instancesOn s.plan name machine).length ≤ 1)
    (hfills : FillsFirst F re ⟨name, svc⟩ spread.attr k s) {c c' : Candidate} {d d' : String}
    (hc : c ∈ s.candidates) (hd : getAttribute c spread.attr = some d) (hc' : c' ∈ s.candidates)
    (heligible : eligible F re ⟨name, svc⟩ c' = true) (hd' : getAttribute c' spread.attr = some d')
    (i : ℕ) (hi : i ≤ s.plan.placements.length) :
    (domainPlacements s.candidates name spread.attr d (s.plan.placements.take i)).length ≤
      (domainPlacements s.candidates name spread.attr d' (s.plan.placements.take i)).length +
        k := by
  induction i with
  | zero => simp [domainPlacements]
  | succ i ih =>
    obtain ⟨p, hp⟩ : ∃ p, s.plan.placements[i]? = some p := ⟨_, List.getElem?_eq_getElem hi⟩
    have hfilled := hfills i hi c hc d hd
    have hsplit : ∀ domain, domainPlacements s.candidates name spread.attr domain
        (s.plan.placements.take (i + 1)) =
        domainPlacements s.candidates name spread.attr domain (s.plan.placements.take i) ++
          domainPlacements s.candidates name spread.attr domain [p] := by
      intro domain
      rw [List.take_add_one, hp, domainPlacements, List.filter_append]
      rfl
    have hbefore := ih (by omega)
    simp only [hsplit, List.length_append] at hfilled ⊢
    by_cases hin : p.serviceName == name && inDomain s.candidates spread.attr d p.machineName
    · have hlast : (domainPlacements s.candidates name spread.attr d [p]).length = 1 := by
        simp [domainPlacements, hin]
      rw [Bool.and_eq_true, beq_iff_eq] at hin
      obtain ⟨rfl, hin⟩ := hin
      rcases Nat.lt_or_ge k ((domainPlacements s.candidates p.serviceName spread.attr d
          (s.plan.placements.take i)).length + 1) with hmore | hfew
      · obtain ⟨t, ht⟩ := hchecked i p hp rfl
        have hle := ht.instances_le hledger hspread hrequired hskew hstatic (fun machine => ?_) hin
          (hfilled (by omega) c' hc' heligible d' hd')
        · omega
        · refine le_trans (List.Sublist.length_le ?_) (hone machine)
          rw [instancesOn, ht.placements]
          exact (List.take_sublist i _).filter _
      · omega
    · have hlast : (domainPlacements s.candidates name spread.attr d [p]).length = 0 := by
        simp [domainPlacements, hin]
      omega

end Balance

end Run

/-- A machine in a zone. -/
def zoned (zone : String) : MachineConfig where
  labels := [⟨"zone", zone⟩].toAList

/-- A required spread over the zones. -/
def zoneSpread (k : ℕ) : SpreadConfig where
  attr := "labels.zone"
  maxSkew := some k
  required := true

/-- Four machines in zone `a`, three in zone `b`. -/
def sevenMachines : Machines :=
  [⟨"a1", zoned "a"⟩, ⟨"a2", zoned "a"⟩, ⟨"a3", zoned "a"⟩, ⟨"a4", zoned "a"⟩, ⟨"b1", zoned "b"⟩,
    ⟨"b2", zoned "b"⟩, ⟨"b3", zoned "b"⟩].toAList

/-- Five replicas on distinct hosts, spread over the zones with a skew of one. -/
def spreadWeb : ServiceConfig where
  scheduling := {
    replicas := 5, spread := [zoneSpread 1], constraints := [⟨"", "distinct_hosts", ""⟩] }

/-- Two machines in zone `a`, one in zone `b`. -/
def threeMachines : Machines :=
  [⟨"a1", zoned "a"⟩, ⟨"a2", zoned "a"⟩, ⟨"b1", zoned "b"⟩].toAList

/-- Six replicas that may share a host. -/
def sixReplicas : ServiceConfig where
  scheduling := { replicas := 6, spread := [zoneSpread 1] }

end Ekafleet.Scheduler
