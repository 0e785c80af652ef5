import Ekafleet.Agent.Host

/-! Units and specifications | source: agent/supervisor.rs

    Whether the unit file of a service is written again is decided by its version key: the store
    path, or the image of a container. The rest of the specification is in the unit file and not in
    the key. -/

namespace Ekafleet.Agent
open Proto

/-- A supervisor after it has been given these services, one set after the other. -/
def supervised (out : Outcomes) (dataDir : String) (s : Supervisor)
    (history : List (HashMap.Order × Specs)) : Supervisor :=
  history.foldl (fun s d => (reconcile out dataDir d.1 d.2 s).2) s

/-- The host after a new supervisor has been given them, all calls succeeding. -/
def hostAfter (dataDir : String) (h₀ : Host)
    (history : List (HashMap.Order × Specs)) : Host :=
  h₀.applyAll (supervised noFaults dataDir {} history).calls

/-- The services the supervisor was given last. -/
def lastDesired (history : List (HashMap.Order × Specs)) :
    Specs :=
  (history.getLast?.map (·.2)).getD ∅

/-- The unit file of every desired service is the one of its specification, and its unit was started
    from that file. -/
def Current (dataDir : String) (desired : Specs) (h : Host) : Prop :=
  ∀ name spec, desired.lookup name = some spec →
    h.view dataDir name = (some (unitContent spec), some (unitContent spec))

/-- Specifications with the same version key have the same unit file. -/
def SameUnits (desired desired' : Specs) : Prop :=
  ∀ name spec spec', desired.lookup name = some spec → desired'.lookup name = some spec' →
    versionKeyFor spec = versionKeyFor spec' → unitContent spec = unitContent spec'

/-! ### One reconciliation -/

section Step
variable {dataDir : String} {order : HashMap.Order} {s : Supervisor} {h : Host}
  {desired desired' : Specs}

/-- The records are those of the desired services, and nothing else runs. -/
structure Kept (s : Supervisor) (h : Host) (desired : Specs) : Prop where
  inStep : s.InStep desired
  unitNames : UnitNames s.managedUnits
  idle : ∀ name, name ∉ s.managedUnits → h.running (unitName name) = none

theorem unitNames_reconcile (hunits : UnitNames s.managedUnits) :
    UnitNames (reconcile noFaults dataDir order desired s).2.managedUnits := by
  obtain ⟨s', removed, hs', hlookup, -⟩ := reconcile_exact dataDir order desired s
  intro name unit hunit
  rw [hs', hlookup] at hunit
  obtain ⟨spec, -, rfl⟩ := Option.map_eq_some_iff.mp hunit
  unfold unitAfter
  split
  · next existing hexisting =>
    split
    · exact hunits name existing hexisting
    · rfl
  · rfl

/-- STEP. -/
theorem Kept.reconcile (hdir : Apart dataDir) (hkept : Kept s h desired) :
    Kept (reconcile noFaults dataDir order desired' s).2
      (h.applyAll (newCalls s (Agent.reconcile noFaults dataDir order desired' s).2)) desired' := by
  have hinStep := inStep_reconcile dataDir order desired' s
  refine ⟨hinStep, unitNames_reconcile hkept.unitNames, fun name hname => ?_⟩
  have hview := congrArg Prod.snd (view_reconcile hdir order desired' hkept.unitNames h name)
  rw [hinStep.mem_iff] at hname
  rw [viewAfter, AList.lookup_eq_none.mpr hname] at hview
  rcases hmanaged : s.managedUnits.lookup name with _ | unit
  · rw [hmanaged] at hview
    exact hview.trans (hkept.idle name (AList.lookup_eq_none.mp hmanaged))
  · rw [hmanaged] at hview
    exact hview

/-- STEP, exact: current units stay current if and only if no unit file changes under its version
    key. -/
theorem current_reconcile_iff (hdir : Apart dataDir) (hkept : Kept s h desired)
    (hcurrent : Current dataDir desired h) :
    Current dataDir desired'
        (h.applyAll (newCalls s (reconcile noFaults dataDir order desired' s).2)) ↔
      SameUnits desired desired' := by
  have hview := view_reconcile hdir order desired' hkept.unitNames h
  constructor
  · intro hcurrent' name spec spec' hspec hspec' hkey
    have hafter := hcurrent' name spec' hspec'
    obtain ⟨unit, hunit, hunitKey⟩ := Option.map_eq_some_iff.mp
      ((hkept.inStep name).trans (by rw [hspec, Option.map_some]))
    rw [hview, viewAfter, hspec', hunit, hcurrent name spec hspec] at hafter
    grind
  · intro hsame name spec' hspec'
    rw [hview, viewAfter, hspec']
    rcases hunit : s.managedUnits.lookup name with _ | unit
    · have hidle := hkept.idle name (AList.lookup_eq_none.mp hunit)
      dsimp only [Host.view]
      rw [hidle]
      rfl
    · obtain ⟨spec, hspec, hkey⟩ := Option.map_eq_some_iff.mp
        ((hkept.inStep name).symm.trans (by rw [hunit, Option.map_some]))
      dsimp only
      split
      · next heq =>
        rw [hcurrent name spec hspec, hsame name spec spec' hspec hspec' (hkey.trans heq)]
      · rfl

end Step

/-! ### A history -/

section History
variable {dataDir : String} {h₀ : Host}

theorem hostAfter_concat (history : List (HashMap.Order × Specs))
    (d : HashMap.Order × Specs) :
    hostAfter dataDir h₀ (history ++ [d]) = (hostAfter dataDir h₀ history).applyAll
      (newCalls (supervised noFaults dataDir {} history)
        (reconcile noFaults dataDir d.1 d.2 (supervised noFaults dataDir {} history)).2) := by
  obtain ⟨s', removed, hs', -, -, -, hcalls⟩ :=
    reconcile_exact dataDir d.1 d.2 (supervised noFaults dataDir {} history)
  have hlast : supervised noFaults dataDir {} (history ++ [d]) = s' := by
    rw [supervised, List.foldl_concat]
    exact congrArg Prod.snd hs'
  rw [hostAfter, hlast, hs', newCalls, hcalls, List.drop_left, Host.applyAll_append, hostAfter]

theorem lastDesired_concat (history : List (HashMap.Order × Specs))
    (d : HashMap.Order × Specs) : lastDesired (history ++ [d]) = d.2 := by
  simp [lastDesired]

/-- RUN. -/
theorem kept_supervised (hdir : Apart dataDir)
    (hidle : ∀ name, h₀.running (unitName name) = none)
    (history : List (HashMap.Order × Specs)) :
    Kept (supervised noFaults dataDir {} history) (hostAfter dataDir h₀ history)
      (lastDesired history) := by
  induction history using List.reverseRecOn with
  | nil =>
    refine ⟨fun _ => rfl, fun name unit hunit => ?_, fun name _ => hidle name⟩
    cases hunit
  | append_singleton history d ih =>
    rw [hostAfter_concat, lastDesired_concat, supervised, List.foldl_concat]
    exact ih.reconcile hdir

/-- EXACT: on a host that runs none of the units, without faults, the units are those of the current
    specifications after every reconciliation if and only if no two successive specifications of a
    service have the same version key and different unit files. -/
theorem units_current_iff (hdir : Apart dataDir)
    (hidle : ∀ name, h₀.running (unitName name) = none)
    (history : List (HashMap.Order × Specs)) :
    (∀ pre, pre <+: history → Current dataDir (lastDesired pre) (hostAfter dataDir h₀ pre)) ↔
      ∀ pre d, pre ++ [d] <+: history → SameUnits (lastDesired pre) d.2 := by
  have hstep : ∀ pre (d : HashMap.Order × Specs),
      Current dataDir (lastDesired pre) (hostAfter dataDir h₀ pre) →
      (Current dataDir (lastDesired (pre ++ [d])) (hostAfter dataDir h₀ (pre ++ [d])) ↔
        SameUnits (lastDesired pre) d.2) := by
    intro pre d hcurrent
    rw [lastDesired_concat, hostAfter_concat]
    exact current_reconcile_iff hdir (kept_supervised hdir hidle pre) hcurrent
  constructor
  · intro hcurrent pre d hpre
    exact (hstep pre d (hcurrent pre ((List.prefix_append _ _).trans hpre))).mp (hcurrent _ hpre)
  · intro hsame pre
    induction pre using List.reverseRecOn with
    | nil =>
      intro _ name spec hspec
      cases hspec
    | append_singleton pre d ih =>
      intro hpre
      exact (hstep pre d (ih ((List.prefix_append _ _).trans hpre))).mpr (hsame pre d hpre)

end History

namespace Native

/-- A new release of the service. -/
def nextWeb : ServiceSpec :=
  { web with storePath := "/nix/store/v2-web", command := "/nix/store/v2-web/bin/web --port 80" }

/-- The same release on another port. -/
def movedWeb : ServiceSpec := { web with command := "/nix/store/v1-web/bin/web --port 81" }

def only (spec : ServiceSpec) : HashMap.Order × Specs :=
  (.asBuilt, AList.insert "web" spec ∅)

/-- A new release is run from its own unit. -/
theorem release_current :
    Current "/var/lib/ekafleet" (only nextWeb).2
      (hostAfter "/var/lib/ekafleet" {} [only web, only nextWeb]) := by
  have hdir : Apart "/var/lib/ekafleet" := apart_of_not_isPrefix (by decide)
  refine (units_current_iff hdir (fun _ => rfl) [only web, only nextWeb]).mpr ?_ _ List.prefix_rfl
  intro pre d hpre name spec spec' hspec hspec' hkey
  rcases pre with _ | ⟨first, pre⟩
  · cases hspec
  · obtain ⟨rfl, hpre⟩ := List.cons_prefix_cons.mp hpre
    obtain ⟨rfl, rfl⟩ : pre = [] ∧ d = only nextWeb := by
      simpa [List.prefix_cons_iff, List.append_eq_singleton_iff] using hpre
    by_cases hname : name = "web"
    · subst hname
      cases hspec
      cases hspec'
      exact absurd hkey (by decide)
    · cases (AList.lookup_insert_ne hname).symm.trans hspec

/-- The unit keeps the port it was first given. -/
theorem moved_service_keeps_unit :
    ¬ Current "/var/lib/ekafleet" (only movedWeb).2
      (hostAfter "/var/lib/ekafleet" {} [only web, only movedWeb]) ∧
    (hostAfter "/var/lib/ekafleet" {} [only web, only movedWeb]).view "/var/lib/ekafleet" "web" =
      (some (unitContent web), some (unitContent web)) := by
  have hview : (hostAfter "/var/lib/ekafleet" {} [only web, only movedWeb]).view
      "/var/lib/ekafleet" "web" = (some (unitContent web), some (unitContent web)) := by
    decide +kernel
  refine ⟨fun hcurrent => ?_, hview⟩
  have hmoved := hcurrent "web" movedWeb rfl
  rw [hview] at hmoved
  exact absurd (Option.some.inj (Prod.mk.inj hmoved).1) (by decide +kernel)

end Native

end Ekafleet.Agent
