import Ekafleet.Lib.Sorting
import Ekafleet.Scheduler.Accounting
import Ekafleet.Scheduler.Moves

/-! Priority isolation | source: server/scheduler/mod.rs

    Two runs over the same machines whose services of priority at least `p` are the same, in the
    same order. The sorted list of services starts with those, and while nothing is evicted a turn
    does not look at services still to come. So both runs go through the same states up to the cut,
    and the turns after it only add entries of other services. -/

namespace Ekafleet.Scheduler

/-- Services of priority at least `p`. -/
def atLeast (p : UInt32) (service : Σ _ : String, ServiceConfig) : Bool :=
  p ≤ service.2.scheduling.priority

/-- The name of a configured service of priority at least `p`. -/
def isSenior (services : Services) (p : UInt32) (name : String) : Bool :=
  (services.lookup name).any fun svc => p ≤ svc.scheduling.priority

theorem scheduledBefore_of_atLeast {p : UInt32} (a b : Σ _ : String, ServiceConfig)
    (ha : atLeast p a = true) (hb : atLeast p b = false) :
    scheduledBefore a b ∧ ¬ scheduledBefore b a := by
  simp only [atLeast, decide_eq_true_eq, decide_eq_false_iff_not, UInt32.le_iff_toNat_le] at ha hb
  simp only [scheduledBefore, UInt32.lt_iff_toNat_lt, ← UInt32.toNat_inj]
  omega

theorem serviceList_split (services : Services) (p : UInt32) :
    serviceList services =
      (services.entries.filter (atLeast p)).insertionSort scheduledBefore ++
        (services.entries.filter fun e => !atLeast p e).insertionSort scheduledBefore :=
  Sorting.insertionSort_split scheduledBefore_of_atLeast services.entries

section Run
variable (F : Type) [F64 F] (re : RegexEngine) {services : Services}
  {machines : Machines} {nodePools : NodePools}
  {currentPlacements : CurrentPlacements}

variable (machines nodePools currentPlacements) in
/-- RUN: the entries of senior services are those of the run that stops at the cut. -/
theorem share_at_cut (hb : PrioritiesBounded services) (p : UInt32) {keep : String → Bool}
    (hkeep : ∀ e ∈ services.entries, atLeast p e = false → keep e.1 = false) :
    ∃ s plan, schedule F re services machines nodePools currentPlacements = some plan ∧
      ((services.entries.filter (atLeast p)).insertionSort scheduledBefore).foldlM
        (scheduleService F re ∅ nodePools currentPlacements) (initState machines nodePools) =
          some s ∧
      plan.share keep = s.plan.share keep := by
  obtain ⟨final, hfinal, hrun, -⟩ := schedule_calm F re machines nodePools currentPlacements hb
  rw [serviceList_split services p, List.foldlM_append] at hrun
  obtain ⟨s, hcut, hrest⟩ := Option.bind_eq_some_iff.mp hrun
  refine ⟨s, final.plan, schedule_of_finalState F re hfinal, hcut,
    share_of_turns F re _ (fun x hx => ?_) hrest⟩
  obtain ⟨hmem, hlow⟩ := List.mem_filter.mp ((List.mem_insertionSort _).mp hx)
  exact hkeep x hmem (by simpa using hlow)

end Run

theorem isSenior_of_junior {services services' : Services} {p : UInt32}
    (hsame : services.entries.filter (atLeast p) = services'.entries.filter (atLeast p))
    {e : Σ _ : String, ServiceConfig} (he : e ∈ services'.entries) (hlow : atLeast p e = false) :
    isSenior services p e.1 = false := by
  unfold isSenior
  rcases hsvc : services.lookup e.1 with _ | svc
  · rfl
  -- a senior service of that name would be the very same service
  rcases hsenior : atLeast p ⟨e.1, svc⟩ with _ | _
  · exact hsenior
  · have hmem : (⟨e.1, svc⟩ : Σ _ : String, ServiceConfig) ∈ services'.entries.filter (atLeast p) :=
      hsame ▸ List.mem_filter.mpr ⟨HashMap.mem_of_lookup hsvc, hsenior⟩
    have hsvc' := HashMap.lookup_of_mem (List.mem_filter.mp hmem).1
    rw [HashMap.lookup_of_mem he, Option.some.injEq] at hsvc'
    subst hsvc'
    exact hlow

/-- CORRECT: two sets of services with bounded priorities that have the same services of priority at
    least `p`, in the same order, both give a plan, and the placements and blocked entries of these
    services are the same in both. -/
theorem schedule_isolates (F : Type) [F64 F] (re : RegexEngine)
    (services services' : Services) (machines : Machines)
    (nodePools : NodePools) (currentPlacements : CurrentPlacements) (p : UInt32)
    (hb : PrioritiesBounded services) (hb' : PrioritiesBounded services')
    (hsame : services.entries.filter (atLeast p) = services'.entries.filter (atLeast p)) :
    ∃ plan plan', schedule F re services machines nodePools currentPlacements = some plan ∧
      schedule F re services' machines nodePools currentPlacements = some plan' ∧
      plan.share (isSenior services p) = plan'.share (isSenior services p) := by
  obtain ⟨s, plan, hplan, hcut, hshare⟩ := share_at_cut F re machines nodePools
    currentPlacements hb p (fun e he hlow => isSenior_of_junior rfl he hlow)
  obtain ⟨s', plan', hplan', hcut', hshare'⟩ := share_at_cut F re machines nodePools
    currentPlacements hb' p (fun e he hlow => isSenior_of_junior hsame he hlow)
  rw [← hsame, hcut] at hcut'
  obtain rfl := Option.some.inj hcut'
  exact ⟨plan, plan', hplan, hplan', hshare.trans hshare'.symm⟩

/-- A batch job of low priority does not move the replicas of a service. -/
theorem schedule_isolates_batch :
    ∃ plan plan',
      schedule Ratio noRegex
        [⟨"web", { scheduling := { replicas := 2 } : ServiceConfig }⟩].toAList
        [⟨"m1", { : MachineConfig }⟩].toAList ∅ ∅ = some plan ∧
      schedule Ratio noRegex
        [⟨"scan", { scheduling := { jobType := .batch, priority := 10 } : ServiceConfig }⟩,
          ⟨"web", { scheduling := { replicas := 2 } }⟩].toAList
        [⟨"m1", { : MachineConfig }⟩].toAList ∅ ∅ = some plan' ∧
      plan.share (isSenior [⟨"web", { scheduling := { replicas := 2 } : ServiceConfig }⟩].toAList
        50) =
        plan'.share (isSenior
          [⟨"web", { scheduling := { replicas := 2 } : ServiceConfig }⟩].toAList 50) :=
  schedule_isolates Ratio noRegex _ _ _ ∅ ∅ 50 (by unfold PrioritiesBounded; decide)
    (by unfold PrioritiesBounded; decide) rfl

end Ekafleet.Scheduler
