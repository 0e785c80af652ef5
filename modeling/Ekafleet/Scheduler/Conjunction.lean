import Ekafleet.Scheduler.Constraints

/-! Constraints as a conjunction | source: server/scheduler/constraints.rs

    A list of constraints should mean that all of them hold, in whatever order they are written. The
    loop stops at the first constraint that rejects, but also at the first whose operator it does
    not know, and then it accepts the machine. -/

namespace Ekafleet.Scheduler

/-- The operators `passes_constraints` knows: its own, and those of `evaluate_operator`. -/
def knownOperators : List String :=
  ["in", "not_in", "set_contains", "set_contains_any", "distinct_hosts"] ++ commonOperators

section Laws
variable (F : Type) [F64 F] (re : RegexEngine) (c : Candidate) (serviceName : String)

theorem constraintPasses_eq_none_iff (k : Constraint) :
    constraintPasses F re c serviceName k = none ↔ k.op ∉ knownOperators := by
  unfold constraintPasses
  dsimp only
  split
  case h_6 h₁ h₂ h₃ h₄ h₅ =>
    have hown : k.op ∉ ["in", "not_in", "set_contains", "set_contains_any", "distinct_hosts"] := by
      simpa using ⟨h₁, h₂, h₃, h₄, h₅⟩
    rw [knownOperators, List.mem_append, or_iff_right hown]
    simp
  all_goals simp_all [knownOperators]

theorem constraintPasses_of_known {k : Constraint} (hk : k.op ∈ knownOperators) :
    ∃ verdict, constraintPasses F re c serviceName k = some verdict := by
  rw [← Option.isSome_iff_exists, Option.isSome_iff_ne_none]
  exact fun hnone => (constraintPasses_eq_none_iff F re c serviceName k).mp hnone hk

variable {F re c serviceName}

theorem passesConstraints_cons_unknown {k : Constraint} (ks : List Constraint)
    (hk : constraintPasses F re c serviceName k = none) :
    passesConstraints F re c serviceName (k :: ks) = true := by
  rw [passesConstraints, hk]

theorem passesConstraints_cons_rejects {k : Constraint} (ks : List Constraint)
    (hk : constraintPasses F re c serviceName k = some false) :
    passesConstraints F re c serviceName (k :: ks) = false := by
  rw [passesConstraints, hk]

theorem passesConstraints_singleton (k : Constraint) :
    passesConstraints F re c serviceName [k] = true ↔
      constraintPasses F re c serviceName k ≠ some false := by
  simp only [passesConstraints]
  rcases constraintPasses F re c serviceName k with _ | _ | _ <;> simp

variable {ks : List Constraint}

/-- RUN: where nothing rejects, the loop accepts. -/
theorem passesConstraints_of_none_rejects
    (h : ∀ k ∈ ks, constraintPasses F re c serviceName k ≠ some false) :
    passesConstraints F re c serviceName ks = true := by
  induction ks with
  | nil => rfl
  | cons k ks ih =>
    grind [List.mem_cons_self, passesConstraints,
      constraintPasses, List.mem_cons_of_mem]

/-- RUN: with known operators only, the loop accepts exactly if every constraint holds. -/
theorem passesConstraints_iff_of_known (hknown : ∀ k ∈ ks, k.op ∈ knownOperators) :
    passesConstraints F re c serviceName ks = true ↔
      ∀ k ∈ ks, constraintPasses F re c serviceName k = some true := by
  induction ks with
  | nil => simp [passesConstraints]
  | cons k ks ih =>
    obtain ⟨hk, hks⟩ := List.forall_mem_cons.mp hknown
    obtain ⟨verdict, hv⟩ := constraintPasses_of_known F re c serviceName hk
    rw [passesConstraints, List.forall_mem_cons, hv, ← ih hks]
    cases verdict <;> simp

variable (F re c serviceName)

/-- The list is read as a conjunction: it accepts if each constraint on its own does, the order of
    the constraints does not matter, and `added` anywhere in it does not let a rejected machine in.
    -/
structure Lawful (ks : List Constraint) (added : Constraint) : Prop where
  conjunction : passesConstraints F re c serviceName ks =
    ks.all fun k => passesConstraints F re c serviceName [k]
  order : ∀ ks', ks'.Perm ks →
    passesConstraints F re c serviceName ks' = passesConstraints F re c serviceName ks
  adding : ∀ before after, before ++ after = ks → passesConstraints F re c serviceName ks = false →
    passesConstraints F re c serviceName (before ++ added :: after) = false

variable {F re c serviceName}

theorem lawful_of_none_rejects (added : Constraint)
    (h : ∀ k ∈ ks, constraintPasses F re c serviceName k ≠ some false) :
    Lawful F re c serviceName ks added := by
  have haccepts := passesConstraints_of_none_rejects h
  refine ⟨?_, fun ks' hperm => ?_, fun before after _ hrejected => ?_⟩
  · rw [haccepts, eq_comm, List.all_eq_true]
    exact fun k hk => (passesConstraints_singleton k).mpr (h k hk)
  · rw [haccepts]
    exact passesConstraints_of_none_rejects fun k hk => h k (hperm.mem_iff.mp hk)
  · rw [haccepts] at hrejected
    cases hrejected

theorem lawful_of_known {added : Constraint} (h : ∀ k ∈ added :: ks, k.op ∈ knownOperators)
    : Lawful F re c serviceName ks added := by
  obtain ⟨hadded, hks⟩ := List.forall_mem_cons.mp h
  refine ⟨?_, fun ks' hperm => ?_, fun before after hsplit hrejected => ?_⟩
  · rw [Bool.eq_iff_iff, passesConstraints_iff_of_known hks, List.all_eq_true]
    refine forall₂_congr fun k hk => ?_
    obtain ⟨verdict, hv⟩ := constraintPasses_of_known F re c serviceName (hks k hk)
    rw [passesConstraints_singleton, hv]
    cases verdict <;> simp
  · have hks' : ∀ k ∈ ks', k.op ∈ knownOperators := fun k hk => hks k (hperm.mem_iff.mp hk)
    rw [Bool.eq_iff_iff, passesConstraints_iff_of_known hks, passesConstraints_iff_of_known hks']
    exact forall_congr' fun k => imp_congr_left hperm.mem_iff
  · subst hsplit
    have hall : ∀ k ∈ before ++ added :: after, k.op ∈ knownOperators := by
      grind
    -- a longer list that holds would hold without the added constraint
    rw [← Bool.not_eq_true, passesConstraints_iff_of_known hks] at hrejected
    rw [← Bool.not_eq_true, passesConstraints_iff_of_known hall]
    grind

end Laws

/-- EXACT: for every machine, list of constraints and added constraint, the list is a conjunction
    if and only if no constraint of it rejects the machine, or all operators are known, that of the
    added constraint included. -/
theorem constraints_lawful_iff (F : Type) [F64 F] (re : RegexEngine) (c : Candidate)
    (serviceName : String) (ks : List Constraint) (added : Constraint) :
    Lawful F re c serviceName ks added ↔
      (∀ k ∈ ks, constraintPasses F re c serviceName k ≠ some false) ∨
        ∀ k ∈ added :: ks, k.op ∈ knownOperators := by
  constructor
  · intro hlaw
    by_contra! hnot
    obtain ⟨⟨r, hr, hrejects⟩, u, hu, hunknown⟩ := hnot
    have hnone := (constraintPasses_eq_none_iff F re c serviceName u).mpr hunknown
    -- with the rejecting constraint in front the list rejects, so it does as it stands
    have hrejected : passesConstraints F re c serviceName ks = false := by
      rw [← hlaw.order _ (List.perm_cons_erase hr).symm]
      exact passesConstraints_cons_rejects _ hrejects
    rcases List.mem_cons.mp hu with rfl | hu
    · have hstill := hlaw.adding [] ks rfl hrejected
      rw [List.nil_append, passesConstraints_cons_unknown ks hnone] at hstill
      cases hstill
    · have haccepted := hlaw.order _ (List.perm_cons_erase hu).symm
      rw [passesConstraints_cons_unknown _ hnone, hrejected] at haccepted
      cases haccepted
  · rintro (hnone | hknown)
    · exact lawful_of_none_rejects added hnone
    · exact lawful_of_known hknown

/-- A machine of the pool `gpu`. -/
def gpuMachine : Candidate where
  name := "m1"
  config := { pool := "gpu" }
  pool := "gpu"
  mergedLabels := ∅
  schedulableCpu := 0
  schedulableMemory := 0
  schedulableDisk := 0
  extendedResources := ∅

/-- A machine outside the pool `cpu` is rejected, whatever comes after that constraint. Behind a
    constraint with an unknown operator it is accepted. -/
theorem unknown_operator_accepts :
    passesConstraints Ratio noRegex gpuMachine "web" [⟨"pool", "=", "cpu"⟩] = false ∧
    passesConstraints Ratio noRegex gpuMachine "web"
      [⟨"pool", "=", "cpu"⟩, ⟨"name", "starts_with", "m"⟩] = false ∧
    passesConstraints Ratio noRegex gpuMachine "web"
      [⟨"name", "starts_with", "m"⟩, ⟨"pool", "=", "cpu"⟩] = true := by
  decide

end Ekafleet.Scheduler
