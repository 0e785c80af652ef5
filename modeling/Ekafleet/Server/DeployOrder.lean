import Ekafleet.Lib.Chains
import Ekafleet.Server.Deployer

/-! The order of deployment | source: server/deployer.rs

    A service is deployed after the services it calls. The tiers are the levels of the graph of
    calls between configured services; the services from which a cycle of calls can be reached have
    no level and make up one last tier. -/

namespace Ekafleet.Server
open Chains Relation

variable {services : Services}

/-- One configured service may call another, or itself. -/
def Calls (services : Services) (caller target : String) : Prop :=
  ∃ cfg, services.lookup caller = some cfg ∧ target ∈ cfg.identity.allowedTargets ∧
    target ∈ services

theorem Calls.mem_target {caller target : String} (h : Calls services caller target) :
    target ∈ services := by
  obtain ⟨-, -, -, htarget⟩ := h
  exact htarget

variable {deployed remaining : List String}

variable {svc : String}

theorem mem_readyServices :
    svc ∈ readyServices services deployed remaining ↔
      svc ∈ remaining ∧ ∀ target, Calls services svc target → target ∈ deployed := by
  rw [readyServices, List.mem_filter]
  refine and_congr_right fun _ => ?_
  rcases hlookup : services.lookup svc with _ | cfg
  · simp [Calls, hlookup]
  · simp only [Calls, hlookup, Option.map_some, Option.getD_some, List.all_eq_true, Bool.or_eq_true,
      List.contains_iff_mem, Bool.not_eq_true', Option.some.injEq]
    constructor
    · grind [AList.mem_keys]
    · intro hall target hmem
      by_cases htarget : target ∈ services
      · exact .inl (hall target ⟨cfg, rfl, hmem, htarget⟩)
      · refine .inr ?_
        rw [← Bool.not_eq_true, List.contains_iff_mem]
        exact fun hkeys => htarget (AList.mem_keys.mpr hkeys)

theorem filter_contains_ready (services : Services) (deployed remaining : List String) :
    remaining.filter ((readyServices services deployed remaining).contains ·) =
      readyServices services deployed remaining := by
  refine List.filter_congr fun svc hsvc => ?_
  rw [Bool.eq_iff_iff, List.contains_iff_mem, readyServices, List.mem_filter]
  exact and_iff_right hsvc

/-- INVARIANT of the loop before tier `k`: the deployed services have their levels below `k`, the
    remaining ones have chains of `k` calls. -/
structure Sorted (services : Services) (k : ℕ)
    (deployed remaining : List String) : Prop where
  split : ∀ svc, svc ∈ services ↔ svc ∈ deployed ∨ svc ∈ remaining
  below : ∀ svc ∈ deployed, ¬ Chain (Calls services) k svc
  above : ∀ svc ∈ remaining, Chain (Calls services) k svc

section Round
variable {k : ℕ} {deployed remaining : List String} (h : Sorted services k deployed remaining)
include h

variable {svc : String}

theorem Sorted.mem_ready :
    svc ∈ readyServices services deployed remaining ↔
      svc ∈ remaining ∧ ¬ Chain (Calls services) (k + 1) svc := by
  rw [mem_readyServices]
  refine and_congr_right fun _ => ?_
  constructor
  · rintro hready ⟨target, hcalls, hchain⟩
    exact h.below target (hready target hcalls) hchain
  · intro hno target hcalls
    rcases (h.split target).mp hcalls.mem_target with hdeployed | hremaining
    · exact hdeployed
    · exact absurd ⟨target, hcalls, h.above target hremaining⟩ hno

theorem Sorted.mem_ready_iff_level :
    svc ∈ readyServices services deployed remaining ↔
      svc ∈ services ∧ Level (Calls services) k svc := by
  rw [h.mem_ready, h.split]
  constructor
  · rintro ⟨hmem, hno⟩
    exact ⟨.inr hmem, h.above svc hmem, hno⟩
  · rintro ⟨hmem | hmem, hchain, hno⟩
    · exact absurd hchain (h.below svc hmem)
    · exact ⟨hmem, hno⟩

/-- STEP: a round with a tier. -/
theorem Sorted.step :
    Sorted services (k + 1) (deployed ++ readyServices services deployed remaining)
      (remaining.filter (!(readyServices services deployed remaining).contains ·)) where
  split svc := by
    rw [h.split, List.mem_append, List.mem_filter, Bool.not_eq_true', ← Bool.not_eq_true,
      List.contains_iff_mem]
    grind [readyServices]
  below svc hsvc := by
    rcases List.mem_append.mp hsvc with hdeployed | hready
    · exact fun hchain => h.below svc hdeployed hchain.of_succ
    · exact (h.mem_ready.mp hready).2
  above svc hsvc := by
    obtain ⟨hmem, hnot⟩ := List.mem_filter.mp hsvc
    rw [Bool.not_eq_true', ← Bool.not_eq_true, List.contains_iff_mem] at hnot
    by_contra hno
    exact hnot (h.mem_ready.mpr ⟨hmem, hno⟩)

theorem Sorted.mem_remaining_iff (hempty : readyServices services deployed remaining = [])
    :
    svc ∈ remaining ↔ svc ∈ services ∧ ReachesCycle (Calls services) svc := by
  have hstep : ∀ a ∈ {a | a ∈ remaining}, ∃ b ∈ {b | b ∈ remaining}, Calls services a b := by
    intro a ha
    have hnot : a ∉ readyServices services deployed remaining := by simp [hempty]
    rw [mem_readyServices, not_and] at hnot
    obtain ⟨b, hb⟩ := not_forall.mp (hnot ha)
    rw [Classical.not_imp] at hb
    exact ⟨b, ((h.split b).mp hb.1.mem_target).resolve_left hb.2, hb.1⟩
  constructor
  · intro hmem
    exact ⟨(h.split svc).mpr (.inr hmem), reachesCycle_of_finite remaining.finite_toSet hstep hmem⟩
  · rintro ⟨hmem, hcycle⟩
    rcases (h.split svc).mp hmem with hdeployed | hremaining
    · exact absurd (hcycle.chain k) (h.below svc hdeployed)
    · exact hremaining

end Round

/-- The tiers from number `k` on: levels, and what reaches a cycle at the end. -/
structure Tiered (services : Services) (k : ℕ) (front : List (List String))
    (leftover : List String) : Prop where
  level : ∀ j tier, front[j]? = some tier →
    ∀ svc, svc ∈ tier ↔ svc ∈ services ∧ Level (Calls services) (k + j) svc
  cyclic : ∀ svc, svc ∈ leftover ↔ svc ∈ services ∧ ReachesCycle (Calls services) svc

theorem length_filter_not_contains {l tier : List String} (hsub : ∀ a ∈ tier, a ∈ l)
    (hne : tier ≠ []) : (l.filter (!tier.contains ·)).length < l.length := by
  obtain ⟨a, ha⟩ := List.exists_mem_of_ne_nil _ hne
  exact List.length_filter_lt_length_iff_exists.mpr ⟨a, hsub a ha, by simp [ha]⟩

/-- RUN: with a round for every remaining service the loop ends by itself. -/
theorem deployTiers_tiered {rounds k : ℕ} (h : Sorted services k deployed remaining)
    (hrounds : remaining.length < rounds) :
    ∃ front leftover,
      deployTiers services rounds deployed remaining =
        front ++ (if leftover = [] then [] else [leftover]) ∧
      Tiered services k front leftover ∧ (∀ tier ∈ front, tier ≠ []) ∧
      (front.flatten ++ leftover).Perm remaining := by
  induction rounds generalizing k deployed remaining with
  | zero => cases hrounds
  | succ rounds ih =>
    rw [deployTiers]
    rcases eq_or_ne remaining [] with rfl | hne
    · have hnone : ∀ svc, svc ∈ ([] : List String) ↔
          svc ∈ services ∧ ReachesCycle (Calls services) svc := by
        intro svc
        exact h.mem_remaining_iff rfl
      exact ⟨[], [], rfl, ⟨by simp, hnone⟩, by simp, .refl _⟩
    · rw [if_neg (by simpa using hne)]
      rcases eq_or_ne (readyServices services deployed remaining) [] with hempty | hready
      · refine ⟨[], remaining, by simp [hempty, hne], ⟨by simp, ?_⟩, by simp, .refl _⟩
        exact fun svc => h.mem_remaining_iff hempty
      · have hsub : ∀ a ∈ readyServices services deployed remaining, a ∈ remaining :=
          fun a ha => (h.mem_ready.mp ha).1
        have hless := length_filter_not_contains hsub hready
        obtain ⟨front, leftover, htiers, htiered, hfront, hperm⟩ := ih h.step (by omega)
        refine ⟨readyServices services deployed remaining :: front, leftover, ?_,
          ⟨?_, htiered.cyclic⟩, ?_, ?_⟩
        · simp only [List.isEmpty_iff, if_neg hready, htiers, List.cons_append]
        · rintro (_ | j) tier hj svc
          · cases hj
            exact h.mem_ready_iff_level
          · rw [htiered.level j tier hj svc, Nat.add_right_comm, Nat.add_assoc]
        · exact List.forall_mem_cons.mpr ⟨hready, hfront⟩
        · rw [List.flatten_cons, List.append_assoc]
          refine (hperm.append_left _).trans ?_
          have hsplit := List.filter_append_perm
            ((readyServices services deployed remaining).contains ·) remaining
          rwa [filter_contains_ready] at hsplit

/-- RUN: more rounds change nothing. -/
theorem deployTiers_rounds {rounds more : ℕ} (hrounds : remaining.length < rounds)
    (hmore : remaining.length < more) :
    deployTiers services rounds deployed remaining =
      deployTiers services more deployed remaining := by
  induction rounds generalizing more deployed remaining with
  | zero => cases hrounds
  | succ rounds ih =>
    obtain ⟨more, rfl⟩ := Nat.exists_eq_succ_of_ne_zero (Nat.ne_zero_of_lt hmore)
    rw [deployTiers, deployTiers]
    rcases eq_or_ne (readyServices services deployed remaining) [] with hempty | hready
    · simp [hempty]
    · have hsub : ∀ a ∈ readyServices services deployed remaining, a ∈ remaining :=
        fun a ha => (mem_readyServices.mp ha).1
      have hless := length_filter_not_contains hsub hready
      grind

/-- The service stands in tier `k` as it should: the length of its longest chain of calls, after all
    services it calls, and no earlier tier would do. -/
structure InPlace (services : Services) (tiers : List (List String)) (k : ℕ)
    (svc : String) : Prop where
  level : Level (Calls services) k svc
  later : ∀ target, Calls services svc target →
    ∃ j < k, ∃ tier, tiers[j]? = some tier ∧ target ∈ tier
  earliest : ∀ number : String → ℕ, (∀ b c, ReflTransGen (Calls services) svc b →
    Calls services b c → number c < number b) → k ≤ number svc

theorem Tiered.inPlace {front rest : List (List String)} {leftover : List String}
    (h : Tiered services 0 front leftover)
    (hall : ∀ svc, svc ∈ services → svc ∈ front.flatten ++ leftover) {k : ℕ} {tier : List String}
    (hk : front[k]? = some tier) (hsvc : svc ∈ tier) :
    InPlace services (front ++ rest) k svc := by
  have hlevel : Level (Calls services) k svc := by
    have := ((h.level k tier hk svc).mp hsvc).2
    rwa [Nat.zero_add] at this
  refine ⟨hlevel, fun target hcalls => ?_, fun number => hlevel.1.le⟩
  have hshort : ¬ Chain (Calls services) k target := fun hchain => hlevel.2 ⟨target, hcalls, hchain⟩
  rcases List.mem_append.mp (hall target hcalls.mem_target) with hfront | hleft
  · obtain ⟨below, hbelow, htarget⟩ := List.mem_flatten.mp hfront
    obtain ⟨j, hj⟩ := List.mem_iff_getElem?.mp hbelow
    have hchain := ((h.level j below hj target).mp htarget).2.1
    rw [Nat.zero_add] at hchain
    refine ⟨j, ?_, below, ?_, htarget⟩
    · exact Nat.lt_of_not_le fun hle => hshort (hchain.mono hle)
    · rw [List.getElem?_append_left (List.getElem?_eq_some_iff.mp hj).1, hj]
  · exact absurd (((h.cyclic target).mp hleft).2.chain k) hshort

theorem mem_of_cycle (h : TransGen (Calls services) svc svc) : svc ∈ services := by
  obtain ⟨_, ⟨cfg, hcfg, -⟩, -⟩ := TransGen.head'_iff.mp h
  exact HashMap.mem_iff_exists_lookup.mpr ⟨cfg, hcfg⟩

/-- CORRECT: the tiers are a partition of the services. Without cycles of calls every service is in
    place; with cycles the last tier holds the services from which one can be reached, and all
    others are in place. -/
theorem computeDeployOrder_correct (services : Services) :
    (∀ rounds, services.keys.length < rounds →
      deployTiers services rounds [] services.keys = computeDeployOrder services) ∧
    (computeDeployOrder services).flatten.Perm services.keys ∧
    (∀ tier ∈ computeDeployOrder services, tier ≠ []) ∧
    ((∀ svc, ¬ TransGen (Calls services) svc svc) →
      ∀ k tier, (computeDeployOrder services)[k]? = some tier →
        ∀ svc ∈ tier, InPlace services (computeDeployOrder services) k svc) ∧
    ((∃ svc, TransGen (Calls services) svc svc) →
      ∃ front last, computeDeployOrder services = front ++ [last] ∧
        (∀ svc, svc ∈ last ↔ svc ∈ services ∧ ReachesCycle (Calls services) svc) ∧
        ∀ k tier, front[k]? = some tier →
          ∀ svc ∈ tier, InPlace services (computeDeployOrder services) k svc) := by
  have hstart : Sorted services 0 [] services.keys :=
    ⟨by simp [AList.mem_keys], by simp, fun _ _ => trivial⟩
  obtain ⟨front, leftover, htiers, htiered, hfront, hperm⟩ :=
    deployTiers_tiered hstart (Nat.lt_succ_self services.keys.length)
  have htiers : computeDeployOrder services =
      front ++ (if leftover = [] then [] else [leftover]) := htiers
  have hall : ∀ svc, svc ∈ services → svc ∈ front.flatten ++ leftover :=
    fun svc hsvc => hperm.mem_iff.mpr (AList.mem_keys.mp hsvc)
  refine ⟨fun rounds hrounds => deployTiers_rounds hrounds (Nat.lt_succ_self _), ?_, ?_, ?_, ?_⟩
  · rw [htiers, List.flatten_append]
    by_cases hleft : leftover = []
    · simpa [hleft] using hperm
    · simpa [hleft] using hperm
  · intro tier htier
    rw [htiers] at htier
    by_cases hleft : leftover = []
    · simp only [if_pos hleft, List.append_nil] at htier
      exact hfront tier htier
    · simp only [if_neg hleft, List.mem_append, List.mem_singleton] at htier
      rcases htier with htier | rfl
      · exact hfront tier htier
      · exact hleft
  · intro hacyclic k tier hk svc hsvc
    have hleft : leftover = [] := by
      refine List.eq_nil_iff_forall_not_mem.mpr fun svc hsvc => ?_
      obtain ⟨-, b, -, hcycle⟩ := (htiered.cyclic svc).mp hsvc
      exact hacyclic b hcycle
    rw [htiers] at hk ⊢
    rw [if_pos hleft, List.append_nil] at hk
    exact htiered.inPlace hall hk hsvc
  · rintro ⟨svc, hcycle⟩
    have hleft : leftover ≠ [] := by
      refine List.ne_nil_of_mem ((htiered.cyclic svc).mpr ⟨mem_of_cycle hcycle, svc, .refl, hcycle⟩)
    refine ⟨front, leftover, by rw [htiers, if_neg hleft], htiered.cyclic, ?_⟩
    intro k tier hk svc hsvc
    rw [htiers]
    exact htiered.inPlace hall hk hsvc

end Ekafleet.Server
