import Ekafleet.Server.FleetState

/-! Health probes of the agent | source: agent/health.rs

    A probe changes the recorded status only when a run of equal results has reached its
    threshold; shorter runs are forgotten with the next result of the other kind. -/

namespace Ekafleet.Agent.Health
open Server (HealthStatus)

/-- What is recorded of one probe; the counters are 32 bits wide. -/
structure Probe where
  status : HealthStatus
  message : String
  consecutiveSuccess : ℕ
  consecutiveFailure : ℕ
  deriving DecidableEq, Repr

def Probe.initial : Probe := ⟨.unknown, "initializing", 0, 0⟩

/-- The threshold of a probe's spec, or 3 without a spec or for 0. -/
def threshold : Option ℕ → ℕ
  | some n => if n > 0 then n else 3
  | none => 3

/-- Count the result of a probe. -/
def updateProbeStatus (healthyThreshold unhealthyThreshold : ℕ) (p : Probe) :
    Except String String → Probe
  | .ok msg =>
    let success := (p.consecutiveSuccess + 1) % 2 ^ 32
    { status := if success ≥ healthyThreshold then .healthy else p.status
      message := msg
      consecutiveSuccess := success
      consecutiveFailure := 0 }
  | .error msg =>
    let failure := (p.consecutiveFailure + 1) % 2 ^ 32
    { status := if failure ≥ unhealthyThreshold then .unhealthy else p.status
      message := msg
      consecutiveSuccess := 0
      consecutiveFailure := failure }

variable (up down : ℕ)

def probe (results : List (Except String String)) : Probe :=
  results.foldl (updateProbeStatus up down) .initial

/-! ### The history of results -/

def thresholdOf (ok : Bool) : ℕ := if ok then up else down

def statusOf (ok : Bool) : HealthStatus := if ok then .healthy else .unhealthy

/-- The length of the run of results of one kind that a history ends with. -/
def trailing (ok : Bool) (results : List (Except String String)) : ℕ :=
  (results.rtakeWhile (·.isOk = ok)).length

/-- The history ends with a run that has reached its threshold. -/
def Reached (ok : Bool) (results : List (Except String String)) : Prop :=
  thresholdOf up down ok ≤ trailing ok results

/-- The last run that reached its threshold was of the kind `ok`. -/
def LastReached (ok : Bool) (results : List (Except String String)) : Prop :=
  ∃ upto, upto <+: results ∧ Reached up down ok upto ∧
    ∀ later, later <+: results → upto.length < later.length →
      ¬ Reached up down (!ok) later

theorem trailing_concat (ok : Bool) (results : List (Except String String))
    (r : Except String String) :
    trailing ok (results ++ [r]) = if r.isOk = ok then trailing ok results + 1 else 0 := by
  rw [trailing, List.rtakeWhile_concat]
  split_ifs <;> simp_all [trailing]

theorem trailing_le (ok : Bool) (results : List (Except String String)) :
    trailing ok results ≤ results.length :=
  (List.rtakeWhile_suffix _ results).length_le

variable {up down}

variable {results : List (Except String String)}

/-- STEP: one more result reaches its threshold, or nothing changes. -/
theorem probe_concat {r : Except String String} (hlength : (results ++ [r]).length < 2 ^ 32)
    (hsuccess : (probe up down results).consecutiveSuccess =
      trailing true results)
    (hfailure : (probe up down results).consecutiveFailure =
      trailing false results) :
    (probe up down (results ++ [r])).consecutiveSuccess =
        trailing true (results ++ [r]) ∧
      (probe up down (results ++ [r])).consecutiveFailure =
        trailing false (results ++ [r]) ∧
      (probe up down (results ++ [r])).status =
        if thresholdOf up down r.isOk ≤
            trailing r.isOk (results ++ [r]) then statusOf r.isOk
        else (probe up down results).status := by
  have hconcat : probe up down (results ++ [r]) =
      updateProbeStatus up down
        (probe up down results) r := by
    rw [probe, List.foldl_concat, probe]
  have hle := trailing_le r.isOk results
  rw [List.length_append, List.length_singleton] at hlength
  simp only [trailing_concat]
  rw [hconcat]
  cases r with
  | ok msg =>
    have hok : (Except.ok msg : Except String String).isOk = true := rfl
    rw [hok] at hle
    have hmod := Nat.mod_eq_of_lt (show trailing true results + 1 < 2 ^ 32 by omega)
    simp only [updateProbeStatus, hsuccess, hok, thresholdOf, statusOf, hmod]
    simp
  | error msg =>
    have hok : (Except.error msg : Except String String).isOk = false := rfl
    rw [hok] at hle
    have hmod := Nat.mod_eq_of_lt (show trailing false results + 1 < 2 ^ 32 by omega)
    simp only [updateProbeStatus, hfailure, hok, thresholdOf, statusOf, hmod]
    simp

/-- RUN: the counters are the trailing runs. -/
theorem counters_eq (hlength : results.length < 2 ^ 32) :
    (probe up down results).consecutiveSuccess =
        trailing true results ∧
      (probe up down results).consecutiveFailure =
        trailing false results := by
  induction results using List.reverseRecOn with
  | nil => exact ⟨rfl, rfl⟩
  | append_singleton results r ih =>
    obtain ⟨hsuccess, hfailure⟩ := ih (by simp at hlength; omega)
    obtain ⟨hs, hf, -⟩ := probe_concat hlength hsuccess hfailure
    exact ⟨hs, hf⟩

theorem not_reached_other (hthreshold : ∀ ok, 1 ≤ thresholdOf up down ok) {r : Except String String}
    {ok : Bool} (hne : r.isOk ≠ ok) : ¬ Reached up down ok (results ++ [r]) := by
  rw [Reached, trailing_concat, if_neg hne]
  exact Nat.not_le.mpr (hthreshold ok)

/-- STEP: the last run that reached its threshold, after one more result. -/
theorem lastReached_concat (hthreshold : ∀ ok, 1 ≤ thresholdOf up down ok)
    (results : List (Except String String)) (r : Except String String) (ok : Bool) :
    LastReached up down ok (results ++ [r]) ↔
      if thresholdOf up down r.isOk ≤ trailing r.isOk (results ++ [r]) then r.isOk = ok
      else LastReached up down ok results := by
  have hlength : results.length < (results ++ [r]).length := by simp
  split_ifs with hreached
  · constructor
    · rintro ⟨upto, hupto, hr, hlater⟩
      by_contra hne
      rcases List.prefix_concat_iff.mp hupto with rfl | hpre
      · exact not_reached_other hthreshold hne hr
      · refine hlater _ (List.prefix_refl _) (hpre.length_le.trans_lt hlength) ?_
        rwa [← Bool.eq_not_of_ne hne]
    · rintro rfl
      exact ⟨_, List.prefix_refl _, hreached, fun later hpre hlt =>
        absurd hpre.length_le (Nat.not_le.mpr hlt)⟩
  · -- The longer history has not reached either threshold, so it is no witness and no obstacle.
    have hnone : ∀ ok, ¬ Reached up down ok (results ++ [r]) := by
      intro ok
      by_cases hok : r.isOk = ok
      · exact hok ▸ hreached
      · exact not_reached_other hthreshold hok
    constructor
    · rintro ⟨upto, hupto, hr, hlater⟩
      rcases List.prefix_concat_iff.mp hupto with rfl | hpre
      · exact absurd hr (hnone ok)
      · exact ⟨upto, hpre, hr, fun later hl =>
          hlater later (hl.trans (List.prefix_append _ _))⟩
    · rintro ⟨upto, hupto, hr, hlater⟩
      refine ⟨upto, hupto.trans (List.prefix_append _ _), hr, fun later hl hlt => ?_⟩
      rcases List.prefix_concat_iff.mp hl with rfl | hpre
      · exact hnone _
      · exact hlater later hpre hlt

theorem lastReached_of_reached {ok : Bool} {upto : List (Except String String)}
    (hupto : upto <+: results) (hreached : Reached up down ok upto)
    (hthreshold : ∀ ok, 1 ≤ thresholdOf up down ok) :
    ∃ ok, LastReached up down ok results := by
  induction results using List.reverseRecOn with
  | nil =>
    rw [List.prefix_nil.mp hupto] at hreached
    exact absurd (hthreshold ok) (Nat.not_le.mpr (Nat.lt_one_iff.mpr (Nat.le_zero.mp hreached)))
  | append_singleton results r ih =>
    by_cases hnew : thresholdOf up down r.isOk ≤ trailing r.isOk (results ++ [r])
    · exact ⟨r.isOk, (lastReached_concat hthreshold _ _ _).mpr (by rw [if_pos hnew])⟩
    · rcases List.prefix_concat_iff.mp hupto with rfl | hpre
      · by_cases hok : r.isOk = ok
        · exact absurd (hok ▸ hreached) hnew
        · exact absurd hreached (not_reached_other hthreshold hok)
      · obtain ⟨ok', hlast⟩ := ih hpre
        exact ⟨ok', (lastReached_concat hthreshold _ _ _).mpr (by rwa [if_neg hnew])⟩

/-- RUN: the status is that of the last run that reached its threshold. -/
theorem status_iff_lastReached (hthreshold : ∀ ok, 1 ≤ thresholdOf up down ok)
    (hlength : results.length < 2 ^ 32) :
    (∀ ok, (probe up down results).status = statusOf ok ↔ LastReached up down ok results) ∧
      ((probe up down results).status = .unknown ↔ ∀ ok, ¬ LastReached up down ok results) := by
  induction results using List.reverseRecOn with
  | nil =>
    have hnone : ∀ ok, ¬ LastReached up down ok [] := by
      rintro ok ⟨upto, hupto, hreached, -⟩
      rw [List.prefix_nil.mp hupto] at hreached
      exact Nat.not_succ_le_zero 0 ((hthreshold ok).trans hreached)
    refine ⟨fun ok => iff_of_false ?_ (hnone ok), iff_of_true rfl hnone⟩
    change HealthStatus.unknown ≠ statusOf ok
    cases ok <;> decide
  | append_singleton results r ih =>
    have hshort : results.length < 2 ^ 32 := by simp at hlength; omega
    obtain ⟨hstatus, hunknown⟩ := ih hshort
    obtain ⟨hsuccess, hfailure⟩ := @counters_eq up down results hshort
    obtain ⟨-, -, hnew⟩ := probe_concat hlength hsuccess hfailure
    simp only [lastReached_concat hthreshold]
    rw [hnew]
    split_ifs with hreached
    · cases r.isOk <;> simp [statusOf]
    · exact ⟨hstatus, hunknown⟩

/-- CORRECT: the recorded status is healthy or unhealthy by the most recent run of equal results
    that reached its threshold, and unknown as long as no run has. -/
theorem status_is_last_run_at_threshold (hup : 1 ≤ up) (hdown : 1 ≤ down)
    {results : List (Except String String)} (hlength : results.length < 2 ^ 32) :
    ((probe up down results).status = .healthy ↔ LastReached up down true results) ∧
      ((probe up down results).status = .unhealthy ↔ LastReached up down false results) ∧
      ((probe up down results).status = .unknown ↔
        ∀ ok upto, upto <+: results → ¬ Reached up down ok upto) := by
  have hthreshold : ∀ ok, 1 ≤ thresholdOf up down ok := by
    intro ok
    cases ok
    · exact hdown
    · exact hup
  obtain ⟨hstatus, hunknown⟩ := status_iff_lastReached hthreshold hlength
  refine ⟨hstatus true, hstatus false, hunknown.trans ⟨fun hnone ok upto hupto hreached => ?_, ?_⟩⟩
  · obtain ⟨ok', hlast⟩ := lastReached_of_reached hupto hreached hthreshold
    exact hnone ok' hlast
  · rintro hnone ok ⟨upto, hupto, hreached, -⟩
    exact hnone ok upto hupto hreached

theorem one_le_threshold (spec : Option ℕ) : 1 ≤ threshold spec := by
  cases spec <;> grind [threshold]

/-- A spec that leaves both thresholds open asks for three results of a kind. -/
theorem status_after_three_successes :
    (probe (threshold (some 0)) (threshold none)
      [.ok "up", .error "down", .ok "up", .ok "up", .ok "up", .error "down"]).status = .healthy :=
  (status_is_last_run_at_threshold (one_le_threshold _) (one_le_threshold _) (by decide)).1.mpr
    ⟨[.ok "up", .error "down", .ok "up", .ok "up", .ok "up"], ⟨[.error "down"], rfl⟩,
      by unfold Reached; decide, by
        intro later hlater hlt
        have hall := hlater.eq_of_length_le hlt
        rw [hall]
        unfold Reached
        decide⟩

end Ekafleet.Agent.Health
