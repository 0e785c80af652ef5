import Ekafleet.Agent.Activation

/-! Repeated rollbacks | source: agent/activation.rs

    A rollback activates the generation before the newest one, and like every activation it adds a
    generation. The generation before the newest is then the one that was rolled back from, so that
    a second rollback undoes the first. -/

namespace Ekafleet.Agent.Activation
open Effect

/-! ### Numbers of generations -/

theorem generationNumber_linkName {n : ℕ} (h : n < 2 ^ 64) :
    generationNumber (linkName n) = some n := by
  have hdigits : Text.padded 0 n = toString n := by
    simp only [Text.padded, List.leftpad, Nat.zero_sub, List.replicate_zero, List.nil_append,
      String.ofList_toList]
  rw [generationNumber, linkName, String.append_assoc, Text.stripPrefix_append, Option.bind_some,
    Text.stripSuffix_append, Option.bind_some, ← hdigits, Text.parseUnsigned_padded h]

theorem linkName_ne {m n : ℕ} (hm : m < 2 ^ 64) (hn : n < 2 ^ 64) (h : m ≠ n) :
    linkName m ≠ linkName n := by
  intro heq
  have hnumber := congrArg generationNumber heq
  rw [generationNumber_linkName hm, generationNumber_linkName hn] at hnumber
  exact h (Option.some.inj hnumber)

theorem le_foldl_max : ∀ (l : List ℕ) (a : ℕ), a ≤ l.foldl max a ∧ ∀ x ∈ l, x ≤ l.foldl max a
  | [], a => ⟨le_refl a, fun _ hx => absurd hx List.not_mem_nil⟩
  | x :: l, a => by
    obtain ⟨hacc, hall⟩ := le_foldl_max l (max a x)
    grind

theorem foldl_max_of_le : ∀ {l : List ℕ} {a : ℕ}, (∀ x ∈ l, x ≤ a) → l.foldl max a = a
  | [], _, _ => rfl
  | x :: l, a, h => by
    obtain ⟨hx, hl⟩ := List.forall_mem_cons.mp h
    rw [List.foldl_cons, max_eq_left hx, foldl_max_of_le hl]

theorem le_maxGeneration {s : SystemState} {name : String} {n : ℕ} (hname : name ∈ s.profiles.keys)
    (hn : generationNumber name = some n) : n ≤ maxGeneration s :=
  (le_foldl_max _ 0).2 n (List.mem_filterMap.mpr ⟨name, hname, hn⟩)

theorem maxGeneration_withGeneration {s : SystemState} (h : maxGeneration s + 1 < 2 ^ 64)
    (toplevel : String) : maxGeneration (withGeneration toplevel s) = maxGeneration s + 1 := by
  rw [maxGeneration, withGeneration, AList.keys_insert,
    List.filterMap_cons_some (generationNumber_linkName h), List.foldl_cons, Nat.zero_max]
  refine foldl_max_of_le fun n hn => ?_
  obtain ⟨name, hname, hnumber⟩ := List.mem_filterMap.mp hn
  exact (le_maxGeneration (List.mem_of_mem_erase hname) hnumber).trans (Nat.le_succ _)

/-! ### One switch -/

/-- The newest generation is the current system. -/
structure AtNewest (s : SystemState) (path : String) : Prop where
  numbered : maxGeneration s < 2 ^ 64
  positive : 0 < maxGeneration s
  newest : s.profiles.lookup (linkName (maxGeneration s)) = some path
  current : s.currentSystem = some path
  present : s.present path = true

/-- As before, and the generation before the newest is known. -/
structure AfterTwo (s : SystemState) (previous path : String) : Prop extends AtNewest s path where
  second : 1 < maxGeneration s
  before : s.profiles.lookup (linkName (maxGeneration s - 1)) = some previous
  beforePresent : s.present previous = true

section Switch
variable {p : Programs} {script : Option String} {toplevel previous path : String}
  {s s' : SystemState} {r : ActivationResult}

theorem AtNewest.path_eq (h : AtNewest s path) : currentSystemPath s = some path := by
  rw [currentSystemPath, h.current, Option.any_some, if_pos h.present]

theorem switch_ok (helse : currentSystemPath s ≠ some toplevel)
    (h : activateSystem p ⟨toplevel, script, .switch, none⟩ s = (.ok r, s')) :
    r.toplevel = toplevel ∧ s.present toplevel = true ∧ maxGeneration s + 1 < 2 ^ 64 ∧
      s' = relinkCurrentSystem p toplevel
        (withRunning .switch (some toplevel) (withGeneration toplevel s)) := by
  have hattempts := attempts_of_ok h helse
  rw [activateSystem_of_attempts hattempts] at h
  rcases applyActivation_cases p ⟨toplevel, script, .switch, none⟩ (currentSystemPath s) s with
    ⟨-, e, hrun⟩ | ⟨-, -, e, running, hrun⟩ | ⟨hset, -, s₁, hrun, -, heq⟩
  · rw [hrun] at h
    cases h
  · rw [hrun] at h
    cases h
  · rw [hrun] at h
    cases h
    exact ⟨rfl, hattempts.toplevel, hset.1, heq rfl⟩

/-- STEP: a switch whose link was made leaves its path the newest generation. -/
theorem atNewest_switch (helse : currentSystemPath s ≠ some toplevel)
    (h : activateSystem p ⟨toplevel, script, .switch, none⟩ s = (.ok r, s'))
    (hlink : s'.currentSystem = some toplevel) : AtNewest s' toplevel := by
  obtain ⟨-, hpresent, hnumber, rfl⟩ := switch_ok helse h
  have hmax := maxGeneration_withGeneration hnumber toplevel
  refine ⟨?_, ?_, ?_, hlink, hpresent⟩
  · exact hmax ▸ hnumber
  · exact hmax ▸ Nat.succ_pos _
  · change (withGeneration toplevel s).profiles.lookup
      (linkName (maxGeneration (withGeneration toplevel s))) = _
    rw [hmax]
    exact AList.lookup_insert _

/-- STEP: a second switch knows the generation before its own. -/
theorem AtNewest.switch (hs : AtNewest s path) (helse : currentSystemPath s ≠ some toplevel)
    (h : activateSystem p ⟨toplevel, script, .switch, none⟩ s = (.ok r, s'))
    (hlink : s'.currentSystem = some toplevel) : AfterTwo s' path toplevel := by
  have hnewest := atNewest_switch helse h hlink
  obtain ⟨-, -, hnumber, rfl⟩ := switch_ok helse h
  have hmax := maxGeneration_withGeneration hnumber toplevel
  refine { hnewest with second := ?_, before := ?_, beforePresent := hs.present }
  · change 1 < maxGeneration (withGeneration toplevel s)
    rw [hmax]
    exact Nat.succ_lt_succ hs.positive
  · change (withGeneration toplevel s).profiles.lookup
      (linkName (maxGeneration (withGeneration toplevel s) - 1)) = _
    rw [hmax, Nat.add_sub_cancel]
    refine (AList.lookup_insert_ne (linkName_ne hs.numbered hnumber ?_)).trans hs.newest
    exact Nat.ne_of_lt (Nat.lt_succ_self _)

theorem AfterTwo.previous_eq (hs : AfterTwo s previous path) :
    previousGenerationPath s = some previous := by
  have hcurrent : currentGeneration s = some (maxGeneration s) := if_pos hs.positive
  rw [previousGenerationPath, hcurrent, Option.getD_some]
  simp only [if_neg (Nat.not_le.mpr hs.second), hs.before, Option.filter_some, hs.beforePresent,
    if_true]

/-- STEP: a rollback that returned exchanges the two newest generations. -/
theorem AfterTwo.exchange (hs : AfterTwo s previous path) (hne : previous ≠ path)
    (h : rollback p script s = (.ok r, s')) (hlink : s'.currentSystem = some r.toplevel) :
    AfterTwo s' path previous := by
  have hactivate : activateSystem p ⟨previous, script, .switch, none⟩ s = (.ok r, s') := by
    simpa only [rollback, bind_apply, Effect.read, hs.previous_eq] using h
  have helse : currentSystemPath s ≠ some previous := by
    rw [hs.path_eq]
    exact fun heq => hne (Option.some.inj heq).symm
  rw [(switch_ok helse hactivate).1] at hlink
  exact hs.toAtNewest.switch helse hactivate hlink

end Switch

/-! ### Histories -/

/-- Successive activations with the action `switch` and no pruning: each of them finds the system at
    another path, returns, and leaves the link of the current system at its own. -/
inductive Switched (s₀ : SystemState) : List String → SystemState → Prop
  | nil : Switched s₀ [] s₀
  | concat {paths : List String} {s s' : SystemState} {p : Programs} {script : Option String}
      {toplevel : String} {r : ActivationResult} (before : Switched s₀ paths s)
      (elsewhere : currentSystemPath s ≠ some toplevel)
      (returned : activateSystem p ⟨toplevel, script, .switch, none⟩ s = (.ok r, s'))
      (linked : s'.currentSystem = some toplevel) : Switched s₀ (paths ++ [toplevel]) s'

/-- Successive rollbacks that return and leave the link of the current system where they went. -/
inductive RolledBack (s : SystemState) : ℕ → SystemState → Prop
  | zero : RolledBack s 0 s
  | succ {k : ℕ} {m s' : SystemState} {p : Programs} {script : Option String}
      {r : ActivationResult} (before : RolledBack s k m)
      (returned : rollback p script m = (.ok r, s'))
      (linked : s'.currentSystem = some r.toplevel) : RolledBack s (k + 1) s'

section Histories
variable {s₀ s s' : SystemState} {paths : List String} {previous path : String} {k : ℕ}

theorem Switched.atNewest (h : Switched s₀ (paths ++ [path]) s) : AtNewest s path := by
  generalize hall : paths ++ [path] = all at h
  cases h with
  | nil => exact absurd hall (by simp)
  | concat before elsewhere returned linked =>
    obtain ⟨-, hlast⟩ := List.append_inj' hall rfl
    cases hlast
    exact atNewest_switch elsewhere returned linked

theorem Switched.afterTwo (h : Switched s₀ (paths ++ [previous, path]) s) :
    AfterTwo s previous path := by
  generalize hall : paths ++ [previous, path] = all at h
  cases h with
  | nil => exact absurd hall (by simp)
  | concat before elsewhere returned linked =>
    obtain ⟨hinit, hlast⟩ :=
      List.append_inj' ((List.append_assoc paths [previous] [path]).trans hall)
      rfl
    cases hlast
    subst hinit
    exact before.atNewest.switch elsewhere returned linked

/-- RUN: rollbacks go back and forth between the two newest generations. -/
theorem RolledBack.exchanges (hs : AfterTwo s previous path) (hne : previous ≠ path)
    (h : RolledBack s k s') :
    if Even k then AfterTwo s' previous path else AfterTwo s' path previous := by
  induction h with
  | zero => simpa using hs
  | succ before returned linked ih =>
    rename_i k m s' p script r
    by_cases heven : Even k
    · rw [if_pos heven] at ih
      rw [if_neg (by rwa [Nat.even_add_one, not_not])]
      exact ih.exchange hne returned linked
    · rw [if_neg heven] at ih
      rw [if_pos (by rwa [Nat.even_add_one])]
      exact ih.exchange hne.symm returned linked

end Histories

/-- EXACT: after a history of switches to different paths, a number of rollbacks leads to the path
    of that many switches ago only when it is at most one. -/
theorem rollbacks_reach_iff (s₀ s s' : SystemState) (paths : List String) (k : ℕ)
    (hdistinct : paths.Nodup) (hk : k < paths.length) (hswitched : Switched s₀ paths s)
    (hrolled : RolledBack s k s') :
    currentSystemPath s' = paths[paths.length - 1 - k]? ↔ k ≤ 1 := by
  rcases List.eq_nil_or_concat' paths with rfl | ⟨init, path, rfl⟩
  · exact absurd hk (by simp)
  rcases Nat.eq_zero_or_pos k with rfl | hpos
  · -- without a rollback the system is where the last switch left it
    cases hrolled
    simp [hswitched.atNewest.path_eq]
  · obtain ⟨older, previous, rfl⟩ : ∃ older previous, init = older ++ [previous] := by
      rcases List.eq_nil_or_concat' init with rfl | hinit
      · simp at hk
        omega
      · exact hinit
    rw [List.append_assoc, List.singleton_append] at hdistinct hswitched hk ⊢
    obtain ⟨-, hlast, hapart⟩ := List.nodup_append.mp hdistinct
    have hne : previous ≠ path := by simpa using hlast
    have hexchanges := hrolled.exchanges hswitched.afterTwo hne
    have hlength : (older ++ [previous, path]).length = older.length + 2 := by simp
    rw [hlength] at hk ⊢
    by_cases hone : k = 1
    · subst hone
      rw [if_neg (by decide)] at hexchanges
      simp [hexchanges.path_eq]
    · -- the path asked for is older than both that the system goes between
      have hindex : older.length + 2 - 1 - k < older.length := by omega
      have hget : (older ++ [previous, path])[older.length + 2 - 1 - k]? =
          some older[older.length + 2 - 1 - k] := by
        rw [List.getElem?_append_left hindex, List.getElem?_eq_getElem hindex]
      have hother := hapart _ (List.getElem_mem hindex)
      rw [hget]
      refine iff_of_false (fun heq => ?_) (by omega)
      split_ifs at hexchanges
      · exact hother path (by simp) (Option.some.inj (hexchanges.path_eq.symm.trans heq)).symm
      · exact hother previous (by simp) (Option.some.inj (hexchanges.path_eq.symm.trans heq)).symm

/-! ### Three switches on one system -/

def switchTo (toplevel : String) (s : SystemState) : SystemState :=
  (activateSystem {} ⟨toplevel, none, .switch, none⟩ s).2

def rollbackOnce (s : SystemState) : SystemState := (rollback {} none s).2

def afterThreeSwitches : SystemState :=
  switchTo "/nix/store/d" (switchTo "/nix/store/c" (switchTo "/nix/store/b" firstBoot))

theorem Switched.andTo {s₀ s : SystemState} {paths : List String} (h : Switched s₀ paths s)
    (toplevel previous : String) (hprevious : currentSystemPath s = some previous)
    (hne : previous ≠ toplevel)
    (hok : (activateSystem {} ⟨toplevel, none, .switch, none⟩ s).1 =
      .ok ⟨toplevel, .switch, some previous⟩)
    (hlink : (switchTo toplevel s).currentSystem = some toplevel) :
    Switched s₀ (paths ++ [toplevel]) (switchTo toplevel s) := by
  refine h.concat ?_ (Prod.ext hok rfl) hlink
  rw [hprevious]
  exact fun heq => hne (Option.some.inj heq)

theorem RolledBack.andOnce {s s' : SystemState} {k : ℕ} (h : RolledBack s k s')
    (toplevel previous : String)
    (hok : (rollback {} none s').1 = .ok ⟨toplevel, .switch, some previous⟩)
    (hlink : (rollbackOnce s').currentSystem = some toplevel) :
    RolledBack s (k + 1) (rollbackOnce s') :=
  h.succ (Prod.ext hok rfl) hlink

theorem switched_three :
    Switched firstBoot ["/nix/store/b", "/nix/store/c", "/nix/store/d"] afterThreeSwitches :=
  ((Switched.nil.andTo "/nix/store/b" "/nix/store/a" (by decide +kernel) (by decide)
    (by decide +kernel) (by decide +kernel)).andTo "/nix/store/c" "/nix/store/b"
    (by decide +kernel) (by decide) (by decide +kernel) (by decide +kernel)).andTo "/nix/store/d"
    "/nix/store/c" (by decide +kernel) (by decide) (by decide +kernel) (by decide +kernel)

theorem rolledBack_one : RolledBack afterThreeSwitches 1 (rollbackOnce afterThreeSwitches) :=
  RolledBack.zero.andOnce "/nix/store/c" "/nix/store/d" (by decide +kernel) (by decide +kernel)

/-- One rollback leads to the switch before the last. -/
theorem rollbacks_reach_once :
    currentSystemPath (rollbackOnce afterThreeSwitches) = some "/nix/store/c" :=
  (rollbacks_reach_iff firstBoot afterThreeSwitches _ _ 1 (by decide) (by decide) switched_three
    rolledBack_one).mpr (Nat.le_refl 1)

/-- The second rollback leads back to the newest switch, not to the oldest. -/
theorem second_rollback_undoes_first :
    Switched firstBoot ["/nix/store/b", "/nix/store/c", "/nix/store/d"] afterThreeSwitches ∧
      RolledBack afterThreeSwitches 2 (rollbackOnce (rollbackOnce afterThreeSwitches)) ∧
      currentSystemPath (rollbackOnce (rollbackOnce afterThreeSwitches)) = some "/nix/store/d" ∧
      currentSystemPath (rollbackOnce (rollbackOnce afterThreeSwitches)) ≠ some "/nix/store/b" :=
  ⟨switched_three, rolledBack_one.andOnce "/nix/store/d" "/nix/store/c" (by decide +kernel)
    (by decide +kernel), by decide +kernel, by decide +kernel⟩

end Ekafleet.Agent.Activation
