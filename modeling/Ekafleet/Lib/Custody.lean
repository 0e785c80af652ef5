import Mathlib.Tactic

/-! Custody of tokens.

    Tokens are issued one after the other and numbered. A token is held at one place, can move to
    another one, be spent where it is held, or be lost. Whatever the order of these steps, no token
    is at two places, none comes back after it was spent, and none is spent twice. -/

namespace Custody

variable {H : Type}

/-- Who holds which ticket, how many were issued, and which are spent. -/
structure State (H : Type) where
  holds : H → Option ℕ
  issued : ℕ
  spent : List ℕ

/-- What may happen to tokens. What is held at the place a token comes to is lost. -/
inductive Step [DecidableEq H] : State H → State H → Prop
  | issue {s : State H} (h : H) :
      Step s { s with holds := Function.update s.holds h (some s.issued), issued := s.issued + 1 }
  | move {s : State H} (src dst : H) : Step s { s with
      holds := Function.update (Function.update s.holds src none) dst (s.holds src) }
  | spend {s : State H} {h : H} {n : ℕ} (hn : s.holds h = some n) :
      Step s { s with holds := Function.update s.holds h none, spent := s.spent ++ [n] }
  | lose {s : State H} (h : H) : Step s { s with holds := Function.update s.holds h none }

/-- A ticket is held by one at most, and not after it is spent. -/
structure Sound (s : State H) : Prop where
  held_lt : ∀ {h n}, s.holds h = some n → n < s.issued
  held_not_spent : ∀ {h n}, s.holds h = some n → n ∉ s.spent
  one_place : ∀ {h h' n}, s.holds h = some n → s.holds h' = some n → h = h'
  spent_lt : ∀ n ∈ s.spent, n < s.issued
  nodup : s.spent.Nodup

theorem Sound.init : Sound (⟨fun _ => none, 0, []⟩ : State H) where
  held_lt h := by cases h
  held_not_spent h := by cases h
  one_place h := by cases h
  spent_lt n hn := absurd hn List.not_mem_nil
  nodup := List.nodup_nil

variable [DecidableEq H]

theorem holds_of_emptied {holds : H → Option ℕ} {h h' : H} {n : ℕ}
    (hn : Function.update holds h none h' = some n) : h' ≠ h ∧ holds h' = some n := by
  grind

theorem Sound.emptied {s : State H} (hs : Sound s) (h : H) :
    Sound { s with holds := Function.update s.holds h none } where
  held_lt hn := hs.held_lt (holds_of_emptied hn).2
  held_not_spent hn := hs.held_not_spent (holds_of_emptied hn).2
  one_place hn hn' := hs.one_place (holds_of_emptied hn).2 (holds_of_emptied hn').2
  spent_lt := hs.spent_lt
  nodup := hs.nodup

theorem Sound.put {s : State H} (hs : Sound s) (h : H) {n : ℕ} (hlt : n < s.issued)
    (hspent : n ∉ s.spent) (hnowhere : ∀ h', s.holds h' ≠ some n) :
    Sound { s with holds := Function.update s.holds h (some n) } := by
  have hcases : ∀ {h' m}, Function.update s.holds h (some n) h' = some m →
      (h' = h ∧ m = n) ∨ s.holds h' = some m := by
    grind
  refine ⟨fun hm => ?_, fun hm => ?_, fun hm hm' => ?_, hs.spent_lt, hs.nodup⟩
  · rcases hcases hm with ⟨-, rfl⟩ | hm
    · exact hlt
    · exact hs.held_lt hm
  · rcases hcases hm with ⟨-, rfl⟩ | hm
    · exact hspent
    · exact hs.held_not_spent hm
  · rcases hcases hm with ⟨rfl, rfl⟩ | hheld
    · grind
    · rcases hcases hm' with ⟨rfl, rfl⟩ | hheld'
      · exact absurd hheld (hnowhere _)
      · exact hs.one_place hheld hheld'

/-- STEP: every step keeps custody sound. -/
theorem Sound.step {s s' : State H} (hs : Sound s) (hstep : Step s s') : Sound s' := by
  cases hstep with
  | issue h =>
    have hmore : Sound { s with issued := s.issued + 1 } :=
      ⟨fun hn => Nat.lt_succ_of_lt (hs.held_lt hn), hs.held_not_spent, hs.one_place,
        fun n hn => Nat.lt_succ_of_lt (hs.spent_lt n hn), hs.nodup⟩
    refine hmore.put h (Nat.lt_succ_self _) (fun hspent => ?_) fun h' hheld => ?_
    · exact absurd (hs.spent_lt _ hspent) (Nat.lt_irrefl _)
    · exact absurd (hs.held_lt hheld) (Nat.lt_irrefl _)
  | move src dst =>
    rcases hsrc : s.holds src with _ | n
    · exact (hs.emptied src).emptied dst
    · refine (hs.emptied src).put dst (hs.held_lt hsrc) (hs.held_not_spent hsrc) fun h' hheld => ?_
      obtain ⟨hne, hheld⟩ := holds_of_emptied hheld
      exact hne (hs.one_place hheld hsrc)
  | @spend h n hn =>
    have hempty := hs.emptied h
    refine ⟨hempty.held_lt, fun {h' m} hm => ?_, hempty.one_place, fun m hm => ?_, ?_⟩
    · obtain ⟨hne, hheld⟩ := holds_of_emptied hm
      intro hspent
      rcases List.mem_append.mp hspent with hspent | hspent
      · exact hs.held_not_spent hheld hspent
      · obtain rfl := List.mem_singleton.mp hspent
        exact hne (hs.one_place hheld hn)
    · rcases List.mem_append.mp hm with hm | hm
      · exact hs.spent_lt m hm
      · rw [List.mem_singleton.mp hm]
        exact hs.held_lt hn
    · refine List.nodup_append.mpr ⟨hs.nodup, List.nodup_singleton n, fun a ha b hb => ?_⟩
      rw [List.mem_singleton.mp hb]
      rintro rfl
      exact hs.held_not_spent hn ha
  | lose h => exact hs.emptied h

end Custody
