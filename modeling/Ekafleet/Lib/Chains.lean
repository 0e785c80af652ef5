import Mathlib.Tactic

/-! Chains of a relation, and the elements from which a cycle can be reached.

    `r a b` is one step down from `a` to `b`. Where no cycle is reachable an element has a level,
    the length of its longest chain; a finite set that every step down can stay in has a cycle below
    each of its elements. -/

namespace Chains
open Relation

variable {α : Type*} (r : α → α → Prop)

/-- There is a chain of `n` steps down from `a`. -/
def Chain : ℕ → α → Prop
  | 0, _ => True
  | n + 1, a => ∃ b, r a b ∧ Chain n b

/-- The longest chain down from `a` has `n` steps. -/
def Level (n : ℕ) (a : α) : Prop := Chain r n a ∧ ¬ Chain r (n + 1) a

/-- A cycle can be reached from `a`. -/
def ReachesCycle (a : α) : Prop := ∃ b, ReflTransGen r a b ∧ TransGen r b b

variable {r}

theorem Chain.of_succ {n : ℕ} {a : α} (h : Chain r (n + 1) a) : Chain r n a := by
  induction n generalizing a with
  | zero => trivial
  | succ n ih =>
    obtain ⟨b, hab, hb⟩ := h
    exact ⟨b, hab, ih hb⟩

theorem Chain.mono {m n : ℕ} {a : α} (h : Chain r n a) (hle : m ≤ n) : Chain r m a := by
  induction hle with
  | refl => exact h
  | step _ ih => exact ih h.of_succ

theorem Chain.le {n : ℕ} {a : α} (h : Chain r n a) {number : α → ℕ}
    (hnumber : ∀ b c, ReflTransGen r a b → r b c → number c < number b) : n ≤ number a := by
  induction n generalizing a with
  | zero => exact Nat.zero_le _
  | succ n ih =>
    obtain ⟨b, hab, hb⟩ := h
    have hbelow : n ≤ number b := ih hb fun c d hbc hcd => hnumber c d (hbc.head hab) hcd
    exact hbelow.trans_lt (hnumber a b .refl hab)

theorem ReachesCycle.step {a : α} (h : ReachesCycle r a) : ∃ b, r a b ∧ ReachesCycle r b := by
  obtain ⟨c, hac, hcycle⟩ := h
  rcases hac.cases_head with rfl | ⟨b, hab, hbc⟩
  · obtain ⟨b, hab, hba⟩ := TransGen.head'_iff.mp hcycle
    exact ⟨b, hab, a, hba, hcycle⟩
  · exact ⟨b, hab, c, hbc, hcycle⟩

theorem ReachesCycle.chain {a : α} (h : ReachesCycle r a) (n : ℕ) : Chain r n a := by
  induction n generalizing a with
  | zero => trivial
  | succ n ih =>
    obtain ⟨b, hab, hb⟩ := h.step
    exact ⟨b, hab, ih hb⟩

theorem reachesCycle_of_finite {s : Set α} (hs : s.Finite) (hstep : ∀ a ∈ s, ∃ b ∈ s, r a b) {a : α}
    (ha : a ∈ s) : ReachesCycle r a := by
  choose! next hmem hnext using hstep
  have hin : ∀ n, next^[n] a ∈ s := by
    intro n
    induction n with
    | zero => exact ha
    | succ n ih =>
      rw [Function.iterate_succ_apply']
      exact hmem _ ih
  have hone : ∀ n, r (next^[n] a) (next^[n + 1] a) := by
    intro n
    rw [Function.iterate_succ_apply']
    exact hnext _ (hin n)
  have hpath : ∀ m n, ReflTransGen r (next^[m] a) (next^[m + n] a) := by
    intro m n
    induction n with
    | zero => exact .refl
    | succ n ih => exact ih.tail (hone _)
  -- the walk stays in a finite set, so it comes back to where it was
  have := hs.to_subtype
  obtain ⟨m, n, hne, heq⟩ := Finite.exists_ne_map_eq_of_infinite
    fun n => (⟨next^[n] a, hin n⟩ : s)
  have heq : next^[m] a = next^[n] a := congrArg Subtype.val heq
  have hcycle : ∀ {m n}, m < n → next^[m] a = next^[n] a → ReachesCycle r a := by
    intro m n hlt heq
    obtain ⟨d, rfl⟩ := Nat.exists_eq_add_of_lt hlt
    have hreach := hpath 0 m
    rw [Nat.zero_add] at hreach
    refine ⟨next^[m] a, hreach, ?_⟩
    have hround := TransGen.head' (hone m) (hpath (m + 1) d)
    rwa [show m + 1 + d = m + d + 1 by omega, ← heq] at hround
  rcases Nat.lt_or_gt_of_ne hne with hlt | hlt
  · exact hcycle hlt heq
  · exact hcycle hlt heq.symm

end Chains
