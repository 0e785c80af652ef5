import Mathlib.Tactic

/-! Replaying a log over a state that knows how much of it has been applied.

    A state has a position in the log, and carrying out a command moves it there. What is compared
    is a view of the state, on which a command has the same effect wherever it is carried out. A
    replay skips the entries at or below the position, so it may start anywhere before the first
    one that is missing: the view is then that of the whole log. -/

/-- States with a position, and commands with an effect on the view. -/
structure Replayable (σ κ α : Type) where
  position : σ → ℕ
  act : σ → ℕ → κ → σ
  view : σ → α
  effect : α → κ → α
  position_act : ∀ s i c, position (act s i c) = i
  view_act : ∀ s i c, view (act s i c) = effect (view s) c

namespace Replayable
variable {σ κ α : Type} (R : Replayable σ κ α)

/-- Carry out a command at the next position. -/
def next (s : σ) (c : κ) : σ := R.act s (R.position s + 1) c

/-- Carry out an entry unless it is at or below the position. -/
def guarded (s : σ) (e : ℕ × κ) : σ := if e.1 ≤ R.position s then s else R.act s e.1 e.2

theorem position_nexts (s : σ) (log : List κ) :
    R.position (log.foldl R.next s) = R.position s + log.length := by
  induction log generalizing s with
  | nil => rfl
  | cons c log ih =>
    rw [List.foldl_cons, ih, next, R.position_act, List.length_cons]
    omega

theorem view_nexts (s : σ) (log : List κ) :
    R.view (log.foldl R.next s) = log.foldl R.effect (R.view s) := by
  induction log generalizing s with
  | nil => rfl
  | cons c log ih => rw [List.foldl_cons, ih, next, R.view_act, List.foldl_cons]

/-- The entries above position `k` are those of the log, in order and without a gap. -/
structure Covers (log : List κ) (k : ℕ) (entries : List (ℕ × κ)) : Prop where
  sorted : entries.Pairwise fun e e' => e.1 ≤ e'.1
  faithful : ∀ e ∈ entries, k < e.1 → log[e.1 - 1]? = some e.2
  complete : ∀ i, k < i → i ≤ log.length → ∃ e ∈ entries, e.1 = i

variable {log : List κ} {k : ℕ} {e : ℕ × κ} {entries : List (ℕ × κ)}

theorem Covers.head_eq (h : Covers log k (e :: entries)) (hlt : k < e.1) : e.1 = k + 1 := by
  have hin : e.1 - 1 < log.length :=
    (List.getElem?_eq_some_iff.mp (h.faithful e (List.mem_cons_self) hlt)).1
  obtain ⟨e', he', hindex⟩ := h.complete (k + 1) (by omega) (by omega)
  rcases List.mem_cons.mp he' with rfl | he'
  · exact hindex
  · have hle := (List.pairwise_cons.mp h.sorted).1 e' he'
    omega

theorem Covers.tail {k' : ℕ} (h : Covers log k (e :: entries)) (hk : k ≤ k') (he : e.1 ≤ k') :
    Covers log k' entries := by
  refine ⟨(List.pairwise_cons.mp h.sorted).2, ?_, ?_⟩
  · intro e' he' hlt
    exact h.faithful e' (List.mem_cons_of_mem _ he') (by omega)
  · intro i hlt hle
    obtain ⟨e', he', hindex⟩ := h.complete i (by omega) hle
    grind

/-- CORRECT: from a state at position `k`, entries that cover the log above `k` lead to the end of
    the log and have the effect of the commands after the first `k`. -/
theorem replay_covers (h : Covers log k entries) (hk : k ≤ log.length) {s : σ}
    (hs : R.position s = k) :
    R.position (entries.foldl R.guarded s) = log.length ∧
      R.view (entries.foldl R.guarded s) = (log.drop k).foldl R.effect (R.view s) := by
  induction entries generalizing s k with
  | nil =>
    have hend : k = log.length := by
      by_contra hne
      obtain ⟨e, he, -⟩ := h.complete (k + 1) (by omega) (by omega)
      exact List.not_mem_nil he
    subst hend
    rw [List.drop_length]
    exact ⟨hs, rfl⟩
  | cons e entries ih =>
    rw [List.foldl_cons, guarded, hs]
    by_cases hle : e.1 ≤ k
    · rw [if_pos hle]
      exact ih (h.tail le_rfl hle) hk hs
    · have hindex := h.head_eq (by omega)
      have hlog := h.faithful e (List.mem_cons_self) (by omega)
      rw [hindex, Nat.add_sub_cancel] at hlog
      obtain ⟨hlt, hget⟩ := List.getElem?_eq_some_iff.mp hlog
      rw [if_neg hle, hindex, List.drop_eq_getElem_cons hlt, List.foldl_cons, hget, ← R.view_act]
      exact ih (h.tail (Nat.le_succ k) hindex.le) hlt (R.position_act _ _ _)

end Replayable
