import Mathlib.Tactic

/-! Sorting in two parts.

    If every element above a cut has to come before every element below it, then sorting a list is
    sorting the part above and then the part below. Elements below the cut have no influence on how
    those above are ordered. -/

namespace Sorting

variable {α : Type} {r : α → α → Prop} [DecidableRel r]

theorem orderedInsert_append_left {a : α} {above below : List α} (h : ∀ b ∈ below, r a b) :
    (above ++ below).orderedInsert r a = above.orderedInsert r a ++ below := by
  induction above with
  | nil =>
    cases below with
    | nil => rfl
    | cons b below => simp [h b List.mem_cons_self]
  | cons x above ih =>
    by_cases hx : r a x
    · simp [List.orderedInsert, hx]
    · simp [List.orderedInsert, hx, ih]

theorem orderedInsert_append_right {a : α} {above below : List α} (h : ∀ x ∈ above, ¬ r a x) :
    (above ++ below).orderedInsert r a = above ++ below.orderedInsert r a := by
  induction above with
  | nil => rfl
  | cons x above ih =>
    obtain ⟨hx, habove⟩ := List.forall_mem_cons.mp h
    simp [hx, ih habove]

theorem insertionSort_split {high : α → Bool}
    (hbefore : ∀ a b, high a = true → high b = false → r a b ∧ ¬ r b a) (l : List α) :
    l.insertionSort r =
      (l.filter high).insertionSort r ++ (l.filter fun a => !high a).insertionSort r := by
  induction l with
  | nil => rfl
  | cons a l ih =>
    rw [List.insertionSort_cons, ih]
    rcases ha : high a with _ | _
    · rw [List.filter_cons_of_neg (by simp [ha]), List.filter_cons_of_pos (by simp [ha]),
        List.insertionSort_cons]
      refine orderedInsert_append_right fun x hx => ?_
      have hhigh := (List.mem_filter.mp ((List.mem_insertionSort r).mp hx)).2
      exact (hbefore x a hhigh ha).2
    · rw [List.filter_cons_of_pos (by simp [ha]), List.filter_cons_of_neg (by simp [ha]),
        List.insertionSort_cons]
      refine orderedInsert_append_left fun b hb => ?_
      have hlow := (List.mem_filter.mp ((List.mem_insertionSort r).mp hb)).2
      exact (hbefore a b ha (by simpa using hlow)).1

end Sorting
