import Mathlib.Tactic

/-! Packing items with several resources into bins of bounded capacity.

    `load` is what the items in a bin demand together. A `Packing` is a list of items that fits:
    it carries the proof that no bin is loaded beyond its capacity in any resource, so an overfull
    one cannot be built, and `put` adds an item only where it fits. -/

variable {I B R : Type} [DecidableEq B]

/-- What the items in bin `b` demand of resource `r` together. -/
def load (bin : I → B) (demand : I → R → ℕ) (items : List I) (b : B) (r : R) : ℕ :=
  ((items.filter fun i => bin i = b).map (demand · r)).sum

/-- A list of items that fits into the bins. -/
structure Packing (bin : I → B) (demand : I → R → ℕ) (capacity : B → R → ℕ) where
  items : List I
  fits : ∀ b r, load bin demand items b r ≤ capacity b r

section Load
variable (bin : I → B) (demand : I → R → ℕ)

theorem load_concat_self (items : List I) (i : I) (r : R) :
    load bin demand (items ++ [i]) (bin i) r = load bin demand items (bin i) r + demand i r := by
  simp [load, List.filter_append]

theorem load_concat_ne (items : List I) {i : I} {b : B} (h : bin i ≠ b) (r : R) :
    load bin demand (items ++ [i]) b r = load bin demand items b r := by
  simp [load, List.filter_append, h]

end Load

namespace Packing
variable {bin : I → B} {demand : I → R → ℕ} {capacity : B → R → ℕ}

def empty : Packing bin demand capacity := ⟨[], fun _ _ => Nat.zero_le _⟩

/-- Add an item to a bin that has room for it. -/
def put (P : Packing bin demand capacity) (i : I)
    (room : ∀ r, load bin demand P.items (bin i) r + demand i r ≤ capacity (bin i) r) :
    Packing bin demand capacity where
  items := P.items ++ [i]
  fits b r := by
    by_cases h : bin i = b
    · subst h; rw [load_concat_self]; exact room r
    · rw [load_concat_ne bin demand _ h]; exact P.fits b r

end Packing
