import Mathlib.Tactic

/-! Maps whose entries carry versions, joined by keeping the newer entry.

    On entries whose version identifies them, the join is commutative, associative and idempotent,
    and two maps that both absorb the other are equal. -/

namespace LastWriter
variable {ι α : Type*} (version : α → ℕ)

/-- The entry with the higher version; the first one if they have the same. -/
def newer : Option α → Option α → Option α
  | none, b => b
  | some a, none => some a
  | some a, some b => if version a < version b then some b else some a

def join (f g : ι → Option α) : ι → Option α := fun i => newer version (f i) (g i)

/-- Entries of two maps at one index that have the same version are the same. -/
def Coherent (f g : ι → Option α) : Prop :=
  ∀ i a b, f i = some a → g i = some b → version a = version b → a = b

variable {version}

@[simp] theorem newer_none_right (a : Option α) : newer version a none = a := by
  cases a <;> rfl

@[simp] theorem newer_none_left (b : Option α) : newer version none b = b := rfl

@[simp] theorem newer_self (a : Option α) : newer version a a = a := by
  cases a with
  | none => rfl
  | some a => exact if_neg (lt_irrefl _)

theorem newer_comm {a b : Option α}
    (h : ∀ x y, a = some x → b = some y → version x = version y → x = y) :
    newer version a b = newer version b a := by
  cases a with
  | none => rw [newer_none_right, newer_none_left]
  | some x => cases b with
    | none => rfl
    | some y =>
      simp only [newer]
      rcases lt_trichotomy (version x) (version y) with hlt | heq | hgt
      · rw [if_pos hlt, if_neg hlt.asymm]
      · rw [h x y rfl rfl heq]
      · rw [if_neg hgt.asymm, if_pos hgt]

theorem newer_assoc (a b c : Option α) :
    newer version (newer version a b) c = newer version a (newer version b c) := by
  cases a with
  | none => rfl
  | some x => cases b with
    | none => rfl
    | some y => cases c with
      | none => rw [newer_none_right, newer_none_right]
      | some z =>
        by_cases hxy : version x < version y <;> by_cases hyz : version y < version z <;>
          by_cases hxz : version x < version z <;> simp [newer, hxy, hyz, hxz]
        all_goals omega

theorem join_self (f : ι → Option α) : join version f f = f := by
  funext i
  exact newer_self (f i)

theorem join_assoc (f g h : ι → Option α) :
    join version (join version f g) h = join version f (join version g h) := by
  funext i
  exact newer_assoc (f i) (g i) (h i)

theorem join_comm {f g : ι → Option α} (h : Coherent version f g) :
    join version f g = join version g f := by
  funext i
  exact newer_comm (h i)

theorem eq_of_join_eq {f g : ι → Option α} (h : Coherent version f g)
    (hf : join version f g = f) (hg : join version g f = g) : f = g :=
  hf.symm.trans ((join_comm h).trans hg)

end LastWriter
