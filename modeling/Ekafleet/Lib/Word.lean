import Mathlib.Tactic

/-! Fixed-width unsigned arithmetic with the overflow behaviour written out.

    `checkedAdd` is the addition of a build with overflow checks: it has a value exactly when the
    mathematical sum fits the width, and `none` stands for the panic. `saturatingSub` clamps at
    zero. Each operation has one lemma that reads it over the natural numbers. A word is written as
    its bytes, the lowest first, and read back. -/

namespace Word

/-- Addition on 64-bit words, `none` on overflow. -/
def checkedAdd (a b : UInt64) : Option UInt64 :=
  if a.toNat + b.toNat < 2 ^ 64 then some (a + b) else none

/-- Addition on 32-bit words, `none` on overflow. -/
def checkedAdd32 (a b : UInt32) : Option UInt32 :=
  if a.toNat + b.toNat < 2 ^ 32 then some (a + b) else none

/-- Subtraction clamped at zero. -/
def saturatingSub (a b : UInt64) : UInt64 := if b ≤ a then a - b else 0

/-- Subtraction clamped at zero. -/
def saturatingSub32 (a b : UInt32) : UInt32 := if b ≤ a then a - b else 0

theorem checkedAdd_of_lt {a b : UInt64} (h : a.toNat + b.toNat < 2 ^ 64) :
    ∃ c, checkedAdd a b = some c ∧ c.toNat = a.toNat + b.toNat := by
  refine ⟨a + b, by rw [checkedAdd, if_pos h], ?_⟩
  rw [UInt64.toNat_add, Nat.mod_eq_of_lt h]

theorem toNat_of_checkedAdd {a b c : UInt64} (h : checkedAdd a b = some c) :
    c.toNat = a.toNat + b.toNat := by
  unfold checkedAdd at h
  split at h
  · next hlt => rw [← Option.some.inj h, UInt64.toNat_add, Nat.mod_eq_of_lt hlt]
  · cases h

theorem checkedAdd32_of_lt {a b : UInt32} (h : a.toNat + b.toNat < 2 ^ 32) :
    ∃ c, checkedAdd32 a b = some c ∧ c.toNat = a.toNat + b.toNat := by
  refine ⟨a + b, by rw [checkedAdd32, if_pos h], ?_⟩
  rw [UInt32.toNat_add, Nat.mod_eq_of_lt h]

@[simp] theorem toNat_saturatingSub (a b : UInt64) :
    (saturatingSub a b).toNat = a.toNat - b.toNat := by
  unfold saturatingSub
  by_cases h : b ≤ a
  · rw [if_pos h, UInt64.toNat_sub_of_le _ _ h]
  · rw [if_neg h]
    have hlt : a.toNat < b.toNat := by
      rw [UInt64.le_iff_toNat_le] at h; omega
    simp only [UInt64.toNat_zero]; omega

/-! ### Little-endian bytes -/

/-- The bytes of a 32-bit word, the lowest first. -/
def toLeBytes (n : UInt32) : List UInt8 :=
  [n.toUInt8, (n >>> 8).toUInt8, (n >>> 16).toUInt8, (n >>> 24).toUInt8]

theorem or_mul_two_pow {a k : ℕ} (h : a < 2 ^ k) (b : ℕ) : a ||| b * 2 ^ k = a + b * 2 ^ k := by
  rw [Nat.or_comm, ← Nat.shiftLeft_eq, ← Nat.shiftLeft_add_eq_or_of_lt h, Nat.add_comm]

theorem toNat_shiftLeft_byte {k : ℕ} (hk : k ≤ 24) (x : UInt8) :
    x.toNat <<< k % 2 ^ 32 = x.toNat * 2 ^ k := by
  rw [Nat.shiftLeft_eq, Nat.mod_eq_of_lt]
  calc x.toNat * 2 ^ k < 2 ^ 8 * 2 ^ k := Nat.mul_lt_mul_of_pos_right x.toNat_lt (by positivity)
    _ ≤ 2 ^ 8 * 2 ^ 24 := Nat.mul_le_mul_left _ (Nat.pow_le_pow_right (by decide) hk)

theorem toNat_or_bytes (a b c d : UInt8) :
    (a.toUInt32 ||| (b.toUInt32 <<< 8) ||| (c.toUInt32 <<< 16) ||| (d.toUInt32 <<< 24)).toNat =
      a.toNat + b.toNat * 2 ^ 8 + c.toNat * 2 ^ 16 + d.toNat * 2 ^ 24 := by
  have hb := b.toNat_lt
  have hc := c.toNat_lt
  have ha : a.toNat < 2 ^ 8 := a.toNat_lt
  have hab : a.toNat + b.toNat * 2 ^ 8 < 2 ^ 16 := by omega
  have habc : a.toNat + b.toNat * 2 ^ 8 + c.toNat * 2 ^ 16 < 2 ^ 24 := by omega
  simp only [UInt32.toNat_or, UInt32.toNat_shiftLeft, UInt8.toNat_toUInt32, UInt32.reduceToNat,
    Nat.reduceMod]
  rw [toNat_shiftLeft_byte (by decide), toNat_shiftLeft_byte (by decide),
    toNat_shiftLeft_byte (by decide), or_mul_two_pow ha, or_mul_two_pow hab, or_mul_two_pow habc]

theorem or_toLeBytes (n : UInt32) :
    n.toUInt8.toUInt32 ||| ((n >>> 8).toUInt8.toUInt32 <<< 8) |||
      ((n >>> 16).toUInt8.toUInt32 <<< 16) ||| ((n >>> 24).toUInt8.toUInt32 <<< 24) = n := by
  have hn := n.toNat_lt
  apply UInt32.toNat_inj.mp
  rw [toNat_or_bytes]
  simp only [UInt32.toNat_toUInt8, UInt32.toNat_shiftRight, UInt32.reduceToNat, Nat.reduceMod,
    Nat.shiftRight_eq_div_pow]
  omega

theorem toLeBytes_injective : Function.Injective toLeBytes := by
  intro m n h
  simp only [toLeBytes, List.cons.injEq, and_true] at h
  obtain ⟨h0, h1, h2, h3⟩ := h
  rw [← or_toLeBytes m, ← or_toLeBytes n, h0, h1, h2, h3]

end Word
