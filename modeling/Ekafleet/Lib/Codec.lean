import Mathlib.Tactic

/-! Interfaces to serialization and authenticated encryption.

    A `Codec` turns values into bytes and back, up to a relation that says what the format keeps
    (a map read back may iterate in another order). An `Aead` seals bytes under a key, a nonce and
    associated data, and opens what was sealed. Both carry their law as a field. -/

abbrev Bytes := List UInt8

/-- A serialization format for `α` that keeps values up to `same`. -/
structure Codec {α : Type} (same : α → α → Prop) where
  encode : α → Bytes
  decode : Bytes → Option α
  decode_encode : ∀ a, ∃ b, decode (encode a) = some b ∧ same b a

/-- Authenticated encryption with associated data. -/
structure Aead where
  sealWith : (key nonce aad plaintext : Bytes) → Bytes
  openWith : (key nonce aad ciphertext : Bytes) → Option Bytes
  open_seal : ∀ key nonce aad plaintext,
    openWith key nonce aad (sealWith key nonce aad plaintext) = some plaintext

open Classical in
theorem Codec.nonempty_of_countable {α : Type} [Countable α] {same : α → α → Prop}
    (hrefl : ∀ a, same a a) : Nonempty (Codec same) := by
  obtain ⟨f, hf⟩ := exists_injective_nat α
  refine ⟨⟨fun a => List.replicate (f a) 0,
    fun bs => if h : ∃ a, f a = bs.length then some h.choose else none, fun a => ⟨a, ?_, hrefl a⟩⟩⟩
  have h : ∃ a', f a' = (List.replicate (f a) (0 : UInt8)).length := ⟨a, by simp⟩
  rw [dif_pos h, Option.some.injEq]
  exact hf (h.choose_spec.trans (by simp))

instance Codec.countableUInt8 : Countable UInt8 :=
  Function.Injective.countable fun _ _ => UInt8.toNat_inj.mp

instance Codec.countableUInt32 : Countable UInt32 :=
  Function.Injective.countable fun _ _ => UInt32.toNat_inj.mp

instance Codec.countableChar : Countable Char :=
  Function.Injective.countable fun _ _ => Char.toNat_inj.mp

instance Codec.countableString : Countable String :=
  Function.Injective.countable fun _ _ => String.toList_inj.mp

theorem Aead.nonempty : Nonempty Aead :=
  ⟨⟨fun _ _ _ p => p, fun _ _ _ c => some c, fun _ _ _ _ => rfl⟩⟩

/-- An ideal cipher: what was sealed under one key opens under no other. -/
def Aead.Ideal (a : Aead) : Prop :=
  ∀ key key' nonce aad plaintext, key ≠ key' →
    a.openWith key' nonce aad (a.sealWith key nonce aad plaintext) = none

/-- A cipher that writes the key and its length in front of the plaintext. -/
def Aead.keyed : Aead where
  sealWith key _ _ plaintext := (List.replicate key.length 0 ++ 1 :: key) ++ plaintext
  openWith key _ _ ciphertext :=
    (List.replicate key.length 0 ++ 1 :: key).isPrefixOf? ciphertext
  open_seal _ _ _ _ := List.isPrefixOf?_eq_some_iff_append_eq.mpr rfl

theorem Aead.header_inj {m n : ℕ} {x y : Bytes}
    (h : List.replicate m 0 ++ 1 :: x = List.replicate n 0 ++ 1 :: y) : m = n ∧ x = y := by
  induction m generalizing n with
  | zero => cases n <;> simp_all [List.replicate_succ]
  | succ m ih =>
    cases n with
    | zero => simp [List.replicate_succ] at h
    | succ n =>
      simp only [List.replicate_succ, List.cons_append, List.cons.injEq, true_and] at h
      obtain ⟨rfl, rfl⟩ := ih h
      exact ⟨rfl, rfl⟩

theorem Aead.keyed_ideal : Aead.keyed.Ideal := by
  intro key key' nonce aad plaintext hne
  refine Option.eq_none_iff_forall_ne_some.mpr fun opened hopen => hne ?_
  have heq := List.isPrefixOf?_eq_some_iff_append_eq.mp hopen
  simp only [Aead.keyed, List.append_assoc, List.cons_append] at heq
  obtain ⟨hlen, heq⟩ := Aead.header_inj heq
  exact (List.append_inj_left heq hlen).symm

/-- An ideal cipher with associated data: what was sealed opens with the same key and data only. -/
def Aead.Binding (a : Aead) : Prop :=
  ∀ key key' nonce aad aad' plaintext, (key, aad) ≠ (key', aad') →
    a.openWith key' nonce aad' (a.sealWith key nonce aad plaintext) = none

/-- The associated data is a second key. -/
def Aead.bound : Aead where
  sealWith key nonce aad plaintext :=
    keyed.sealWith key nonce [] (keyed.sealWith aad nonce [] plaintext)
  openWith key nonce aad ciphertext :=
    (keyed.openWith key nonce [] ciphertext).bind (keyed.openWith aad nonce [])
  open_seal key nonce aad plaintext := by
    rw [keyed.open_seal, Option.bind_some, keyed.open_seal]

theorem Aead.bound_binding : Aead.bound.Binding := by
  intro key key' nonce aad aad' plaintext hne
  change (keyed.openWith key' nonce [] (keyed.sealWith key nonce [] _)).bind _ = none
  by_cases hkey : key = key'
  · subst hkey
    have haad : aad ≠ aad' := fun h => hne (by rw [h])
    rw [keyed.open_seal, Option.bind_some, keyed_ideal aad aad' nonce [] plaintext haad]
  · rw [keyed_ideal key key' nonce [] _ hkey, Option.bind_none]

theorem Aead.exists_ideal : ∃ a : Aead, a.Ideal := ⟨keyed, keyed_ideal⟩
