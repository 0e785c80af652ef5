import Ekafleet.Oci.Signature
import Ekafleet.Spiffe.Tokens

/-! Base64 there and back | source: agent/oci/registry.rs, agent/oci/signature.rs,
    spiffe/workload_server.rs

    The encoder and the decoder for images are written apart, one with 24-bit groups and one with
    four 6-bit values at a time. -/

namespace Ekafleet.Oci

def base64Table : List Char :=
  "ABCDEFGHIJKLMNOPQRSTUVWXYZabcdefghijklmnopqrstuvwxyz0123456789+/".toList

/-- The character of the six bits of `n` from bit `shift` on. -/
def base64Char (n shift : ℕ) : Char := base64Table.getD (n / 2 ^ shift % 64) 'A'

/-- The characters for a chunk of up to three bytes, filled up to four. -/
def base64EncodeBytes : Bytes → List Char
  | a :: b :: c :: rest =>
    let n := a.toNat * 2 ^ 16 + b.toNat * 2 ^ 8 + c.toNat
    base64Char n 18 :: base64Char n 12 :: base64Char n 6 :: base64Char n 0 :: base64EncodeBytes rest
  | [a, b] =>
    let n := a.toNat * 2 ^ 16 + b.toNat * 2 ^ 8
    [base64Char n 18, base64Char n 12, base64Char n 6, '=']
  | [a] =>
    let n := a.toNat * 2 ^ 16
    [base64Char n 18, base64Char n 12, '=', '=']
  | [] => []

def base64Encode (input : String) : String :=
  String.ofList (base64EncodeBytes input.toUTF8.toList)

/-- The byte of a character of the table. -/
def base64Byte (n shift : ℕ) : UInt8 := UInt8.ofNat (base64Char n shift).toNat

theorem base64Table_spec : ∀ k < 64, Text.isWhitespace (base64Table.getD k 'A') = false ∧
    String.utf8EncodeChar (base64Table.getD k 'A') =
      [UInt8.ofNat (base64Table.getD k 'A').toNat] ∧
    UInt8.ofNat (base64Table.getD k 'A').toNat ≠ 61 ∧
    decodeB64Char (UInt8.ofNat (base64Table.getD k 'A').toNat) = .ok (UInt8.ofNat k) := by
  decide +kernel

theorem utf8EncodeChar_base64Char (n shift : ℕ) :
    String.utf8EncodeChar (base64Char n shift) = [base64Byte n shift] :=
  (base64Table_spec _ (Nat.mod_lt _ (by decide))).2.1

theorem decodeB64Values_base64Byte (n shift : ℕ) (rest : Bytes) :
    decodeB64Values (base64Byte n shift :: rest) =
      (decodeB64Values rest).map (UInt8.ofNat (n / 2 ^ shift % 64) :: ·) := by
  obtain ⟨-, -, hne, hvalue⟩ := base64Table_spec (n / 2 ^ shift % 64) (Nat.mod_lt _ (by decide))
  rw [decodeB64Values, if_neg (show ¬ base64Byte n shift = 61 from hne),
    show decodeB64Char (base64Byte n shift) = _ from hvalue]
  cases decodeB64Values rest <;> rfl

theorem filter_base64EncodeBytes (data : Bytes) :
    (base64EncodeBytes data).filter (!Text.isWhitespace ·) = base64EncodeBytes data := by
  have hchar : ∀ n shift, Text.isWhitespace (base64Char n shift) = false := fun n shift =>
    (base64Table_spec _ (Nat.mod_lt _ (by decide))).1
  have hpad : Text.isWhitespace '=' = false := by decide
  rw [List.filter_eq_self]
  fun_induction base64EncodeBytes data <;> simp_all

/-- A byte that is put together from two values; what does not fit is cut off. -/
theorem shiftLeft_or {x y i a : UInt8} (hi : i.toNat < 8) (hy : y.toNat < 2 ^ i.toNat)
    (h : (x.toNat * 2 ^ i.toNat + y.toNat) % 2 ^ 8 = a.toNat) : x <<< i ||| y = a := by
  have hpow : 2 ^ (8 - i.toNat) * 2 ^ i.toNat = 2 ^ 8 := by rw [← pow_add]; congr 1; omega
  have hcut : x.toNat * 2 ^ i.toNat % 2 ^ 8 = x.toNat % 2 ^ (8 - i.toNat) * 2 ^ i.toNat := by
    rw [← hpow, Nat.mul_mod_mul_right]
  have hlt : x.toNat % 2 ^ (8 - i.toNat) * 2 ^ i.toNat + y.toNat < 2 ^ 8 := by
    have := Nat.mod_lt x.toNat (Nat.two_pow_pos (8 - i.toNat))
    nlinarith
  rw [← UInt8.toNat_inj, UInt8.toNat_or, UInt8.toNat_shiftLeft, Nat.mod_eq_of_lt hi,
    Nat.shiftLeft_eq, hcut, ← Nat.shiftLeft_eq, ← Nat.shiftLeft_add_eq_or_of_lt hy,
    Nat.shiftLeft_eq, ← h]
  generalize x.toNat * 2 ^ i.toNat = p at hcut ⊢
  omega

theorem toChunks_go {α : Type} (n : ℕ) : ∀ (xs : List α) (acc : Array α) (chunks : Array (List α)),
    List.toChunks.go n xs acc chunks = chunks.toList ++ List.toChunks.go n xs acc #[]
  | [], acc, chunks => by simp [List.toChunks.go]
  | x :: xs, acc, chunks => by
    simp only [List.toChunks.go]
    split
    · rw [toChunks_go n xs _ (chunks.push _), toChunks_go n xs _ (#[].push _)]
      simp
    · exact toChunks_go n xs _ chunks

theorem toChunks_four (a b c d : UInt8) (rest : Bytes) :
    (a :: b :: c :: d :: rest).toChunks 4 = [a, b, c, d] :: rest.toChunks 4 := by
  cases rest with
  | nil => rfl
  | cons x xs => exact toChunks_go 4 xs #[x] #[[a, b, c, d]]

/-- The bytes of a group of 24 bits come back from its four values. -/
theorem decodeB64Chunk_values {n : ℕ} {a b c : UInt8}
    (hn : n = a.toNat * 2 ^ 16 + b.toNat * 2 ^ 8 + c.toNat) :
    let v := fun shift => UInt8.ofNat (n / 2 ^ shift % 64)
    (v 18 <<< 2) ||| (v 12 >>> 4) = a ∧ (v 12 <<< 4) ||| (v 6 >>> 2) = b ∧
      (v 6 <<< 6) ||| v 0 = c := by
  intro v
  have ha := a.toNat_lt
  have hb := b.toNat_lt
  have hc := c.toNat_lt
  have hv : ∀ shift, (v shift).toNat = n / 2 ^ shift % 64 := fun shift => by
    rw [UInt8.toNat_ofNat']
    omega
  have hshift : ∀ shift (j : UInt8), j.toNat < 8 →
      (v shift >>> j).toNat = n / 2 ^ shift % 64 / 2 ^ j.toNat := fun shift j hj => by
    rw [UInt8.toNat_shiftRight, Nat.mod_eq_of_lt hj, Nat.shiftRight_eq_div_pow, hv]
  refine ⟨shiftLeft_or (by decide) ?_ ?_, shiftLeft_or (by decide) ?_ ?_,
    shiftLeft_or (by decide) ?_ ?_⟩
  all_goals
    simp only [hv, hshift _ 4 (by decide), hshift _ 2 (by decide), UInt8.reduceToNat]
    omega

theorem base64Decode_encodeBytes (data : Bytes) :
    base64Decode (String.ofList (base64EncodeBytes data)) = .ok data := by
  rw [base64Decode, String.toList_ofList, filter_base64EncodeBytes, Text.toUTF8_toList,
    Text.utf8_ofList]
  have hpad : String.utf8EncodeChar '=' = [61] := by decide +kernel
  fun_induction base64EncodeBytes data with
  | case1 a b c rest n ih =>
    obtain ⟨ha, hb, hc⟩ := decodeB64Chunk_values (show n = _ from rfl)
    obtain ⟨chunks, hchunks, hrest⟩ := Loop.bind_eq_ok ih
    simp only [List.flatMap_cons, utf8EncodeChar_base64Char, List.singleton_append]
    rw [toChunks_four, List.mapM_cons]
    simp only [decodeB64Values_base64Byte, hchunks]
    change Except.ok ([_, _, _] ++ chunks.flatMap decodeB64Chunk) = _
    rw [ha, hb, hc, Except.ok.inj hrest]
    rfl
  | case2 a b n =>
    obtain ⟨ha, hb, -⟩ := decodeB64Chunk_values (n := n) (a := a) (b := b) (c := 0) (by simp [n])
    simp only [List.flatMap_cons, List.flatMap_nil, utf8EncodeChar_base64Char, hpad,
      List.singleton_append]
    rw [toChunks_four, List.mapM_cons]
    simp only [decodeB64Values_base64Byte]
    change Except.ok [_, _] = _
    rw [ha, hb]
  | case3 a n =>
    obtain ⟨ha, -, -⟩ := decodeB64Chunk_values (n := n) (a := a) (b := 0) (c := 0) (by simp [n])
    simp only [List.flatMap_cons, List.flatMap_nil, utf8EncodeChar_base64Char, hpad,
      List.singleton_append]
    rw [toChunks_four, List.mapM_cons]
    simp only [decodeB64Values_base64Byte]
    change Except.ok [_] = _
    rw [ha]
  | case4 => rfl

/-- CORRECT: what the registry client encodes is decoded to the bytes of the text, and what the
    workload server encodes to the same bytes, whatever their number. -/
theorem base64_inverse :
    (∀ input : String, base64Decode (base64Encode input) = .ok (Text.utf8 input)) ∧
      ∀ data : Bytes, Spiffe.base64urlDecode
        (Text.utf8 (String.ofList (Spiffe.base64urlEncode data))) = .ok data := by
  refine ⟨fun input => ?_, Spiffe.base64urlDecode_encode⟩
  rw [base64Encode, base64Decode_encodeBytes, Text.toUTF8_toList]

end Ekafleet.Oci
