import Ekafleet.Lib.Codec
import Ekafleet.Lib.Text
import Ekafleet.Lib.Word

/-! Key material at rest | source: server/seal.rs

    With a passphrase, key files are sealed under a key derived from it, in an envelope that
    describes itself; without one they are written as they are. A file that is not an envelope is
    read as it is. -/

namespace Ekafleet.Server

/-- The key derivation and the cipher. -/
structure SealLib where
  pbkdf2 : (iterations : UInt32) → (salt passphrase : Bytes) → Bytes
  aead : Aead

/-- Why a file cannot be sealed or opened. -/
inductive SealError where
  | crypto
  | format (message : String)
  | badPassphrase
  deriving DecidableEq, Repr

namespace Seal

/-- The text `EKAFSEAL`. -/
def magic : Bytes := [69, 75, 65, 70, 83, 69, 65, 76]
def version : UInt8 := 1
def saltLen : ℕ := 16
def nonceLen : ℕ := 12
def defaultIterations : UInt32 := 600000

/-- What sealing draws from the random generator. -/
structure Draw where
  salt : { b : Bytes // b.length = saltLen }
  nonce : { b : Bytes // b.length = nonceLen }

def toBeBytes (n : UInt32) : Bytes := (Word.toLeBytes n).reverse

def fromBeBytes : Bytes → UInt32
  | [a, b, c, d] => d.toUInt32 ||| (c.toUInt32 <<< 8) ||| (b.toUInt32 <<< 16) |||
    (a.toUInt32 <<< 24)
  | _ => 0

/-- The data has the magic. -/
def isSealed (data : Bytes) : Bool := magic.length ≤ data.length && data.take magic.length = magic

variable (lib : SealLib)

def deriveKek (passphrase : String) (salt : Bytes) (iterations : UInt32) : Bytes :=
  lib.pbkdf2 (if iterations = 0 then defaultIterations else iterations) salt
    (Text.utf8 passphrase)

/-- Seal under a passphrase. -/
def sealBytes (draw : Option Draw) (plaintext : Bytes) (passphrase : String) :
    Except SealError Bytes :=
  match draw with
  | none => .error .crypto
  | some draw =>
    let kek := deriveKek lib passphrase draw.salt defaultIterations
    .ok (magic ++ version :: (toBeBytes defaultIterations ++ (draw.salt ++ (draw.nonce ++
      lib.aead.sealWith kek draw.nonce [] plaintext))))

/-- Open sealed data. -/
def unsealBytes (data : Bytes) (passphrase : String) : Except SealError Bytes :=
  let headerLen := magic.length + 1 + 4 + saltLen + nonceLen
  if data.length < headerLen then .error (.format "truncated header")
  else if data.take magic.length ≠ magic then .error (.format "bad magic")
  else
    let found := (data.drop magic.length).headD 0
    if found ≠ version then .error (.format s!"unsupported version {found.toNat}")
    else
      let data := data.drop (magic.length + 1)
      let iterations := fromBeBytes (data.take 4)
      let data := data.drop 4
      let salt := data.take saltLen
      let data := data.drop saltLen
      let nonce := data.take nonceLen
      match lib.aead.openWith (deriveKek lib passphrase salt iterations) nonce []
          (data.drop nonceLen) with
      | some plaintext => .ok plaintext
      | none => .error .badPassphrase

/-- The bytes that are written to a key file. -/
def writeMaybeSealed (passphrase : Option String) (draw : Option Draw) (plaintext : Bytes) :
    Except SealError Bytes :=
  match passphrase with
  | some pass => sealBytes lib draw plaintext pass
  | none => .ok plaintext

/-- Why a sealed file cannot be read. -/
inductive ReadError where
  | io
  | noPassphrase
  | unsealing (error : SealError)
  deriving DecidableEq, Repr

/-- Read a key file; `data` is what the read gives, if it works. -/
def readMaybeSealed (passphrase : Option String) (data : Option Bytes) : Except ReadError Bytes :=
  match data with
  | none => .error .io
  | some data =>
    if isSealed data then
      match passphrase with
      | none => .error .noPassphrase
      | some pass =>
        match unsealBytes lib data pass with
        | .ok plaintext => .ok plaintext
        | .error e => .error (.unsealing e)
    else .ok data

/-! ### Reading what was written -/

variable {lib}

theorem isSealed_append (data : Bytes) : isSealed (magic ++ data) = true := by
  simp [isSealed]

variable {plaintext data : Bytes}

theorem unsealBytes_sealBytes {draw : Draw} {passphrase : String}
    (h : sealBytes lib (some draw) plaintext passphrase = .ok data) :
    unsealBytes lib data passphrase = .ok plaintext := by
  obtain ⟨⟨salt, hsalt⟩, ⟨nonce, hnonce⟩⟩ := draw
  cases h
  have hbe : (toBeBytes defaultIterations).length = 4 := rfl
  have hiterations : fromBeBytes (toBeBytes defaultIterations) = defaultIterations := by decide
  have hheader : ¬ (magic ++ version :: (toBeBytes defaultIterations ++ (salt ++ (nonce ++
      lib.aead.sealWith (deriveKek lib passphrase salt defaultIterations) nonce []
        plaintext)))).length < magic.length + 1 + 4 + saltLen + nonceLen := by
    simp only [List.length_append, List.length_cons, hbe, hsalt, hnonce]
    omega
  have hdrop : ∀ rest : Bytes, (magic ++ version :: rest).drop (magic.length + 1) = rest := by
    intro rest
    rw [← List.drop_drop, List.drop_left]
    rfl
  rw [unsealBytes, if_neg hheader]
  simp only [List.take_left, List.drop_left, List.headD_cons, ne_eq, not_true_eq_false, if_false,
    hdrop, List.take_left' hbe, List.drop_left' hbe, List.take_left' hsalt, List.drop_left' hsalt,
    List.take_left' hnonce, List.drop_left' hnonce, hiterations, lib.aead.open_seal]

theorem isSealed_of_write {pass : String} {draw : Option Draw}
    (h : writeMaybeSealed lib (some pass) draw plaintext = .ok data) : isSealed data = true := by
  cases draw with
  | none => cases h
  | some draw =>
    cases h
    exact isSealed_append _

theorem readMaybeSealed_writeMaybeSealed {passphrase : Option String} {draw : Option Draw}
    (hplain : isSealed plaintext = false)
    (h : writeMaybeSealed lib passphrase draw plaintext = .ok data) :
    readMaybeSealed lib passphrase (some data) = .ok plaintext := by
  cases passphrase with
  | none =>
    cases h
    simp [readMaybeSealed, hplain]
  | some pass =>
    cases draw with
    | none => cases h
    | some draw =>
      have hunseal : unsealBytes lib data pass = .ok plaintext := unsealBytes_sealBytes h
      simp [readMaybeSealed, isSealed_of_write h, hunseal]

end Seal

end Ekafleet.Server
