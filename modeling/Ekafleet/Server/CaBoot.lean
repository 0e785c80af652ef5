import Ekafleet.Ca.Root
import Ekafleet.Server.Seal

/-! The CA files at boot | source: server/mod.rs

    The boot reads the key and the certificate of the root, and if either cannot be read, for
    whatever reason, it goes on as if there were none: a new root is generated and written over both
    files. It treats the intermediate in the same way. The four files are written one after the
    other. -/

namespace Ekafleet.Server
open Ca Loop

/-- What a read of a file finds. -/
inductive FileState where
  | missing
  | unreadable
  | contents (data : Bytes)
  deriving DecidableEq, Repr

def FileState.read : FileState → Option Bytes
  | .contents data => some data
  | .missing | .unreadable => none

/-- The files of the CA. -/
inductive CaFile where | caKey | caCert | intKey | intCert
  deriving DecidableEq, Repr

abbrev CaDir := CaFile → FileState

/-- Why a boot fails. -/
inductive BootError where
  | utf8
  | ca (error : CaError)
  | sealing (error : SealError)
  /-- A write failed, or the process ended there. -/
  | stopped
  deriving DecidableEq, Repr

/-- The randomness and clock of a boot. -/
structure BootEnv where
  init : InitEnv
  rootDraw : Option Seal.Draw
  intDraw : Option Seal.Draw

section Boot
variable (lib : CaLib) (sealLib : SealLib) (passphrase : Option String) (domain : String)

def readKey (key : FileState) : Except Seal.ReadError Bytes :=
  Seal.readMaybeSealed sealLib passphrase key.read

def readToString (file : FileState) : Option String := file.read.bind Text.fromUtf8

/-- A key and its certificate, if both can be read. -/
def readPair (key cert : FileState) : Except BootError (Option (String × String)) :=
  match readKey sealLib passphrase key, readToString cert with
  | .ok data, some cert =>
    match Text.fromUtf8 data with
    | none => .error .utf8
    | some key => .ok (some (key, cert))
  | _, _ => .ok none

/-- The writes that persist a key and its certificate. -/
def pairWrites (keyFile certFile : CaFile) (draw : Option Seal.Draw) (key : Option KeyPair)
    (cert : Option String) : List (CaFile × Except SealError Bytes) :=
  match key, cert with
  | some key, some cert =>
    [(keyFile, Seal.writeMaybeSealed sealLib passphrase draw (Text.utf8 (lib.keyPem key))),
      (certFile, .ok (Text.utf8 cert))]
  | _, _ => []

/-- The root is written if none was read, the intermediate if it is not the one that was read. -/
def caWrites (env : BootEnv) (stored storedInt : Option (String × String)) (ca : RootCa) :
    List (CaFile × Except SealError Bytes) :=
  (if stored.isNone then
    pairWrites lib sealLib passphrase .caKey .caCert env.rootDraw ca.rootKeypair ca.rootCertPem
  else []) ++
  (if storedInt.map (·.2) = ca.intermediateCertPem then []
  else pairWrites lib sealLib passphrase .intKey .intCert env.intDraw ca.intermediateKeypair
    ca.intermediateCertPem)

/-- Read the files and initialize the CA; what is to be written comes with it. -/
def startCa (env : BootEnv) (d : CaDir) :
    Except BootError (RootCa × List (CaFile × Except SealError Bytes)) := do
  let stored ← readPair sealLib passphrase (d .caKey) (d .caCert)
  let storedInt ← readPair sealLib passphrase (d .intKey) (d .intCert)
  let ca ← (initializeWithIntermediate lib env.init { domain } (stored.map (·.1))
    (stored.map (·.2)) (storedInt.map (·.1)) (storedInt.map (·.2))).mapError .ca
  return (ca, caWrites lib sealLib passphrase env stored storedInt ca)

end Boot

/-- Write file after file. The boot may stop at one of them, which then stays as it was or is left
    with other contents. -/
def persist (d : CaDir) : List (CaFile × Except SealError Bytes) → Option (ℕ × Option Bytes) →
    Except BootError Unit × CaDir
  | [], _ => (.ok (), d)
  | (_, .error e) :: _, _ => (.error (.sealing e), d)
  | (_, .ok _) :: _, some (0, none) => (.error .stopped, d)
  | (file, .ok _) :: _, some (0, some left) =>
    (.error .stopped, Function.update d file (.contents left))
  | (file, .ok data) :: rest, some (n + 1, left) =>
    persist (Function.update d file (.contents data)) rest (some (n, left))
  | (file, .ok data) :: rest, none =>
    persist (Function.update d file (.contents data)) rest none

/-- A boot: the CA with which it goes on, and the directory that it leaves. -/
def bootCa (lib : CaLib) (sealLib : SealLib) (passphrase : Option String) (domain : String)
    (env : BootEnv) (stop : Option (ℕ × Option Bytes)) (d : CaDir) :
    Except BootError RootCa × CaDir :=
  match startCa lib sealLib passphrase domain env d with
  | .error e => (.error e, d)
  | .ok (ca, writes) => ((persist d writes stop).1.map fun _ => ca, (persist d writes stop).2)

/-! ### Which files a boot writes -/

theorem persist_other {file : CaFile} (writes : List (CaFile × Except SealError Bytes)) :
    ∀ (d : CaDir) (stop : Option (ℕ × Option Bytes)), (∀ w ∈ writes, w.1 ≠ file) →
      (persist d writes stop).2 file = d file := by
  induction writes with
  | nil => exact fun _ _ _ => rfl
  | cons w rest ih =>
    intro d stop hne
    obtain ⟨hw, hrest⟩ := List.forall_mem_cons.mp hne
    obtain ⟨f, _ | data⟩ := w
    · rfl
    · have hupdate : ∀ c, Function.update d f c file = d file := fun c =>
        Function.update_of_ne hw.symm c d
      rcases stop with _ | ⟨_ | n, left⟩
      · exact (ih _ none hrest).trans (hupdate _)
      · rcases left with _ | left
        · rfl
        · exact hupdate _
      · exact (ih _ (some (n, left)) hrest).trans (hupdate _)

theorem persist_ok {writes : List (CaFile × Except SealError Bytes)} :
    ∀ d : CaDir, (∀ w ∈ writes, ∃ data, w.2 = .ok data) → (persist d writes none).1 = .ok () := by
  induction writes with
  | nil => exact fun _ _ => rfl
  | cons w rest ih =>
    intro d hok
    obtain ⟨⟨data, hw⟩, hrest⟩ := List.forall_mem_cons.mp hok
    obtain ⟨f, r⟩ := w
    obtain rfl : r = .ok data := hw
    exact ih _ hrest

section Files
variable {lib : CaLib} {sealLib : SealLib} {passphrase : Option String} {domain : String}
  {env : BootEnv} {d : CaDir}

variable {w : CaFile × Except SealError Bytes} {storedInt : Option (String × String)} {ca : RootCa}

theorem mem_pairWrites {keyFile certFile : CaFile} {draw : Option Seal.Draw} {key : Option KeyPair}
    {cert : Option String}
    (h : w ∈ pairWrites lib sealLib passphrase keyFile certFile draw key cert) :
    (w.1 = keyFile ∨ w.1 = certFile) ∧ (draw.isSome → ∃ data, w.2 = .ok data) := by
  rcases key with _ | key
  · cases h
  rcases cert with _ | cert
  · cases h
  rcases List.mem_cons.mp h with rfl | h
  · refine ⟨.inl rfl, fun hdraw => ?_⟩
    obtain ⟨draw, rfl⟩ := Option.isSome_iff_exists.mp hdraw
    cases passphrase <;> exact ⟨_, rfl⟩
  grind

theorem caWrites_stored {stored : String × String}
        (h : w ∈ caWrites lib sealLib passphrase env (some stored) storedInt ca) :
    w.1 = .intKey ∨ w.1 = .intCert := by
  simp only [caWrites, Option.isNone_some, Bool.false_eq_true, if_false, List.nil_append] at h
  split at h
  · cases h
  · exact (mem_pairWrites h).1

variable {stored : Option (String × String)} {writes : List (CaFile × Except SealError Bytes)}

theorem caWrites_ok (hroot : env.rootDraw.isSome) (hint : env.intDraw.isSome)

    (h : w ∈ caWrites lib sealLib passphrase env stored storedInt ca) :
    ∃ data, w.2 = .ok data := by
  grind [caWrites, mem_pairWrites]

theorem mapError_eq_ok {α ε ε' : Type} {f : ε → ε'} {r : Except ε α} {a : α}
    (h : r.mapError f = .ok a) : r = .ok a := by
  cases r <;> cases h
  rfl

theorem startCa_eq_ok (h : startCa lib sealLib passphrase domain env d = .ok (ca, writes)) :
    ∃ stored storedInt, readPair sealLib passphrase (d .caKey) (d .caCert) = .ok stored ∧
      readPair sealLib passphrase (d .intKey) (d .intCert) = .ok storedInt ∧
      initializeWithIntermediate lib env.init { domain } (stored.map (·.1)) (stored.map (·.2))
        (storedInt.map (·.1)) (storedInt.map (·.2)) = .ok ca ∧
      writes = caWrites lib sealLib passphrase env stored storedInt ca := by
  obtain ⟨stored, hstored, h⟩ := bind_eq_ok h
  obtain ⟨storedInt, hint, h⟩ := bind_eq_ok h
  obtain ⟨ca', hca, h⟩ := bind_eq_ok h
  cases h
  exact ⟨stored, storedInt, hstored, hint, mapError_eq_ok hca, rfl⟩

theorem startCa_of_reads (env : BootEnv)
    (hroot : readPair sealLib passphrase (d .caKey) (d .caCert) = .ok stored)
    (hint : readPair sealLib passphrase (d .intKey) (d .intCert) = .ok storedInt)
    (hca : initializeWithIntermediate lib env.init { domain } (stored.map (·.1)) (stored.map (·.2))
      (storedInt.map (·.1)) (storedInt.map (·.2)) = .ok ca) :
    startCa lib sealLib passphrase domain env d =
      .ok (ca, caWrites lib sealLib passphrase env stored storedInt ca) := by
  rw [startCa, hroot, hint]
  simp only [bind, Except.bind, hca]
  rfl

theorem bootCa_of_error {e : BootError} (h : startCa lib sealLib passphrase domain env d = .error e)
    (stop : Option (ℕ × Option Bytes)) :
    bootCa lib sealLib passphrase domain env stop d = (.error e, d) := by
  rw [bootCa, h]

theorem bootCa_of_ok (h : startCa lib sealLib passphrase domain env d = .ok (ca, writes))
    (stop : Option (ℕ × Option Bytes)) :
    bootCa lib sealLib passphrase domain env stop d =
      ((persist d writes stop).1.map fun _ => ca, (persist d writes stop).2) := by
  rw [bootCa, h]

end Files

/-! ### Whether the stored root survives -/

section Root
variable (lib : CaLib) (sealLib : SealLib) (passphrase : Option String) (domain : String)

/-- The CA has the root that is in the files. -/
def HasStoredRoot (d : CaDir) (ca : RootCa) : Prop :=
  ∃ keyPem certPem key,
    readPair sealLib passphrase (d .caKey) (d .caCert) = .ok (some (keyPem, certPem)) ∧
    lib.keyFromPem keyPem = .ok key ∧ ca.rootKeypair = some key ∧ ca.rootCertPem = some certPem

/-- Whatever happens during the boot, an existing file of the root stays as it is, and the server
    starts with the stored root or not at all. -/
def KeepsRoot (d : CaDir) : Prop :=
  d .caKey ≠ .missing ∨ d .caCert ≠ .missing → ∀ env stop,
    (bootCa lib sealLib passphrase domain env stop d).2 .caKey = d .caKey ∧
    (bootCa lib sealLib passphrase domain env stop d).2 .caCert = d .caCert ∧
    ∀ ca, (bootCa lib sealLib passphrase domain env stop d).1 = .ok ca →
      HasStoredRoot lib sealLib passphrase d ca

/-- The key can be read, and unsealed if it is sealed, and the certificate is a text. -/
def PairReadable (key cert : FileState) : Prop :=
  (∃ data, readKey sealLib passphrase key = .ok data) ∧ ∃ text, readToString cert = some text

/-- The intermediate is read, but its key is not a text: the boot ends before there is a root. -/
def IntermediateNotText (d : CaDir) : Prop :=
  ∃ data text, readKey sealLib passphrase (d .intKey) = .ok data ∧
    readToString (d .intCert) = some text ∧ Text.fromUtf8 data = none

end Root

section Survival
variable {lib : CaLib} {sealLib : SealLib} {passphrase : Option String} {domain : String}
  {key cert : FileState} {d : CaDir}

theorem readPair_ok_none (h : ¬ PairReadable sealLib passphrase key cert) :
    readPair sealLib passphrase key cert = .ok none := by
  unfold readPair
  split
  · next data text hkey hcert => exact absurd ⟨⟨data, hkey⟩, text, hcert⟩ h
  · rfl

theorem readPair_of_readable (h : PairReadable sealLib passphrase key cert) :
    (∃ pair, readPair sealLib passphrase key cert = .ok (some pair)) ∨
      readPair sealLib passphrase key cert = .error .utf8 := by
  obtain ⟨⟨data, hkey⟩, text, hcert⟩ := h
  grind [readPair, Text.fromUtf8]

theorem readPair_eq_error {e : BootError} (h : readPair sealLib passphrase key cert = .error e) :
    ∃ data text, readKey sealLib passphrase key = .ok data ∧ readToString cert = some text ∧
      Text.fromUtf8 data = none := by
  unfold readPair at h
  split at h
  · next data text hkey hcert =>
    split at h
    · next hnone => exact ⟨data, text, hkey, hcert, hnone⟩
    · cases h
  · cases h

theorem initialize_stored {env : InitEnv} {ca ca' : RootCa} {keyPem certPem : String}
    {storedIntKey storedIntCert : Option String}
    (h : initializeWithIntermediate lib env ca (some keyPem) (some certPem) storedIntKey
      storedIntCert = .ok ca') :
    ∃ key, lib.keyFromPem keyPem = .ok key ∧ ca'.rootKeypair = some key ∧
      ca'.rootCertPem = some certPem := by
  obtain ⟨ca₁, hroot, h⟩ := initializeWithIntermediate_cases h
  obtain ⟨key, der, hkey, rfl⟩ := initializeRoot_stored hroot
  rcases h with ⟨_, _, _, -, rfl⟩ | ⟨-, hmint⟩
  · exact ⟨key, hkey, rfl, rfl⟩
  · obtain ⟨_, _, _, -, rfl⟩ := mintIntermediate_spec rfl rfl hmint
    exact ⟨key, hkey, rfl, rfl⟩

/-- A boot in which every operation succeeds. -/
def someDraw : Seal.Draw := ⟨⟨List.replicate 16 1, rfl⟩, ⟨List.replicate 12 1, rfl⟩⟩
def workingEnv (now : ℕ) (rootKey intKey : KeyPair) : BootEnv :=
  ⟨workingInit now rootKey intKey, some someDraw, some someDraw⟩

/-- EXACT: for every content and readability of the four files, an existing root is kept in every
    boot if and only if there is none, or both its files can be read, or the boot ends before
    because the key of the intermediate is not a text. -/
theorem keeps_root_iff (lib : CaLib) (sealLib : SealLib) (passphrase : Option String)
    (domain : String) (d : CaDir) :
    KeepsRoot lib sealLib passphrase domain d ↔
      (d .caKey = .missing ∧ d .caCert = .missing) ∨
      PairReadable sealLib passphrase (d .caKey) (d .caCert) ∨
      IntermediateNotText sealLib passphrase d := by
  constructor
  · intro hkeeps
    by_contra! hnot
    obtain ⟨hexists, hunreadable, htext⟩ := hnot
    have hroot := readPair_ok_none hunreadable
    -- the intermediate is read or taken as missing
    obtain ⟨storedInt, hint⟩ : ∃ storedInt,
        readPair sealLib passphrase (d .intKey) (d .intCert) = .ok storedInt := by
      rcases hint : readPair sealLib passphrase (d .intKey) (d .intCert) with e | storedInt
      · exact absurd (readPair_eq_error hint) htext
      · exact ⟨storedInt, rfl⟩
    obtain ⟨ca, hca⟩ := exists_initialize lib domain 0 [] [] (storedInt.map (·.1))
      (storedInt.map (·.2))
    have hstart := startCa_of_reads (workingEnv 0 [] []) hroot hint hca
    have hboot : (bootCa lib sealLib passphrase domain (workingEnv 0 [] []) none d).1 = .ok ca := by
      rw [bootCa_of_ok hstart, persist_ok d fun w hw => caWrites_ok rfl rfl hw]
      rfl
    have hmissing : d .caKey ≠ .missing ∨ d .caCert ≠ .missing := by
      by_contra! hboth
      exact hexists hboth.1 hboth.2
    obtain ⟨keyPem, certPem, key, hstored, -⟩ := (hkeeps hmissing _ _).2.2 ca hboot
    cases hroot.symm.trans hstored
  · rintro (⟨hkey, hcert⟩ | hreadable | htext) hexists env stop
    · simp [hkey, hcert] at hexists
    · rcases hstart : startCa lib sealLib passphrase domain env d with e | ⟨ca, writes⟩
      · rw [bootCa_of_error hstart]
        refine ⟨rfl, rfl, ?_⟩
        rintro ca ⟨⟩
      · obtain ⟨stored, storedInt, hroot, -, hca, rfl⟩ := startCa_eq_ok hstart
        obtain ⟨pair, rfl⟩ : ∃ pair, stored = some pair := by
          rcases readPair_of_readable hreadable with ⟨pair, hpair⟩ | herror
          · exact ⟨pair, Except.ok.inj (hroot.symm.trans hpair)⟩
          · cases hroot.symm.trans herror
        rw [bootCa_of_ok hstart]
        refine ⟨persist_other _ d stop fun w hw => ?_, persist_other _ d stop fun w hw => ?_,
          fun ca' hca' => ?_⟩
        · rcases caWrites_stored hw with h | h <;> simp [h]
        · rcases caWrites_stored hw with h | h <;> simp [h]
        · obtain ⟨key, hkey, hkeypair, hpem⟩ := initialize_stored hca
          have heq : ca' = ca := by
            cases hres : (persist d _ stop).1 <;> rw [hres] at hca' <;> cases hca'
            rfl
          exact heq ▸ ⟨pair.1, pair.2, key, hroot, hkey, hkeypair, hpem⟩
    · obtain ⟨data, text, hkey, hcert, hnone⟩ := htext
      have hint : readPair sealLib passphrase (d .intKey) (d .intCert) = .error .utf8 := by
        rw [readPair, hkey, hcert]
        simp only [hnone]
      obtain ⟨e, hstart⟩ : ∃ e, startCa lib sealLib passphrase domain env d = .error e := by
        rw [startCa, hint]
        rcases readPair sealLib passphrase (d .caKey) (d .caCert) with e | stored
        · exact ⟨e, rfl⟩
        · exact ⟨.utf8, rfl⟩
      rw [bootCa_of_error hstart]
      refine ⟨rfl, rfl, ?_⟩
      rintro ca ⟨⟩

/-! ### A boot without the passphrase -/

theorem bootCa_new (lib : CaLib) (sealLib : SealLib) (passphrase : Option String) (domain : String)
    (now : ℕ) (rootKey intKey : KeyPair) (stop : Option (ℕ × Option Bytes))
    (hroot : readPair sealLib passphrase (d .caKey) (d .caCert) = .ok none)
    (hint : readPair sealLib passphrase (d .intKey) (d .intCert) = .ok none) :
    ∃ rootData intData,
      Seal.writeMaybeSealed sealLib passphrase (some someDraw) (Text.utf8 (lib.keyPem rootKey)) =
        .ok rootData ∧
      Seal.writeMaybeSealed sealLib passphrase (some someDraw) (Text.utf8 (lib.keyPem intKey)) =
        .ok intData ∧
      ∀ writes, writes =
          [(CaFile.caKey, Except.ok rootData),
            (.caCert, .ok (Text.utf8 (lib.pem (lib.der (newRoot lib domain now rootKey))))),
            (.intKey, .ok intData),
            (.intCert, .ok (Text.utf8 (lib.pem (lib.der
              (newIntermediate lib domain now rootKey intKey)))))] →
        bootCa lib sealLib passphrase domain (workingEnv now rootKey intKey) stop d =
          ((persist d writes stop).1.map fun _ => newCa lib domain now rootKey intKey,
            (persist d writes stop).2) := by
  have hwrite : ∀ data, ∃ sealed,
      Seal.writeMaybeSealed sealLib passphrase (some someDraw) data = .ok sealed := by
    intro data
    cases passphrase <;> exact ⟨_, rfl⟩
  obtain ⟨rootData, hrootData⟩ := hwrite (Text.utf8 (lib.keyPem rootKey))
  obtain ⟨intData, hintData⟩ := hwrite (Text.utf8 (lib.keyPem intKey))
  refine ⟨rootData, intData, hrootData, hintData, ?_⟩
  rintro writes rfl
  refine bootCa_of_ok ?_ stop
  rw [← hrootData, ← hintData]
  exact startCa_of_reads (workingEnv now rootKey intKey) hroot hint
    (initialize_working lib domain now rootKey intKey rfl)

def emptyDir : CaDir := fun _ => .missing

theorem readPair_sealed {sealLib : SealLib} {data : Bytes} (h : Seal.isSealed data = true)
    (cert : FileState) : readPair sealLib none (.contents data) cert = .ok none := by
  refine readPair_ok_none ?_
  rintro ⟨⟨plain, hplain⟩, -⟩
  simp [readKey, FileState.read, Seal.readMaybeSealed, h] at hplain

theorem bootCa_sealed (lib : CaLib) (sealLib : SealLib) : ∃ d intData,
    bootCa lib sealLib (some "secret") "fleet" (workingEnv 0 [1] [2]) none emptyDir =
      (.ok (newCa lib "fleet" 0 [1] [2]), d) ∧
    d .caKey ≠ .missing ∧
    readPair sealLib none (d .caKey) (d .caCert) = .ok none ∧
    readPair sealLib none (d .intKey) (d .intCert) = .ok none ∧
    Seal.writeMaybeSealed sealLib (some "secret") (some someDraw) (Text.utf8 (lib.keyPem [2])) =
      .ok intData ∧
    d .intKey = .contents intData ∧
    d .intCert =
      .contents (Text.utf8 (lib.pem (lib.der (newIntermediate lib "fleet" 0 [1] [2])))) := by
  obtain ⟨rootData, intData, hrootData, hintData, hboot⟩ :=
    bootCa_new lib sealLib (some "secret") "fleet" 0 [1] [2] none
      (rfl : readPair sealLib (some "secret") (emptyDir .caKey) (emptyDir .caCert) = .ok none) rfl
  refine ⟨_, intData, hboot _ rfl, ?_, ?_, ?_, hintData, rfl, rfl⟩
  · rintro ⟨⟩
  · exact readPair_sealed (Seal.isSealed_of_write hrootData) _
  · exact readPair_sealed (Seal.isSealed_of_write hintData) _

/-- With every library: a server with a sealed root is started without the passphrase, and goes on
    with another root, which it writes over the first. -/
theorem root_replaced_without_passphrase : Nonempty CaLib ∧
    ∀ (lib : CaLib) (sealLib : SealLib), ∃ d d',
      bootCa lib sealLib (some "secret") "fleet" (workingEnv 0 [1] [2]) none emptyDir =
        (.ok (newCa lib "fleet" 0 [1] [2]), d) ∧
      bootCa lib sealLib none "fleet" (workingEnv 0 [3] [4]) none d =
        (.ok (newCa lib "fleet" 0 [3] [4]), d') ∧
      d' .caKey = .contents (Text.utf8 (lib.keyPem [3])) ∧
      ¬ KeepsRoot lib sealLib none "fleet" d := by
  obtain ⟨lib₀, -⟩ := CaLib.exists_publicKey_id
  refine ⟨⟨lib₀⟩, fun lib sealLib => ?_⟩
  obtain ⟨d, -, hfirst, hexists, hroot, hint, -⟩ := bootCa_sealed lib sealLib
  obtain ⟨rootData', intData', hrootData', -, hboot⟩ :=
    bootCa_new lib sealLib none "fleet" 0 [3] [4] none hroot hint
  cases hrootData'
  obtain ⟨d', hsecond, hreplaced⟩ : ∃ d',
      bootCa lib sealLib none "fleet" (workingEnv 0 [3] [4]) none d =
        (.ok (newCa lib "fleet" 0 [3] [4]), d') ∧
      d' .caKey = .contents (Text.utf8 (lib.keyPem [3])) := ⟨_, hboot _ rfl, rfl⟩
  refine ⟨d, d', hfirst, hsecond, hreplaced, fun hkeeps => ?_⟩
  obtain ⟨-, -, hstored⟩ := hkeeps (.inl hexists) (workingEnv 0 [3] [4]) none
  obtain ⟨_, _, _, hpair, -⟩ := hstored _ (congrArg Prod.fst hsecond)
  cases hroot.symm.trans hpair

end Survival

/-! ### Whether the chain holds -/

section Chain
variable {lib : CaLib} {sealLib : SealLib} {d : CaDir}

/-- EXACT: for all stored files, when the initialization returns, the intermediate verifies under
    the root and belongs to its key if and only if what was stored fits together: the intermediate
    with its own key and with the root, if it is used; otherwise the root with its own key. -/
theorem chain_holds_iff {env : InitEnv} {ca ca' : RootCa}
    {storedKey storedCert storedIntKey storedIntCert : Option String}
    (h : initializeWithIntermediate lib env ca storedKey storedCert storedIntKey storedIntCert =
      .ok ca') :
    ChainHolds lib ca' ↔
      StoredConsistent lib env ca.domain storedKey storedCert storedIntKey storedIntCert := by
  obtain ⟨ca₁, hroot, hcases⟩ := initializeWithIntermediate_cases h
  rcases hcases with ⟨key, certPem, expiresAt, hload, rfl⟩ | ⟨hload, hmint⟩
  · simp only [StoredConsistent, hload, issuedByRoot_iff hroot]
    constructor
    · rintro ⟨rootPem, intPem, key', root, int, hrp, hip, hkey, hparse, hint, hverifies, hpublic⟩
      cases hip
      cases hkey
      exact ⟨int, hint, hpublic, rootPem, root, hrp, hparse, hverifies⟩
    · rintro ⟨int, hint, hpublic, rootPem, root, hrp, hparse, hverifies⟩
      exact ⟨rootPem, certPem, key, root, int, hrp, rfl, rfl, hparse, hint, hverifies, hpublic⟩
  · simp only [StoredConsistent, hload]
    exact chainHolds_minted hroot hmint

/-- A root of time 0 with an intermediate of time 0, which another root may have issued. -/
def loadedCa (lib : CaLib) (rootKey issuerKey intKey : KeyPair) : RootCa :=
  { rootedCa lib "fleet" 0 rootKey with
    intermediateKeypair := some intKey
    intermediateCertPem :=
      some (lib.pem (lib.der (newIntermediate lib "fleet" 0 issuerKey intKey)))
    intermediateExpiresAt := defaultIntermediateTtl }

theorem loadIntermediate_new (lib : CaLib) (issuerKey intKey : KeyPair) :
    loadIntermediate lib 0 (some (lib.keyPem intKey))
      (some (lib.pem (lib.der (newIntermediate lib "fleet" 0 issuerKey intKey)))) =
      some (intKey, lib.pem (lib.der (newIntermediate lib "fleet" 0 issuerKey intKey)),
        defaultIntermediateTtl) := by
  have hexpires : intermediateNotAfter lib (lib.pem (lib.der
      (newIntermediate lib "fleet" 0 issuerKey intKey))) = .ok defaultIntermediateTtl := by
    rw [intermediateNotAfter, parseCert_pem]
    exact congrArg Except.ok (Nat.zero_add _)
  have hlater : saturatingAdd 0 intermediateRenewBefore < defaultIntermediateTtl := by decide
  simp only [loadIntermediate, lib.keyFromPem_keyPem, hexpires, if_pos hlater]

theorem initialize_loaded (lib : CaLib) (rootKey issuerKey intKey : KeyPair) {env : InitEnv}
    (hnow : env.now = 0) :
    initializeWithIntermediate lib env { domain := "fleet" }
      (some (lib.keyPem rootKey)) (some (lib.pem (lib.der (newRoot lib "fleet" 0 rootKey))))
      (some (lib.keyPem intKey))
      (some (lib.pem (lib.der (newIntermediate lib "fleet" 0 issuerKey intKey)))) =
      .ok (loadedCa lib rootKey issuerKey intKey) := by
  simp only [initializeWithIntermediate, initializeRoot, lib.keyFromPem_keyPem, pemToDer,
    lib.certs_pem, hnow, loadIntermediate_new]
  rfl

/-- The second boot of a complete directory has the first one's root and intermediate. -/
theorem chain_holds_on_second_boot : Nonempty CaLib ∧ ∀ lib : CaLib,
    initializeWithIntermediate lib (workingInit 0 [3] [4]) { domain := "fleet" }
      (some (lib.keyPem [1])) (some (lib.pem (lib.der (newRoot lib "fleet" 0 [1]))))
      (some (lib.keyPem [2]))
      (some (lib.pem (lib.der (newIntermediate lib "fleet" 0 [1] [2])))) =
      .ok (loadedCa lib [1] [1] [2]) ∧
    ChainHolds lib (loadedCa lib [1] [1] [2]) := by
  obtain ⟨lib₀, -⟩ := CaLib.exists_publicKey_id
  refine ⟨⟨lib₀⟩, fun lib => ?_⟩
  have hinit := initialize_loaded lib [1] [1] [2] (rfl : (workingInit 0 [3] [4]).now = 0)
  refine ⟨hinit, (chain_holds_iff hinit).mpr ?_⟩
  have hload : loadIntermediate lib (workingInit 0 [3] [4]).now _ _ = _ :=
    loadIntermediate_new lib [1] [2]
  rw [StoredConsistent, hload]
  exact ⟨_, parseCert_pem _, rfl, _, parseCert_pem _, rfl, rfl⟩

theorem isSealed_keyPem (lib : CaLib) (key : KeyPair) :
    Seal.isSealed (Text.utf8 (lib.keyPem key)) = false := by
  obtain ⟨rest, hrest⟩ := lib.keyPem_armoured key
  have htext : Text.utf8 (lib.keyPem key) = 45 :: rest.flatMap String.utf8EncodeChar := by
    rw [← String.ofList_toList (s := lib.keyPem key), hrest, Text.utf8_ofList]
    rfl
  rw [htext]
  simp [Seal.isSealed, Seal.magic]

theorem readPair_of_write {passphrase : Option String} {draw : Option Seal.Draw} {key : KeyPair}
    {data : Bytes} (cert : String)
    (h : Seal.writeMaybeSealed sealLib passphrase draw (Text.utf8 (lib.keyPem key)) = .ok data) :
    readPair sealLib passphrase (.contents data) (.contents (Text.utf8 cert)) =
      .ok (some (lib.keyPem key, cert)) := by
  have hkey : readKey sealLib passphrase (.contents data) = .ok (Text.utf8 (lib.keyPem key)) :=
    Seal.readMaybeSealed_writeMaybeSealed (isSealed_keyPem lib key) h
  simp [readPair, hkey, readToString, FileState.read]

theorem readPair_unsealed (passphrase : Option String) (key : KeyPair) (cert : String) :
    readPair sealLib passphrase (.contents (Text.utf8 (lib.keyPem key)))
      (.contents (Text.utf8 cert)) = .ok (some (lib.keyPem key, cert)) := by
  simp [readPair, readKey, readToString, FileState.read, Seal.readMaybeSealed, isSealed_keyPem]

/-- With every library that tells two keys apart: a first boot with a passphrase, a second without
    it that stops when the new root is written but not yet the new intermediate, and a third with
    the passphrase again. It has the second boot's root and the first boot's intermediate. -/
theorem chain_broken_after_stopped_boot :
    (∃ lib : CaLib, lib.publicKey [1] ≠ lib.publicKey [3]) ∧
    ∀ (lib : CaLib) (sealLib : SealLib), lib.publicKey [1] ≠ lib.publicKey [3] →
    ∃ d d' ca writes,
      bootCa lib sealLib (some "secret") "fleet" (workingEnv 0 [1] [2]) none emptyDir =
        (.ok (newCa lib "fleet" 0 [1] [2]), d) ∧
      bootCa lib sealLib none "fleet" (workingEnv 0 [3] [4]) (some (2, none)) d =
        (.error .stopped, d') ∧
      startCa lib sealLib (some "secret") "fleet" (workingEnv 0 [5] [6]) d' = .ok (ca, writes) ∧
      ¬ ChainHolds lib ca := by
  constructor
  · obtain ⟨lib, hid⟩ := CaLib.exists_publicKey_id
    exact ⟨lib, by rw [hid]; decide⟩
  intro lib sealLib hne
  obtain ⟨d, intData, hfirst, -, hroot, hint, hintData, hintKey, hintCert⟩ :=
    bootCa_sealed lib sealLib
  obtain ⟨rootData', intData', hrootData', -, hboot⟩ :=
    bootCa_new lib sealLib none "fleet" 0 [3] [4] (some (2, none)) hroot hint
  cases hrootData'
  have hsecond := hboot _ rfl
  -- the third boot reads both pairs
  let d' := (persist d [(CaFile.caKey, Except.ok (Text.utf8 (lib.keyPem [3]))),
    (.caCert, .ok (Text.utf8 (lib.pem (lib.der (newRoot lib "fleet" 0 [3])))))] none).2
  have hthird : readPair sealLib (some "secret") (d' .caKey) (d' .caCert) =
      .ok (some (lib.keyPem [3], lib.pem (lib.der (newRoot lib "fleet" 0 [3])))) :=
    readPair_unsealed _ _ _
  have hthird' : readPair sealLib (some "secret") (d' .intKey) (d' .intCert) =
      .ok (some (lib.keyPem [2], lib.pem (lib.der (newIntermediate lib "fleet" 0 [1] [2])))) := by
    change readPair sealLib _ (d .intKey) (d .intCert) = _
    rw [hintKey, hintCert]
    exact readPair_of_write _ hintData
  have hinit := initialize_loaded lib [3] [1] [2] (rfl : (workingInit 0 [5] [6]).now = 0)
  have hstart := startCa_of_reads (workingEnv 0 [5] [6]) hthird hthird' hinit
  refine ⟨d, d', _, _, hfirst, hsecond, hstart, ?_⟩
  rintro ⟨rootPem, intPem, key, root, int, hrp, hip, -, hparse, hparse', hverifies, -⟩
  cases hrp
  cases hip
  cases (parseCert_pem _).symm.trans hparse
  cases (parseCert_pem _).symm.trans hparse'
  exact hne hverifies.signature

end Chain

end Ekafleet.Server
