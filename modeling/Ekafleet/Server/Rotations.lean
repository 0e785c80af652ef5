import Ekafleet.Server.ControlApi
import Ekafleet.Server.KeyRotation

/-! Concurrent key rotations | source: server/api.rs, secrets/store.rs, server/mod.rs

    A rotation draws a key, moves the secret store to it, makes it the fleet key in memory and
    writes it to the key file. Each of these steps takes a lock of its own and gives it back, so the
    steps of two calls mix in any order, and an error in one step leaves the earlier steps done. -/

namespace Ekafleet.Server
open Run
open Secrets (MasterKey SecretStore SecretEntry SealedUnder decrypt secretAad visits rekeyed
  stored_rekeyEntries mem_rekeyed_of_ok rekeyEntries_ok stored_upsert stored_delete mem_visits
  encryptWithKey rekeyEntries)

/-- How far a rotation has come. -/
inductive RotationPhase where
  /-- The secret store has the new key. -/
  | rekeyed
  /-- So has the fleet key in memory. -/
  | remembered
  deriving DecidableEq, Repr

/-- A rotation call that has re-encrypted the secrets and has not returned. -/
structure RotationCall where
  newKey : MasterKey
  phase : RotationPhase
  deriving DecidableEq, Repr

/-- What was done to a key or a secret. -/
inductive KeyMark where
  | rekeyed (key : MasterKey)
  | remembered (key : MasterKey)
  | written (file : Bytes)
  | sealed (service name : String) (key : MasterKey)
  | deleted (service name : String)
  deriving DecidableEq, Repr

/-- The three places that hold the fleet key, and the calls under way, in the order in which they
    re-encrypted. The log, newest first, is history only: no step reads it. -/
structure KeyRing where
  store : SecretStore
  fleetKey : MasterKey
  version : ℕ := 1
  keyFile : Bytes
  /-- The keys of calls that have not touched the store yet. -/
  drawn : List MasterKey := []
  calls : List RotationCall := []
  log : List KeyMark

/-- What happens to a key ring. -/
inductive RotationEvent where
  | draw (random : Option MasterKey)
  | rekey (newKey : MasterKey) (outer inner : HashMap.Order) (nonces : ℕ → Option Secrets.Nonce)
  | remember (newKey : MasterKey)
  /-- A write that fails may leave other contents in the file. -/
  | persist (newKey : MasterKey) (draw : Option Seal.Draw) (fault : Option (Option Bytes))
  | put (nonce : Option Secrets.Nonce) (service name : String) (value : Bytes)
  | delete (service name : String)

variable (aead : Aead) (lib : SealLib) (passphrase : Option String)

namespace KeyRing

/-- The server after its boot. -/
def boot (file : Option Bytes) (random : Option MasterKey) (draw : Option Seal.Draw) :
    Except FleetKeyError KeyRing :=
  (getOrCreateFleetKey lib passphrase file random draw).map fun boot =>
    { store := { rawKey := boot.1 }, fleetKey := boot.1, keyFile := boot.2
      log := [.rekeyed boot.1, .remembered boot.1, .written boot.2] }

/-- What a re-encryption writes to the log. -/
def rekeyMarks (outer inner : HashMap.Order) (nonces : ℕ → Option Secrets.Nonce)
    (newKey : MasterKey) (store : SecretStore) : List KeyMark :=
  (rekeyed aead store.rawKey newKey nonces 0 (visits outer inner store.secrets)).map fun entry =>
    .sealed entry.1 entry.2 newKey

def write (data : Bytes) (s : KeyRing) : KeyRing :=
  { s with keyFile := data, log := .written data :: s.log }

/-- One event of a rotation. -/
def step (s : KeyRing) : RotationEvent → Option KeyRing
  | .draw none => some s
  | .draw (some newKey) => some { s with drawn := s.drawn ++ [newKey] }
  | .rekey newKey outer inner nonces =>
    if newKey ∈ s.drawn then
      let s' := { s with
        drawn := s.drawn.erase newKey
        log := rekeyMarks aead outer inner nonces newKey s.store ++ s.log }
      match s.store.rekey aead outer inner nonces newKey with
      | (.ok _, store) => some { s' with
          store
          calls := s.calls ++ [⟨newKey, .rekeyed⟩]
          log := .rekeyed newKey :: s'.log }
      | (.error _, store) => some { s' with store }
    else none
  | .remember newKey =>
    if ⟨newKey, .rekeyed⟩ ∈ s.calls then
      some { s with
        fleetKey := newKey
        version := s.version + 1
        calls := s.calls.replace ⟨newKey, .rekeyed⟩ ⟨newKey, .remembered⟩
        log := .remembered newKey :: s.log }
    else none
  | .persist newKey draw fault =>
    if ⟨newKey, .remembered⟩ ∈ s.calls then
      let s' := { s with calls := s.calls.erase ⟨newKey, .remembered⟩ }
      match Seal.writeMaybeSealed lib passphrase draw (fleetKeyText newKey), fault with
      | .error _, _ | .ok _, some none => some s'
      | .ok _, some (some left) => some (s'.write left)
      | .ok data, none => some (s'.write data)
    else none
  | .put nonce service name value =>
    match s.store.put aead nonce service name value with
    | some (.ok _, store) =>
      some { s with store, log := .sealed service name s.store.rawKey :: s.log }
    | some (.error _, store) => some { s with store }
    | none => some s
  | .delete service name =>
    some { s with
      store := (s.store.delete service name).2
      log := .deleted service name :: s.log }

/-- No rotation call is running. -/
def Idle (s : KeyRing) : Prop := s.drawn = [] ∧ s.calls = []

/-- Every stored secret can be read. -/
def Readable (s : KeyRing) : Prop :=
  ∀ service name entry, s.store.secrets.stored service name = some entry →
    ∃ plaintext, decrypt aead s.store.rawKey entry.sealed (secretAad service name) = .ok plaintext

/-- The secret store, the memory and the disk have the same key, and the secrets can be read. -/
structure Consistent (s : KeyRing) : Prop where
  memory : s.fleetKey = s.store.rawKey
  disk : readFleetKey lib passphrase s.keyFile = .ok s.store.rawKey
  secrets : s.Readable aead

end KeyRing

/-! ### What the log says -/

namespace KeyMark

def rekeyKey : KeyMark → Option MasterKey
  | .rekeyed key => some key
  | _ => none

def memoryKey : KeyMark → Option MasterKey
  | .remembered key => some key
  | _ => none

def file : KeyMark → Option Bytes
  | .written data => some data
  | _ => none

/-- The key that a secret is sealed under by this; a deletion leaves it without one. -/
def sealing (service name : String) : KeyMark → Option (Option MasterKey)
  | .sealed s n key => if s = service ∧ n = name then some (some key) else none
  | .deleted s n => if s = service ∧ n = name then some none else none
  | _ => none

end KeyMark

namespace KeyRing

/-- The key of the call that re-encrypted last. -/
def lastRekeyed (s : KeyRing) : Option MasterKey := s.log.findSome? KeyMark.rekeyKey

/-- The key of the call that updated the memory last. -/
def lastRemembered (s : KeyRing) : Option MasterKey := s.log.findSome? KeyMark.memoryKey

/-- What was last written to the key file. -/
def lastWritten (s : KeyRing) : Option Bytes := s.log.findSome? KeyMark.file

/-- The key that a stored secret was last sealed under. -/
def sealedUnder (s : KeyRing) (service name : String) : Option MasterKey :=
  (s.log.findSome? (KeyMark.sealing service name)).join

/-- INVARIANT: the log tells what the three places hold, and which key each secret is under. -/
structure Traced (s : KeyRing) : Prop where
  rekeyed : s.lastRekeyed = some s.store.rawKey
  remembered : s.lastRemembered = some s.fleetKey
  written : s.lastWritten = some s.keyFile
  sealed : ∀ service name, Option.Rel
    (fun (key : MasterKey) entry => SealedUnder aead service name key entry.sealed)
    (s.sealedUnder service name) (s.store.secrets.stored service name)

section Log
variable {aead} {outer inner : HashMap.Order} {nonces : ℕ → Option Secrets.Nonce}
  {newKey : MasterKey} {store : SecretStore}

theorem findSome_rekeyMarks_eq_none {β : Type} {f : KeyMark → Option β}
    (hf : ∀ service name key, f (.sealed service name key) = none) :
    (rekeyMarks aead outer inner nonces newKey store).findSome? f = none := by
  rw [List.findSome?_eq_none_iff]
  intro mark hmark
  obtain ⟨entry, -, rfl⟩ := List.mem_map.mp hmark
  exact hf _ _ _

theorem findSome_rekeyMarks_sealing (service name : String) :
    (rekeyMarks aead outer inner nonces newKey store).findSome? (KeyMark.sealing service name) =
      if (service, name) ∈ rekeyed aead store.rawKey newKey nonces 0
        (visits outer inner store.secrets) then some (some newKey) else none := by
  unfold rekeyMarks
  generalize rekeyed aead store.rawKey newKey nonces 0 (visits outer inner store.secrets) = moved
  induction moved with
  | nil => rfl
  | cons entry moved ih =>
    rw [List.map_cons, List.findSome?_cons, ih]
    by_cases hsame : entry = (service, name)
    · subst hsame
      simp [KeyMark.sealing]
    · have hne : ¬ (entry.1 = service ∧ entry.2 = name) := fun h => hsame (Prod.ext h.1 h.2)
      simp [KeyMark.sealing, hne, List.mem_cons, Ne.symm hsame]

/-- FRAME: a mark that says nothing about a secret leaves its key. -/
theorem sealedUnder_cons {s : KeyRing} {mark : KeyMark} {log : List KeyMark} (service name : String)
    (hlog : s.log = mark :: log) :
    s.sealedUnder service name = ((mark.sealing service name).or
      (log.findSome? (KeyMark.sealing service name))).join := by
  rw [sealedUnder, hlog, List.findSome?_cons]
  cases mark.sealing service name <;> rfl

end Log

section Steps
variable {aead} {lib} {passphrase} {s s' : KeyRing}

theorem traced_boot {file : Option Bytes} {random : Option MasterKey} {draw : Option Seal.Draw}
    (h : boot lib passphrase file random draw = .ok s) : s.Traced aead := by
  unfold boot at h
  rcases hkey : getOrCreateFleetKey lib passphrase file random draw with e | boot <;>
    rw [hkey] at h <;> cases h
  exact ⟨rfl, rfl, rfl, fun _ _ => .none⟩

theorem sealed_rekey (ht : s.Traced aead) (outer inner : HashMap.Order)
    (nonces : ℕ → Option Secrets.Nonce) (newKey : MasterKey) (service name : String) :
    Option.Rel (fun (key : MasterKey) entry => SealedUnder aead service name key entry.sealed)
      (((rekeyMarks aead outer inner nonces newKey s.store ++ s.log).findSome?
        (KeyMark.sealing service name)).join)
      ((s.store.rekey aead outer inner nonces newKey).2.secrets.stored service name) := by
  have hvisits : ∀ v ∈ visits outer inner s.store.secrets,
      (s.store.secrets.stored v.1 v.2.1).isSome := fun v hv => by
    rw [mem_visits.mp (show (v.1, v.2.1, v.2.2) ∈ visits outer inner s.store.secrets from hv)]
    rfl
  rw [List.findSome?_append, findSome_rekeyMarks_sealing, SecretStore.rekey_secrets]
  rcases (stored_rekeyEntries hvisits :
      ((service, name) ∈ rekeyed aead s.store.rawKey newKey nonces 0 _ ∧ _) ∨ _) with
    ⟨hmem, entry, hentry, hsealed⟩ | ⟨hmem, hkept⟩
  · rw [if_pos hmem, hentry]
    exact .some hsealed
  · rw [if_neg hmem, hkept]
    exact ht.sealed service name

theorem traced_write (ht : s.Traced aead) (data : Bytes) : (s.write data).Traced aead :=
  ⟨ht.rekeyed, ht.remembered, rfl, fun service name => by
    rw [sealedUnder_cons service name rfl]
    exact ht.sealed service name⟩

theorem traced_calls (ht : s.Traced aead) (calls : List RotationCall) :
    Traced aead { s with calls } :=
  ⟨ht.rekeyed, ht.remembered, ht.written, ht.sealed⟩

/-- STEP: every step keeps the log. -/
theorem traced_step {e : RotationEvent} (ht : s.Traced aead)
    (hstep : s.step aead lib passphrase e = some s') : s'.Traced aead := by
  cases e with
  | draw random =>
    cases random <;> cases hstep
    · exact ht
    · exact ⟨ht.rekeyed, ht.remembered, ht.written, ht.sealed⟩
  | rekey newKey outer inner nonces =>
    simp only [step] at hstep
    split at hstep
    case isFalse => cases hstep
    case isTrue =>
    have hsealed := sealed_rekey ht outer inner nonces newKey
    have hframe {β : Type} {f : KeyMark → Option β}
        (hf : ∀ service name key, f (.sealed service name key) = none) :
        (rekeyMarks aead outer inner nonces newKey s.store ++ s.log).findSome? f =
          s.log.findSome? f := by
      rw [List.findSome?_append, findSome_rekeyMarks_eq_none hf, Option.none_or]
    split at hstep
    · next count store hrekey =>
      rw [hrekey] at hsealed
      obtain rfl := Option.some.inj hstep
      have hkey : store.rawKey = newKey := by
        unfold SecretStore.rekey at hrekey
        split at hrekey <;> cases hrekey
        rfl
      refine ⟨congrArg some hkey.symm, ?_, ?_, fun service name => ?_⟩
      · exact (hframe fun _ _ _ => rfl).trans ht.remembered
      · exact (hframe fun _ _ _ => rfl).trans ht.written
      · rw [sealedUnder_cons service name rfl]
        exact hsealed service name
    · next error store hrekey =>
      rw [hrekey] at hsealed
      obtain rfl := Option.some.inj hstep
      have hkey : store.rawKey = s.store.rawKey := by
        unfold SecretStore.rekey at hrekey
        split at hrekey <;> cases hrekey
        rfl
      refine ⟨?_, ?_, ?_, hsealed⟩
      · exact ((hframe fun _ _ _ => rfl).trans ht.rekeyed).trans (congrArg some hkey.symm)
      · exact (hframe fun _ _ _ => rfl).trans ht.remembered
      · exact (hframe fun _ _ _ => rfl).trans ht.written
  | remember newKey =>
    simp only [step] at hstep
    split at hstep <;> cases hstep
    refine ⟨ht.rekeyed, rfl, ht.written, fun service name => ?_⟩
    rw [sealedUnder_cons service name rfl]
    exact ht.sealed service name
  | persist newKey draw fault =>
    grind [step, traced_calls, traced_write]
  | put nonce service name value =>
    simp only [step] at hstep
    split at hstep
    · next version store hput =>
      obtain ⟨hkey, entry, hsealed, hstored⟩ := SecretStore.put_ok hput
      cases hstep
      refine ⟨ht.rekeyed.trans (congrArg some hkey.symm), ht.remembered, ht.written,
        fun service' name' => ?_⟩
      rw [sealedUnder_cons service' name' rfl, hstored]
      by_cases hsame : service = service' ∧ name = name'
      · obtain ⟨rfl, rfl⟩ := hsame
        simp only [KeyMark.sealing, and_self, if_true, Option.some_or, Option.join_some]
        exact .some hsealed
      · rw [if_neg fun h => hsame ⟨h.1.symm, h.2.symm⟩]
        simp only [KeyMark.sealing, if_neg hsame]
        exact ht.sealed service' name'
    · next error store hput =>
      cases hstep
      rcases SecretStore.put_cases hput with ⟨-, -, rfl⟩ | ⟨-, -, hok, -⟩
      · exact ht
      · cases hok
    · cases hstep
      exact ht
  | delete service name =>
    cases hstep
    refine ⟨ht.rekeyed, ht.remembered, ht.written, fun service' name' => ?_⟩
    rw [sealedUnder_cons service' name' rfl, stored_delete]
    by_cases hsame : service = service' ∧ name = name'
    · obtain ⟨rfl, rfl⟩ := hsame
      simp [KeyMark.sealing]
    · rw [if_neg fun h => hsame ⟨h.1.symm, h.2.symm⟩]
      simp only [KeyMark.sealing, if_neg hsame]
      exact ht.sealed service' name'

theorem readable_iff (hideal : aead.Ideal) (ht : s.Traced aead) :
    s.Readable aead ↔
      ∀ service name key, s.sealedUnder service name = some key → key = s.store.rawKey := by
  constructor
  · intro h service name key hkey
    have hrel := ht.sealed service name
    rw [hkey] at hrel
    cases hstored : s.store.secrets.stored service name with
    | none => rw [hstored] at hrel; cases hrel
    | some entry =>
      rw [hstored] at hrel
      obtain ⟨hsealed⟩ := hrel
      exact Subtype.ext ((hsealed.opens_iff hideal).mp (h service name entry hstored)).symm
  · intro h service name entry hstored
    have hrel := ht.sealed service name
    rw [hstored] at hrel
    cases hkey : s.sealedUnder service name with
    | none => rw [hkey] at hrel; cases hrel
    | some key =>
      rw [hkey] at hrel
      obtain ⟨hsealed⟩ := hrel
      obtain rfl := h service name key hkey
      exact (hsealed.opens_iff hideal).mpr rfl

variable (lib passphrase s) in
/-- The calls that re-encrypted last, updated the memory last and wrote the key file last have one
    key, and every stored secret was last sealed under it. -/
def LastAgree : Prop :=
  ∃ key, s.lastRekeyed = some key ∧ s.lastRemembered = some key ∧
    (∃ file, s.lastWritten = some file ∧ readFleetKey lib passphrase file = .ok key) ∧
    ∀ service name k, s.sealedUnder service name = some k → k = key

theorem consistent_iff (hideal : aead.Ideal) (ht : s.Traced aead) :
    s.Consistent aead lib passphrase ↔ s.LastAgree lib passphrase := by
  constructor
  · rintro ⟨hmemory, hdisk, hsecrets⟩
    exact ⟨s.store.rawKey, ht.rekeyed, hmemory ▸ ht.remembered, ⟨s.keyFile, ht.written, hdisk⟩,
      (readable_iff hideal ht).mp hsecrets⟩
  · rintro ⟨key, hrekeyed, hremembered, ⟨file, hwritten, hfile⟩, hsealed⟩
    obtain rfl := Option.some.inj (ht.rekeyed.symm.trans hrekeyed)
    obtain rfl := Option.some.inj (ht.written.symm.trans hwritten)
    exact ⟨Option.some.inj (ht.remembered.symm.trans hremembered), hfile,
      (readable_iff hideal ht).mpr hsealed⟩

end Steps

/-! ### Calls that take turns -/

/-- A step that is in turn: calls update the memory and write the file in the order in which they
    re-encrypted, a re-encryption does not stop half way, and the file is written. -/
def InTurn (s : KeyRing) : RotationEvent → Prop
  | .rekey _ outer inner nonces =>
    nonces 0 = none ∨ ∀ i < (visits outer inner s.store.secrets).length, (nonces i).isSome
  | .remember newKey =>
    s.calls.find? (fun call => call.phase = .rekeyed) = some ⟨newKey, .rekeyed⟩
  | .persist newKey draw fault => s.calls.head? = some ⟨newKey, .remembered⟩ ∧ fault = none ∧
      (passphrase.isSome → draw.isSome)
  | .draw _ | .put .. | .delete .. => True

/-- INVARIANT of calls in turn: the calls that updated the memory come first, and each place has the
    key of the last call that passed it. -/
structure Queued (s : KeyRing) (disk : MasterKey) (remembered rekeyed : List MasterKey) : Prop where
  file : readFleetKey lib passphrase s.keyFile = .ok disk
  calls : s.calls = remembered.map (⟨·, .remembered⟩) ++ rekeyed.map (⟨·, .rekeyed⟩)
  memory : s.fleetKey = remembered.getLast?.getD disk
  store : s.store.rawKey = (remembered ++ rekeyed).getLast?.getD disk
  secrets : s.Readable aead

section Turns
variable {aead} {lib} {passphrase} {s s' : KeyRing} {disk : MasterKey}
  {remembered rekeyed : List MasterKey}

variable {random : Option MasterKey} {newKey : MasterKey}

theorem readFleetKey_of_boot {file : Option Bytes} {draw : Option Seal.Draw} {key : MasterKey}
    {data : Bytes} (h : getOrCreateFleetKey lib passphrase file random draw = .ok (key, data)) :
    readFleetKey lib passphrase data = .ok key := by
  unfold getOrCreateFleetKey at h
  rcases file with _ | file
  · rcases random with _ | random
    · cases h
    · simp only at h
      split at h
      · cases h
      · next hwrite =>
        cases h
        exact readFleetKey_of_write hwrite
  · rcases hread : readFleetKey lib passphrase file with e | key' <;> simp only [hread] at h <;>
      cases h
    exact hread

theorem queued_boot {file : Option Bytes} {draw : Option Seal.Draw}
    (h : boot lib passphrase file random draw = .ok s) :
    s.Queued aead lib passphrase s.fleetKey [] [] := by
  unfold boot at h
  rcases hkey : getOrCreateFleetKey lib passphrase file random draw with e | ⟨key, data⟩ <;>
    rw [hkey] at h <;> cases h
  exact ⟨readFleetKey_of_boot hkey, rfl, rfl, rfl, fun _ _ _ h => by cases h⟩

theorem Queued.consistent (hq : s.Queued aead lib passphrase disk remembered rekeyed)
    (hidle : s.Idle) : s.Consistent aead lib passphrase := by
  have hnil := hq.calls.symm.trans hidle.2
  obtain ⟨hrem, hrek⟩ := List.append_eq_nil_iff.mp hnil
  obtain rfl := List.map_eq_nil_iff.mp hrem
  obtain rfl := List.map_eq_nil_iff.mp hrek
  have hstore : s.store.rawKey = disk := hq.store
  have hmemory : s.fleetKey = disk := hq.memory
  exact ⟨hmemory.trans hstore.symm, hstore ▸ hq.file, hq.secrets⟩

theorem queued_rekey_ok (hideal : aead.Ideal)
    (hq : s.Queued aead lib passphrase disk remembered rekeyed) {outer inner : HashMap.Order}
    {nonces : ℕ → Option Secrets.Nonce} {count : ℕ} {store : SecretStore}
    (h : s.store.rekey aead outer inner nonces newKey = (.ok count, store)) (drawn : List MasterKey)
    (log : List KeyMark) :
    Queued aead lib passphrase { s with
      store, drawn, calls := s.calls ++ [⟨newKey, .rekeyed⟩], log } disk remembered
      (rekeyed ++ [newKey]) := by
  obtain ⟨hkey, hsealed⟩ := SecretStore.rekey_ok h
  refine ⟨hq.file, ?_, hq.memory, ?_, fun service name entry hentry => ?_⟩
  · simp [hq.calls]
  · simp [hkey, ← List.append_assoc]
  · exact ((hsealed service name entry hentry).opens_iff hideal).mpr (by rw [hkey])

theorem queued_remember (hq : s.Queued aead lib passphrase disk remembered rekeyed)

    (hfirst : s.calls.find? (fun call => call.phase = .rekeyed) = some ⟨newKey, .rekeyed⟩)
    (version : ℕ) (log : List KeyMark) :
    ∃ rest, rekeyed = newKey :: rest ∧ Queued aead lib passphrase { s with
      fleetKey := newKey, version
      calls := s.calls.replace ⟨newKey, .rekeyed⟩ ⟨newKey, .remembered⟩
      log } disk (remembered ++ [newKey]) rest := by
  have hskip : ∀ keys : List MasterKey,
      (keys.map (⟨·, .remembered⟩ : MasterKey → RotationCall)).find?
        (fun call => call.phase = .rekeyed) = none := by
    intro keys
    simp
  rw [hq.calls, List.find?_append, hskip, Option.none_or] at hfirst
  rcases rekeyed with _ | ⟨key, rest⟩
  · cases hfirst
  · obtain rfl : key = newKey := by simpa using hfirst
    refine ⟨rest, rfl, hq.file, ?_, ?_, ?_, hq.secrets⟩
    · have hnot : (⟨key, .rekeyed⟩ : RotationCall) ∉
          remembered.map (⟨·, .remembered⟩ : MasterKey → RotationCall) := by simp
      simp [hq.calls, List.replace_append_right hnot]
    · simp
    · simpa using hq.store

theorem queued_persist (hq : s.Queued aead lib passphrase disk remembered rekeyed)
    (hfirst : s.calls.head? = some ⟨newKey, .remembered⟩) {data : Bytes}
    (hdata : readFleetKey lib passphrase data = .ok newKey) :
    ∃ rest, remembered = newKey :: rest ∧ Queued aead lib passphrase
      (write data { s with calls := s.calls.erase ⟨newKey, .remembered⟩ }) newKey rest rekeyed := by
  rcases remembered with _ | ⟨key, rest⟩
  · rcases rekeyed with _ | ⟨key, rest⟩ <;> simp [hq.calls] at hfirst
  · obtain rfl : key = newKey := by simpa [hq.calls] using hfirst
    refine ⟨rest, rfl, hdata, ?_, ?_, ?_, hq.secrets⟩
    · simp [write, hq.calls]
    · have hmemory := hq.memory
      rwa [List.getLast?_cons, Option.getD_some] at hmemory
    · have hstore := hq.store
      rwa [List.cons_append, List.getLast?_cons, Option.getD_some] at hstore

/-- STEP: a step in turn keeps the queue. -/
theorem queued_step (hideal : aead.Ideal)
    (hq : s.Queued aead lib passphrase disk remembered rekeyed) {e : RotationEvent}
    (hturn : s.InTurn passphrase e) (hstep : s.step aead lib passphrase e = some s') :
    ∃ disk' remembered' rekeyed', s'.Queued aead lib passphrase disk' remembered' rekeyed' := by
  cases e with
  | draw random =>
    cases random <;> cases hstep
    · exact ⟨disk, remembered, rekeyed, hq⟩
    · exact ⟨disk, remembered, rekeyed, hq.file, hq.calls, hq.memory, hq.store, hq.secrets⟩
  | rekey newKey outer inner nonces =>
    simp only [step] at hstep
    split at hstep
    case isFalse => cases hstep
    case isTrue =>
    split at hstep
    · next count store hrekey =>
      cases hstep
      exact ⟨disk, remembered, _, queued_rekey_ok hideal hq hrekey _ _⟩
    · next error store hrekey =>
      cases hstep
      obtain rfl := SecretStore.rekey_error hrekey hq.secrets hturn
      exact ⟨disk, remembered, rekeyed, hq.file, hq.calls, hq.memory, hq.store, hq.secrets⟩
  | remember newKey =>
    simp only [step] at hstep
    split at hstep <;> cases hstep
    obtain ⟨rest, -, hrest⟩ := queued_remember hq hturn (s.version + 1)
      (.remembered newKey :: s.log)
    exact ⟨disk, _, rest, hrest⟩
  | persist newKey draw fault =>
    obtain ⟨hfirst, rfl, hdraw⟩ := hturn
    have hwrite : ∃ data, Seal.writeMaybeSealed lib passphrase draw (fleetKeyText newKey) =
        .ok data := by
      rcases passphrase with _ | pass
      · exact ⟨_, rfl⟩
      · obtain ⟨draw, rfl⟩ := Option.isSome_iff_exists.mp (hdraw rfl)
        exact ⟨_, rfl⟩
    obtain ⟨data, hdata⟩ := hwrite
    simp only [step, hdata] at hstep
    split at hstep <;> cases hstep
    obtain ⟨rest, -, hrest⟩ := queued_persist hq hfirst (readFleetKey_of_write hdata)
    exact ⟨newKey, rest, rekeyed, hrest⟩
  | put nonce service name value =>
    simp only [step] at hstep
    split at hstep
    · next version store hput =>
      obtain ⟨hkey, entry, hsealed, hstored⟩ := SecretStore.put_ok hput
      cases hstep
      refine ⟨disk, remembered, rekeyed, hq.file, hq.calls, hq.memory, hkey.trans hq.store,
        fun service' name' entry' hentry' => ?_⟩
      simp only [hstored] at hentry'
      simp only [hkey]
      split at hentry'
      · next hsame =>
        obtain ⟨rfl, rfl⟩ := hsame
        obtain rfl := Option.some.inj hentry'
        exact (hsealed.opens_iff hideal).mpr rfl
      · exact hq.secrets service' name' entry' hentry'
    · next error store hput =>
      cases hstep
      rcases SecretStore.put_cases hput with ⟨-, -, rfl⟩ | ⟨-, -, hok, -⟩
      · exact ⟨disk, remembered, rekeyed, hq⟩
      · cases hok
    · cases hstep
      exact ⟨disk, remembered, rekeyed, hq⟩
  | delete service name =>
    cases hstep
    refine ⟨disk, remembered, rekeyed, hq.file, hq.calls, hq.memory, hq.store,
      fun service' name' entry' hentry' => ?_⟩
    rw [stored_delete] at hentry'
    split at hentry'
    · cases hentry'
    · exact hq.secrets service' name' entry' hentry'

end Turns

end KeyRing

open KeyRing

/-! ### The handler -/

def ControlState.withKeys (c : ControlState) (s : KeyRing) : ControlState :=
  { c with secretStore := s.store, fleetKey := ⟨s.fleetKey, s.version⟩ }

/-- No rotation is running. -/
def KeyRing.idle (s : KeyRing) : KeyRing := { s with drawn := [], calls := [] }

theorem rotateFleetKey_is_run (world : World) (ext : Extensions) (c : ControlState) (s : KeyRing) :
    ∃ events s', run (step aead lib passphrase) s.idle events = some s'.idle ∧
      (rotateFleetKey aead world ext (c.withKeys s)).2 = c.withKeys s' := by
  rcases hperm : requirePermission ext .manageTokens with e | ⟨⟩
  · have hhandler : rotateFleetKey aead world ext (c.withKeys s) = _ := permit_error hperm _ _
    exact ⟨[], s, rfl, by rw [hhandler]⟩
  have hhandler : rotateFleetKey aead world ext (c.withKeys s) = _ := permit_ok hperm _ _
  rw [hhandler]
  rcases world.randomKey with _ | newKey
  · exact ⟨[], s, rfl, rfl⟩
  let marks := rekeyMarks aead world.order world.innerOrder world.nonces newKey s.store
  simp only [Effect.bind_apply, rekeySecrets]
  rcases hrekey : (c.withKeys s).secretStore.rekey aead world.order world.innerOrder
    world.nonces newKey with ⟨e | count, store⟩
  · refine ⟨[.draw (some newKey), .rekey newKey world.order world.innerOrder world.nonces],
      { s with store, log := marks ++ s.log }, ?_, rfl⟩
    simp_all [ControlState.withKeys, KeyRing.idle, step, marks]
  · -- the write to the file fails, which neither the store nor the memory sees
    refine ⟨[.draw (some newKey), .rekey newKey world.order world.innerOrder world.nonces,
      .remember newKey, .persist newKey none (some none)],
      { s with
        store, fleetKey := newKey, version := s.version + 1
        log := .remembered newKey :: .rekeyed newKey :: (marks ++ s.log) }, ?_, ?_⟩
    · cases hwrite : Seal.writeMaybeSealed lib passphrase none (fleetKeyText newKey) <;>
        simp_all [ControlState.withKeys, KeyRing.idle, step, marks]
    · simp only [Effect.read, Effect.update]
      cases world.persistError <;> rfl

section Runs
variable {aead lib passphrase} {s₀ s : KeyRing} {events : List RotationEvent}

variable {random : Option MasterKey}

theorem traced_run {file : Option Bytes} {draw : Option Seal.Draw}
    (hboot : boot lib passphrase file random draw = .ok s₀)
    (hrun : run (step aead lib passphrase) s₀ events = some s) : s.Traced aead :=
  invariant _ (Traced aead) (traced_boot hboot) (fun _ _ _ ht hstep => traced_step ht hstep) hrun

/-- RUN: in a run whose steps are all in turn, the calls form a queue. -/
theorem queued_run (hideal : aead.Ideal) {file : Option Bytes} {draw : Option Seal.Draw}
    (hboot : boot lib passphrase file random draw = .ok s₀)
    (hturn : ∀ pre e s, pre ++ [e] <+: events → run (step aead lib passphrase) s₀ pre = some s →
      s.InTurn passphrase e) {pre : List RotationEvent} (hpre : pre <+: events)
    (hrun : run (step aead lib passphrase) s₀ pre = some s) :
    ∃ disk remembered rekeyed, s.Queued aead lib passphrase disk remembered rekeyed := by
  refine invariant_history (step aead lib passphrase) s₀ (fun tr s => tr <+: events →
    ∃ disk remembered rekeyed, s.Queued aead lib passphrase disk remembered rekeyed)
    (fun _ => ⟨_, _, _, queued_boot hboot⟩) ?_ hrun hpre
  grind [List.prefix_append, queued_step]

end Runs

/-- EXACT: with an ideal cipher, whenever no rotation is running after any mix of rotation calls and
    secret writes, the three places have one key that opens every secret if and only if the calls
    that came last to each place have one key and each secret was last sealed under it. This is so
    in every run whose steps are in turn. -/
theorem rotations_consistent_iff (hideal : aead.Ideal) (file : Option Bytes)
    (random : Option MasterKey) (draw : Option Seal.Draw) (s₀ : KeyRing)
    (hboot : boot lib passphrase file random draw = .ok s₀) (events : List RotationEvent) :
    ((∀ pre s, pre <+: events → run (step aead lib passphrase) s₀ pre = some s → s.Idle →
        s.Consistent aead lib passphrase) ↔
      ∀ pre s, pre <+: events → run (step aead lib passphrase) s₀ pre = some s → s.Idle →
        s.LastAgree lib passphrase) ∧
    ((∀ pre e s, pre ++ [e] <+: events → run (step aead lib passphrase) s₀ pre = some s →
        s.InTurn passphrase e) →
      ∀ pre s, pre <+: events → run (step aead lib passphrase) s₀ pre = some s → s.Idle →
        s.Consistent aead lib passphrase) := by
  constructor
  · have hiff : ∀ pre s, run (step aead lib passphrase) s₀ pre = some s →
        (s.Consistent aead lib passphrase ↔ s.LastAgree lib passphrase) :=
      fun pre s hrun => consistent_iff hideal (traced_run hboot hrun)
    constructor
    · intro h pre s hpre hrun hidle
      exact (hiff pre s hrun).mp (h pre s hpre hrun hidle)
    · intro h pre s hpre hrun hidle
      exact (hiff pre s hrun).mpr (h pre s hpre hrun hidle)
  · intro hturn pre s hpre hrun hidle
    obtain ⟨disk, remembered, rekeyed, hq⟩ := queued_run hideal hboot hturn hpre hrun
    exact hq.consistent hidle

/-! ### Three ways to lose a secret -/

namespace Mixed

def key (b : UInt8) : MasterKey := ⟨List.replicate 32 b, List.length_replicate⟩

def nonce : Secrets.Nonce := ⟨List.replicate Secrets.nonceLen 0, List.length_replicate⟩

def seals : SealLib := ⟨fun _ _ _ => [], .keyed⟩

/-- A server whose key file was created by this boot. -/
def booted : KeyRing where
  store := { rawKey := key 1 }
  fleetKey := key 1
  keyFile := fleetKeyText (key 1)
  log := [.rekeyed (key 1), .remembered (key 1), .written (fleetKeyText (key 1))]

theorem boot_booted : boot seals none none (some (key 1)) none = .ok booted := rfl

def rekey (newKey : MasterKey) : RotationEvent :=
  .rekey newKey .asBuilt .asBuilt fun _ => some nonce

/-- A secret is put and the key is rotated once. -/
def single : List RotationEvent :=
  [.put (some nonce) "web" "db" [7], .draw (some (key 2)), rekey (key 2), .remember (key 2),
    .persist (key 2) none none]

/-- Two calls: the second one overtakes the first in memory. -/
def overtaking : List RotationEvent :=
  [.draw (some (key 2)), .draw (some (key 3)), rekey (key 2), rekey (key 3), .remember (key 3),
    .remember (key 2), .persist (key 3) none none, .persist (key 2) none none]

/-- The key file cannot be written. -/
def diskFull : List RotationEvent :=
  [.draw (some (key 2)), rekey (key 2), .remember (key 2), .persist (key 2) none (some none)]

/-- The random generator fails at the second of two secrets. -/
def halfWay : List RotationEvent :=
  [.put (some nonce) "web" "db" [7], .put (some nonce) "web" "tls" [8], .draw (some (key 2)),
    .rekey (key 2) .asBuilt .asBuilt fun i => if i = 0 then some nonce else none]

def after (events : List RotationEvent) : Option KeyRing :=
  run (step .keyed seals none) booted events

end Mixed

open Mixed in
/-- A rotation that runs alone and does not fail is in turn: the secret can be read under the new
    key, which is in memory and on disk. -/
theorem single_rotation_consistent : Aead.keyed.Ideal ∧
    boot seals none none (some (key 1)) none = .ok booted ∧
    ∃ s, after single = some s ∧ s.Idle ∧ s.store.rawKey = key 2 ∧ s.version = 2 ∧
      s.Consistent .keyed seals none := by
  refine ⟨Aead.keyed_ideal, boot_booted, ?_⟩
  have hmap : (after single).map (fun s => (s.drawn, s.calls, s.store.rawKey, s.version)) =
      some ([], [], key 2, 2) := by decide +kernel
  obtain ⟨s, hs, heq⟩ := Option.map_eq_some_iff.mp hmap
  simp only [Prod.mk.injEq] at heq
  obtain ⟨hdrawn, hcalls, hkey, hversion⟩ := heq
  refine ⟨s, hs, ⟨hdrawn, hcalls⟩, hkey, hversion, ?_⟩
  refine (rotations_consistent_iff .keyed seals none Aead.keyed_ideal none
    (some (key 1)) none booted
    boot_booted single).2 ?_ single s List.prefix_rfl hs ⟨hdrawn, hcalls⟩
  intro pre e m hpre hm
  have hsingle : single = ((([.put (some nonce) "web" "db" [7]] ++ [.draw (some (key 2))]) ++
    [rekey (key 2)]) ++ [.remember (key 2)]) ++ [.persist (key 2) none none] := rfl
  have hcalls : (after pre).map KeyRing.calls = some m.calls := congrArg (Option.map _) hm
  rw [hsingle] at hpre
  rcases concat_prefix_concat_iff.mp hpre with ⟨rfl, rfl⟩ | hpre
  · have hnow : (after single.dropLast).map KeyRing.calls = some [⟨key 2, .remembered⟩] := by
      decide +kernel
    obtain hm := Option.some.inj (hcalls.symm.trans hnow)
    exact ⟨by rw [hm]; rfl, rfl, fun h => by cases h⟩
  rcases concat_prefix_concat_iff.mp hpre with ⟨rfl, rfl⟩ | hpre
  · have hnow : (after (single.take 3)).map KeyRing.calls = some [⟨key 2, .rekeyed⟩] := by
      decide +kernel
    obtain hm := Option.some.inj (hcalls.symm.trans hnow)
    rw [KeyRing.InTurn, hm]
    rfl
  rcases concat_prefix_concat_iff.mp hpre with ⟨rfl, rfl⟩ | hpre
  · exact .inr fun _ _ => rfl
  rcases concat_prefix_concat_iff.mp hpre with ⟨rfl, rfl⟩ | hpre
  · trivial
  obtain ⟨rfl, rfl⟩ : pre = [] ∧ e = .put (some nonce) "web" "db" [7] := by
    have hlast : pre ++ [e] <+: [] ++ [.put (some nonce) "web" "db" [7]] := hpre
    simpa using concat_prefix_concat_iff.mp hlast
  trivial

open Mixed in
/-- Two calls that overtake each other leave the store with one key and the memory and the disk with
    another; a failed write leaves the old key on disk; a re-encryption that fails half way leaves a
    secret that the store cannot read. -/
theorem rotations_disagree : Aead.keyed.Ideal ∧
    boot seals none none (some (key 1)) none = .ok booted ∧
    (∃ s, after overtaking = some s ∧ s.Idle ∧ s.store.rawKey = key 3 ∧ s.fleetKey = key 2 ∧
      readFleetKey seals none s.keyFile = .ok (key 2) ∧ ¬ s.Consistent .keyed seals none) ∧
    (∃ s, after diskFull = some s ∧ s.Idle ∧ s.store.rawKey = key 2 ∧
      readFleetKey seals none s.keyFile = .ok (key 1) ∧ ¬ s.Consistent .keyed seals none) ∧
    ∃ s, after halfWay = some s ∧ s.Idle ∧ s.store.rawKey = key 1 ∧
      s.store.get .keyed "web" "tls" = .error .decrypt ∧ ¬ s.Consistent .keyed seals none := by
  refine ⟨Aead.keyed_ideal, boot_booted, ?_, ?_, ?_⟩
  · have hmap : (after overtaking).map (fun s => (s.drawn, s.calls, s.store.rawKey, s.fleetKey)) =
        some ([], [], key 3, key 2) := by decide +kernel
    have hfile : (after overtaking).map KeyRing.keyFile = some (fleetKeyText (key 2)) := by
      decide +kernel
    obtain ⟨s, hs, heq⟩ := Option.map_eq_some_iff.mp hmap
    simp only [Prod.mk.injEq] at heq
    obtain ⟨hdrawn, hcalls, hstore, hmemory⟩ := heq
    rw [hs, Option.map_some, Option.some.injEq] at hfile
    refine ⟨s, hs, ⟨hdrawn, hcalls⟩, hstore, hmemory, hfile ▸ readFleetKey_text seals (key 2), ?_⟩
    intro hc
    exact absurd (hmemory.symm.trans (hc.memory.trans hstore)) (by decide)
  · have hmap : (after diskFull).map (fun s => (s.drawn, s.calls, s.store.rawKey, s.keyFile)) =
        some ([], [], key 2, fleetKeyText (key 1)) := by decide +kernel
    obtain ⟨s, hs, heq⟩ := Option.map_eq_some_iff.mp hmap
    simp only [Prod.mk.injEq] at heq
    obtain ⟨hdrawn, hcalls, hstore, hfile⟩ := heq
    have hdisk : readFleetKey seals none s.keyFile = .ok (key 1) :=
      hfile ▸ readFleetKey_text seals (key 1)
    refine ⟨s, hs, ⟨hdrawn, hcalls⟩, hstore, hdisk, fun hc => ?_⟩
    have hsame := Except.ok.inj (hdisk.symm.trans hc.disk)
    exact absurd (hsame.trans hstore) (by decide)
  · have hmap : (after halfWay).map (fun s => (s.drawn, s.calls, s.store.rawKey)) =
        some ([], [], key 1) := by decide +kernel
    have hget : (after halfWay).map (fun s => s.store.get .keyed "web" "tls") =
        some (.error .decrypt) := by decide +kernel
    obtain ⟨s, hs, heq⟩ := Option.map_eq_some_iff.mp hmap
    simp only [Prod.mk.injEq] at heq
    obtain ⟨hdrawn, hcalls, hstore⟩ := heq
    rw [hs, Option.map_some, Option.some.injEq] at hget
    refine ⟨s, hs, ⟨hdrawn, hcalls⟩, hstore, hget, fun hc => ?_⟩
    unfold SecretStore.get at hget
    split at hget
    · next entry hentry =>
      obtain ⟨plaintext, hplain⟩ := hc.secrets "web" "tls" entry hentry
      rw [hplain] at hget
      cases hget
    · cases hget

end Ekafleet.Server
