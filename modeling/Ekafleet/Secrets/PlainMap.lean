import Ekafleet.Lib.Run
import Ekafleet.Secrets.Store

/-! The secret store as a plain map | source: secrets/store.rs

    What the store holds are ciphertexts under the fleet key, bound to their service and name, and
    a rotation of the key replaces them all. To its callers it is a map from secrets to values
    with a count of the puts since the secret was last absent. -/

namespace Ekafleet.Secrets

/-- A call on one store handle, with what the random generator gives it. -/
inductive SecretCall where
  | put (service name : String) (value : Bytes) (nonce : Nonce)
  | get (service name : String)
  | delete (service name : String)
  | rekey (newKey : MasterKey) (outer inner : HashMap.Order) (nonces : ℕ → Nonce)

/-- No result stands for the panic of a version number that overflows. -/
def SecretStore.step (aead : Aead) (store : SecretStore) : SecretCall → Option SecretStore
  | .put service name value nonce => (store.put aead (some nonce) service name value).map (·.2)
  | .get _ _ => some store
  | .delete service name => some (store.delete service name).2
  | .rekey newKey outer inner nonces =>
    some (store.rekey aead outer inner (fun i => some (nonces i)) newKey).2

/-! ### The map -/

abbrev PlainMap := String → String → Option (Bytes × ℕ)

def PlainMap.set (m : PlainMap) (service name : String) (v : Option (Bytes × ℕ)) : PlainMap :=
  fun service' name' => if service' = service ∧ name' = name then v else m service' name'

def PlainMap.nextVersion (m : PlainMap) (service name : String) : ℕ :=
  ((m service name).map (·.2 + 1)).getD 1

def PlainMap.step (m : PlainMap) : SecretCall → PlainMap
  | .put service name value _ => m.set service name (some (value, m.nextVersion service name))
  | .delete service name => m.set service name none
  | .get _ _ | .rekey _ _ _ _ => m

/-- The map after the calls, from an empty one. -/
def plain (calls : List SecretCall) : PlainMap := calls.foldl PlainMap.step fun _ _ => none

theorem plain_concat (calls : List SecretCall) (call : SecretCall) :
    plain (calls ++ [call]) = (plain calls).step call := by
  rw [plain, List.foldl_concat, plain]

theorem version_le_length {calls : List SecretCall} {service name : String} {v : Bytes × ℕ} :
    plain calls service name = some v → v.2 ≤ calls.length := by
  induction calls using List.reverseRecOn generalizing service name v with
  | nil =>
    intro h
    cases h
  | append_singleton calls call ih =>
    rw [plain_concat, List.length_append, List.length_singleton]
    have hnext : ∀ service name, (plain calls).nextVersion service name ≤ calls.length + 1 := by
      intro service name
      rw [PlainMap.nextVersion]
      rcases hv : plain calls service name with _ | v
      · simp
      · simpa using ih hv
    cases call <;> simp only [PlainMap.step, PlainMap.set] <;> grind

/-! ### The simulation -/

section Simulation
variable {aead : Aead}

/-- The entry is a sealing of the value under the key, with the same version. -/
def SealsValue (aead : Aead) (key : Bytes) (service name : String) (entry : SecretEntry)
    (v : Bytes × ℕ) : Prop :=
  entry.version = v.2 ∧
    ∃ nonce : Nonce, entry.sealed = nonce ++ aead.sealWith key nonce (secretAad service name) v.1

/-- Every secret of the store is that of the map, sealed under the current key. -/
def Holds (aead : Aead) (store : SecretStore) (m : PlainMap) : Prop :=
  ∀ service name, Option.Rel (SealsValue aead store.rawKey service name)
    (store.secrets.stored service name) (m service name)

theorem SealsValue.decrypt_eq {key : Bytes} {service name : String} {entry : SecretEntry}
    {v : Bytes × ℕ} (h : SealsValue aead key service name entry v) :
    decrypt aead key entry.sealed (secretAad service name) = .ok v.1 := by
  obtain ⟨-, nonce, hsealed⟩ := h
  have hlen : ¬ (nonce.1 ++ aead.sealWith key nonce (secretAad service name) v.1).length <
      nonceLen := by
    rw [List.length_append, nonce.2]
    omega
  rw [hsealed, decrypt, if_neg hlen, List.take_left' nonce.2, List.drop_left' nonce.2,
    aead.open_seal]

variable {store : SecretStore} {m : PlainMap}

theorem Holds.get_eq (h : Holds aead store m) (service name : String)
    : store.get aead service name = .ok (m service name) := by
  have hrel := h service name
  unfold SecretStore.get
  generalize store.secrets.stored service name = stored at hrel ⊢
  generalize m service name = v at hrel ⊢
  cases hrel with
  | none => rfl
  | some hentry =>
    simp only [hentry.decrypt_eq, hentry.1]
    rfl

theorem Holds.nextVersion_eq (h : Holds aead store m) (service name : String)
    : store.nextVersion service name = m.nextVersion service name := by
  have hrel := h service name
  unfold SecretStore.nextVersion PlainMap.nextVersion
  generalize store.secrets.stored service name = stored at hrel ⊢
  generalize m service name = v at hrel ⊢
  cases hrel with
  | none => rfl
  | some hentry => simp [hentry.1]

theorem Holds.put (h : Holds aead store m) (service name : String) (value : Bytes) (nonce : Nonce)
    (hversion : store.nextVersion service name < 2 ^ 64) :
    ∃ store', store.put aead (some nonce) service name value =
        some (.ok (m.nextVersion service name), store') ∧
      Holds aead store' (m.set service name (some (value, m.nextVersion service name))) := by
  rw [h.nextVersion_eq] at hversion
  refine ⟨_, by simp only [SecretStore.put, encryptWithKey, h.nextVersion_eq service name,
    if_pos hversion]; rfl, fun service' name' => ?_⟩
  rw [stored_upsert, PlainMap.set]
  split_ifs with hsame
  · obtain ⟨rfl, rfl⟩ := hsame
    exact .some ⟨rfl, nonce, rfl⟩
  · exact h service' name'

theorem Holds.delete (h : Holds aead store m) (service name : String) :
    Holds aead (store.delete service name).2 (m.set service name none) := by
  intro service' name'
  rw [stored_delete, PlainMap.set]
  split_ifs
  · exact .none
  · exact h service' name'

/-- Re-encryption of the whole store in place changes no value and no version. -/
theorem Holds.rekey (hideal : aead.Ideal) (h : Holds aead store m) (newKey : MasterKey)
    (outer inner : HashMap.Order)
    (nonces : ℕ → Nonce) :
    Holds aead (store.rekey aead outer inner (fun i => some (nonces i)) newKey).2 m := by
  have hopens : ∀ v ∈ visits outer inner store.secrets, ∃ plaintext,
      decrypt aead store.rawKey v.2.2.sealed (secretAad v.1 v.2.1) = .ok plaintext := by
    rintro ⟨service, name, entry⟩ hv
    have hrel := h service name
    rw [mem_visits.mp hv] at hrel
    generalize m service name = v at hrel
    cases hrel with
    | some hentry => exact ⟨_, hentry.decrypt_eq⟩
  obtain ⟨n, hn⟩ : ∃ n, (rekeyEntries aead store.rawKey newKey (fun i => some (nonces i)) 0
      (visits outer inner store.secrets) store.secrets).1 = .ok n :=
    rekeyEntries_ok hopens fun _ _ => rfl
  have hok : store.rekey aead outer inner (fun i => some (nonces i)) newKey =
      (.ok n, (store.rekey aead outer inner (fun i => some (nonces i)) newKey).2) := by
    unfold SecretStore.rekey
    generalize rekeyEntries aead store.rawKey newKey (fun i => some (nonces i)) 0
      (visits outer inner store.secrets) store.secrets = out at hn ⊢
    obtain ⟨result, secrets⟩ := out
    cases hn
    rfl
  obtain ⟨hkey, hunder⟩ := SecretStore.rekey_ok hok
  intro service name
  have hrel := h service name
  have hresealed : Option.Rel (Resealed aead service name) (store.secrets.stored service name)
      ((store.rekey aead outer inner (fun i => some (nonces i)) newKey).2.secrets.stored
        service name) :=
    SecretStore.rekey_resealed hideal
  have hunder := hunder service name
  rw [hkey]
  generalize store.secrets.stored service name = before at hrel hresealed
  generalize (store.rekey aead outer inner (fun i => some (nonces i)) newKey).2.secrets.stored
    service name = after at hresealed hunder ⊢
  generalize m service name = v at hrel ⊢
  cases hrel with
  | none =>
    cases hresealed
    exact .none
  | some hentry =>
    cases hresealed with
    | some hsealed =>
      obtain ⟨hversion, nonce, hbefore⟩ := hentry
      obtain ⟨nonce', plaintext, hafter⟩ := hunder _ rfl
      -- Sealed under the new key, so it opens there, and to the old value.
      have hopen := (show SealsValue aead newKey service name ⟨_, 0⟩ (plaintext, 0) from
        ⟨rfl, nonce', hafter⟩).decrypt_eq
      have hsame := (hsealed.2 _ ⟨store.rawKey, nonce, hbefore⟩).decrypt_eq hideal hopen
      exact .some ⟨hsealed.1.trans hversion, nonce', by rw [← hsame]; exact hafter⟩

/-- STEP: a call keeps the store and the map together; only an overflow stops it. -/
theorem Holds.step (hideal : aead.Ideal) (h : Holds aead store m) (call : SecretCall) :
    (∀ store', store.step aead call = some store' → Holds aead store' (m.step call)) ∧
      ((∀ service name, m.nextVersion service name < 2 ^ 64) →
        (store.step aead call).isSome = true) := by
  cases call with
  | put service name value nonce =>
    by_cases hversion : store.nextVersion service name < 2 ^ 64
    · obtain ⟨store', hput, hholds⟩ := h.put service name value nonce hversion
      simp only [SecretStore.step, hput]
      exact ⟨fun s hs => Option.some.inj hs ▸ hholds, fun _ => rfl⟩
    · refine ⟨fun s hs => ?_, fun hall => ?_⟩
      · simp only [SecretStore.step, SecretStore.put, encryptWithKey, if_neg hversion] at hs
        cases hs
      · exact absurd (h.nextVersion_eq service name ▸ hall service name) hversion
  | get service name => exact ⟨fun s hs => Option.some.inj hs ▸ h, fun _ => rfl⟩
  | delete service name =>
    exact ⟨fun s hs => Option.some.inj hs ▸ h.delete service name, fun _ => rfl⟩
  | rekey newKey outer inner nonces =>
    exact ⟨fun s hs => Option.some.inj hs ▸ h.rekey hideal newKey outer inner nonces, fun _ => rfl⟩

/-- RUN: any calls. -/
theorem holds_of_run (hideal : aead.Ideal) {key : MasterKey} {calls : List SecretCall}
    (h : Run.run (SecretStore.step aead) { rawKey := key } calls = some store) :
    Holds aead store (plain calls) := by
  refine Run.invariant_history (SecretStore.step aead) _
    (fun calls store => Holds aead store (plain calls)) (fun _ _ => .none) ?_ h
  intro calls store call store' _ hholds hstep
  rw [plain_concat]
  exact (hholds.step hideal call).1 store' hstep

/-- CORRECT: after any calls on one handle, a get answers with the value of the last put that no
    delete followed and the number of puts since the secret was absent, or with nothing; a put is
    answered with the next number. The calls end only when a number overflows. -/
theorem secret_store_refines_map (hideal : aead.Ideal) (key : MasterKey) (calls : List SecretCall) :
    (∀ store, Run.run (SecretStore.step aead) { rawKey := key } calls = some store →
      ∀ service name, store.get aead service name = .ok (plain calls service name) ∧
        ∀ nonce value version store',
          store.put aead (some nonce) service name value = some (version, store') →
            version = .ok ((plain calls).nextVersion service name)) ∧
      (calls.length < 2 ^ 64 →
        (Run.run (SecretStore.step aead) { rawKey := key } calls).isSome = true) := by
  constructor
  · intro store hrun service name
    have hholds := holds_of_run hideal hrun
    refine ⟨hholds.get_eq service name, fun nonce value version store' hput => ?_⟩
    by_cases hversion : store.nextVersion service name < 2 ^ 64
    · obtain ⟨store'', hput', -⟩ := hholds.put service name value nonce hversion
      cases hput.symm.trans hput'
      rfl
    · simp only [SecretStore.put, encryptWithKey, if_neg hversion] at hput
      cases hput
  · induction calls using List.reverseRecOn with
    | nil => exact fun _ => rfl
    | append_singleton calls call ih =>
      intro hlength
      rw [List.length_append, List.length_singleton] at hlength
      obtain ⟨store, hrun⟩ := Option.isSome_iff_exists.mp (ih (by omega))
      rw [Run.run_append, hrun, Option.bind_some, Run.run_cons]
      obtain ⟨store', hstep⟩ := Option.isSome_iff_exists.mp
        (((holds_of_run hideal hrun).step hideal call).2 fun service name => by
          rw [PlainMap.nextVersion]
          rcases hv : plain calls service name with _ | v
          · exact Nat.one_lt_two_pow (by decide)
          · have hle := version_le_length hv
            simp only [Option.map_some, Option.getD_some]
            omega)
      rw [hstep]
      rfl

end Simulation

/-- A put, a rotation and another put. -/
theorem secret_store_refines_map_two_puts :
    ∃ store, Run.run (SecretStore.step .keyed) { rawKey := ⟨List.replicate 32 1, rfl⟩ }
        [.put "web" "db" [1] ⟨List.replicate 12 0, rfl⟩,
          .rekey ⟨List.replicate 32 2, rfl⟩ .asBuilt .asBuilt fun _ => ⟨List.replicate 12 0, rfl⟩,
          .put "web" "db" [2] ⟨List.replicate 12 0, rfl⟩] = some store ∧
      store.get .keyed "web" "db" = .ok (some ([2], 2)) := by
  obtain ⟨hget, hruns⟩ := secret_store_refines_map Aead.keyed_ideal ⟨List.replicate 32 1, rfl⟩
    [.put "web" "db" [1] ⟨List.replicate 12 0, rfl⟩,
      .rekey ⟨List.replicate 32 2, rfl⟩ .asBuilt .asBuilt fun _ => ⟨List.replicate 12 0, rfl⟩,
      .put "web" "db" [2] ⟨List.replicate 12 0, rfl⟩]
  obtain ⟨store, hstore⟩ := Option.isSome_iff_exists.mp (hruns (by decide))
  exact ⟨store, hstore, (hget store hstore "web" "db").1⟩

end Ekafleet.Secrets
