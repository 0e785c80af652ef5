import Ekafleet.Lib.Codec
import Ekafleet.Lib.HashMap
import Ekafleet.Lib.Loop

/-! The secret store of the server | source: secrets/store.rs, secrets/key_derivation.rs

    Secrets are sealed under the fleet key and scoped to services. A secret has a version number
    that counts its values from 1 since it was last absent. Rotating the key opens and seals every
    entry anew, in place: an entry that does not open, or a random generator that fails, ends the
    loop half way and leaves the entries before it under the new key. -/

namespace Ekafleet.Secrets

/-- A stored secret. -/
structure SecretEntry where
  /-- Nonce, ciphertext and tag. -/
  sealed : Bytes
  version : ℕ
  deriving DecidableEq, Repr

/-- Service to secret to sealed value. -/
abbrev SecretMap := HashMap String (HashMap String SecretEntry)

abbrev MasterKey := { key : Bytes // key.length = 32 }

/-- The secrets of the fleet, and the key they are sealed with. -/
structure SecretStore where
  secrets : SecretMap := ∅
  rawKey : MasterKey

/-- Why a secret cannot be sealed or opened. -/
inductive SecretStoreError where | encrypt | decrypt
  deriving DecidableEq, Repr

def SecretStoreError.display : SecretStoreError → String
  | .encrypt => "encryption failed"
  | .decrypt => "decryption failed"

def nonceLen : ℕ := 12

abbrev Nonce := { nonce : Bytes // nonce.length = nonceLen }

/-- Binds a ciphertext to its service and name. -/
def secretAad (serviceName secretName : String) : Bytes :=
  serviceName.toUTF8.toList ++ 0 :: secretName.toUTF8.toList

section Rekey
variable (aead : Aead)

/-- Open a sealed secret. -/
def decrypt (key sealed aad : Bytes) : Except SecretStoreError Bytes :=
  if sealed.length < nonceLen then .error .decrypt
  else match aead.openWith key (sealed.take nonceLen) aad (sealed.drop nonceLen) with
    | some plaintext => .ok plaintext
    | none => .error .decrypt

/-- Seal under an explicit key, with a nonce from the random generator, if that works. -/
def encryptWithKey (key : Bytes) (nonce : Option Nonce) (plaintext aad : Bytes) :
    Except SecretStoreError Bytes :=
  match nonce with
  | none => .error .encrypt
  | some nonce => .ok (nonce ++ aead.sealWith key nonce aad plaintext)

/-- Move one entry from the old key to the new one. -/
def reencrypt (key newKey : Bytes) (nonce : Option Nonce) (service name : String)
    (entry : SecretEntry) : Except SecretStoreError SecretEntry := do
  let plaintext ← decrypt aead key entry.sealed (secretAad service name)
  let sealed ← encryptWithKey aead newKey nonce plaintext (secretAad service name)
  return { entry with sealed }

/-- The loop of `rekey`, with the number of entries done so far. -/
def rekeyEntries (key newKey : Bytes) (nonces : ℕ → Option Nonce) :
    ℕ → List (String × String × SecretEntry) → SecretMap →
      Except SecretStoreError ℕ × SecretMap
  | count, [], secrets => (.ok count, secrets)
  | count, (service, name, entry) :: rest, secrets =>
    match reencrypt aead key newKey (nonces count) service name entry with
    | .error e => (.error e, secrets)
    | .ok entry' => rekeyEntries key newKey nonces (count + 1) rest
        (HashMap.adjust service (HashMap.adjust name fun _ => entry') secrets)

/-- The entries of a store in the order in which its maps iterate. -/
def visits (outer inner : HashMap.Order) (secrets : SecretMap) :
    List (String × String × SecretEntry) :=
  (outer.arrange secrets.entries).flatMap fun service =>
    (inner.arrange service.2.entries).map fun entry => (service.1, entry.1, entry.2)

/-- Re-encrypt all secrets with a new master key. -/
def SecretStore.rekey (outer inner : HashMap.Order) (nonces : ℕ → Option Nonce) (newKey : MasterKey)
    (store : SecretStore) : Except SecretStoreError ℕ × SecretStore :=
  match rekeyEntries aead store.rawKey newKey nonces 0 (visits outer inner store.secrets)
      store.secrets with
  | (.ok count, secrets) => (.ok count, ⟨secrets, newKey⟩)
  | (.error e, secrets) => (.error e, { store with secrets })

end Rekey

/-! ### Which entries a rotation rewrites -/

def SecretMap.stored (secrets : SecretMap) (service name : String) : Option SecretEntry :=
  (secrets.lookup service).bind (·.lookup name)

variable {secrets : SecretMap} {service : String}

theorem stored_adjust_self {name : String} {entry : SecretEntry}
    (h : secrets.stored service name = some entry) (entry' : SecretEntry) :
    SecretMap.stored (HashMap.adjust service (HashMap.adjust name fun _ => entry') secrets)
      service name = some entry' := by
  obtain ⟨inner, hinner, hentry⟩ := Option.bind_eq_some_iff.mp h
  simp [SecretMap.stored, hinner, hentry]

theorem stored_adjust_ne {name service' name' : String} (hne : (service', name') ≠ (service, name))
    (entry' : SecretEntry) :
    SecretMap.stored (HashMap.adjust service' (HashMap.adjust name' fun _ => entry') secrets)
      service name = secrets.stored service name := by
  unfold SecretMap.stored
  by_cases hservice : service = service'
  · grind [HashMap.lookup_adjust_self, HashMap.lookup_adjust_ne]
  · rw [HashMap.lookup_adjust_ne hservice]

theorem mem_visits {outer inner : HashMap.Order} {name : String} {entry : SecretEntry} :
    (service, name, entry) ∈ visits outer inner secrets ↔
      secrets.stored service name = some entry := by
  simp only [visits, List.mem_flatMap, List.mem_map, HashMap.Order.mem_arrange, Prod.mk.injEq,
    SecretMap.stored, Option.bind_eq_some_iff]
  constructor
  · rintro ⟨⟨s, m⟩, hs, ⟨n, e⟩, he, rfl, rfl, rfl⟩
    exact ⟨m, HashMap.lookup_of_mem hs, HashMap.lookup_of_mem he⟩
  · rintro ⟨m, hs, he⟩
    exact ⟨⟨service, m⟩, HashMap.mem_of_lookup hs, ⟨name, entry⟩,
      HashMap.mem_of_lookup he, rfl, rfl, rfl⟩

theorem SecretStore.rekey_secrets {aead : Aead} {store : SecretStore} {outer inner : HashMap.Order}
    {nonces : ℕ → Option Nonce} {newKey : MasterKey} :
      (store.rekey aead outer inner nonces newKey).2.secrets =
      (rekeyEntries aead store.rawKey newKey nonces 0 (visits outer inner store.secrets)
        store.secrets).2 := by
  unfold rekey
  rcases rekeyEntries aead store.rawKey newKey nonces 0 (visits outer inner store.secrets)
    store.secrets with ⟨_ | _, _⟩ <;> rfl

/-! ### Storing and handing out secrets -/

/-- A sealed secret on its way to an agent. -/
structure SecretUpdate where
  serviceName : String
  secretName : String
  encryptedValue : Bytes
  version : ℕ
  deriving DecidableEq, Repr

section Operations
variable (aead : Aead)

/-- The version number of the next value of a secret. -/
def SecretStore.nextVersion (store : SecretStore) (service name : String) : ℕ :=
  ((store.secrets.stored service name).map (·.version + 1)).getD 1

/-- Store or update a secret. No result stands for the panic of a version number that overflows. -/
def SecretStore.put (nonce : Option Nonce) (service name : String) (value : Bytes)
    (store : SecretStore) : Option (Except SecretStoreError ℕ × SecretStore) :=
  match encryptWithKey aead store.rawKey nonce value (secretAad service name) with
  | .error e => some (.error e, store)
  | .ok sealed =>
    let version := store.nextVersion service name
    if version < 2 ^ 64 then
      some (.ok version, { store with
        secrets := HashMap.upsert service ∅ (·.insert name ⟨sealed, version⟩) store.secrets })
    else none

/-- A decrypted secret with its version. -/
def SecretStore.get (service name : String) (store : SecretStore) :
    Except SecretStoreError (Option (Bytes × ℕ)) :=
  match store.secrets.stored service name with
  | some entry => do
    let plaintext ← decrypt aead store.rawKey entry.sealed (secretAad service name)
    return some (plaintext, entry.version)
  | none => .ok none

/-- Delete a secret, and tell whether there was one. -/
def SecretStore.delete (service name : String) (store : SecretStore) : Bool × SecretStore :=
  ((store.secrets.stored service name).isSome,
    { store with secrets := HashMap.adjust service (·.erase name) store.secrets })

def SecretStore.secretsForServices (inner : HashMap.Order) (serviceNames : List String)
    (store : SecretStore) : List SecretUpdate :=
  serviceNames.flatMap fun service =>
    (inner.arrange ((store.secrets.lookup service).getD ∅).entries).map fun e =>
      ⟨service, e.1, e.2.sealed, e.2.version⟩

/-- The secrets of some services under the key of an agent, which is derived from the fleet key. A
    secret that cannot be re-encrypted is only logged. -/
def SecretStore.secretsForAgent (hkdf : Bytes → String → Bytes) (inner : HashMap.Order)
    (nonces : ℕ → Option Nonce) (serviceNames : List String) (agentSpiffeId : String)
    (store : SecretStore) : List SecretUpdate :=
  (store.secretsForServices inner serviceNames).zipIdx.filterMap fun u =>
    (reencrypt aead store.rawKey (hkdf store.rawKey agentSpiffeId) (nonces u.2) u.1.serviceName
      u.1.secretName ⟨u.1.encryptedValue, u.1.version⟩).toOption.map fun entry =>
        { u.1 with encryptedValue := entry.sealed }

end Operations

/-! ### What the operations do to one secret -/

/-- The value is a sealing of the plaintext, under whatever key. -/
def SealedAs (aead : Aead) (service name : String) (sealed plaintext : Bytes) : Prop :=
  ∃ (key : Bytes) (nonce : Nonce),
    sealed = nonce ++ aead.sealWith key nonce (secretAad service name) plaintext

section One
variable {aead : Aead} {service name : String} {plaintext : Bytes}

theorem SealedAs.opens (hideal : aead.Ideal) {key sealed opened : Bytes}
    (h : SealedAs aead service name sealed plaintext)
    (hopen : aead.openWith key (sealed.take nonceLen) (secretAad service name)
      (sealed.drop nonceLen) = some opened) : opened = plaintext := by
  obtain ⟨key', nonce, rfl⟩ := h
  rw [List.take_left' nonce.2, List.drop_left' nonce.2] at hopen
  by_cases hkey : key' = key
  · subst hkey
    rw [aead.open_seal] at hopen
    exact (Option.some.inj hopen).symm
  · rw [hideal key' key nonce _ plaintext hkey] at hopen
    cases hopen

theorem SealedAs.decrypt_eq (hideal : aead.Ideal) {key sealed opened : Bytes}
    (h : SealedAs aead service name sealed plaintext)
    (hopen : decrypt aead key sealed (secretAad service name) = .ok opened) :
      opened = plaintext := by
  unfold decrypt at hopen
  split at hopen
  · cases hopen
  · split at hopen
    · next hsome => exact Except.ok.inj hopen ▸ h.opens hideal hsome
    · cases hopen

/-- The entry was sealed anew at most: version and plaintext are the same. -/
def Resealed (aead : Aead) (service name : String) (entry entry' : SecretEntry) : Prop :=
  entry'.version = entry.version ∧ ∀ plaintext, SealedAs aead service name entry.sealed plaintext →
    SealedAs aead service name entry'.sealed plaintext

theorem resealed_of_reencrypt (hideal : aead.Ideal) {key newKey : Bytes} {nonce : Option Nonce}
    {entry entry' : SecretEntry}
    (h : reencrypt aead key newKey nonce service name entry = .ok entry') :
    Resealed aead service name entry entry' := by
  unfold reencrypt at h
  obtain ⟨opened, hopen, h⟩ := Loop.bind_eq_ok h
  obtain ⟨sealed, hseal, h⟩ := Loop.bind_eq_ok h
  obtain rfl := Except.ok.inj h
  refine ⟨rfl, fun plaintext hsealed => ?_⟩
  obtain rfl := hsealed.decrypt_eq hideal hopen
  rcases nonce with _ | nonce
  · cases hseal
  · exact ⟨newKey, nonce, (Except.ok.inj hseal).symm⟩

theorem stored_upsert {secrets : SecretMap} {entry : SecretEntry} (service' name' : String) :
    SecretMap.stored (HashMap.upsert service ∅ (·.insert name entry) secrets) service' name' =
      if service' = service ∧ name' = name then some entry
      else secrets.stored service' name' := by
  unfold SecretMap.stored HashMap.upsert
  by_cases hservice : service' = service
  · subst hservice
    rw [AList.lookup_insert, Option.bind_some]
    by_cases hname : name' = name
    · subst hname
      simp
    · rw [AList.lookup_insert_ne hname]
      cases secrets.lookup service' <;> simp [hname]
  · rw [AList.lookup_insert_ne hservice, if_neg fun h => hservice h.1]

variable {store : SecretStore}

theorem stored_delete (service' name' : String) :
    (store.delete service name).2.secrets.stored service' name' =
      if service' = service ∧ name' = name then none
      else store.secrets.stored service' name' := by
  unfold SecretMap.stored SecretStore.delete
  by_cases hservice : service' = service
  · subst hservice
    rw [HashMap.lookup_adjust_self]
    cases store.secrets.lookup service' with
    | none => simp
    | some secrets =>
      by_cases hname : name' = name
      · subst hname
        simp
      · simp [hname, AList.lookup_erase_ne hname]
  · rw [HashMap.lookup_adjust_ne hservice, if_neg fun h => hservice h.1]

/-- CASES: a put fails and changes nothing, or stores the sealed value under the next version. -/
theorem SecretStore.put_cases {store' : SecretStore} {nonce : Option Nonce} {value : Bytes}
    {r : Except SecretStoreError ℕ}
    (h : store.put aead nonce service name value = some (r, store')) :
    (∃ e, r = .error e ∧ store' = store) ∨
    ∃ sealed, SealedAs aead service name sealed value ∧ r = .ok (store.nextVersion service name) ∧
      ∀ service' name', store'.secrets.stored service' name' =
        if service' = service ∧ name' = name then some ⟨sealed, store.nextVersion service name⟩
        else store.secrets.stored service' name' := by
  unfold put at h
  rcases nonce with _ | nonce
  · cases h
    exact .inl ⟨_, rfl, rfl⟩
  · simp only [encryptWithKey] at h
    split at h
    · cases h
      exact .inr ⟨_, ⟨store.rawKey, nonce, rfl⟩, rfl, stored_upsert⟩
    · cases h

/-- RUN: a rotation seals a secret anew at most, however far it comes. -/
theorem rekeyEntries_resealed (hideal : aead.Ideal) {key newKey : Bytes} {nonces : ℕ → Option Nonce}
    {original : Option SecretEntry} :
    ∀ {count : ℕ} {rest : List (String × String × SecretEntry)} {secrets : SecretMap},
    Option.Rel (Resealed aead service name) original (secrets.stored service name) →
    (∀ entry, (service, name, entry) ∈ rest → original = some entry) →
    Option.Rel (Resealed aead service name) original
      (SecretMap.stored (rekeyEntries aead key newKey nonces count rest secrets).2 service name)
  | _, [], _, h, _ => h
  | count, (service', name', visited) :: rest, secrets, h, hrest => by
    rw [rekeyEntries]
    split
    · exact h
    next visited' hre =>
    refine rekeyEntries_resealed hideal ?_ fun entry hentry =>
      hrest entry (List.mem_cons_of_mem _ hentry)
    by_cases hsame : (service', name') = (service, name)
    · obtain ⟨rfl, rfl⟩ := Prod.mk.inj hsame
      obtain rfl := hrest visited List.mem_cons_self
      rcases hstored : secrets.stored service' name' with _ | current <;> rw [hstored] at h
      · cases h
      · rw [stored_adjust_self hstored]
        exact .some (resealed_of_reencrypt hideal hre)
    · rwa [stored_adjust_ne hsame]

theorem SecretStore.rekey_resealed (hideal : aead.Ideal) {outer inner : HashMap.Order}
    {nonces : ℕ → Option Nonce} {newKey : MasterKey} :
    Option.Rel (Resealed aead service name) (store.secrets.stored service name)
      ((store.rekey aead outer inner nonces newKey).2.secrets.stored service name) := by
  have hrefl : Option.Rel (Resealed aead service name) (store.secrets.stored service name)
      (store.secrets.stored service name) := by
    cases store.secrets.stored service name with
    | none => exact .none
    | some entry => exact .some ⟨rfl, fun _ h => h⟩
  rw [rekey_secrets]
  exact rekeyEntries_resealed hideal hrefl fun entry hentry => mem_visits.mp hentry

end One

/-! ### How far a rotation comes -/

section Moved
variable {aead : Aead} {service name : String}

/-- The value was sealed under the key. -/
def SealedUnder (aead : Aead) (service name : String) (key sealed : Bytes) : Prop :=
  ∃ (nonce : Nonce) (plaintext : Bytes),
    sealed = nonce ++ aead.sealWith key nonce (secretAad service name) plaintext

theorem SealedUnder.opens_iff (hideal : aead.Ideal) {key key' sealed : Bytes}
    (h : SealedUnder aead service name key sealed) :
    (∃ plaintext, decrypt aead key' sealed (secretAad service name) = .ok plaintext) ↔
      key' = key := by
  obtain ⟨nonce, plaintext, rfl⟩ := h
  have hlen : ¬ (nonce.1 ++ aead.sealWith key nonce (secretAad service name) plaintext).length <
      nonceLen := by
    rw [List.length_append, nonce.2]
    omega
  rw [decrypt, if_neg hlen, List.take_left' nonce.2, List.drop_left' nonce.2]
  by_cases hkey : key = key'
  · subst hkey
    simp [aead.open_seal]
  · simp [hideal key key' nonce _ plaintext hkey, Ne.symm hkey]

theorem sealedUnder_of_reencrypt {key newKey : Bytes} {nonce : Option Nonce}
    {entry entry' : SecretEntry}
    (h : reencrypt aead key newKey nonce service name entry = .ok entry') :
    SealedUnder aead service name newKey entry'.sealed := by
  unfold reencrypt at h
  obtain ⟨plaintext, -, h⟩ := Loop.bind_eq_ok h
  obtain ⟨sealed, hseal, h⟩ := Loop.bind_eq_ok h
  obtain rfl := Except.ok.inj h
  rcases nonce with _ | nonce
  · cases hseal
  · exact ⟨nonce, plaintext, (Except.ok.inj hseal).symm⟩

theorem SecretStore.put_ok {store store' : SecretStore} {nonce : Option Nonce} {value : Bytes}
    {version : ℕ} (h : store.put aead nonce service name value = some (.ok version, store')) :
    store'.rawKey = store.rawKey ∧ ∃ entry, SealedUnder aead service name store.rawKey
      entry.sealed ∧
      ∀ service' name', store'.secrets.stored service' name' =
        if service' = service ∧ name' = name then some entry
        else store.secrets.stored service' name' := by
  unfold put at h
  rcases nonce with _ | nonce
  · cases h
  · simp only [encryptWithKey] at h
    split at h <;> cases h
    exact ⟨rfl, _, ⟨nonce, value, rfl⟩, stored_upsert⟩

/-- The entries that the loop of `rekey` gets to move. -/
def rekeyed (aead : Aead) (key newKey : Bytes) (nonces : ℕ → Option Nonce) :
    ℕ → List (String × String × SecretEntry) → List (String × String)
  | _, [] => []
  | count, (service, name, entry) :: rest =>
    match reencrypt aead key newKey (nonces count) service name entry with
    | .error _ => []
    | .ok _ => (service, name) :: rekeyed aead key newKey nonces (count + 1) rest

/-- RUN: an entry that the loop gets to is sealed under the new key afterwards, every other one
    stays as it is. -/
theorem stored_rekeyEntries {key newKey : Bytes} {nonces : ℕ → Option Nonce} :
    ∀ {count : ℕ} {rest : List (String × String × SecretEntry)} {secrets : SecretMap},
    (∀ v ∈ rest, (secrets.stored v.1 v.2.1).isSome) →
    ((service, name) ∈ rekeyed aead key newKey nonces count rest ∧ ∃ entry,
      SecretMap.stored (rekeyEntries aead key newKey nonces count rest secrets).2 service name =
        some entry ∧ SealedUnder aead service name newKey entry.sealed) ∨
    ((service, name) ∉ rekeyed aead key newKey nonces count rest ∧
      SecretMap.stored (rekeyEntries aead key newKey nonces count rest secrets).2 service name =
        secrets.stored service name)
  | _, [], _, _ => .inr ⟨List.not_mem_nil, rfl⟩
  | count, (service', name', visited) :: rest, secrets, hrest => by
    rw [rekeyEntries, rekeyed]
    cases hre : reencrypt aead key newKey (nonces count) service' name' visited with
    | error e => exact .inr ⟨List.not_mem_nil, rfl⟩
    | ok visited' =>
      obtain ⟨current, hcurrent⟩ := Option.isSome_iff_exists.mp (hrest _ List.mem_cons_self)
      have hrest' : ∀ v ∈ rest, (SecretMap.stored
          (HashMap.adjust service' (HashMap.adjust name' fun _ => visited') secrets)
          v.1 v.2.1).isSome := by
        intro v hv
        by_cases hsame : (service', name') = (v.1, v.2.1)
        · obtain ⟨rfl, rfl⟩ := Prod.mk.inj hsame
          rw [stored_adjust_self hcurrent]
          rfl
        · rw [stored_adjust_ne hsame]
          exact hrest v (List.mem_cons_of_mem _ hv)
      dsimp only
      rcases stored_rekeyEntries hrest' with
        ⟨hmem, hentry⟩ | ⟨hmem, hkept⟩
      · exact .inl ⟨List.mem_cons_of_mem _ hmem, hentry⟩
      · by_cases hsame : (service', name') = (service, name)
        · obtain ⟨rfl, rfl⟩ := Prod.mk.inj hsame
          refine .inl ⟨List.mem_cons_self, visited', ?_, sealedUnder_of_reencrypt hre⟩
          rw [hkept, stored_adjust_self hcurrent]
        · refine .inr ⟨?_, by rw [hkept, stored_adjust_ne hsame]⟩
          simp only [List.mem_cons, not_or]
          exact ⟨fun h => hsame h.symm, hmem⟩

theorem mem_rekeyed_of_ok {key newKey : Bytes} {nonces : ℕ → Option Nonce} :
    ∀ {count n : ℕ} {rest : List (String × String × SecretEntry)} {secrets : SecretMap},
    (rekeyEntries aead key newKey nonces count rest secrets).1 = .ok n →
    ∀ v ∈ rest, (v.1, v.2.1) ∈ rekeyed aead key newKey nonces count rest
  | _, _, [], _, _ => by simp
  | count, n, (service', name', visited) :: rest, secrets, h => by
    rw [rekeyEntries] at h
    rw [rekeyed]
    cases hre : reencrypt aead key newKey (nonces count) service' name' visited with
    | error e => simp only [hre] at h; cases h
    | ok visited' =>
      simp only [hre] at h
      intro v hv
      rcases List.mem_cons.mp hv with rfl | hv
      · exact List.mem_cons_self
      · exact List.mem_cons_of_mem _ (mem_rekeyed_of_ok h v hv)

theorem rekeyEntries_ok {key newKey : Bytes} {nonces : ℕ → Option Nonce} :
    ∀ {count : ℕ} {rest : List (String × String × SecretEntry)} {secrets : SecretMap},
    (∀ v ∈ rest, ∃ plaintext, decrypt aead key v.2.2.sealed (secretAad v.1 v.2.1) = .ok plaintext) →
    (∀ i < rest.length, (nonces (count + i)).isSome) →
    ∃ n, (rekeyEntries aead key newKey nonces count rest secrets).1 = .ok n
  | count, [], _, _, _ => ⟨count, rfl⟩
  | count, (service', name', visited) :: rest, secrets, hopens, hnonces => by
    obtain ⟨plaintext, hplain⟩ := hopens _ List.mem_cons_self
    obtain ⟨nonce, hnonce⟩ := Option.isSome_iff_exists.mp (hnonces 0 (by simp))
    have hre : ∃ entry', reencrypt aead key newKey (nonces count) service' name' visited =
        .ok entry' := by
      rw [reencrypt, hplain, show nonces count = some nonce from hnonce]
      exact ⟨_, rfl⟩
    obtain ⟨entry', hre⟩ := hre
    simp only [rekeyEntries, hre]
    refine rekeyEntries_ok (fun v hv => hopens v (List.mem_cons_of_mem _ hv)) fun i hi => ?_
    rw [Nat.add_assoc, Nat.add_comm 1]
    exact hnonces (i + 1) (by simpa using hi)

theorem rekeyEntries_none {key newKey : Bytes} {nonces : ℕ → Option Nonce} {count : ℕ}
    (h : nonces count = none) (rest : List (String × String × SecretEntry)) (secrets : SecretMap) :
    (rekeyEntries aead key newKey nonces count rest secrets).2 = secrets := by
  rcases rest with _ | ⟨⟨service', name', visited⟩, rest⟩
  · rfl
  · have hre : ∃ e, reencrypt aead key newKey (nonces count) service' name' visited = .error e := by
      rw [reencrypt, h]
      rcases decrypt aead key visited.sealed (secretAad service' name') with e | plaintext
      · exact ⟨e, rfl⟩
      · exact ⟨.encrypt, rfl⟩
    obtain ⟨e, hre⟩ := hre
    rw [rekeyEntries, hre]

section Whole
variable {store store' : SecretStore} {outer inner : HashMap.Order} {nonces : ℕ → Option Nonce}
  {newKey : MasterKey}

theorem SecretStore.rekey_ok {count : ℕ}
    (h : store.rekey aead outer inner nonces newKey = (.ok count, store')) :
    store'.rawKey = newKey ∧ ∀ service name entry,
      store'.secrets.stored service name = some entry →
        SealedUnder aead service name newKey entry.sealed := by
  unfold rekey at h
  split at h
  case h_2 => cases h
  next n secrets hloop =>
  cases h
  have hvisits : ∀ v ∈ visits outer inner store.secrets,
      (store.secrets.stored v.1 v.2.1).isSome := fun v hv =>
    Option.isSome_iff_exists.mpr ⟨v.2.2, mem_visits.mp hv⟩
  refine ⟨rfl, fun service name entry hentry => ?_⟩
  have hmoved := mem_rekeyed_of_ok (congrArg Prod.fst hloop)
  rcases (stored_rekeyEntries hvisits :
      ((service, name) ∈ rekeyed aead store.rawKey newKey nonces 0 _ ∧ _) ∨ _) with
    ⟨-, entry', hentry', hsealed⟩ | ⟨hmem, hkept⟩
  · rw [hloop, hentry, Option.some.injEq] at hentry'
    exact hentry' ▸ hsealed
  · rw [hloop, hentry] at hkept
    exact absurd (hmoved (service, name, entry) (mem_visits.mpr hkept.symm)) hmem

theorem SecretStore.rekey_error {e : SecretStoreError}
    (h : store.rekey aead outer inner nonces newKey = (.error e, store'))
    (hopens : ∀ service name entry, store.secrets.stored service name = some entry →
      ∃ plaintext, decrypt aead store.rawKey entry.sealed (secretAad service name) = .ok plaintext)
    (hnonces : nonces 0 = none ∨
      ∀ i < (visits outer inner store.secrets).length, (nonces i).isSome) : store' = store := by
  unfold rekey at h
  split at h
  case h_1 => cases h
  next e' secrets hloop =>
  cases h
  rcases hnonces with hnone | hsome
  · have hkept : (rekeyEntries aead store.rawKey newKey nonces 0 (visits outer inner store.secrets)
        store.secrets).2 = store.secrets := rekeyEntries_none hnone _ _
    rw [hloop] at hkept
    exact congrArg (fun secrets => { store with secrets }) hkept
  · have hok : ∃ n, (rekeyEntries aead store.rawKey newKey nonces 0
        (visits outer inner store.secrets) store.secrets).1 = .ok n :=
      rekeyEntries_ok (fun v hv => hopens v.1 v.2.1 v.2.2 (mem_visits.mp hv)) (by simpa using hsome)
    obtain ⟨n, hok⟩ := hok
    rw [hloop] at hok
    cases hok

end Whole

end Moved

end Ekafleet.Secrets
