import Ekafleet.Lib.Text
import Ekafleet.Secrets.PlainMap

/-! Secrets on their way to an agent | source: secrets/{store,key_derivation,injector}.rs

    The server opens a secret under the fleet key and seals it under a key that is derived for the
    agent, with the service and the name of the secret as associated data all the way. Between the
    two names stands a NUL byte, so the data tells them apart for services without one. -/

namespace Ekafleet.Secrets

/-- The part of an agent that opens what it receives. -/
structure SecretInjector where
  key : MasterKey

def SecretInjector.decrypt (aead : Aead) (sealed aad : Bytes) (inj : SecretInjector) :
    Except String Bytes :=
  if sealed.length < nonceLen then .error "sealed data too short"
  else match aead.openWith inj.key (sealed.take nonceLen) aad (sealed.drop nonceLen) with
    | some plaintext => .ok plaintext
    | none => .error "decryption failed"

/-- The name of a service has no NUL byte. -/
def NoNul (service : String) : Prop := (0 : UInt8) ∉ Text.utf8 service

instance (service : String) : Decidable (NoNul service) := inferInstanceAs (Decidable (_ ∉ _))

/-- Two texts before the first separator. -/
theorem append_first_inj {s s' t t' : Bytes} (hs : (0 : UInt8) ∉ s) (hs' : (0 : UInt8) ∉ s')
    (h : s ++ 0 :: t = s' ++ 0 :: t') : s = s' ∧ t = t' := by
  induction s generalizing s' with
  | nil =>
    cases s' with
    | nil => exact ⟨rfl, (List.cons.inj h).2⟩
    | cons b s' =>
      obtain ⟨rfl, -⟩ := List.cons.inj h
      exact absurd List.mem_cons_self hs'
  | cons a s ih =>
    cases s' with
    | nil =>
      obtain ⟨rfl, -⟩ := List.cons.inj h
      exact absurd List.mem_cons_self hs
    | cons b s' =>
      obtain ⟨rfl, hrest⟩ := List.cons.inj h
      obtain ⟨rfl, rfl⟩ := ih (fun hmem => hs (List.mem_cons_of_mem _ hmem))
        (fun hmem => hs' (List.mem_cons_of_mem _ hmem)) hrest
      exact ⟨rfl, rfl⟩

theorem secretAad_inj {service name service' name' : String} (h : NoNul service)
    (h' : NoNul service') (heq : secretAad service name = secretAad service' name') :
    service = service' ∧ name = name' := by
  simp only [secretAad, Text.toUTF8_toList] at heq
  obtain ⟨hservice, hname⟩ := append_first_inj h h' heq
  exact ⟨Text.utf8_inj.mp hservice, Text.utf8_inj.mp hname⟩

section Distribution
variable {aead : Aead}

theorem mem_secretsForServices {store : SecretStore} {inner : HashMap.Order}
    {serviceNames : List String} {u : SecretUpdate} :
    u ∈ store.secretsForServices inner serviceNames ↔ u.serviceName ∈ serviceNames ∧
      store.secrets.stored u.serviceName u.secretName = some ⟨u.encryptedValue, u.version⟩ := by
  simp only [SecretStore.secretsForServices, List.mem_flatMap, List.mem_map,
    HashMap.Order.mem_arrange, SecretMap.stored]
  constructor
  · rintro ⟨service, hservice, ⟨name, entry⟩, hentry, rfl⟩
    refine ⟨hservice, ?_⟩
    have hlookup := HashMap.lookup_of_mem hentry
    rcases hsecrets : store.secrets.lookup service with _ | secrets <;> rw [hsecrets] at hlookup
    · cases hlookup
    · exact hlookup
  · rintro ⟨hservice, hstored⟩
    obtain ⟨secrets, hsecrets, hentry⟩ := Option.bind_eq_some_iff.mp hstored
    exact ⟨u.serviceName, hservice, ⟨u.secretName, _⟩, by
      rw [hsecrets]; exact HashMap.mem_of_lookup hentry, rfl⟩

theorem SealsValue.reencrypt_eq {key newKey : Bytes} {service name : String} {entry : SecretEntry}
    {v : Bytes × ℕ} (h : SealsValue aead key service name entry v) (nonce : Nonce) :
    reencrypt aead key newKey (some nonce) service name entry = .ok { entry with
      sealed := nonce ++ aead.sealWith newKey nonce (secretAad service name) v.1 } := by
  rw [reencrypt, h.decrypt_eq]
  rfl

/-- EXACT: the updates for an agent are the current secrets of the services, sealed under its key.
    -/
theorem mem_secretsForAgent_of_holds {store : SecretStore} {m : PlainMap}
    (h : Holds aead store m) (hkdf : Bytes → String → Bytes) (inner : HashMap.Order)
    (nonces : ℕ → Nonce) (serviceNames : List String) (id : String) :
    (∀ u ∈ store.secretsForAgent aead hkdf inner (fun i => some (nonces i)) serviceNames id,
      u.serviceName ∈ serviceNames ∧ ∃ v, m u.serviceName u.secretName = some (v, u.version) ∧
        SealsValue aead (hkdf store.rawKey id) u.serviceName u.secretName
          ⟨u.encryptedValue, u.version⟩ (v, u.version)) ∧
    ∀ service ∈ serviceNames, ∀ name v, m service name = some v →
      ∃ u ∈ store.secretsForAgent aead hkdf inner (fun i => some (nonces i)) serviceNames id,
        u.serviceName = service ∧ u.secretName = name ∧ u.version = v.2 := by
  constructor
  · intro u hu
    obtain ⟨⟨u₀, i⟩, hu₀, hsome⟩ := List.mem_filterMap.mp hu
    obtain ⟨hservice, hstored⟩ := mem_secretsForServices.mp (List.fst_mem_of_mem_zipIdx hu₀)
    have hrel := h u₀.serviceName u₀.secretName
    rw [hstored] at hrel
    rcases hm : m u₀.serviceName u₀.secretName with _ | v <;> rw [hm] at hrel
    · cases hrel
    · cases hrel with
      | some hentry =>
        rw [hentry.reencrypt_eq] at hsome
        cases hsome
        obtain ⟨value, version⟩ := v
        obtain ⟨rfl, -⟩ := hentry
        exact ⟨hservice, value, hm, rfl, nonces i, rfl⟩
  · intro service hservice name v hv
    have hrel := h service name
    rw [hv] at hrel
    rcases hstored : store.secrets.stored service name with _ | entry <;> rw [hstored] at hrel
    · cases hrel
    · cases hrel with
      | some hentry =>
        have hmem : (⟨service, name, entry.sealed, entry.version⟩ : SecretUpdate) ∈
            store.secretsForServices inner serviceNames :=
          mem_secretsForServices.mpr ⟨hservice, hstored⟩
        obtain ⟨i, hi⟩ := List.mem_iff_getElem?.mp hmem
        refine ⟨⟨service, name, nonces i ++ aead.sealWith (hkdf store.rawKey id) (nonces i)
          (secretAad service name) v.1, entry.version⟩, List.mem_filterMap.mpr
          ⟨(⟨service, name, entry.sealed, entry.version⟩, i), List.mem_zipIdx_iff_getElem?.mpr hi,
            ?_⟩, rfl, rfl, hentry.1⟩
        rw [hentry.reencrypt_eq (nonces i)]
        rfl

theorem SecretInjector.decrypt_sealed (inj : SecretInjector) (key aad aad' value : Bytes)
    (nonce : Nonce) :
    inj.decrypt aead (nonce ++ aead.sealWith key nonce aad value) aad' =
      ((aead.openWith inj.key nonce aad' (aead.sealWith key nonce aad value)).map .ok).getD
        (.error "decryption failed") := by
  have hlen : ¬ (nonce.1 ++ aead.sealWith key nonce aad value).length < nonceLen := by
    rw [List.length_append, nonce.2]
    omega
  rw [decrypt, if_neg hlen, List.take_left' nonce.2, List.drop_left' nonce.2]
  cases aead.openWith inj.key nonce aad' (aead.sealWith key nonce aad value) <;> rfl

/-- CORRECT: what an agent opens with the key derived for it are the current values and versions of
    the secrets of the requested services, all of them and no others; nothing opens with the key of
    another agent, or under the name of another secret. -/
theorem agent_opens_exactly_its_secrets (hbinding : aead.Binding)
    {hkdf : Bytes → String → Bytes}
    (hkdf_inj : ∀ key id id', hkdf key id = hkdf key id' → id = id')
    {store : SecretStore} {m : PlainMap} (h : Holds aead store m) (inner : HashMap.Order)
    (nonces : ℕ → Nonce) (serviceNames : List String) (hnul : ∀ s ∈ serviceNames, NoNul s)
    (id : String) :
    let updates := store.secretsForAgent aead hkdf inner (fun i => some (nonces i)) serviceNames id
    (∀ inj : SecretInjector, inj.key.1 = hkdf store.rawKey id →
      (∀ service name value version, (∃ u ∈ updates, u.serviceName = service ∧
          u.secretName = name ∧ u.version = version ∧
          inj.decrypt aead u.encryptedValue (secretAad service name) = .ok value) ↔
        service ∈ serviceNames ∧ store.get aead service name = .ok (some (value, version))) ∧
      ∀ u ∈ updates, ∃ value,
        inj.decrypt aead u.encryptedValue (secretAad u.serviceName u.secretName) = .ok value) ∧
    ∀ u ∈ updates, ∀ (inj : SecretInjector) (id' service name : String), NoNul service →
      inj.key.1 = hkdf store.rawKey id' →
      id' ≠ id ∨ (service, name) ≠ (u.serviceName, u.secretName) →
        inj.decrypt aead u.encryptedValue (secretAad service name) =
          .error "decryption failed" := by
  intro updates
  obtain ⟨hsound, hcomplete⟩ :=
    mem_secretsForAgent_of_holds h hkdf inner nonces serviceNames id
  have hopens : ∀ inj : SecretInjector, inj.key.1 = hkdf store.rawKey id → ∀ u ∈ updates, ∃ value,
      m u.serviceName u.secretName = some (value, u.version) ∧
        inj.decrypt aead u.encryptedValue (secretAad u.serviceName u.secretName) = .ok value := by
    intro inj hkey u hu
    obtain ⟨-, value, hvalue, -, nonce, hsealed⟩ := hsound u hu
    refine ⟨value, hvalue, ?_⟩
    rw [show u.encryptedValue = _ from hsealed, inj.decrypt_sealed, hkey, aead.open_seal]
    rfl
  refine ⟨fun inj hkey => ⟨fun service name value version => ?_, fun u hu => ?_⟩, ?_⟩
  · rw [h.get_eq, Except.ok.injEq]
    constructor
    · rintro ⟨u, hu, rfl, rfl, rfl, hopen⟩
      obtain ⟨value', hvalue', hopen'⟩ := hopens inj hkey u hu
      cases hopen.symm.trans hopen'
      exact ⟨(hsound u hu).1, hvalue'⟩
    · rintro ⟨hservice, hvalue⟩
      obtain ⟨u, hu, rfl, rfl, hversion⟩ := hcomplete service hservice name _ hvalue
      obtain ⟨value', hvalue', hopen⟩ := hopens inj hkey u hu
      cases hvalue.symm.trans hvalue'
      exact ⟨u, hu, rfl, rfl, rfl, hopen⟩
  · obtain ⟨value, -, hopen⟩ := hopens inj hkey u hu
    exact ⟨value, hopen⟩
  · intro u hu inj id' service name hservice hkey hother
    obtain ⟨hrequested, value, -, -, nonce, hsealed⟩ := hsound u hu
    have hne : (hkdf store.rawKey id, secretAad u.serviceName u.secretName) ≠
        (inj.key.1, secretAad service name) := by
      intro hsame
      obtain ⟨hsamekey, hsameaad⟩ := Prod.mk.inj hsame
      rcases hother with hid | hpair
      · exact hid (hkdf_inj _ _ _ (hsamekey.trans hkey)).symm
      · obtain ⟨hs, hn⟩ := secretAad_inj (hnul _ hrequested) hservice hsameaad
        exact hpair (by rw [hs, hn])
    rw [show u.encryptedValue = _ from hsealed, inj.decrypt_sealed, hbinding _ _ _ _ _ _ hne]
    rfl

end Distribution

/-- Agents whose names are taken as their keys. -/
def namedAgent : SecretInjector where
  key := ⟨Text.utf8 "spiffe://fleet.internal/agent/n1", by decide +kernel⟩

@[inherit_doc namedAgent]
def otherAgent : SecretInjector where
  key := ⟨Text.utf8 "spiffe://fleet.internal/agent/n2", by decide +kernel⟩

/-- Two services have a secret, one of them in its second version. The agent of the one opens that
    version, nothing of the other service is sent to it, and another agent opens nothing. -/
theorem agent_opens_second_version :
    ∃ store : SecretStore, store.get .bound "api" "token" = .ok (some ([9], 1)) ∧
      let updates := store.secretsForAgent .bound (fun _ id => Text.utf8 id) .asBuilt
        (fun _ => some ⟨List.replicate 12 0, rfl⟩) ["web"] "spiffe://fleet.internal/agent/n1"
      (∃ u ∈ updates, u.version = 2 ∧
        namedAgent.decrypt .bound u.encryptedValue (secretAad "web" "db") = .ok [8]) ∧
      ∀ u ∈ updates, u.serviceName = "web" ∧ otherAgent.decrypt .bound u.encryptedValue
        (secretAad u.serviceName u.secretName) = .error "decryption failed" := by
  let nonce : Nonce := ⟨List.replicate 12 0, rfl⟩
  have hempty : Holds .bound { rawKey := ⟨List.replicate 32 1, rfl⟩ } fun _ _ => none :=
    fun _ _ => .none
  obtain ⟨store₁, -, hholds₁⟩ := hempty.put "web" "db" [7] nonce (by decide)
  obtain ⟨store₂, -, hholds₂⟩ := hholds₁.put "api" "token" [9] nonce
    (by rw [hholds₁.nextVersion_eq]; decide)
  obtain ⟨store, -, hholds⟩ := hholds₂.put "web" "db" [8] nonce
    (by rw [hholds₂.nextVersion_eq]; decide)
  have hderived : ∀ (_ : Bytes) (id id' : String), Text.utf8 id = Text.utf8 id' → id = id' :=
    fun _ _ _ h => Text.utf8_inj.mp h
  obtain ⟨hopens, hothers⟩ := @agent_opens_exactly_its_secrets _ Aead.bound_binding
    (fun _ id => Text.utf8 id) hderived _ _ hholds .asBuilt (fun _ => nonce) ["web"]
    (by decide +kernel) "spiffe://fleet.internal/agent/n1"
  obtain ⟨hexact, hall⟩ := hopens namedAgent rfl
  refine ⟨store, by rw [hholds.get_eq]; rfl, ?_, fun u hu => ?_⟩
  · obtain ⟨u, hu, -, -, hversion, hopen⟩ := (hexact "web" "db" [8] 2).mpr
      ⟨by simp, by rw [hholds.get_eq]; rfl⟩
    exact ⟨u, hu, hversion, hopen⟩
  · obtain ⟨value, hopen⟩ := hall u hu
    have hservice : u.serviceName = "web" := List.mem_singleton.mp
      ((hexact _ _ value _).mp ⟨u, hu, rfl, rfl, rfl, hopen⟩).1
    refine ⟨hservice, hothers u hu otherAgent "spiffe://fleet.internal/agent/n2" _ _ ?_ rfl
      (.inl (by decide))⟩
    rw [hservice]
    decide +kernel

end Ekafleet.Secrets
