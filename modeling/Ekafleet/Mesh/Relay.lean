import Ekafleet.Mesh.Peers

/-! Advertisements that a relay makes up | source: mesh/advert.rs, mesh/peers.rs

    A relay chooses every field of an advertisement, the certificate included, and signs with the
    keys it holds; of other keys it has the signatures that their holders made. An agent checks that
    the certificate names the node, not that the fleet CA issued it. -/

namespace Ekafleet.Mesh
open Ca

/-- A signature verifies only under keys that the relay holds, or for what was signed. -/
def Unforged (lib : AdvertLib) (relayKeys : Set Bytes) (signed : List (Bytes × Bytes))
    (signature : Bytes) : Prop :=
  ∀ key message, lib.ecdsaP256 key message signature = true →
    key ∈ relayKeys ∨ (key, message) ∈ signed

/-- Who holds which key. Signatures are ideal: who has a key can sign everything with it, and there
    are no other signatures than those. -/
structure Signers (lib : AdvertLib) where
  /-- The certificates that the fleet CA has issued. -/
  issued : List X509
  /-- Public keys whose private key the relay holds. -/
  relayKeys : Set Bytes
  /-- Key and message of every signature that others made. -/
  signed : List (Bytes × Bytes)
  signs : ∀ key message, key ∈ relayKeys ∨ (key, message) ∈ signed →
    ∃ signature, signature ≠ [] ∧ lib.ecdsaP256 key message signature = true ∧
      Unforged lib relayKeys signed signature

namespace Signers
variable {lib : AdvertLib} (w : Signers lib)

/-- The fleet CA issued an SVID for the agent of the node with this key. -/
def IssuedFor (domain node : String) (key : Bytes) : Prop :=
  ∃ cert ∈ w.issued, extractSpiffeId cert.subjectAltNames = some (agentSpiffeId domain node) ∧
    cert.subjectPublicKey = key

/-- The relay can put the advertisement together. -/
def Assembles (peer : WireguardPeer) : Prop := Unforged lib w.relayKeys w.signed peer.signature

/-- The holder of an SVID of the advertised node signed the advertised fields. -/
def Vouched (domain : String) (peer : WireguardPeer) : Prop :=
  ∃ key, w.IssuedFor domain peer.nodeId key ∧ (key, peer.canonicalBytes) ∈ w.signed

/-- Everything that was signed with the key in the name of the node was signed with one of the
    node's SVIDs too. -/
def SignsNothingNew (domain node : String) (key : Bytes) : Prop :=
  ∀ peer : WireguardPeer, peer.nodeId = node → (key, peer.canonicalBytes) ∈ w.signed →
    w.Vouched domain peer

end Signers

/-- Among the advertisements of one update, `apply_update` goes on with this one. -/
def Accepts (host : MeshHost) (updates : List WireguardPeer) (peer : WireguardPeer) : Prop :=
  ∃ accepted, verifiedPeers host updates = some accepted ∧ peer ∈ accepted

theorem Accepts.verified {host : MeshHost} {updates : List WireguardPeer} {peer : WireguardPeer}
    (h : Accepts host updates peer) : verifyAdvert host.lib peer host.trustDomain =
      some (.ok ()) := by
  obtain ⟨accepted, haccepted, hmem⟩ := h
  exact ((mem_verifiedPeers host haccepted).mp hmem).2

theorem accepts_alone {host : MeshHost} {peer : WireguardPeer}
    (h : verifyAdvert host.lib peer host.trustDomain = some (.ok ())) :
    Accepts host [peer] peer := by
  refine ⟨[peer], ?_, List.mem_singleton_self _⟩
  rw [verifiedPeers, h]
  rfl

/-! ### What an update records -/

section Frame
variable (host : MeshHost) (accepted : List WireguardPeer)

/-- Every record is an old one or that of an accepted advertisement. -/
def RecordsAccepted (s s' : MeshState) : Prop :=
  ∀ node info, s'.peers.lookup node = some info → s.peers.lookup node = some info ∨
    ∃ peer ∈ accepted, peer.nodeId = node ∧ info = recordOf host peer

instance : Std.Refl (RecordsAccepted host accepted) := ⟨fun _ _ _ => .inl⟩

instance : IsTrans MeshState (RecordsAccepted host accepted) where
  trans s₁ s₂ s₃ h₁ h₂ := by
    intro node info hinfo
    rcases h₂ node info hinfo with hinfo | hpeer
    · exact h₁ node info hinfo
    · exact .inr hpeer

theorem recordsAccepted_runCmd (cmd : String) (args : List String) (effect : Kernel → Kernel) :
    Effect.Within (RecordsAccepted host accepted) (runCmd host cmd args effect) := by
  intro s node info hinfo
  refine .inl ?_
  rw [runCmd] at hinfo
  split at hinfo <;> exact hinfo

theorem recordsAccepted_updatePeer {peer : WireguardPeer} (hpeer : peer ∈ accepted) :
    Effect.Within (RecordsAccepted host accepted) (updatePeer host peer) := by
  refine Effect.Within.bind (Effect.within_read _) fun changed => ?_
  cases changed with
  | false => exact Effect.within_pure _
  | true =>
    refine Effect.Within.bind (recordsAccepted_runCmd host accepted _ _ _) fun _ => ?_
    refine Effect.within_update fun s node info hinfo => ?_
    by_cases hnode : node = peer.nodeId
    · subst hnode
      rw [AList.lookup_insert] at hinfo
      exact .inr ⟨peer, hpeer, rfl, (Option.some.inj hinfo).symm⟩
    · rw [AList.lookup_insert_ne hnode] at hinfo
      exact .inl hinfo

theorem recordsAccepted_removeStale (id : String) :
    Effect.Within (RecordsAccepted host accepted) (removeStale host id) := by
  refine Effect.Within.bind (Effect.within_read _) fun removed => ?_
  cases removed with
  | none => exact Effect.within_pure _
  | some peer =>
    refine Effect.Within.bind (Effect.within_update fun s node info hinfo => .inl ?_) fun _ =>
      recordsAccepted_runCmd host accepted _ _ _
    grind [AList.lookup_erase, AList.lookup_erase_ne]

theorem recordsAccepted_applyVerified (order : HashMap.Order) :
    Effect.Within (RecordsAccepted host accepted) (applyVerified host order accepted) := by
  refine Effect.Within.bind ?_ fun _ => ?_
  · exact Effect.within_forM_mem fun peer hpeer => recordsAccepted_updatePeer host accepted hpeer
  · refine Effect.Within.bind (Effect.within_read _) fun stale => ?_
    exact Effect.within_forM (recordsAccepted_removeStale host accepted) stale

end Frame

/-- An update, whatever becomes of it. -/
def afterUpdate (host : MeshHost) (s : MeshState) (u : HashMap.Order × List WireguardPeer) :
    Option MeshState :=
  (applyUpdate host u.1 u.2 s).map Prod.snd

/-- The record says what an advertisement says that came in one of the updates and verified. -/
def Advertised (host : MeshHost) (trace : List (HashMap.Order × List WireguardPeer)) (node : String)
    (info : PeerInfo) : Prop :=
  ∃ u ∈ trace, ∃ peer ∈ u.2, peer.nodeId = node ∧ info = recordOf host peer ∧
    verifyAdvert host.lib peer host.trustDomain = some (.ok ())

/-- RUN: whatever becomes of the updates, every peer on record has been advertised. -/
theorem recorded_peers_advertised {host : MeshHost} {s : MeshState} {node : String}
    {info : PeerInfo} {trace : List (HashMap.Order × List WireguardPeer)}
    (h : Run.run (afterUpdate host) {} trace = some s) (hinfo : s.peers.lookup node = some info) :
    Advertised host trace node info := by
  refine Run.invariant_history (afterUpdate host) {} (fun trace s => ∀ node info,
    s.peers.lookup node = some info → Advertised host trace node info) ?_ ?_ h node info hinfo
  · rintro node info ⟨⟩
  intro trace s u s' _ ih hstep node info hinfo
  obtain ⟨⟨r, _⟩, happly, rfl⟩ := Option.map_eq_some_iff.mp hstep
  obtain ⟨accepted, haccepted, heq⟩ := Option.map_eq_some_iff.mp happly
  rcases (recordsAccepted_applyVerified host accepted u.1).of_eq heq node info hinfo with
    hold | ⟨peer, hpeer, hnode, hrecord⟩
  · obtain ⟨u', hu', hpeer⟩ := ih node info hold
    exact ⟨u', List.mem_append_left _ hu', hpeer⟩
  · obtain ⟨hmem, hverified⟩ := (mem_verifiedPeers host haccepted).mp hpeer
    exact ⟨u, by simp, peer, hmem, hnode, hrecord, hverified⟩

/-! ### What the relay can have accepted -/

section Relay
variable {host : MeshHost} {w : Signers host.lib}

theorem Accepts.signed {updates : List WireguardPeer} {peer : WireguardPeer}
    (h : Accepts host updates peer) (hpeer : w.Assembles peer) :
    ∃ key, Presents host.lib peer.signingCertPem (agentSpiffeId host.trustDomain peer.nodeId) key ∧
      (key ∈ w.relayKeys ∨ (key, peer.canonicalBytes) ∈ w.signed) := by
  obtain ⟨-, key, hpresents, hverify⟩ := (verifyAdvert_eq_ok_iff host.lib).mp h.verified
  exact ⟨key, hpresents, hpeer key _ hverify⟩

theorem exists_accepts {peer : WireguardPeer} {key : Bytes}
    (hpresents : Presents host.lib peer.signingCertPem
      (agentSpiffeId host.trustDomain peer.nodeId) key)
    (hkey : key ∈ w.relayKeys ∨ (key, peer.canonicalBytes) ∈ w.signed) :
    ∃ signature, w.Assembles { peer with signature } ∧
      Accepts host [{ peer with signature }] { peer with signature } := by
  obtain ⟨signature, hne, hverify, hunforged⟩ := w.signs key _ hkey
  refine ⟨signature, hunforged, accepts_alone ?_⟩
  exact (verifyAdvert_eq_ok_iff host.lib).mpr ⟨hne, key, hpresents, hverify⟩

theorem exists_unsigned (w : Signers host.lib) (nodeId publicKey allowedIp : String) :
    ∃ endpoint, ∀ key, (key, canonicalBytes nodeId publicKey endpoint allowedIp) ∉ w.signed := by
  -- An endpoint as long as all signed messages together.
  generalize hlongest : (w.signed.map fun entry => entry.2.length).sum = longest
  refine ⟨String.ofList (List.replicate longest 'x'), fun key hmem => ?_⟩
  have hle : (canonicalBytes nodeId publicKey (String.ofList (List.replicate longest 'x'))
      allowedIp).length ≤ (w.signed.map fun entry => entry.2.length).sum :=
    List.le_sum_of_mem (List.mem_map.mpr ⟨_, hmem, rfl⟩)
  have hgt := length_canonicalBytes_gt nodeId publicKey
    (String.ofList (List.replicate longest 'x')) allowedIp
  have hlength : (Text.utf8 (String.ofList (List.replicate longest 'x'))).length = longest := by
    rw [Text.utf8_ofList]
    simp [List.length_flatMap, String.utf8EncodeChar]
  omega

end Relay

/-- EXACT: take a relay that holds no key of an SVID of the node. The advertisements for the node
    that it can get accepted with one certificate are all vouched for by an SVID of the node if and
    only if the key in that certificate is one the fleet CA issued for the node, or else one that
    the relay does not hold and that has signed nothing new in the node's name. -/
theorem relayed_adverts_vouched_iff (host : MeshHost) (w : Signers host.lib) (node certPem : String)
    (hrelay : ∀ key, w.IssuedFor host.trustDomain node key → key ∉ w.relayKeys) :
    (∀ updates peer, peer.nodeId = node → peer.signingCertPem = certPem → w.Assembles peer →
        Accepts host updates peer → w.Vouched host.trustDomain peer) ↔
      ∀ key, Presents host.lib certPem (agentSpiffeId host.trustDomain node) key →
        w.IssuedFor host.trustDomain node key ∨
          key ∉ w.relayKeys ∧ w.SignsNothingNew host.trustDomain node key := by
  constructor
  · intro hvouched key hpresents
    refine .inr ⟨fun hkey => ?_, fun peer hnode hsigned => ?_⟩
    · -- With a key of its own in the certificate the relay signs fields that nobody signed.
      obtain ⟨endpoint, hunsigned⟩ := exists_unsigned w node "" ""
      let peer : WireguardPeer := ⟨node, "", endpoint, "", [], certPem⟩
      have hpeer : Presents host.lib peer.signingCertPem
          (agentSpiffeId host.trustDomain peer.nodeId) key := hpresents
      obtain ⟨signature, hassembles, haccepts⟩ := exists_accepts hpeer (.inl hkey)
      obtain ⟨key', -, hsigned⟩ := hvouched _ _ rfl rfl hassembles haccepts
      exact hunsigned key' hsigned
    · subst hnode
      let forged : WireguardPeer := { peer with signingCertPem := certPem }
      have hforged : Presents host.lib forged.signingCertPem
          (agentSpiffeId host.trustDomain forged.nodeId) key := hpresents
      obtain ⟨signature, hassembles, haccepts⟩ := exists_accepts hforged (.inr hsigned)
      exact hvouched _ { forged with signature } rfl rfl hassembles haccepts
  · rintro hkeys updates peer rfl rfl hassembles haccepts
    obtain ⟨key, hpresents, hkey⟩ := haccepts.signed hassembles
    rcases hkeys key hpresents with hissued | ⟨hnot, hnothing⟩
    · exact ⟨key, hissued, hkey.resolve_left (hrelay key hissued)⟩
    · exact hnothing peer rfl (hkey.resolve_left hnot)

/-! ### Two fleets -/

theorem textLib_verifies {key message : Bytes} (hkey : key.length = 1) {key' message' : Bytes} :
    textLib.ecdsaP256 key' message' (key ++ message) = true ↔ key' = key ∧ message' = message := by
  simp only [textLib, decide_eq_true_eq]
  constructor
  · rintro ⟨hlength, heq⟩
    obtain ⟨h₁, h₂⟩ := List.append_inj heq (hkey.trans hlength.symm)
    exact ⟨h₁.symm, h₂.symm⟩
  · rintro ⟨rfl, rfl⟩
    exact ⟨hkey, rfl⟩

theorem textLib_signs {relayKeys : Set Bytes} {signed : List (Bytes × Bytes)} {key message : Bytes}
    (hlength : key.length = 1) (hkey : key ∈ relayKeys ∨ (key, message) ∈ signed) :
    ∃ signature, signature ≠ [] ∧ textLib.ecdsaP256 key message signature = true ∧
      Unforged textLib relayKeys signed signature := by
  refine ⟨key ++ message, ?_, (textLib_verifies hlength).mpr ⟨rfl, rfl⟩, ?_⟩
  · intro hnil
    rw [(List.append_eq_nil_iff.mp hnil).1] at hlength
    cases hlength
  · intro key' message' hverify
    obtain ⟨rfl, rfl⟩ := (textLib_verifies hlength).mp hverify
    exact hkey

/-- What `node-1` advertises. -/
def honestAdvert : WireguardPeer :=
  textAdvert "node-1" "node-key" "10.0.0.5:51820" "10.100.0.5/32"

theorem honest_peer_advertised : ∃ s info,
    Run.run (afterUpdate textHost) {} [(.asBuilt, [honestAdvert])] = some s ∧
      s.peers.lookup "node-1" = some info ∧
        Advertised textHost [(.asBuilt, [honestAdvert])] "node-1" info := by
  have hsome : ((Run.run (afterUpdate textHost) {} [(.asBuilt, [honestAdvert])]).bind
    (·.peers.lookup "node-1")).isSome = true := by decide +kernel
  obtain ⟨info, hinfo⟩ := Option.isSome_iff_exists.mp hsome
  obtain ⟨s, hs, hinfo⟩ := Option.bind_eq_some_iff.mp hinfo
  exact ⟨s, info, hs, hinfo, recorded_peers_advertised hs hinfo⟩

def svidOfNodeOne (key : Bytes) : X509 := ⟨[.uri (agentSpiffeId "fleet.internal" "node-1")], key⟩

/-- The SVID of `node-1` has the key `[1]`, which is in its certificates; the relay holds `[2]`. -/
def honestFleet : Signers textLib where
  issued := [svidOfNodeOne [1]]
  relayKeys := {[2]}
  signed := [([1], honestAdvert.canonicalBytes)]
  signs := by
    rintro key message hkey
    refine textLib_signs ?_ hkey
    rcases hkey with rfl | hsigned
    · rfl
    · rw [(Prod.mk.inj (List.mem_singleton.mp hsigned)).1]
      rfl

/-- The SVID of `node-1` has the key `[2]`; the relay holds `[1]` and writes it into certificates.
    -/
def forgedFleet : Signers textLib where
  issued := [svidOfNodeOne [2]]
  relayKeys := {[1]}
  signed := []
  signs := by
    rintro key message (rfl | hsigned)
    · exact textLib_signs rfl (.inl rfl)
    · cases hsigned

/-- Who relays for `honestFleet` gets what `node-1` signed accepted, and nothing else for it. -/
theorem honest_adverts_vouched :
    Accepts textHost [honestAdvert] honestAdvert ∧
      ∀ updates peer, peer.nodeId = "node-1" → peer.signingCertPem = honestAdvert.signingCertPem →
        honestFleet.Assembles peer → Accepts textHost updates peer →
        honestFleet.Vouched "fleet.internal" peer := by
  refine ⟨accepts_alone (by decide +kernel), ?_⟩
  refine (relayed_adverts_vouched_iff textHost honestFleet "node-1" _ ?_).mpr ?_
  · rintro key ⟨cert, hcert, -, rfl⟩
    rw [List.mem_singleton.mp hcert]
    simp [honestFleet, svidOfNodeOne]
  · rintro key ⟨-, hkey⟩
    have hone : certSpkiDer textLib honestAdvert.signingCertPem = some (.ok [1]) := by
      decide +kernel
    cases hone.symm.trans hkey
    exact .inl ⟨svidOfNodeOne [1], List.mem_singleton_self _, by decide +kernel, rfl⟩

/-- With a certificate that it wrote itself the relay has its own WireGuard key accepted for
    `node-1`, whose SVID signed nothing. -/
theorem relay_forges_advert :
    (∀ key, forgedFleet.IssuedFor "fleet.internal" "node-1" key → key ∉ forgedFleet.relayKeys) ∧
      ∃ peer, peer.nodeId = "node-1" ∧ peer.publicKey = "relay-key" ∧
        forgedFleet.Assembles peer ∧ Accepts textHost [peer] peer ∧
          ¬ forgedFleet.Vouched "fleet.internal" peer := by
  refine ⟨?_, textAdvert "node-1" "relay-key" "6.6.6.6:51820" "10.100.0.5/32", rfl, rfl, ?_,
    accepts_alone (by decide +kernel), ?_⟩
  · rintro key ⟨cert, hcert, -, rfl⟩
    rw [List.mem_singleton.mp hcert]
    simp [forgedFleet, svidOfNodeOne]
  · intro key message hverify
    exact .inl ((textLib_verifies rfl).mp hverify).1
  · rintro ⟨key, -, hsigned⟩
    cases hsigned

end Ekafleet.Mesh
