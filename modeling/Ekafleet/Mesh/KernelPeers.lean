import Ekafleet.Mesh.Peers

/-! When the kernel has the advertised peers | source: mesh/peers.rs

    The kernel's table is keyed by public key, the manager's by node. After an update that returned,
    both are described in terms of the state before it: which keys the update sets, and which keys
    it removes because they are recorded for a node that is no longer listed. -/

namespace Ekafleet.Mesh
open Run

/-! ### What the kernel should hold -/

/-- The kernel holds the peer as it is advertised. -/
def Holds (kernel : Kernel) (peer : WireguardPeer) : Prop :=
  kernel.lookup peer.publicKey = some ⟨peer.endpoint, some peer.allowedIp⟩

/-- The kernel's peers are exactly the accepted ones, with key, endpoint and allowed IP. -/
def Matches (kernel : Kernel) (accepted : List WireguardPeer) : Prop :=
  ∀ key entry, kernel.lookup key = some entry ↔
    ∃ peer ∈ accepted, peer.publicKey = key ∧ entry = ⟨peer.endpoint, some peer.allowedIp⟩

/-- Two advertisements that one kernel table can hold both. -/
def Agree (p q : WireguardPeer) : Prop :=
  (p.publicKey = q.publicKey → p.endpoint = q.endpoint ∧ p.allowedIp = q.allowedIp) ∧
    (p.allowedIp = q.allowedIp → p.publicKey = q.publicKey)

variable {kernel : Kernel}

theorem matches_iff {accepted : List WireguardPeer} :
    Matches kernel accepted ↔ (∀ p ∈ accepted, Holds kernel p) ∧
      ∀ key ∈ kernel, ∃ p ∈ accepted, p.publicKey = key := by
  constructor
  · intro h
    refine ⟨fun p hp => (h _ _).mpr ⟨p, hp, rfl, rfl⟩, fun key hkey => ?_⟩
    obtain ⟨entry, hentry⟩ := HashMap.mem_iff_exists_lookup.mp hkey
    obtain ⟨p, hp, hpkey, -⟩ := (h key entry).mp hentry
    exact ⟨p, hp, hpkey⟩
  · rintro ⟨hholds, hkeys⟩ key entry
    constructor
    · intro hentry
      obtain ⟨p, hp, rfl⟩ := hkeys key (HashMap.mem_iff_exists_lookup.mpr ⟨entry, hentry⟩)
      refine ⟨p, hp, rfl, ?_⟩
      have hp' := hholds p hp
      rw [Holds, hentry] at hp'
      exact Option.some.inj hp'
    · rintro ⟨p, hp, rfl, rfl⟩
      exact hholds p hp

theorem agree_of_holds (h : OneOwner kernel) {p q : WireguardPeer} (hp : Holds kernel p)
    (hq : Holds kernel q) : Agree p q := by
  refine ⟨fun hkey => ?_, fun hip => h _ _ _ _ _ hp hq rfl (by rw [hip])⟩
  rw [Holds, hkey, hq] at hp
  simp only [Option.some.injEq, KernelPeer.mk.injEq] at hp
  exact ⟨hp.1.symm, hp.2.symm⟩

/-- STEP: setting a peer configures it and leaves alone who agrees with it. -/
theorem holds_kernelSet {p q : WireguardPeer} (h : Agree p q) :
    Holds (kernelSet q.publicKey q.endpoint q.allowedIp kernel) p ↔
      q.publicKey = p.publicKey ∨ Holds kernel p := by
  by_cases hkey : p.publicKey = q.publicKey
  · obtain ⟨hendpoint, hip⟩ := h.1 hkey
    rw [Holds, hkey, hendpoint, hip, lookup_kernelSet_self]
    exact iff_of_true rfl (.inl rfl)
  · have hip : p.allowedIp ≠ q.allowedIp := fun heq => hkey (h.2 heq)
    rw [Holds, lookup_kernelSet_ne hkey, Option.map_eq_some_iff, Holds]
    simp only [withdraw_eq_iff hip, exists_eq_right, Ne.symm hkey, false_or]

theorem mem_kernelSet {key publicKey endpoint allowedIp : String} :
    key ∈ kernelSet publicKey endpoint allowedIp kernel ↔ publicKey = key ∨ key ∈ kernel := by
  rw [kernelSet, AList.mem_insert, eq_comm]
  refine or_congr Iff.rfl ?_
  rw [AList.mem_keys, HashMap.keys_mapVal, ← AList.mem_keys]

/-! ### The peers an update sets -/

section Updates
variable (host : MeshHost)

/-- Key and endpoint recorded for a node when the advertisements `seen` have been handled: those of
    its last advertisement, or what was recorded before. -/
def MeshState.recorded (s : MeshState) (seen : List WireguardPeer) (node : String) :
    Option (String × String) :=
  match seen.reverse.find? (·.nodeId = node) with
  | some peer => some (peer.publicKey, peer.endpoint)
  | none => (s.peers.lookup node).map fun info => (info.publicKey, info.endpoint)

/-- Some advertisement of the key differs from what is recorded for its node when its turn comes. -/
def SetsKey (s : MeshState) (updates : List WireguardPeer) (key : String) : Prop :=
  ∃ seen peer rest, updates = seen ++ peer :: rest ∧ peer.publicKey = key ∧
    s.recorded seen peer.nodeId ≠ some (peer.publicKey, peer.endpoint)

/-- The key is recorded for a node that is not listed any more. -/
def StaleKey (s : MeshState) (updates : List WireguardPeer) (key : String) : Prop :=
  ∃ id info, id ∉ updates.map (·.nodeId) ∧ s.peers.lookup id = some info ∧ info.publicKey = key

variable {s s' : MeshState} {updates : List WireguardPeer} {key : String} {entry : KernelPeer}
  {order : HashMap.Order}

theorem changed_iff {peer : WireguardPeer} :
    s.changed peer = true ↔ s.recorded [] peer.nodeId ≠ some (peer.publicKey, peer.endpoint) := by
  rw [MeshState.changed, MeshState.recorded, List.reverse_nil, List.find?_nil]
  grind

theorem recorded_concat (s : MeshState) (seen : List WireguardPeer) (peer : WireguardPeer)
    (node : String) :
    s.recorded (seen ++ [peer]) node =
      if peer.nodeId = node then some (peer.publicKey, peer.endpoint)
      else s.recorded seen node := by
  simp only [MeshState.recorded, List.reverse_append, List.reverse_singleton,
    List.singleton_append, List.find?_cons]
  split_ifs with h <;> simp [h]

/-- STEP: after an advertisement its node is recorded with its key and endpoint. -/
theorem recorded_updated (s : MeshState) (peer : WireguardPeer) (node : String) :
    (s.updated host peer).recorded [] node =
      if peer.nodeId = node then some (peer.publicKey, peer.endpoint) else s.recorded [] node := by
  rw [MeshState.updated]
  by_cases hnode : peer.nodeId = node
  · subst hnode
    rw [if_pos rfl]
    split_ifs with hchanged
    · simp [MeshState.recorded, recordOf]
    · rw [changed_iff, not_not] at hchanged
      exact hchanged
  · rw [if_neg hnode]
    split_ifs with hchanged
    · simp [MeshState.recorded, AList.lookup_insert_ne (Ne.symm hnode)]
    · rfl

/-- RUN: the table after some advertisements, read off the state before them. -/
theorem recorded_foldl (s : MeshState) (seen : List WireguardPeer) (node : String) :
    (seen.foldl (MeshState.updated host) s).recorded [] node = s.recorded seen node := by
  induction seen using List.reverseRecOn with
  | nil => rfl
  | append_singleton seen peer ih =>
    rw [List.foldl_concat, recorded_updated, recorded_concat, ih]

theorem setsKey_concat {peer : WireguardPeer}
    :
    SetsKey s (updates ++ [peer]) key ↔ SetsKey s updates key ∨
      peer.publicKey = key ∧
        s.recorded updates peer.nodeId ≠ some (peer.publicKey, peer.endpoint) := by
  constructor
  · rintro ⟨seen, q, rest, heq, hkey, hdiff⟩
    rcases List.eq_nil_or_concat rest with rfl | ⟨rest, last, rfl⟩
    · obtain ⟨rfl, hq⟩ := List.append_inj' heq rfl
      cases hq
      exact .inr ⟨hkey, hdiff⟩
    · rw [List.concat_eq_append, ← List.cons_append, ← List.append_assoc] at heq
      obtain ⟨rfl, -⟩ := List.append_inj' heq rfl
      exact .inl ⟨seen, q, rest, rfl, hkey, hdiff⟩
  · rintro (⟨seen, q, rest, rfl, hkey, hdiff⟩ | ⟨hkey, hdiff⟩)
    · exact ⟨seen, q, rest ++ [peer], by simp, hkey, hdiff⟩
    · exact ⟨updates, peer, [], rfl, hkey, hdiff⟩

theorem SetsKey.advertised (h : SetsKey s updates key) : ∃ p ∈ updates, p.publicKey = key := by
  obtain ⟨seen, p, rest, rfl, hkey, -⟩ := h
  exact ⟨p, by simp, hkey⟩

/-- RUN: a property of the kernel that setting a peer makes true for its key, and otherwise keeps,
    holds after the advertisements exactly when one of the key was set or it held before. -/
theorem foldl_updated_iff {P : Kernel → Prop} (hstep : ∀ q ∈ updates, ∀ kernel,
      P (kernelSet q.publicKey q.endpoint q.allowedIp kernel) ↔ q.publicKey = key ∨ P kernel)
    (s : MeshState) :
    P (updates.foldl (MeshState.updated host) s).kernel ↔ SetsKey s updates key ∨ P s.kernel := by
  induction updates using List.reverseRecOn with
  | nil =>
    refine ⟨.inr, fun h => h.resolve_left ?_⟩
    rintro ⟨seen, p, rest, heq, -⟩
    simp at heq
  | append_singleton updates peer ih =>
    have ih := ih fun q hq => hstep q (List.mem_append_left _ hq)
    have hlast := hstep peer (by simp)
    rw [List.foldl_concat, setsKey_concat, ← recorded_foldl host, ← changed_iff]
    generalize updates.foldl (MeshState.updated host) s = t at ih ⊢
    rw [MeshState.updated]
    split_ifs with hchanged
    · rw [hlast, ih]
      tauto
    · rw [ih]
      tauto

theorem lookup_foldl_updated {id : String} (h : id ∉ updates.map (·.nodeId)) (s : MeshState) :
    (updates.foldl (MeshState.updated host) s).peers.lookup id = s.peers.lookup id := by
  induction updates using List.reverseRecOn with
  | nil => rfl
  | append_singleton updates peer ih =>
    rw [List.map_append, List.mem_append, not_or] at h
    rw [List.foldl_concat, ← ih h.1, MeshState.updated]
    split_ifs
    · exact AList.lookup_insert_ne (by simpa using h.2)
    · rfl

/-! ### The peers an update removes -/

theorem lookup_peers_without {id id' : String} {info : PeerInfo} :
    (s.without id).peers.lookup id' = some info ↔ s.peers.lookup id' = some info ∧ id' ≠ id := by
  rw [MeshState.without]
  cases hid : s.peers.lookup id with
  | none =>
    grind
  | some peer =>
    by_cases heq : id' = id
    · subst heq
      simp [AList.lookup_erase]
    · simp [AList.lookup_erase_ne heq, heq]

theorem lookup_kernel_without {id : String} :
    (s.without id).kernel.lookup key = some entry ↔
      s.kernel.lookup key = some entry ∧
        ∀ info, s.peers.lookup id = some info → info.publicKey ≠ key := by
  rw [MeshState.without]
  cases s.peers.lookup id with
  | none => simp
  | some peer =>
    rw [lookup_erase_eq_some]
    refine and_congr_right fun _ => ?_
    simp [eq_comm]

/-- RUN: what is left when the recorded keys of some nodes have been removed. -/
theorem lookup_foldl_without (ids : List String) (s : MeshState) :
    (ids.foldl MeshState.without s).kernel.lookup key = some entry ↔
      s.kernel.lookup key = some entry ∧
        ∀ id ∈ ids, ∀ info, s.peers.lookup id = some info → info.publicKey ≠ key := by
  induction ids generalizing s with
  | nil => simp
  | cons id rest ih =>
    rw [List.foldl_cons, ih, lookup_kernel_without, List.forall_mem_cons, and_assoc]
    refine and_congr_right fun _ => and_congr_right fun hid => ?_
    grind [lookup_peers_without]

/-- EXACT: the kernel after an update, entry by entry. -/
theorem lookup_applyVerified (h : applyVerified host order updates s = (.ok ⟨⟩, s'))
    :
    s'.kernel.lookup key = some entry ↔
      (updates.foldl (MeshState.updated host) s).kernel.lookup key = some entry ∧
        ¬ StaleKey s updates key := by
  rw [applyVerified_ok host h, lookup_foldl_without]
  refine and_congr_right fun _ => ?_
  constructor
  · rintro hids ⟨id, info, hid, hinfo, hkey⟩
    rw [← lookup_foldl_updated host hid] at hinfo
    refine hids id ?_ info hinfo hkey
    rw [MeshState.stale, HashMap.Order.mem_arrange, List.mem_filter]
    exact ⟨AList.mem_keys.mp (HashMap.mem_iff_exists_lookup.mpr ⟨info, hinfo⟩), by simpa using hid⟩
  · intro hstale id hid info hinfo hkey
    rw [MeshState.stale, HashMap.Order.mem_arrange, List.mem_filter] at hid
    have hunlisted : id ∉ updates.map (·.nodeId) := by simpa using hid.2
    rw [lookup_foldl_updated host hunlisted] at hinfo
    exact hstale ⟨id, info, hunlisted, hinfo, hkey⟩

theorem mem_applyVerified (h : applyVerified host order updates s = (.ok ⟨⟩, s')) :
    key ∈ s'.kernel ↔ (SetsKey s updates key ∨ key ∈ s.kernel) ∧ ¬ StaleKey s updates key := by
  rw [← foldl_updated_iff host (P := fun kernel => key ∈ kernel) fun q _ kernel => mem_kernelSet]
  simp only [HashMap.mem_iff_exists_lookup, lookup_applyVerified host h, exists_and_right]

theorem holds_applyVerified (h : applyVerified host order updates s = (.ok ⟨⟩, s'))
    {p : WireguardPeer}
    (hagree : ∀ q ∈ updates, Agree p q) :
    Holds s'.kernel p ↔ (SetsKey s updates p.publicKey ∨ Holds s.kernel p) ∧
      ¬ StaleKey s updates p.publicKey := by
  rw [Holds, lookup_applyVerified host h]
  refine and_congr_left fun _ => ?_
  exact foldl_updated_iff host (P := fun kernel => Holds kernel p)
    (fun q hq kernel => holds_kernelSet (hagree q hq)) s

/-- STEP: a key stays in the kernel unless the node it is recorded for is no longer listed. A node
    that is listed with a new key leaves its old one there. -/
theorem replaced_key_stays (h : applyVerified host order updates s = (.ok ⟨⟩, s'))
    (hkey : key ∈ s.kernel) (hstale : ¬ StaleKey s updates key) : key ∈ s'.kernel :=
  (mem_applyVerified host h).mpr ⟨.inr hkey, hstale⟩

/-! ### Sequences of updates -/

theorem OneOwner.updated (h : OneOwner s.kernel) (peer : WireguardPeer) :
    OneOwner (s.updated host peer).kernel := by
  rw [MeshState.updated]
  split_ifs
  · exact h.kernelSet _ _ _
  · exact h

theorem OneOwner.without (h : OneOwner s.kernel) (id : String) :
    OneOwner (s.without id).kernel := by
  rw [MeshState.without]
  cases s.peers.lookup id with
  | none => exact h
  | some peer => exact h.erase _

theorem OneOwner.applyVerified (hs : OneOwner s.kernel)
    (h : applyVerified host order updates s = (.ok ⟨⟩, s')) : OneOwner s'.kernel := by
  rw [applyVerified_ok host h]
  refine List.foldlRecOn (motive := fun t : MeshState => OneOwner t.kernel) _ _ ?_
    fun t ht id _ => OneOwner.without ht id
  exact List.foldlRecOn (motive := fun t : MeshState => OneOwner t.kernel) _ _ hs
    fun t ht peer _ => OneOwner.updated host ht peer

/-- An update that is applied without an error; the table of nodes iterates in some order. -/
def updateStep (s : MeshState) : HashMap.Order × List WireguardPeer → Option MeshState
  | (order, updates) =>
    match applyUpdate host order updates s with
    | some (.ok (), s') => some s'
    | _ => none

theorem updateStep_eq_some (h : updateStep host s (order, updates) = some s') :
    ∃ accepted, verifiedPeers host updates = some accepted ∧
      applyVerified host order accepted s = (.ok ⟨⟩, s') := by
  rw [updateStep] at h
  split at h
  · next s₁ happly =>
    cases h
    obtain ⟨accepted, haccepted, heq⟩ := Option.map_eq_some_iff.mp happly
    exact ⟨accepted, haccepted, heq⟩
  · cases h

theorem oneOwner_run {trace : List (HashMap.Order × List WireguardPeer)}
    (hrun : run (updateStep host) {} trace = some s) : OneOwner s.kernel := by
  refine invariant (updateStep host) (fun s => OneOwner s.kernel) ?_ ?_ hrun
  · intro key key' peer peer' ip hkey
    cases hkey
  · intro s e s' hs hstep
    obtain ⟨accepted, -, happly⟩ := updateStep_eq_some host hstep
    exact hs.applyVerified host happly

end Updates

/-- What an update needs from the state it meets in order to leave the kernel as advertised. -/
structure CleanUpdate (s : MeshState) (accepted : List WireguardPeer) : Prop where
  /-- One table can hold the accepted peers. -/
  agree : ∀ p ∈ accepted, ∀ q ∈ accepted, Agree p q
  /-- A peer with a key or endpoint that is not recorded is set; the others are there already. -/
  configured : ∀ p ∈ accepted, SetsKey s accepted p.publicKey ∨ Holds s.kernel p
  /-- No accepted key is recorded for a node that is no longer listed. -/
  kept : ∀ p ∈ accepted, ¬ StaleKey s accepted p.publicKey
  /-- Every other key of the kernel is. -/
  removed : ∀ key ∈ s.kernel, StaleKey s accepted key ∨ ∃ p ∈ accepted, p.publicKey = key

/-- EXACT: after a sequence of updates that were all applied, the kernel has exactly the verified
    peers of the last one if and only if that one met a clean state. -/
theorem kernel_matches_iff (host : MeshHost) (earlier : List (HashMap.Order × List WireguardPeer))
    (order : HashMap.Order) (updates accepted : List WireguardPeer) (s s' : MeshState)
    (hearlier : run (updateStep host) {} earlier = some s)
    (hlast : updateStep host s (order, updates) = some s')
    (haccepted : verifiedPeers host updates = some accepted) :
    Matches s'.kernel accepted ↔ CleanUpdate s accepted := by
  obtain ⟨accepted', haccepted', happly⟩ := updateStep_eq_some host hlast
  rw [haccepted] at haccepted'
  cases haccepted'
  have howner := (oneOwner_run host hearlier).applyVerified host happly
  rw [matches_iff]
  constructor
  · rintro ⟨hholds, hkeys⟩
    have hagree : ∀ p ∈ accepted, ∀ q ∈ accepted, Agree p q := fun p hp q hq =>
      agree_of_holds howner (hholds p hp) (hholds q hq)
    have hpeer : ∀ p ∈ accepted, (SetsKey s accepted p.publicKey ∨ Holds s.kernel p) ∧
        ¬ StaleKey s accepted p.publicKey := fun p hp =>
      (holds_applyVerified host happly (hagree p hp)).mp (hholds p hp)
    refine ⟨hagree, fun p hp => (hpeer p hp).1, fun p hp => (hpeer p hp).2, fun key hkey => ?_⟩
    by_cases hstale : StaleKey s accepted key
    · exact .inl hstale
    · exact .inr (hkeys key (replaced_key_stays host happly hkey hstale))
  · intro h
    refine ⟨fun p hp => ?_, fun key hkey => ?_⟩
    · exact (holds_applyVerified host happly (h.agree p hp)).mpr ⟨h.configured p hp, h.kept p hp⟩
    · obtain ⟨hset | hold, hstale⟩ := (mem_applyVerified host happly).mp hkey
      · exact hset.advertised
      · exact (h.removed key hold).resolve_left hstale

/-- Node `node-1`, with a key and the address that is its own. -/
def nodeOne (publicKey : String) : WireguardPeer :=
  textAdvert "node-1" publicKey "10.0.0.5:51820" "10.100.0.5/32"

def nodeTwo : WireguardPeer := textAdvert "node-2" "key-2" "10.0.0.6:51820" "10.100.0.6/32"
def nodeThree : WireguardPeer := textAdvert "node-3" "key-3" "10.0.0.7:51820" "10.100.0.7/32"

/-- After an update with two nodes, one that keeps the first, drops the second and adds a third. -/
theorem kernel_matches_second :
    ∃ s s', run (updateStep textHost) {} [(.asBuilt, [nodeOne "key", nodeTwo])] = some s ∧
      s.kernel.keys = ["key-2", "key"] ∧
      updateStep textHost s (.asBuilt, [nodeOne "key", nodeThree]) = some s' ∧
      Matches s'.kernel [nodeOne "key", nodeThree] := by
  have hrun : (run (updateStep textHost) {} [(.asBuilt, [nodeOne "key", nodeTwo])]).map
      (fun s => decide (
        s.peers.entries.map (fun e => (e.1, e.2.publicKey)) =
          [("node-2", "key-2"), ("node-1", "key")] ∧
        s.kernel.keys = ["key-2", "key"] ∧
        s.kernel.lookup "key" = some ⟨"10.0.0.5:51820", some "10.100.0.5/32"⟩ ∧
        s.recorded [nodeOne "key"] "node-3" = none ∧
        (s.peers.lookup "node-2").map (·.publicKey) = some "key-2" ∧
        (updateStep textHost s (.asBuilt, [nodeOne "key", nodeThree])).isSome = true)) =
      some true := by
    decide +kernel
  obtain ⟨s, hs, hstate⟩ := Option.map_eq_some_iff.mp hrun
  obtain ⟨hpeers, hkeys, hholds, hrecorded, htwo, hlast⟩ := of_decide_eq_true hstate
  obtain ⟨s', hs'⟩ := Option.isSome_iff_exists.mp hlast
  have hmem : ∀ {id info}, s.peers.lookup id = some info →
      (id, info.publicKey) ∈ [("node-2", "key-2"), ("node-1", "key")] := fun hinfo =>
    hpeers ▸ List.mem_map_of_mem (HashMap.mem_of_lookup hinfo)
  refine ⟨s, s', hs, hkeys, hs', (kernel_matches_iff textHost _ .asBuilt _ _ s s' hs hs'
    (by decide +kernel)).mpr ⟨?_, ?_, ?_, ?_⟩⟩
  · unfold Agree
    decide +kernel
  · intro p hp
    rcases List.mem_pair.mp hp with rfl | rfl
    · exact .inr hholds
    · refine .inl ⟨[nodeOne "key"], nodeThree, [], rfl, rfl, ?_⟩
      rw [show nodeThree.nodeId = "node-3" from rfl, hrecorded]
      exact nofun
  · -- only the second node is recorded and not listed
    rintro p hp ⟨id, info, hid, hinfo, hkey⟩
    rcases List.mem_pair.mp (hmem hinfo) with heq | heq <;> obtain ⟨rfl, hold⟩ := Prod.mk.inj heq
    · rw [hold] at hkey
      rcases List.mem_pair.mp hp with rfl | rfl <;> exact absurd hkey (by decide)
    · exact hid (by decide)
  · intro key hkey
    rw [AList.mem_keys, hkeys] at hkey
    rcases List.mem_pair.mp hkey with rfl | rfl
    · obtain ⟨info, hinfo, hold⟩ := Option.map_eq_some_iff.mp htwo
      exact .inl ⟨"node-2", info, by decide, hinfo, hold⟩
    · exact .inr ⟨nodeOne "key", by simp, rfl⟩

/-- A node that comes with a new key leaves its old one in the kernel, without an address. -/
theorem replaced_key_remains :
    verifiedPeers textHost [nodeOne "new-key"] = some [nodeOne "new-key"] ∧
      ∃ s, run (updateStep textHost) {}
          [(.asBuilt, [nodeOne "old-key"]), (.asBuilt, [nodeOne "new-key"])] = some s ∧
        s.kernel.lookup "old-key" = some ⟨"10.0.0.5:51820", none⟩ ∧
          ¬ Matches s.kernel [nodeOne "new-key"] := by
  refine ⟨by decide +kernel, ?_⟩
  have hrun : (run (updateStep textHost) {}
      [(.asBuilt, [nodeOne "old-key"]), (.asBuilt, [nodeOne "new-key"])]).map
        (fun s => s.kernel.lookup "old-key") = some (some ⟨"10.0.0.5:51820", none⟩) := by
    decide +kernel
  obtain ⟨s, hs, hold⟩ := Option.map_eq_some_iff.mp hrun
  refine ⟨s, hs, hold, fun hmatches => ?_⟩
  obtain ⟨peer, -, -, hentry⟩ := (hmatches _ _).mp hold
  simp at hentry

end Ekafleet.Mesh
