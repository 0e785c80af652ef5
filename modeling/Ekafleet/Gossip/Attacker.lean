import Ekafleet.Gossip.Swim

/-! An attacker between gossiping nodes | source: gossip/swim.rs

    The attacker sees every datagram and hands any of them to any node, in any order, as often as
    they want and under any source address; what they make up themselves does not verify. A message
    carries nothing that tells its second arrival from the first. -/

namespace Ekafleet.Gossip
open Run

/-- What a node thinks of a member: status, when it was last seen, and where. -/
def MemberInfo.seen (m : MemberInfo) : MemberStatus × ℕ × SocketAddr :=
  (m.status, m.lastSeen, m.addr)

def MembershipState.view (state : MembershipState) (id : String) :
    Option (MemberStatus × ℕ × SocketAddr) :=
  (state.members.lookup id).map MemberInfo.seen

/-- The payload of a packet whose tag verifies. -/
def verifiedPayload (tag : Bytes → Bytes) (packet : Bytes) : Option Bytes :=
  let data := packet.take 1500
  let payload := data.take (data.length - hmacLen)
  if hmacLen ≤ data.length ∧ tag payload = data.drop (data.length - hmacLen) then some payload
  else none

/-! ### The network -/

/-- Nodes, and an attacker who hears them. -/
structure TappedNet (ι : Type) where
  nodes : ι → GossipNode
  /-- Every datagram that a holder of the key has sent. -/
  wire : List Bytes := []
  /-- Which of them have been delivered. -/
  delivered : List ℕ := []
  now : ℕ

/-- What happens in such a net. -/
inductive TappedEvent (ι : Type) where
  | pass (duration : ℕ)
  /-- A holder of the key sends a message. -/
  | emit (payload : Bytes)
  /-- The attacker hands a datagram from the wire to a node. -/
  | deliver (n : ι) (index : ℕ) (src : SocketAddr)
  /-- The attacker hands a packet of their own to a node. -/
  | inject (n : ι) (packet : Bytes) (src : SocketAddr)
  | probeRead (n : ι)
  | probeWrite (n : ι)

section Net
variable {ι : Type} [DecidableEq ι] (tag : Bytes → Bytes)

/-- A node receives a packet; what it sends goes on the wire. -/
def TappedNet.hand (s : TappedNet ι) (n : ι) (packet : Bytes) (src : SocketAddr) : TappedNet ι :=
  let received := receive tag s.now (s.nodes n).state packet src
  { s with
    nodes := Function.update s.nodes n { s.nodes n with state := received.1 }
    wire := s.wire ++ received.2.map (·.2) }

/-- One event, the attacker's included. -/
def tappedStep (s : TappedNet ι) : TappedEvent ι → Option (TappedNet ι)
  | .pass duration => some { s with now := s.now + duration }
  | .emit payload => some { s with wire := s.wire ++ [signed tag payload] }
  | .deliver n index src => s.wire[index]?.map fun packet =>
    { s.hand tag n packet src with delivered := s.delivered ++ [index] }
  | .inject n packet src =>
    -- only holders of the key make tags that verify
    if verifiedPayload tag packet = none then some (s.hand tag n packet src) else none
  | .probeRead n =>
    if (s.nodes n).probing = none then
      some { s with
        nodes := Function.update s.nodes n { s.nodes n with
          probing := some (s.now, probeTransitions s.now (s.nodes n).state) } }
    else none
  | .probeWrite n => (s.nodes n).probing.map fun read =>
    { s with
      nodes := Function.update s.nodes n
        { state := applyTransitions (s.nodes n).state read.2 } }

end Net

/-! ### What a packet changes -/

/-- An acknowledgement tells something new: it is from a member known by its name, or else by the
    address it came from, and this member is not already seen alive at this instant, at this
    address. -/
def AckRefreshes (now : ℕ) (state : MembershipState) (name : Bytes) (src : SocketAddr) : Prop :=
  (∃ id m, name ≠ [] ∧ Text.fromUtf8 name = some id ∧ state.members.lookup id = some m ∧
      m.seen ≠ (.alive, now, src)) ∨
    ((name = [] ∨ Text.fromUtf8 name = none) ∧
      ∃ e, state.members.entries.find? (fun e => e.2.addr = src) = some e ∧
        e.2.seen ≠ (.alive, now, src))

/-- The packet is an acknowledgement that tells something new. -/
def Refreshes (tag : Bytes → Bytes) (now : ℕ) (state : MembershipState) (packet : Bytes)
    (src : SocketAddr) : Prop :=
  ∃ name, verifiedPayload tag packet = some (2 :: name) ∧ AckRefreshes now state name src

section Receive
variable {tag : Bytes → Bytes} {now : ℕ} {state : MembershipState} {packet : Bytes}
  {src : SocketAddr}

theorem receive_eq (tag : Bytes → Bytes) (now : ℕ) (state : MembershipState) (packet : Bytes)
    (src : SocketAddr) :
    receive tag now state packet src = (verifiedPayload tag packet).elim (state, [])
      fun payload => handleMessage tag now state payload src := by
  rw [receive, verifiedPayload]
  grind

theorem view_adjust_iff (k : String) (f : MemberInfo → MemberInfo) :
    (∀ id, MembershipState.view { state with members := HashMap.adjust k f state.members } id =
        state.view id) ↔
      ∀ m, state.members.lookup k = some m → (f m).seen = m.seen := by
  constructor
  · intro h m hm
    have hk := h k
    simp only [MembershipState.view, HashMap.lookup_adjust_self, hm, Option.map_some,
      Option.some.injEq] at hk
    exact hk
  · intro h id
    by_cases hid : id = k
    · subst hid
      simp only [MembershipState.view, HashMap.lookup_adjust_self]
      cases hm : state.members.lookup id with
      | none => rfl
      | some m => simp only [Option.map_some, h m hm]
    · simp only [MembershipState.view, HashMap.lookup_adjust_ne hid]

theorem view_handleAck_named_iff {name : Bytes} {id : String} (hname : name ≠ [])
    (hid : Text.fromUtf8 name = some id) :
    (∀ id, (handleAck now state name src).view id = state.view id) ↔
      ¬ AckRefreshes now state name src := by
  have hack : handleAck now state name src = { state with
      members := HashMap.adjust id (fun m => { m.heard now with addr := src }) state.members } := by
    simp only [handleAck, if_neg hname, hid]
  rw [hack, view_adjust_iff]
  constructor
  · rintro h (⟨id', m, -, hid', hm, hne⟩ | ⟨hnone | hnone, -⟩)
    · obtain rfl := Option.some.inj (hid.symm.trans hid')
      exact hne (h m hm).symm
    · exact hname hnone
    · rw [hid] at hnone
      cases hnone
  · intro h m hm
    by_contra hne
    exact h (.inl ⟨id, m, hname, hid, hm, fun heq => hne heq.symm⟩)

theorem ackRefreshes_unnamed_iff {name : Bytes} (hcase : name = [] ∨ Text.fromUtf8 name = none) :
    AckRefreshes now state name src ↔
      ∃ e, state.members.entries.find? (fun e => e.2.addr = src) = some e ∧
        e.2.seen ≠ (.alive, now, src) := by
  constructor
  · rintro (⟨id, m, hname, hid, -⟩ | ⟨-, h⟩)
    · grind
    · exact h
  · exact fun h => .inr ⟨hcase, h⟩

theorem view_handleAck_unnamed_iff {name : Bytes}
    (hcase : name = [] ∨ Text.fromUtf8 name = none) :
    (∀ id, (handleAck now state name src).view id = state.view id) ↔
      ¬ AckRefreshes now state name src := by
  have hanonymous : (if name = [] then none else Text.fromUtf8 name) = none := by
    split_ifs with hname
    · rfl
    · exact hcase.resolve_left hname
  rw [ackRefreshes_unnamed_iff hcase]
  cases hfind : state.members.entries.find? (fun e => e.2.addr = src) with
  | none =>
    grind [handleAck]
  | some e =>
    have hack : handleAck now state name src = { state with
        members := HashMap.adjust e.1 (·.heard now) state.members } := by
      simp only [handleAck, hanonymous, hfind]
    have hlookup : state.members.lookup e.1 = some e.2 :=
      HashMap.lookup_of_mem (List.mem_of_find?_eq_some hfind)
    have haddr : e.2.addr = src := by simpa using List.find?_some hfind
    rw [hack, view_adjust_iff, hlookup]
    simp only [Option.some.injEq, forall_eq', MemberInfo.heard, MemberInfo.seen, haddr, ne_eq,
      exists_eq_left', not_not]
    exact eq_comm

theorem view_handleAck_iff (name : Bytes) :
    (∀ id, (handleAck now state name src).view id = state.view id) ↔
      ¬ AckRefreshes now state name src := by
  by_cases hname : name = []
  · exact view_handleAck_unnamed_iff (.inl hname)
  · cases hid : Text.fromUtf8 name with
    | none => exact view_handleAck_unnamed_iff (.inr hid)
    | some id => exact view_handleAck_named_iff hname hid

theorem view_receive_iff :
    (∀ id, (receive tag now state packet src).1.view id = state.view id) ↔
      ¬ Refreshes tag now state packet src := by
  rw [receive_eq, Refreshes]
  cases hpayload : verifiedPayload tag packet with
  | none => simp
  | some payload =>
    rw [Option.elim_some]
    by_cases hack : ∃ name, payload = 2 :: name
    · obtain ⟨name, rfl⟩ := hack
      change (∀ id, (handleAck now state name src).view id = state.view id) ↔ _
      rw [view_handleAck_iff]
      simp
    · have hsame : (handleMessage tag now state payload src).1 = state := by
        unfold handleMessage
        grind
      grind

end Receive

/-! ### Replays -/

section Replays
variable {ι : Type} [DecidableEq ι]

/-- Every datagram that the run delivers again leaves all views as they are. -/
def ReplaysHarmless (tag : Bytes → Bytes) (s₀ : TappedNet ι) (trace : List (TappedEvent ι)) :
    Prop :=
  ∀ pre n index src s s', pre ++ [.deliver n index src] <+: trace →
    run (tappedStep tag) s₀ pre = some s → tappedStep tag s (.deliver n index src) = some s' →
    index ∈ s.delivered → ∀ n' id, (s'.nodes n').state.view id = (s.nodes n').state.view id

theorem view_hand_iff {tag : Bytes → Bytes} {s : TappedNet ι} {n : ι} {packet : Bytes}
    {src : SocketAddr} :
    (∀ n' id, ((s.hand tag n packet src).nodes n').state.view id = (s.nodes n').state.view id) ↔
      ¬ Refreshes tag s.now (s.nodes n).state packet src := by
  rw [← view_receive_iff]
  constructor
  · intro h id
    simpa [TappedNet.hand] using h n id
  · intro h n' id
    by_cases hn : n' = n
    · subst hn
      simpa [TappedNet.hand] using h id
    · simp [TappedNet.hand, hn]

/-- EXACT: in a run with any attacker, replayed datagrams change no view exactly when none of them
    is an acknowledgement that refreshes a member of the node it is handed to. -/
theorem replays_harmless_iff (tag : Bytes → Bytes) (s₀ : TappedNet ι)
    (trace : List (TappedEvent ι)) :
    ReplaysHarmless tag s₀ trace ↔
      ∀ pre n index src s packet, pre ++ [.deliver n index src] <+: trace →
        run (tappedStep tag) s₀ pre = some s → s.wire[index]? = some packet →
        index ∈ s.delivered → ¬ Refreshes tag s.now (s.nodes n).state packet src := by
  constructor
  · intro h pre n index src s packet hpre hs hpacket hreplay
    have hstep : tappedStep tag s (.deliver n index src) =
        some { s.hand tag n packet src with delivered := s.delivered ++ [index] } := by
      rw [tappedStep, hpacket]
      rfl
    have hview := h pre n index src s _ hpre hs hstep hreplay
    exact view_hand_iff.mp hview
  · intro h pre n index src s s' hpre hs hstep hreplay
    obtain ⟨packet, hpacket, rfl⟩ := Option.map_eq_some_iff.mp hstep
    exact view_hand_iff.mpr (h pre n index src s packet hpre hs hpacket hreplay)

end Replays

/-! ### A recorded acknowledgement -/

/-- Two nodes that know each other, and nothing on the wire. -/
def quietWire : TappedNet Bool where
  nodes := (seeded twoNodes (fun _ => 0) 0).nodes
  now := 0

/-- Node `b` answers a ping and `a` gets the answer; four seconds later `a` suspects `b`. -/
def answeredOnce : List (TappedEvent Bool) :=
  [.emit [1], .deliver true 0 (twoNodes false).addr, .deliver false 1 (twoNodes true).addr,
    .pass (4 * second), .probeRead false, .probeWrite false]

/-- The address that the attacker sends from. -/
def attackerAddr : SocketAddr := ⟨[10, 0, 0, 66], 7401⟩

/-- The recorded answer, handed to `a` once more, makes `b` alive again and moves it to the address
    of the attacker. -/
theorem replayed_ack_moves_member :
    (run (tappedStep fun _ => List.replicate 32 0) quietWire answeredOnce).map
        (fun s => (s.delivered, (s.nodes false).state.view "b")) =
      some ([0, 1], some (.suspect, 0, (twoNodes true).addr)) ∧
    (run (tappedStep fun _ => List.replicate 32 0) quietWire
        (answeredOnce ++ [.deliver false 1 attackerAddr])).map
        (fun s => (s.nodes false).state.view "b") =
      some (some (.alive, 4 * second, attackerAddr)) := by
  constructor
  · decide +kernel
  · decide +kernel

end Ekafleet.Gossip
