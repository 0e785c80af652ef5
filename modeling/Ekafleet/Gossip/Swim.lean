import Ekafleet.Lib.Codec
import Ekafleet.Lib.HashMap
import Ekafleet.Lib.Run
import Ekafleet.Lib.Text

/-! The failure detector | source: gossip/swim.rs

    A node answers pings and notes acknowledgements, and once a second it looks for members that it
    has not heard of for too long. But nothing sends the first ping: the probe cycle only reads the
    clock. Times are in nanoseconds. -/

namespace Ekafleet.Gossip
open Run

/-- What a node believes of another. -/
inductive MemberStatus where | alive | suspect | dead
  deriving DecidableEq, Repr

/-- A socket address. -/
structure SocketAddr where
  ip : Bytes
  port : ℕ
  deriving DecidableEq, Repr

/-- What a node knows of a member. -/
structure MemberInfo where
  nodeId : String
  addr : SocketAddr
  status : MemberStatus
  lastSeen : ℕ
  incarnation : ℕ
  deriving DecidableEq, Repr

def second : ℕ := 10 ^ 9

/-- The members a node knows. -/
structure MembershipState where
  nodeId : String
  bindAddr : SocketAddr
  members : HashMap String MemberInfo := ∅
  suspectTimeout : ℕ := 3 * second
  deadTimeout : ℕ := 10 * second

/-- The length of a tag. -/
def hmacLen : ℕ := 32

/-! ### Messages -/

section Messages
variable (tag : Bytes → Bytes) (now : ℕ)

/-- A payload with its tag under the shared key. -/
def signed (payload : Bytes) : Bytes := payload ++ tag payload

/-- Add a member to start from. -/
def addSeed (state : MembershipState) (nodeId : String) (addr : SocketAddr) : MembershipState :=
  { state with
    members := state.members.insert nodeId
      { nodeId, addr, status := .alive, lastSeen := now, incarnation := 0 } }

/-- A member that was not thought alive has refuted that. -/
def MemberInfo.heard (m : MemberInfo) : MemberInfo :=
  { m with
    incarnation := if m.status = .alive then m.incarnation else m.incarnation + 1
    status := .alive
    lastSeen := now }

/-- Note an acknowledgement, by the sender's name or else by its address. -/
def handleAck (state : MembershipState) (name : Bytes) (src : SocketAddr) : MembershipState :=
  match if name = [] then none else Text.fromUtf8 name with
  | some id =>
    { state with
      members := HashMap.adjust id (fun m => { m.heard now with addr := src }) state.members }
  | none =>
    match state.members.entries.find? fun e => e.2.addr = src with
    | none => state
    | some e => { state with members := HashMap.adjust e.1 (·.heard now) state.members }

/-- Handle a verified message; the second part is what is sent. -/
def handleMessage (state : MembershipState) (data : Bytes) (src : SocketAddr) :
    MembershipState × List (SocketAddr × Bytes) :=
  match data with
  | 1 :: _ => (state, [(src, signed tag (2 :: Text.utf8 state.nodeId))])
  | 2 :: name => (handleAck now state name src, [])
  | 3 :: a :: b :: c :: d :: high :: low :: _ =>
    (state, [(⟨[a, b, c, d], 256 * high.toNat + low.toNat⟩, signed tag [1])])
  | _ => (state, [])

/-- What the receiver does with a packet; its buffer has 1500 bytes. -/
def receive (state : MembershipState) (packet : Bytes) (src : SocketAddr) :
    MembershipState × List (SocketAddr × Bytes) :=
  let data := packet.take 1500
  if data.length < hmacLen then (state, [])
  else
    let payload := data.take (data.length - hmacLen)
    if tag payload = data.drop (data.length - hmacLen) then handleMessage tag now state payload src
    else (state, [])

end Messages

/-! ### The probe cycle -/

/-- The change of status that is due for a member. -/
def MemberInfo.transition (suspectTimeout deadTimeout now : ℕ) (m : MemberInfo) :
    Option (String × MemberStatus) :=
  match m.status with
  | .alive => if suspectTimeout < now - m.lastSeen then some (m.nodeId, .suspect) else none
  | .suspect => if deadTimeout < now - m.lastSeen then some (m.nodeId, .dead) else none
  | .dead => none

/-- The first half of a probe cycle, under the read lock. -/
def probeTransitions (now : ℕ) (state : MembershipState) : List (String × MemberStatus) :=
  state.members.values.filterMap (·.transition state.suspectTimeout state.deadTimeout now)

/-- The second half, under the write lock. -/
def applyTransitions (state : MembershipState) (transitions : List (String × MemberStatus)) :
    MembershipState :=
  transitions.foldl (fun state t =>
    { state with members := HashMap.adjust t.1 (fun m => { m with status := t.2 }) state.members })
    state

/-! ### Two nodes and the network between them -/

/-- A node; its probe may be between its two halves, with the time of the first. -/
structure GossipNode where
  state : MembershipState
  probing : Option (ℕ × List (String × MemberStatus)) := none

/-- A datagram under way. -/
structure Packet where
  src : SocketAddr
  dst : SocketAddr
  data : Bytes

/-- Two nodes and the network between them. -/
structure GossipNet where
  nodes : Bool → GossipNode
  network : List Packet := []
  now : ℕ

/-- What happens to two nodes. -/
inductive GossipEvent where
  /-- Time passes only when nothing is under way: the network delays nothing. -/
  | pass (duration : ℕ)
  /-- One of the packets arrives, in any order. -/
  | deliver (i : ℕ)
  | probeRead (n : Bool)
  | probeWrite (n : Bool)

/-- The node that is bound to an address. -/
def GossipNet.boundTo (s : GossipNet) (addr : SocketAddr) : Option Bool :=
  [false, true].find? fun n => (s.nodes n).state.bindAddr = addr

def GossipNet.setNode (s : GossipNet) (n : Bool) (node : GossipNode) : GossipNet :=
  { s with nodes := Function.update s.nodes n node }

/-- One event of the two nodes. -/
def gossipStep (tag : Bytes → Bytes) (s : GossipNet) : GossipEvent → Option GossipNet
  | .pass duration => if s.network.isEmpty then some { s with now := s.now + duration } else none
  | .deliver i =>
    match s.network[i]? with
    | none => none
    | some packet =>
      let s := { s with network := s.network.eraseIdx i }
      match s.boundTo packet.dst with
      | none => some s
      | some n =>
        let node := s.nodes n
        let (state, sent) := receive tag s.now node.state packet.data packet.src
        some { s.setNode n { node with state } with
          network := s.network ++ sent.map fun m => ⟨node.state.bindAddr, m.1, m.2⟩ }
  | .probeRead n =>
    match (s.nodes n).probing with
    | some _ => none
    | none => some (s.setNode n { s.nodes n with
        probing := some (s.now, probeTransitions s.now (s.nodes n).state) })
  | .probeWrite n =>
    match (s.nodes n).probing with
    | none => none
    | some (_, transitions) =>
      some (s.setNode n { state := applyTransitions (s.nodes n).state transitions })

/-- The name and the address of a node. -/
structure Identity where
  id : String
  addr : SocketAddr

variable (who : Bool → Identity) (seededAt : Bool → ℕ)

/-- Two nodes that were seeded with each other. -/
def seeded (now : ℕ) : GossipNet where
  nodes n :=
    { state := addSeed (seededAt n) { nodeId := (who n).id, bindAddr := (who n).addr }
        (who !n).id (who !n).addr }
  now := now

/-- Neither node has marked the other. -/
def Trusting (s : GossipNet) : Prop :=
  ∀ n, ∀ m ∈ (s.nodes n).state.members.values, m.status = .alive

/-! ### Silence -/

/-- A seeded node that has not heard anything since. -/
def unheard (n : Bool) (status : MemberStatus) : MembershipState where
  nodeId := (who n).id
  bindAddr := (who n).addr
  members := AList.singleton (who !n).id
    { nodeId := (who !n).id, addr := (who !n).addr, status,
      lastSeen := seededAt n, incarnation := 0 }

/-- Nothing is under way, nothing was heard, and a probe that has begun found what it would find
    now. -/
structure Silent (s : GossipNet) : Prop where
  network : s.network = []
  unheard : ∀ n, ∃ status, (s.nodes n).state = unheard who seededAt n status
  probing : ∀ n time transitions, (s.nodes n).probing = some (time, transitions) →
    transitions = probeTransitions time (s.nodes n).state

variable {who seededAt}

theorem values_unheard (n : Bool) (status : MemberStatus) :
    (unheard who seededAt n status).members.values = [⟨(who !n).id, (who !n).addr, status,
      seededAt n, 0⟩] := rfl

theorem applyTransitions_singleton (n : Bool) (status status' : MemberStatus) :
    applyTransitions (unheard who seededAt n status) [((who !n).id, status')] =
      unheard who seededAt n status' := by
  grind [HashMap.adjust, unheard, HashMap.adjust_singleton, applyTransitions]

/-- What a probe makes of a member that was last seen so long ago. -/
def MemberStatus.after (elapsed : ℕ) : MemberStatus → MemberStatus
  | .alive => if 3 * second < elapsed then .suspect else .alive
  | .suspect => if 10 * second < elapsed then .dead else .suspect
  | .dead => .dead

theorem probeTransitions_unheard (time : ℕ) (n : Bool) (status : MemberStatus) :
    probeTransitions time (unheard who seededAt n status) =
      if status.after (time - seededAt n) = status then []
      else [((who !n).id, status.after (time - seededAt n))] := by
  have htransition : MemberInfo.transition (3 * second) (10 * second) time
      ⟨(who !n).id, (who !n).addr, status, seededAt n, 0⟩ =
      if status.after (time - seededAt n) = status then none
      else some ((who !n).id, status.after (time - seededAt n)) := by
    grind [second, MemberInfo.transition, MemberStatus.after]
  change List.filterMap (MemberInfo.transition (3 * second) (10 * second) time) _ = _
  rw [values_unheard, List.filterMap_cons, htransition]
  split_ifs <;> rfl

theorem applyTransitions_unheard (time : ℕ) (n : Bool) (status : MemberStatus) :
    applyTransitions (unheard who seededAt n status)
        (probeTransitions time (unheard who seededAt n status)) =
      unheard who seededAt n (status.after (time - seededAt n)) := by
  rw [probeTransitions_unheard]
  split_ifs with h
  · rw [h]
    rfl
  · exact applyTransitions_singleton n status _

theorem state_seeded (now : ℕ) (n : Bool) :
    ((seeded who seededAt now).nodes n).state = unheard who seededAt n .alive := by
  simp [seeded, addSeed, unheard, AList.insert_empty]

theorem silent_seeded (now : ℕ) : Silent who seededAt (seeded who seededAt now) where
  network := rfl
  unheard n := ⟨.alive, state_seeded now n⟩
  probing := by rintro _ _ _ ⟨⟩

variable {tag : Bytes → Bytes} {s s' : GossipNet}

/-- STEP: in silence a step changes a node only by the second half of a probe, and silence stays. -/
theorem silent_step {e : GossipEvent} (hs : Silent who seededAt s)
    (h : gossipStep tag s e = some s') :
    Silent who seededAt s' ∧
      (((∀ n, e ≠ .probeWrite n) ∧ ∀ n, (s'.nodes n).state = (s.nodes n).state) ∨
        ∃ n time transitions status, e = .probeWrite n ∧
          (s.nodes n).probing = some (time, transitions) ∧
          (s.nodes n).state = unheard who seededAt n status ∧
          (s'.nodes n).state = unheard who seededAt n (status.after (time - seededAt n)) ∧
          ∀ n' ≠ n, (s'.nodes n').state = (s.nodes n').state) := by
  cases e with
  | pass duration =>
    simp only [gossipStep] at h
    split at h <;> cases h
    exact ⟨⟨hs.network, hs.unheard, hs.probing⟩, .inl ⟨by rintro _ ⟨⟩, fun _ => rfl⟩⟩
  | deliver i => simp [gossipStep, hs.network] at h
  | probeRead n =>
    simp only [gossipStep] at h
    split at h
    · cases h
    · cases h
      have hstate : ∀ n', ((s.setNode n { s.nodes n with
          probing := some (s.now, probeTransitions s.now (s.nodes n).state) }).nodes n').state =
          (s.nodes n').state := by
        intro n'
        by_cases hn : n' = n
        · subst hn
          simp [GossipNet.setNode]
        · simp [GossipNet.setNode, hn]
      refine ⟨⟨hs.network, fun n' => by rw [hstate]; exact hs.unheard n', ?_⟩,
        .inl ⟨by rintro _ ⟨⟩, hstate⟩⟩
      intro n' time transitions hprobing
      rw [hstate]
      by_cases hn : n' = n
      · subst hn
        simp only [GossipNet.setNode, Function.update_self, Option.some.injEq, Prod.mk.injEq]
          at hprobing
        obtain ⟨rfl, rfl⟩ := hprobing
        rfl
      · simp only [GossipNet.setNode, Function.update_of_ne hn] at hprobing
        exact hs.probing n' time transitions hprobing
  | probeWrite n =>
    simp only [gossipStep] at h
    split at h
    · cases h
    · next time transitions hprobing =>
      cases h
      obtain ⟨status, hstatus⟩ := hs.unheard n
      have hself : applyTransitions (s.nodes n).state transitions =
          unheard who seededAt n (status.after (time - seededAt n)) := by
        rw [hs.probing n time transitions hprobing, hstatus, applyTransitions_unheard]
      have hother : ∀ n' ≠ n, (s.setNode n
          { state := applyTransitions (s.nodes n).state transitions }).nodes n' = s.nodes n' :=
        fun n' hn => Function.update_of_ne hn _ _
      refine ⟨⟨hs.network, fun n' => ?_, fun n' time' transitions' hprobing' => ?_⟩, .inr ?_⟩
      · by_cases hn : n' = n
        · subst hn
          exact ⟨status.after (time - seededAt n'), by simp [GossipNet.setNode, hself]⟩
        · rw [hother n' hn]
          exact hs.unheard n'
      · by_cases hn : n' = n
        · subst hn
          simp [GossipNet.setNode] at hprobing'
        · rw [hother n' hn] at hprobing' ⊢
          exact hs.probing n' time' transitions' hprobing'
      · exact ⟨n, time, transitions, status, rfl, hprobing, hstatus,
          by simp [GossipNet.setNode, hself], fun n' hn => by rw [hother n' hn]⟩

/-- RUN: the two nodes never send anything. -/
theorem silent_run {now : ℕ} {trace : List GossipEvent}
    (h : run (gossipStep tag) (seeded who seededAt now) trace = some s) :
    Silent who seededAt s :=
  invariant (gossipStep tag) _ (silent_seeded now) (fun _ _ _ hs h => (silent_step hs h).1) h

theorem unheard_inj {n : Bool} {status status' : MemberStatus}
    (h : unheard who seededAt n status = unheard who seededAt n status') : status = status' := by
  have hvalues := congrArg (fun st : MembershipState => st.members.values) h
  simp only [values_unheard] at hvalues
  simpa using hvalues

theorem trusting_iff (hs : Silent who seededAt s) :
    Trusting s ↔ ∀ n, (s.nodes n).state = unheard who seededAt n .alive := by
  refine forall_congr' fun n => ?_
  obtain ⟨status, hstatus⟩ := hs.unheard n
  rw [hstatus, values_unheard, List.forall_mem_singleton]
  constructor
  · rintro rfl
    rfl
  · exact unheard_inj

/-- STEP: the nodes go on trusting each other, unless a probe is carried out that looked too late.
    -/
theorem trusting_step_iff {e : GossipEvent} (hs : Silent who seededAt s) (htrust : Trusting s)
    (h : gossipStep tag s e = some s') :
    Trusting s' ↔ ∀ n time transitions, e = .probeWrite n →
      (s.nodes n).probing = some (time, transitions) → time - seededAt n ≤ 3 * second := by
  have halive := (trusting_iff hs).mp htrust
  obtain ⟨hs', hcases⟩ := silent_step hs h
  rw [trusting_iff hs']
  rcases hcases with ⟨hnot, hsame⟩ | ⟨n, time, transitions, status, rfl, hprobing, hstatus, hmarked,
    hother⟩
  · grind
  · rw [halive n] at hstatus
    obtain rfl : MemberStatus.alive = status := unheard_inj hstatus
    constructor
    · rintro hall n' time' transitions' ⟨⟩ hprobing'
      obtain ⟨rfl, -⟩ := Prod.mk.inj (Option.some.inj (hprobing.symm.trans hprobing'))
      by_contra! hlate
      have hsuspect := unheard_inj (hmarked.symm.trans (hall n))
      rw [MemberStatus.after, if_pos hlate] at hsuspect
      cases hsuspect
    · intro hearly n'
      by_cases hn : n' = n
      · subst hn
        have htime := hearly n' time transitions rfl hprobing
        rw [hmarked, MemberStatus.after, if_neg (not_lt.mpr htime)]
      · rw [hother n' hn, halive]

/-- EXACT: for every schedule, the nodes never mark each other, in any state of the run, if and only
    if every probe that is carried out looked at the members within three seconds of the time at
    which its node was seeded with the other. -/
theorem trusting_iff_probed_early (tag : Bytes → Bytes) (who : Bool → Identity)
    (seededAt : Bool → ℕ) (now : ℕ) (trace : List GossipEvent) :
    (∀ pre s, pre <+: trace → run (gossipStep tag) (seeded who seededAt now) pre = some s →
      Trusting s) ↔
    ∀ pre n s time transitions, pre ++ [.probeWrite n] <+: trace →
      run (gossipStep tag) (seeded who seededAt now) pre = some s →
      (s.nodes n).probing = some (time, transitions) → time - seededAt n ≤ 3 * second := by
  have hstart : Trusting (seeded who seededAt now) :=
    (trusting_iff (silent_seeded now)).mpr (state_seeded now)
  refine (along_iff (gossipStep tag) (P := fun _ s => Trusting s) hstart
    (fun _ _ _ _ hrun htrust hstep =>
    trusting_step_iff (silent_run hrun) htrust hstep) trace).trans ?_
  constructor
  · intro h pre n s time transitions hpre hs hprobing
    obtain ⟨s', hstep⟩ : ∃ s', gossipStep tag s (.probeWrite n) = some s' := by
      simp only [gossipStep, hprobing]
      exact ⟨_, rfl⟩
    exact h pre _ s s' hpre hs hstep n time transitions rfl hprobing
  · rintro h pre e s s' hpre hs - n time transitions rfl hprobing
    exact h pre n s time transitions hpre hs hprobing

/-! ### Eleven seconds of two nodes -/

def twoNodes (n : Bool) : Identity :=
  if n then ⟨"b", ⟨[10, 0, 0, 2], 7401⟩⟩ else ⟨"a", ⟨[10, 0, 0, 1], 7401⟩⟩

/-- Both nodes probe after four seconds and again after eleven. -/
def elevenSeconds : List GossipEvent :=
  [.pass (4 * second), .probeRead false, .probeWrite false, .probeRead true, .probeWrite true,
    .pass (7 * second), .probeRead false, .probeWrite false, .probeRead true, .probeWrite true]

/-- Two nodes that were just seeded with each other declare each other dead. -/
theorem nodes_declare_each_other_dead :
    ∃ s, run (gossipStep fun _ => List.replicate 32 0) (seeded twoNodes (fun _ => 0) 0)
        elevenSeconds = some s ∧
      s.network.length = 0 ∧
      ((s.nodes false).state.members.values.map fun m => (m.nodeId, m.status)) = [("b", .dead)] ∧
      ((s.nodes true).state.members.values.map fun m => (m.nodeId, m.status)) = [("a", .dead)] :=
  ⟨_, rfl, by decide, by decide, by decide⟩

end Ekafleet.Gossip
