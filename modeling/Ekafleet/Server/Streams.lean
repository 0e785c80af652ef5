import Ekafleet.Lib.Run
import Ekafleet.Server.FleetState

/-! Control streams of agents | source: server/api.rs, server/state.rs

    An agent opens a stream and names its node in the first message; the handler registers the node
    with the sender of a new channel, and a task of the stream deregisters the node, by its name,
    once it sees the stream end. A node may have several streams at a time, in all these phases. -/

namespace Ekafleet.Server

/-! ### Agents and their channels -/

/-- What the server knows about a connected agent, with the channel that feeds its stream. -/
structure AgentNode extends NodeInfo where
  tx : ℕ

abbrev Agents := HashMap String AgentNode

/-- The events that register or deregister a node. -/
def FleetEvent.isMembership : FleetEvent → Bool
  | .register _ _ | .deregister _ => true
  | _ => false

/-- The nodes an event removes. -/
def FleetEvent.removes (s : FleetState) : FleetEvent → List String
  | .deregister nodeId => [nodeId]
  | .evict now timeoutSecs => s.deadNodes now timeoutSecs
  | _ => []

namespace Agents

/-- Without the channels. -/
def toFleet (m : Agents) : FleetState := ⟨HashMap.mapVal (fun _ n => n.toNodeInfo) m⟩

/-- The channel of a node; `none` if the node is not registered. -/
def channel (m : Agents) (nodeId : String) : Option ℕ := (m.lookup nodeId).map (·.tx)

/-- The nodes of a fleet state, with the channels they had. -/
def carry (m : Agents) (fleet : FleetState) : Agents :=
  HashMap.mapVal (fun nodeId info => { info with tx := (m.channel nodeId).getD 0 }) fleet.nodes

/-- One event; a node that registers has the new channel `tx`. -/
def step (m : Agents) (tx : ℕ) : FleetEvent → Agents
  | .register now nodeId => m.insert nodeId { lastHeartbeat := now, tx }
  | e => m.carry (m.toFleet.step e)

/-- The senders a broadcast clones under the read lock. -/
def senders (m : Agents) : List (String × ℕ) := m.entries.map fun n => (n.1, n.2.tx)

end Agents

namespace FleetState

theorem mem_adjust {s : FleetState} {nodeId m : String} {f : NodeInfo → NodeInfo} :
    m ∈ HashMap.adjust nodeId f s.nodes ↔ m ∈ s.nodes := by
  rw [AList.mem_keys, AList.mem_keys, HashMap.adjust, HashMap.keys_mapVal]

theorem mem_foldl_deregister {m : String} (ids : List String) (s : FleetState) :
    m ∈ (ids.foldl (fun s id => s.deregisterAgent id) s).nodes ↔ m ∈ s.nodes ∧ m ∉ ids := by
  induction ids generalizing s with
  | nil => simp
  | cons id ids ih =>
    rw [List.foldl_cons, ih, deregisterAgent, AList.mem_erase, List.mem_cons, not_or]
    tauto

/-- EXACT: the nodes after an event that registers none. -/
theorem mem_step {s : FleetState} {e : FleetEvent} (he : ∀ now nodeId, e ≠ .register now nodeId)
    {m : String} : m ∈ (s.step e).nodes ↔ m ∈ s.nodes ∧ m ∉ e.removes s := by
  have hsame : ∀ s' : FleetState, (m ∈ s'.nodes ↔ m ∈ s.nodes) →
      (m ∈ s'.nodes ↔ m ∈ s.nodes ∧ m ∉ ([] : List String)) := by simp
  cases e with
  | register now nodeId => exact absurd rfl (he now nodeId)
  | deregister nodeId =>
    change m ∈ s.nodes.erase nodeId ↔ m ∈ s.nodes ∧ m ∉ [nodeId]
    rw [AList.mem_erase, List.mem_singleton, and_comm]
  | evict now timeoutSecs => exact mem_foldl_deregister _ s
  | heartbeat | meshIp | health | status | setSchedulable => exact hsame _ mem_adjust
  | drain order ext machine =>
    refine hsame _ ?_
    rcases s.step_drain order ext machine with hdrain | hrefused
    · rw [hdrain]
      exact mem_adjust
    · rw [hrefused]

end FleetState

namespace Agents

theorem mem_toFleet {m : Agents} {nodeId : String} : nodeId ∈ m.toFleet.nodes ↔ nodeId ∈ m := by
  rw [AList.mem_keys, AList.mem_keys, toFleet, HashMap.keys_mapVal]

theorem channel_eq_none {m : Agents} {nodeId : String} (h : nodeId ∉ m) :
    m.channel nodeId = none := by
  rw [channel, AList.lookup_eq_none.mpr h, Option.map_none]

theorem channel_register (m : Agents) (tx now : ℕ) (node nodeId : String) :
    (m.step tx (.register now node)).channel nodeId =
      if nodeId = node then some tx else m.channel nodeId := by
  rw [channel, step]
  split
  · next h => rw [h, AList.lookup_insert, Option.map_some]
  · next h => rw [AList.lookup_insert_ne h, channel]

/-- EXACT: the channels after an event that registers no node. -/
theorem channel_step (m : Agents) (tx : ℕ) {e : FleetEvent}
    (he : ∀ now nodeId, e ≠ .register now nodeId) (nodeId : String) :
    (m.step tx e).channel nodeId =
      if nodeId ∈ e.removes m.toFleet then none else m.channel nodeId := by
  have hstep : m.step tx e = m.carry (m.toFleet.step e) := by
    cases e with
    | register now nodeId => exact absurd rfl (he now nodeId)
    | _ => rfl
  have hlookup : (m.step tx e).channel nodeId =
      ((m.toFleet.step e).nodes.lookup nodeId).map fun _ => (m.channel nodeId).getD 0 := by
    rw [hstep, channel, carry, HashMap.lookup_mapVal, Option.map_map]
    rfl
  have hmem : nodeId ∈ (m.toFleet.step e).nodes ↔ nodeId ∈ m ∧ nodeId ∉ e.removes m.toFleet := by
    rw [FleetState.mem_step he, mem_toFleet]
  rw [hlookup]
  by_cases hkept : nodeId ∈ (m.toFleet.step e).nodes
  · obtain ⟨hnode, hnot⟩ := hmem.mp hkept
    obtain ⟨info, hinfo⟩ := HashMap.mem_iff_exists_lookup.mp hkept
    obtain ⟨n, hn⟩ := HashMap.mem_iff_exists_lookup.mp hnode
    rw [if_neg hnot, hinfo, channel, hn]
    rfl
  grind [AList.lookup_eq_none, channel_eq_none]

end Agents

/-! ### Streams -/

/-- A stream whose first message has been read. -/
structure ControlStream where
  id : ℕ
  nodeId : String
  registered : Bool := false
  /-- The agent's end is open. -/
  live : Bool := true
  /-- The server has seen the end of the stream. -/
  cleaned : Bool := false
  deriving DecidableEq, Repr

/-- A message: the stream it went to, if any, and the one that should have received it. -/
structure Delivery where
  nodeId : String
  stream : Option ℕ
  current : Option ℕ
  deriving DecidableEq, Repr

/-- The streams are listed from the newest to the oldest. A broadcast under way is the list of the
    senders it has not used yet. -/
structure Hub where
  nodes : Agents := ∅
  streams : List ControlStream := []
  distinct : (streams.map (·.id)).Nodup
  broadcasts : List (List (String × ℕ)) := []
  deliveries : List Delivery := []

/-- What happens to the streams of a server. -/
inductive HubEvent where
  | opened (id : ℕ) (nodeId : String)
  | register (now id : ℕ)
  | ended (id : ℕ)
  | cleanup (id : ℕ)
  | fleet (e : FleetEvent)
  | send (nodeId : String)
  | broadcast
  | deliver (k : ℕ)

namespace Hub

/-- A server that has just started. -/
def init : Hub where
  streams := []
  distinct := List.nodup_nil

def stream (h : Hub) (id : ℕ) : Option ControlStream := h.streams.find? (·.id = id)

/-- The stream the node opened last. -/
def newest (h : Hub) (nodeId : String) : Option ControlStream :=
  h.streams.find? (·.nodeId = nodeId)

/-- The stream the node opened last, if it is live and its handler has registered it. -/
def current (h : Hub) (nodeId : String) : Option ℕ :=
  (h.newest nodeId).bind fun c => if c.registered ∧ c.live then some c.id else none

/-- A change of one stream that keeps its identity. -/
def setStream (h : Hub) (id : ℕ) (f : ControlStream → ControlStream) : List ControlStream :=
  h.streams.map fun c => if c.id = id then { f c with id := c.id, nodeId := c.nodeId } else c

theorem ids_setStream (h : Hub) (id : ℕ) (f : ControlStream → ControlStream) :
    (h.setStream id f).map (·.id) = h.streams.map (·.id) := by
  rw [setStream, List.map_map]
  refine List.map_congr_left fun c _ => ?_
  simp only [Function.comp_apply]
  split <;> rfl

def modifyStream (h : Hub) (id : ℕ) (f : ControlStream → ControlStream) : Hub :=
  { h with streams := h.setStream id f, distinct := h.ids_setStream id f ▸ h.distinct }

/-- One event, `none` if it cannot happen. A handler registers its stream once, also when the agent
    is gone by then; a task sees the end of its stream once. -/
def step (h : Hub) : HubEvent → Option Hub
  | .opened id nodeId =>
    if hid : id ∈ h.streams.map (·.id) then none
    else some { h with
      streams := { id, nodeId } :: h.streams, distinct := List.nodup_cons.mpr ⟨hid, h.distinct⟩ }
  | .register now id => (h.stream id).bind fun c =>
    if c.registered then none
    else some { h.modifyStream id ({ · with registered := true }) with
      nodes := h.nodes.step id (.register now c.nodeId) }
  | .ended id => (h.stream id).bind fun c =>
    if c.live then some (h.modifyStream id ({ · with live := false })) else none
  | .cleanup id => (h.stream id).bind fun c =>
    if c.registered ∧ ¬ c.live ∧ ¬ c.cleaned then
      some { h.modifyStream id ({ · with cleaned := true }) with
        nodes := h.nodes.step id (.deregister c.nodeId) }
    else none
  | .fleet e =>
    if e.isMembership then none else some { h with nodes := h.nodes.step 0 e }
  | .send nodeId =>
    some { h with deliveries := ⟨nodeId, h.nodes.channel nodeId, h.current nodeId⟩ :: h.deliveries }
  | .broadcast => some { h with broadcasts := h.broadcasts ++ [h.nodes.senders] }
  | .deliver k => h.broadcasts[k]?.bind fun b => b.head?.map fun sender => { h with
      broadcasts := h.broadcasts.set k b.tail
      deliveries := ⟨sender.1, some sender.2, h.current sender.1⟩ :: h.deliveries }

/-! ### What an event does -/

section Step
variable {h h' : Hub}

variable {id : ℕ}

theorem step_opened {nodeId : String} (hstep : h.step (.opened id nodeId) = some h') :
    h'.nodes = h.nodes ∧ h'.streams = { id, nodeId } :: h.streams ∧
      h'.deliveries = h.deliveries := by
  grind [step]

theorem step_register {now : ℕ} (hstep : h.step (.register now id) = some h') :
    ∃ c, h.stream id = some c ∧ c.registered = false ∧
      h' = { h.modifyStream id ({ · with registered := true }) with
        nodes := h.nodes.step id (.register now c.nodeId) } := by
  obtain ⟨c, hc, hstep⟩ := Option.bind_eq_some_iff.mp hstep
  grind

theorem step_ended (hstep : h.step (.ended id) = some h') :
    h' = h.modifyStream id ({ · with live := false }) := by
  obtain ⟨c, hc, hstep⟩ := Option.bind_eq_some_iff.mp hstep
  split at hstep
  · exact (Option.some.inj hstep).symm
  · cases hstep

theorem step_cleanup (hstep : h.step (.cleanup id) = some h') :
    ∃ c, h.stream id = some c ∧ h' = { h.modifyStream id ({ · with cleaned := true }) with
      nodes := h.nodes.step id (.deregister c.nodeId) } := by
  obtain ⟨c, hc, hstep⟩ := Option.bind_eq_some_iff.mp hstep
  split at hstep
  · exact ⟨c, hc, (Option.some.inj hstep).symm⟩
  · cases hstep

theorem step_fleet {e : FleetEvent} (hstep : h.step (.fleet e) = some h') :
    e.isMembership = false ∧ h' = { h with nodes := h.nodes.step 0 e } := by
  grind [step, Option.some.inj]

theorem step_deliver {k : ℕ} (hstep : h.step (.deliver k) = some h') :
    ∃ sender rest, h.broadcasts[k]? = some (sender :: rest) ∧ h' = { h with
      broadcasts := h.broadcasts.set k rest
      deliveries := ⟨sender.1, some sender.2, h.current sender.1⟩ :: h.deliveries } := by
  obtain ⟨b, hb, hstep⟩ := Option.bind_eq_some_iff.mp hstep
  grind [Option.map_eq_some_iff, List.head?_eq_some_iff]

end Step

/-! ### Where messages go -/

/-- A node whose newest stream is served is registered with that stream. -/
def Routed (h : Hub) : Prop :=
  ∀ nodeId id, h.current nodeId = some id → h.nodes.channel nodeId = some id

/-- Every message to such a node went to that stream. -/
def Delivered (h : Hub) : Prop :=
  ∀ d ∈ h.deliveries, ∀ id, d.current = some id → d.stream = some id

section Lookup
variable {h : Hub} {nodeId : String}

theorem current_eq_some {id : ℕ} :
    h.current nodeId = some id ↔
      ∃ c, h.newest nodeId = some c ∧ c.registered = true ∧ c.live = true ∧ c.id = id := by
  rw [current, Option.bind_eq_some_iff]
  grind

variable {c : ControlStream}

theorem eq_of_id_eq {d : ControlStream} (hc : c ∈ h.streams) (hd : d ∈ h.streams)
    (hid : c.id = d.id) : c = d :=
  List.inj_on_of_nodup_map h.distinct hc hd hid

theorem mem_of_stream {id : ℕ} (hc : h.stream id = some c) :
    c ∈ h.streams ∧ c.id = id :=
  ⟨List.mem_of_find?_eq_some hc, by simpa using List.find?_some hc⟩

theorem forall_id_iff {id : ℕ} (hc : h.stream id = some c) {P : ControlStream → Prop}
    : (∀ d ∈ h.streams, d.id = id → P d) ↔ P c := by
  obtain ⟨hmem, hid⟩ := mem_of_stream hc
  constructor
  · intro hall
    exact hall c hmem hid
  · intro hP d hd hdid
    rwa [eq_of_id_eq hd hmem (hdid.trans hid.symm)]

theorem mem_of_newest (hc : h.newest nodeId = some c) :
    c ∈ h.streams ∧ c.nodeId = nodeId :=
  ⟨List.mem_of_find?_eq_some hc, by simpa using List.find?_some hc⟩

theorem newest_modifyStream (id : ℕ) (f : ControlStream → ControlStream) :
    (h.modifyStream id f).newest nodeId = (h.newest nodeId).map fun c =>
      if c.id = id then { f c with id := c.id, nodeId := c.nodeId } else c := by
  change (h.setStream id f).find? (·.nodeId = nodeId) = _
  rw [setStream, List.find?_map, newest]
  congr 2
  funext c
  simp only [Function.comp_apply]
  split <;> rfl

end Lookup

end Hub

/-! ### Exact condition -/

namespace Hub

/-- The event does not cut off or replace a newer stream that is served: a handler registers and a
    task cleans up only while no other stream of the node is served, a served node is not evicted,
    and a broadcast does not use the sender of a replaced stream. -/
def Spares (h : Hub) : HubEvent → Prop
  | .register _ id | .cleanup id => ∀ c ∈ h.streams, c.id = id → h.current c.nodeId = none
  | .fleet e => ∀ nodeId ∈ e.removes h.nodes.toFleet, h.current nodeId = none
  | .deliver k => ∀ sender rest, h.broadcasts[k]? = some (sender :: rest) →
      ∀ id, h.current sender.1 = some id → sender.2 = id
  | _ => True

section Exact
variable {h h' : Hub}

variable {id : ℕ}

theorem current_modifyStream_of_keeps {f : ControlStream → ControlStream}
    (hf : ∀ c, (f c).registered = c.registered ∧ (f c).live = c.live) (nodeId : String) :
    (h.modifyStream id f).current nodeId = h.current nodeId := by
  rw [current, newest_modifyStream, current, Option.bind_map]
  grind

theorem current_of_current_ended {j : ℕ} {nodeId : String}
    (hj : (h.modifyStream id ({ · with live := false })).current nodeId = some j) :
    h.current nodeId = some j := by
  obtain ⟨d, hd, hreg, hlive, hid⟩ := current_eq_some.mp hj
  rw [newest_modifyStream] at hd
  obtain ⟨c, hc, rfl⟩ := Option.map_eq_some_iff.mp hd
  split at hlive
  · cases hlive
  · next hne =>
    rw [if_neg hne] at hreg hid
    exact current_eq_some.mpr ⟨c, hc, hreg, hlive, hid⟩

/-- STEP (register): exact. -/
theorem routed_register {now : ℕ} (hstep : h.step (.register now id) = some h') (hrouted : h.Routed)
    : h'.Routed ↔ h.Spares (.register now id) := by
  obtain ⟨c, hc, hunreg, heq⟩ := step_register hstep
  obtain ⟨hmem, hcid⟩ := mem_of_stream hc
  have hspares : h.Spares (.register now id) ↔ h.current c.nodeId = none := forall_id_iff hc
  have hchannel : ∀ nodeId, h'.nodes.channel nodeId =
      if nodeId = c.nodeId then some id else h.nodes.channel nodeId := by
    intro nodeId
    rw [heq]
    exact h.nodes.channel_register id now c.nodeId nodeId
  have hcurrent : ∀ nodeId, h'.current nodeId =
      (h.modifyStream id ({ · with registered := true })).current nodeId := by
    intro nodeId
    rw [heq]
    rfl
  rw [hspares]
  constructor
  · intro hafter
    by_contra hsome
    obtain ⟨j, hj⟩ := Option.ne_none_iff_exists'.mp hsome
    obtain ⟨d, hd, hreg, hlive, rfl⟩ := current_eq_some.mp hj
    -- The newest stream is another one: it has been registered.
    have hne : d.id ≠ id := by
      intro hdid
      obtain rfl := eq_of_id_eq (mem_of_newest hd).1 hmem (hdid.trans hcid.symm)
      rw [hreg] at hunreg
      cases hunreg
    have hsend := hafter c.nodeId d.id (by
      rw [hcurrent, current_eq_some, newest_modifyStream, hd]
      exact ⟨d, by rw [Option.map_some, if_neg hne], hreg, hlive, rfl⟩)
    rw [hchannel, if_pos rfl] at hsend
    exact hne (Option.some.inj hsend).symm
  · intro hnone nodeId j hj
    rw [hcurrent] at hj
    obtain ⟨d', hd', hreg, hlive, hid⟩ := current_eq_some.mp hj
    rw [newest_modifyStream] at hd'
    obtain ⟨d, hd, rfl⟩ := Option.map_eq_some_iff.mp hd'
    by_cases hdid : d.id = id
    · obtain rfl := eq_of_id_eq (mem_of_newest hd).1 hmem (hdid.trans hcid.symm)
      rw [if_pos hdid] at hid
      rw [hchannel, if_pos (mem_of_newest hd).2.symm]
      exact congrArg some (hdid.symm.trans hid)
    · rw [if_neg hdid] at hreg hlive hid
      have hold := current_eq_some.mpr ⟨d, hd, hreg, hlive, hid⟩
      have hother : nodeId ≠ c.nodeId := by
        rintro rfl
        rw [hnone] at hold
        cases hold
      rw [hchannel, if_neg hother]
      exact hrouted nodeId j hold

theorem routed_iff_removes {tx : ℕ} {e : FleetEvent} (he : ∀ now nodeId, e ≠ .register now nodeId)
    (hnodes : h'.nodes = h.nodes.step tx e)
    (hcurrent : ∀ nodeId, h'.current nodeId = h.current nodeId) (hrouted : h.Routed) :
    h'.Routed ↔ ∀ nodeId ∈ e.removes h.nodes.toFleet, h.current nodeId = none := by
  constructor
  · intro hafter nodeId hremoved
    by_contra hsome
    obtain ⟨j, hj⟩ := Option.ne_none_iff_exists'.mp hsome
    have hsend := hafter nodeId j ((hcurrent _).trans hj)
    rw [hnodes, Agents.channel_step _ _ he, if_pos hremoved] at hsend
    cases hsend
  · intro hspares nodeId j hj
    rw [hcurrent] at hj
    have hkept : nodeId ∉ e.removes h.nodes.toFleet := by
      intro hremoved
      rw [hspares nodeId hremoved] at hj
      cases hj
    rw [hnodes, Agents.channel_step _ _ he, if_neg hkept]
    exact hrouted nodeId j hj

/-- STEP (cleanup): exact. -/
theorem routed_cleanup (hstep : h.step (.cleanup id) = some h') (hrouted : h.Routed) :
    h'.Routed ↔ h.Spares (.cleanup id) := by
  obtain ⟨c, hc, heq⟩ := step_cleanup hstep
  have hspares : h.Spares (.cleanup id) ↔ h.current c.nodeId = none := forall_id_iff hc
  have hnodes : h'.nodes = h.nodes.step id (.deregister c.nodeId) := by rw [heq]
  have hcurrent : ∀ nodeId, h'.current nodeId = h.current nodeId := by
    rw [heq]
    exact current_modifyStream_of_keeps fun _ => ⟨rfl, rfl⟩
  rw [hspares, routed_iff_removes (by simp) hnodes hcurrent hrouted]
  exact List.forall_mem_singleton

/-- STEP (operations of the fleet state): exact. -/
theorem routed_fleet {e : FleetEvent} (hstep : h.step (.fleet e) = some h') (hrouted : h.Routed) :
    h'.Routed ↔ h.Spares (.fleet e) := by
  obtain ⟨he, rfl⟩ := step_fleet hstep
  refine routed_iff_removes ?_ rfl (fun _ => rfl) hrouted
  rintro now nodeId rfl
  cases he

/-- STEP (opened): a stream that is not registered yet is not served. -/
theorem routed_opened {nodeId : String} (hstep : h.step (.opened id nodeId) = some h')
    (hrouted : h.Routed) : h'.Routed := by
  obtain ⟨hnodes, hstreams, -⟩ := step_opened hstep
  intro m j hj
  rw [current, newest, hstreams, List.find?_cons] at hj
  split at hj
  · simp at hj
  · rw [hnodes]
    exact hrouted m j hj

theorem delivered_cons {d : Delivery} (hdelivered : h.Delivered)
    (hd : h'.deliveries = d :: h.deliveries) :
    h'.Delivered ↔ ∀ id, d.current = some id → d.stream = some id := by
  rw [Delivered, hd, List.forall_mem_cons]
  exact and_iff_left hdelivered

/-- STEP: a step keeps the routes if and only if it spares the streams that are served. -/
theorem routed_step {e : HubEvent} (hstep : h.step e = some h') (hgood : h.Routed ∧ h.Delivered)
    : h'.Routed ∧ h'.Delivered ↔ h.Spares e := by
  obtain ⟨hrouted, hdelivered⟩ := hgood
  cases e with
  | opened id nodeId =>
    refine iff_of_true ⟨routed_opened hstep hrouted, ?_⟩ trivial
    rw [Delivered, (step_opened hstep).2.2]
    exact hdelivered
  | register now id =>
    rw [routed_register hstep hrouted]
    obtain ⟨c, -, -, rfl⟩ := step_register hstep
    exact and_iff_left hdelivered
  | ended id =>
    obtain rfl := step_ended hstep
    exact iff_of_true ⟨fun m j hj => hrouted m j (current_of_current_ended hj), hdelivered⟩ trivial
  | cleanup id =>
    rw [routed_cleanup hstep hrouted]
    obtain ⟨c, -, rfl⟩ := step_cleanup hstep
    exact and_iff_left hdelivered
  | fleet e =>
    rw [routed_fleet hstep hrouted]
    obtain ⟨-, rfl⟩ := step_fleet hstep
    exact and_iff_left hdelivered
  | send nodeId =>
    cases hstep
    refine iff_of_true ⟨hrouted, (delivered_cons hdelivered rfl).mpr fun id hid => ?_⟩ trivial
    exact hrouted nodeId id hid
  | broadcast =>
    cases hstep
    exact iff_of_true ⟨hrouted, hdelivered⟩ trivial
  | deliver k =>
    obtain ⟨sender, rest, hk, rfl⟩ := step_deliver hstep
    refine (and_iff_right hrouted).trans ((delivered_cons hdelivered rfl).trans ?_)
    constructor
    · intro hright sender' rest' hk' id hid
      grind
    · intro hspares id hid
      exact congrArg some (hspares sender rest hk id hid)

end Exact

/-- RUN, exact: in every state of a run each node whose newest stream is served is registered with
    that stream and every message to such a node went there, if and only if every event of the run
    spares the streams that are served. -/
theorem newest_stream_routed_iff (trace : List HubEvent) :
    (∀ pre h, pre <+: trace → Run.run step init pre = some h → h.Routed ∧ h.Delivered) ↔
      ∀ pre e h h', pre ++ [e] <+: trace → Run.run step init pre = some h → h.step e = some h' →
        h.Spares e := by
  refine Run.along_iff step ⟨?_, ?_⟩ (fun _ _ _ _ _ hgood hstep => routed_step hstep hgood) trace
  · intro nodeId id hid
    cases hid
  · intro d hd
    cases hd

/-- A node reconnects before the server sees its first stream end: the clean-up of that one removes
    the node, and a command to it is lost. -/
theorem late_cleanup_unregisters :
    (Run.run step init [.opened 1 "n1", .register 0 1, .opened 2 "n1", .register 1 2, .ended 1,
      .cleanup 1, .send "n1"]).map (fun h => (h.current "n1", h.nodes.channel "n1", h.deliveries)) =
        some (some 2, none, [⟨"n1", none, some 2⟩]) := by
  decide

end Hub

end Ekafleet.Server
