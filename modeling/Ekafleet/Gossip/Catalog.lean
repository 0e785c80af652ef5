import Ekafleet.Lib.HashMap
import Ekafleet.Lib.LastWriter
import Ekafleet.Lib.Run

/-! The gossiped service catalog | source: gossip/catalog.rs

    Every node keeps a catalog of the instances of every service. It numbers its own registrations
    with a counter, and a merge of another catalog keeps the entry with the higher number for each
    instance. Nodes register under their own id only, so that the number identifies the entry, and
    merging is a join. It joins what was removed as well. -/

namespace Ekafleet.Gossip
open Run

/-- An instance of a service, as its node has announced it. -/
structure CatalogEntry where
  nodeId : String
  address : String
  port : UInt16
  version : ℕ
  deriving DecidableEq, Repr

/-- Namespace and service name. -/
abbrev ServiceKey := String × String

abbrev CatalogEntries := HashMap ServiceKey (List CatalogEntry)

/-- A node's catalog, and its own version counter. -/
structure CatalogState where
  entries : CatalogEntries := ∅
  version : ℕ := 0

/-- Update the first entry of the same node if it is to be replaced, or add a new one. -/
def putEntry (replaces : CatalogEntry → Bool) (e : CatalogEntry) :
    List CatalogEntry → List CatalogEntry
  | [] => [e]
  | x :: rest =>
    if x.nodeId = e.nodeId then (if replaces x then e else x) :: rest
    else x :: putEntry replaces e rest

/-- Register a local service in the catalog. -/
def register (key : ServiceKey) (nodeId address : String) (port : UInt16) (s : CatalogState) :
    Option CatalogState :=
  if s.version + 1 < 2 ^ 64 then
    some {
      version := s.version + 1
      entries := HashMap.upsert key []
        (putEntry (fun _ => true) ⟨nodeId, address, port, s.version + 1⟩) s.entries }
  else none

/-- Deregister a service instance. -/
def deregister (key : ServiceKey) (nodeId : String) (s : CatalogState) : CatalogState :=
  { s with entries := HashMap.adjust key (List.filter (·.nodeId ≠ nodeId)) s.entries }

/-- Merge the remote entries of one service, in order. -/
def mergeList (remote loc : List CatalogEntry) : List CatalogEntry :=
  remote.foldl (fun l e => putEntry (fun x => x.version < e.version) e l) loc

/-- Merge what a peer sent. -/
def mergeEntries (order : HashMap.Order) (remote loc : CatalogEntries) : CatalogEntries :=
  (order.arrange remote.entries).foldl (fun m r => HashMap.upsert r.1 [] (mergeList r.2) m) loc

/-- Merge remote catalog state (from gossip). -/
def merge (order : HashMap.Order) (remote : CatalogEntries) (s : CatalogState) : CatalogState :=
  { s with entries := mergeEntries order remote s.entries }

/-- Get all catalog data for gossip propagation. -/
def snapshot (s : CatalogState) : CatalogEntries := s.entries

/-- The entries of a service; a service that is missing has none. -/
def listed (m : CatalogEntries) (key : ServiceKey) : List CatalogEntry := (m.lookup key).getD []

/-- The same sets of entries, whatever their order and whether empty lists are kept. -/
def SameEntries (m m' : CatalogEntries) : Prop := ∀ key e, e ∈ listed m key ↔ e ∈ listed m' key

/-- The entry of an instance: a service on a node. -/
def entryAt (m : CatalogEntries) (i : ServiceKey × String) : Option CatalogEntry :=
  (listed m i.1).find? (·.nodeId = i.2)

/-- No service lists a node twice. -/
def OnePerNode (m : CatalogEntries) : Prop :=
  ∀ key, ((listed m key).map CatalogEntry.nodeId).Nodup

/-! ### One list -/

section Lists
variable {replaces : CatalogEntry → Bool} {e x : CatalogEntry} {l remote : List CatalogEntry}

theorem find_putEntry_self (replaces : CatalogEntry → Bool) (e : CatalogEntry)
    (l : List CatalogEntry) :
    (putEntry replaces e l).find? (·.nodeId = e.nodeId) =
      match l.find? (·.nodeId = e.nodeId) with
      | none => some e
      | some x => some (if replaces x then e else x) := by
  induction l with
  | nil => simp [putEntry]
  | cons x rest ih =>
    by_cases hx : x.nodeId = e.nodeId
    · have hnode : (if replaces x then e else x).nodeId = e.nodeId := by split_ifs <;> simp [hx]
      simp [putEntry, hx, hnode]
    · simp [putEntry, hx, ih]

theorem find_putEntry_ne {n : String} (h : e.nodeId ≠ n) (replaces : CatalogEntry → Bool)
    (l : List CatalogEntry) :
    (putEntry replaces e l).find? (·.nodeId = n) = l.find? (·.nodeId = n) := by
  induction l with
  | nil => simp [putEntry, h]
  | cons x rest ih =>
    by_cases hx : x.nodeId = e.nodeId
    · have hnode : (if replaces x then e else x).nodeId ≠ n := by split_ifs <;> simp [hx, h]
      have hne : x.nodeId ≠ n := hx ▸ h
      rw [putEntry, if_pos hx, List.find?_cons_of_neg (by simpa using hnode),
        List.find?_cons_of_neg (by simpa using hne)]
    · rw [putEntry, if_neg hx, List.find?_cons, List.find?_cons, ih]

theorem map_nodeId_putEntry (replaces : CatalogEntry → Bool) (e : CatalogEntry)
    (l : List CatalogEntry) :
    (putEntry replaces e l).map CatalogEntry.nodeId =
      if e.nodeId ∈ l.map CatalogEntry.nodeId then l.map CatalogEntry.nodeId
      else l.map CatalogEntry.nodeId ++ [e.nodeId] := by
  induction l with
  | nil => rfl
  | cons x rest ih =>
    by_cases hx : x.nodeId = e.nodeId
    · have hnode : (if replaces x then e else x).nodeId = e.nodeId := by split_ifs <;> simp [hx]
      simp [putEntry, hx, hnode]
    · rw [putEntry, if_neg hx, List.map_cons, ih]
      grind

theorem nodup_putEntry (h : (l.map CatalogEntry.nodeId).Nodup) (replaces : CatalogEntry → Bool)
    (e : CatalogEntry) : ((putEntry replaces e l).map CatalogEntry.nodeId).Nodup := by
  rw [map_nodeId_putEntry]
  split_ifs with hmem
  · exact h
  · rw [← List.concat_eq_append]
    exact h.concat hmem

theorem mem_of_mem_putEntry (h : x ∈ putEntry replaces e l) : x = e ∨ x ∈ l := by
  induction l with
  | nil => exact .inl (by simpa [putEntry] using h)
  | cons y rest ih =>
    grind [putEntry, List.mem_cons_of_mem,
      List.mem_cons_self]

theorem mem_of_mem_mergeList (h : x ∈ mergeList remote l) : x ∈ remote ∨ x ∈ l := by
  induction remote generalizing l with
  | nil => exact .inr h
  | cons e rest ih =>
    rcases ih h with h | h
    · exact .inl (List.mem_cons_of_mem _ h)
    · rcases mem_of_mem_putEntry h with rfl | h
      · exact .inl List.mem_cons_self
      · exact .inr h

theorem nodup_mergeList (h : (l.map CatalogEntry.nodeId).Nodup) (remote : List CatalogEntry) :
    ((mergeList remote l).map CatalogEntry.nodeId).Nodup := by
  induction remote generalizing l with
  | nil => exact h
  | cons e rest ih => exact ih (nodup_putEntry h _ e)

theorem find_mergeList (h : (remote.map CatalogEntry.nodeId).Nodup) (l : List CatalogEntry)
    (n : String) :
    (mergeList remote l).find? (·.nodeId = n) =
      LastWriter.newer CatalogEntry.version (l.find? (·.nodeId = n))
        (remote.find? (·.nodeId = n)) := by
  induction remote generalizing l with
  | nil => simp [mergeList]
  | cons e rest ih =>
    obtain ⟨hnew, hrest⟩ := List.nodup_cons.mp h
    refine (ih hrest _).trans ?_
    by_cases hn : e.nodeId = n
    · subst hn
      have hnone : rest.find? (·.nodeId = e.nodeId) = none := by
        grind
      rw [hnone, LastWriter.newer_none_right, find_putEntry_self]
      simp only [List.find?_cons_of_pos, decide_true]
      cases l.find? (·.nodeId = e.nodeId) with
      | none => rfl
      | some x => simp [LastWriter.newer, apply_ite some]
    · rw [find_putEntry_ne hn, List.find?_cons_of_neg (by simpa using hn)]

end Lists

/-! ### Whole catalogs -/

section Catalogs
variable {order : HashMap.Order} {remote loc m m' : CatalogEntries} {key : ServiceKey}
  {e : CatalogEntry}

theorem listed_mergeEntries (order : HashMap.Order) (remote loc : CatalogEntries)
    (key : ServiceKey) :
    listed (mergeEntries order remote loc) key =
      mergeList (listed remote key) (listed loc key) := by
  have hperm := order.perm remote.entries
  have hnodup : (order.arrange remote.entries).NodupKeys :=
    (List.perm_nodupKeys hperm).mpr remote.nodupKeys
  have hlookup : remote.lookup key = (order.arrange remote.entries).dlookup key :=
    List.perm_dlookup key remote.nodupKeys hperm.symm
  rw [listed, listed, listed, mergeEntries, hlookup, HashMap.getD_lookup_foldl_upsert hnodup]
  cases (order.arrange remote.entries).dlookup key <;> rfl

theorem mem_of_mem_mergeEntries (h : e ∈ listed (mergeEntries order remote loc) key) :
    e ∈ listed remote key ∨ e ∈ listed loc key := by
  rw [listed_mergeEntries] at h
  exact mem_of_mem_mergeList h

theorem OnePerNode.merge (h : OnePerNode loc) (order : HashMap.Order) (remote : CatalogEntries) :
    OnePerNode (mergeEntries order remote loc) := by
  intro key
  rw [listed_mergeEntries]
  exact nodup_mergeList (h key) _

/-- REFINEMENT: seen as a map from instances to entries, a merge is the join that keeps the newer
    entry. -/
theorem entryAt_mergeEntries (h : OnePerNode remote) (order : HashMap.Order)
    (loc : CatalogEntries) :
    entryAt (mergeEntries order remote loc) =
      LastWriter.join CatalogEntry.version (entryAt loc) (entryAt remote) := by
  funext i
  rw [entryAt, listed_mergeEntries, find_mergeList (h i.1)]
  rfl

theorem entryAt_eq_some_iff (h : OnePerNode m) {i : ServiceKey × String} :
    entryAt m i = some e ↔ e ∈ listed m i.1 ∧ e.nodeId = i.2 := by
  constructor
  · intro hfind
    exact ⟨List.mem_of_find?_eq_some hfind, by simpa using List.find?_some hfind⟩
  · rintro ⟨hmem, hnode⟩
    cases hfind : entryAt m i with
    | none =>
      have hnone := List.find?_eq_none.mp hfind e hmem
      exact absurd hnode (by simpa using hnone)
    | some x =>
      have hx : x.nodeId = i.2 := by simpa using List.find?_some hfind
      rw [List.inj_on_of_nodup_map (h i.1) (List.mem_of_find?_eq_some hfind) hmem
        (hx.trans hnode.symm)]

theorem sameEntries_iff (h : OnePerNode m) (h' : OnePerNode m') :
    SameEntries m m' ↔ entryAt m = entryAt m' := by
  constructor
  · intro hsame
    funext i
    refine Option.ext fun e => ?_
    rw [entryAt_eq_some_iff h, entryAt_eq_some_iff h', hsame]
  · intro heq key e
    have hat := congrFun heq (key, e.nodeId)
    have hmem : ∀ {m}, OnePerNode m → (e ∈ listed m key ↔ entryAt m (key, e.nodeId) = some e) := by
      intro m hm
      rw [entryAt_eq_some_iff hm, and_iff_left rfl]
    rw [hmem h, hmem h', hat]

variable {nodeId address : String} {s : CatalogState}

variable {port : UInt16} {s' : CatalogState}

theorem mem_listed_register (h : register key nodeId address port s = some s') {k : ServiceKey}
    (he : e ∈ listed s'.entries k) :
    (k = key ∧ e = ⟨nodeId, address, port, s'.version⟩) ∨ e ∈ listed s.entries k := by
  rw [register] at h
  split_ifs at h
  obtain rfl := Option.some.inj h
  by_cases hk : k = key
  · subst hk
    simp only [listed, HashMap.upsert, AList.lookup_insert, Option.getD_some] at he
    exact (mem_of_mem_putEntry he).imp (fun heq => ⟨rfl, heq⟩) id
  · simp only [listed, HashMap.upsert, AList.lookup_insert_ne hk] at he
    exact .inr he

theorem OnePerNode.register (hs : OnePerNode s.entries)
    (h : register key nodeId address port s = some s') :
    OnePerNode s'.entries := by
  rw [Gossip.register] at h
  split_ifs at h
  obtain rfl := Option.some.inj h
  intro k
  by_cases hk : k = key
  · subst hk
    simp only [listed, HashMap.upsert, AList.lookup_insert, Option.getD_some]
    exact nodup_putEntry (hs k) _ _
  · simp only [listed, HashMap.upsert, AList.lookup_insert_ne hk]
    exact hs k

theorem mem_register (h : register key nodeId address port s = some s') :
    ∃ e ∈ listed s'.entries key, e.nodeId = nodeId := by
  rw [register] at h
  split_ifs at h
  obtain rfl := Option.some.inj h
  have hnode : nodeId ∈ (listed (HashMap.upsert key []
      (putEntry (fun _ => true) ⟨nodeId, address, port, s.version + 1⟩) s.entries) key).map
        CatalogEntry.nodeId := by
    simp only [listed, HashMap.upsert, AList.lookup_insert, Option.getD_some, map_nodeId_putEntry]
    split_ifs with hmem
    · exact hmem
    · exact List.mem_concat_self
  obtain ⟨e, he, heq⟩ := List.mem_map.mp hnode
  exact ⟨e, he, heq⟩

theorem listed_deregister (key k : ServiceKey) (nodeId : String) (s : CatalogState) :
    listed (deregister key nodeId s).entries k =
      if k = key then (listed s.entries k).filter (·.nodeId ≠ nodeId) else listed s.entries k := by
  by_cases hk : k = key
  · subst hk
    rw [if_pos rfl, listed, listed, deregister, HashMap.lookup_adjust_self]
    cases s.entries.lookup k <;> rfl
  · rw [if_neg hk, listed, listed, deregister, HashMap.lookup_adjust_ne hk]

theorem mem_listed_deregister {k : ServiceKey} (he : e ∈ listed (deregister key nodeId s).entries k)
    : e ∈ listed s.entries k := by
  rw [listed_deregister] at he
  split_ifs at he
  · exact List.mem_of_mem_filter he
  · exact he

theorem OnePerNode.deregister {s : CatalogState} (hs : OnePerNode s.entries) (key : ServiceKey)
    (nodeId : String) : OnePerNode (deregister key nodeId s).entries := by
  intro k
  rw [listed_deregister]
  split_ifs
  · exact (hs k).sublist (List.filter_sublist.map _)
  · exact hs k

end Catalogs

/-! ### Nodes that gossip -/

/-- Every node's catalog, and all snapshots that could have been taken so far. -/
structure CatalogNet where
  catalogs : String → CatalogState := fun _ => {}
  past : List CatalogEntries := [∅]

/-- What happens to a node's catalog. -/
inductive CatalogEvent where
  /-- A node registers an instance of its own. -/
  | register (node : String) (key : ServiceKey) (address : String) (port : UInt16)
  | deregister (node : String) (key : ServiceKey)
  /-- A node merges a snapshot that it or another node had at some time. -/
  | merge (node : String) (order : HashMap.Order) (index : ℕ)

/-- The catalog of a node has changed; it can be taken a snapshot of from now on. -/
def CatalogNet.put (net : CatalogNet) (node : String) (s : CatalogState) : CatalogNet where
  catalogs := Function.update net.catalogs node s
  past := net.past ++ [snapshot s]

@[simp] theorem put_catalogs_self (net : CatalogNet) (node : String) (s : CatalogState) :
    (net.put node s).catalogs node = s := by
  simp [CatalogNet.put]

/-- One event of the catalogs. -/
def catalogStep (net : CatalogNet) : CatalogEvent → Option CatalogNet
  | .register node key address port =>
    (register key node address port (net.catalogs node)).map (net.put node)
  | .deregister node key => some (net.put node (deregister key node (net.catalogs node)))
  | .merge node order index =>
    net.past[index]?.map fun remote => net.put node (merge order remote (net.catalogs node))

/-- An entry that some snapshot lists for a service. -/
def Known (net : CatalogNet) (key : ServiceKey) (e : CatalogEntry) : Prop :=
  ∃ m ∈ net.past, e ∈ listed m key

/-- What holds of all snapshots: they list a node once, their entries of one number are the same,
    and no number is ahead of the counter of the node that gave it. -/
structure Numbered (net : CatalogNet) : Prop where
  onePerNode : ∀ m ∈ net.past, OnePerNode m
  current : ∀ node, (net.catalogs node).entries ∈ net.past
  unique : ∀ key e e', Known net key e → Known net key e' → e.nodeId = e'.nodeId →
    e.version = e'.version → e = e'
  bounded : ∀ key e, Known net key e → e.version ≤ (net.catalogs e.nodeId).version

/-- The entries of a changed catalog are known, except for one with the next number of its node. -/
def ComesFrom (net : CatalogNet) (node : String) (s : CatalogState) (new : CatalogEntry) : Prop :=
  ∀ key, ∀ e ∈ listed s.entries key, Known net key e ∨
    (e = new ∧ e.nodeId = node ∧ (net.catalogs node).version < e.version ∧ e.version ≤ s.version)

section Net
variable {net net' : CatalogNet} {node : String} {s : CatalogState} {new : CatalogEntry}
  {ev : CatalogEvent}

theorem known_put {key : ServiceKey} {e : CatalogEntry} :
    Known (net.put node s) key e ↔ Known net key e ∨ e ∈ listed s.entries key := by
  simp [Known, CatalogNet.put, snapshot, or_and_right, exists_or]

/-- STEP: a changed catalog keeps the numbering. -/
theorem Numbered.put (h : Numbered net) (hone : OnePerNode s.entries)
    (hversion : (net.catalogs node).version ≤ s.version) (hfrom : ComesFrom net node s new) :
    Numbered (net.put node s) := by
  -- with `hfrom` every entry known afterwards was known before or is the new one
  have hknown : ∀ {key e}, Known (net.put node s) key e → Known net key e ∨
      (e = new ∧ e.nodeId = node ∧ (net.catalogs node).version < e.version ∧
        e.version ≤ s.version) :=
    fun hk => (known_put.mp hk).elim .inl (hfrom _ _)
  refine ⟨?_, ?_, ?_, ?_⟩
  · intro m hm
    rcases List.mem_append.mp hm with hm | hm
    · exact h.onePerNode m hm
    · rw [List.mem_singleton.mp hm]
      exact hone
  · intro node'
    by_cases hnode : node' = node
    · subst hnode
      simp [CatalogNet.put, snapshot]
    · simp only [CatalogNet.put, Function.update_of_ne hnode]
      exact List.mem_append_left _ (h.current node')
  · intro key e e' he he' hnode hversions
    rcases hknown he with he | ⟨hnew, hown, hlt, -⟩ <;>
      rcases hknown he' with he' | ⟨hnew', hown', hlt', -⟩
    · exact h.unique key e e' he he' hnode hversions
    · have hle := h.bounded key e he
      rw [hnode, hown'] at hle
      omega
    · have hle := h.bounded key e' he'
      rw [← hnode, hown] at hle
      omega
    · rw [hnew, hnew']
  · intro key e he
    by_cases hnode : e.nodeId = node
    · subst hnode
      simp only [CatalogNet.put, Function.update_self]
      rcases hknown he with he | ⟨-, -, -, hle⟩
      · exact (h.bounded key e he).trans hversion
      · exact hle
    · simp only [CatalogNet.put, Function.update_of_ne hnode]
      rcases hknown he with he | ⟨-, hown, -, -⟩
      · exact h.bounded key e he
      · exact absurd hown hnode

/-- INVERSION: what an event does to the catalog of its node. -/
theorem catalogStep_cases (h : catalogStep net ev = some net') :
    (∃ node key address port s, ev = .register node key address port ∧
        register key node address port (net.catalogs node) = some s ∧ net' = net.put node s) ∨
      (∃ node key, ev = .deregister node key ∧
        net' = net.put node (deregister key node (net.catalogs node))) ∨
      ∃ node order index remote, ev = .merge node order index ∧ net.past[index]? = some remote ∧
        net' = net.put node (merge order remote (net.catalogs node)) := by
  cases ev with
  | register node key address port =>
    obtain ⟨s, hs, rfl⟩ := Option.map_eq_some_iff.mp h
    exact .inl ⟨node, key, address, port, s, rfl, hs, rfl⟩
  | deregister node key => exact .inr (.inl ⟨node, key, rfl, (Option.some.inj h).symm⟩)
  | merge node order index =>
    obtain ⟨remote, hremote, rfl⟩ := Option.map_eq_some_iff.mp h
    exact .inr (.inr ⟨node, order, index, remote, rfl, hremote, rfl⟩)

theorem Numbered.known_current (h : Numbered net) {key : ServiceKey} {e : CatalogEntry}
    (he : e ∈ listed (net.catalogs node).entries key) : Known net key e :=
  ⟨_, h.current node, he⟩

/-- STEP -/
theorem numbered_step (h : Numbered net) (hstep : catalogStep net ev = some net') :
    Numbered net' := by
  rcases catalogStep_cases hstep with ⟨node, key, address, port, s, -, hs, rfl⟩ |
    ⟨node, key, -, rfl⟩ | ⟨node, order, index, remote, -, hremote, rfl⟩
  · have hversion : s.version = (net.catalogs node).version + 1 := by
      rw [register] at hs
      split_ifs at hs
      obtain rfl := Option.some.inj hs
      rfl
    have hfrom : ComesFrom net node s ⟨node, address, port, s.version⟩ := by
      intro k e he
      rcases mem_listed_register hs he with ⟨-, rfl⟩ | he
      · exact .inr ⟨rfl, rfl, by simp only; omega, le_refl _⟩
      · exact .inl (h.known_current he)
    exact h.put ((h.onePerNode _ (h.current node)).register hs) (by omega) hfrom
  · have hfrom : ∀ new, ComesFrom net node (deregister key node (net.catalogs node)) new :=
      fun _ k e he => .inl (h.known_current (mem_listed_deregister he))
    exact h.put ((h.onePerNode _ (h.current node)).deregister key node) (le_refl _)
      (hfrom ⟨node, "", 0, 0⟩)
  · have hfrom : ∀ new, ComesFrom net node (merge order remote (net.catalogs node)) new := by
      intro _ k e he
      rcases mem_of_mem_mergeEntries he with he | he
      · exact .inl ⟨remote, List.mem_of_getElem? hremote, he⟩
      · exact .inl (h.known_current he)
    exact h.put ((h.onePerNode _ (h.current node)).merge order remote) (le_refl _)
      (hfrom ⟨node, "", 0, 0⟩)

/-- RUN -/
theorem numbered_run {trace : List CatalogEvent} (hrun : run catalogStep {} trace = some net) :
    Numbered net := by
  refine Run.invariant catalogStep Numbered ?_ (fun _ _ _ => numbered_step) hrun
  have hempty : ∀ key (e : CatalogEntry), ¬ Known {} key e := by
    rintro key e ⟨m, hm, he⟩
    rw [List.mem_singleton.mp hm] at he
    exact absurd he List.not_mem_nil
  refine ⟨?_, fun _ => List.mem_singleton_self _, fun key e _ he => absurd he (hempty key e),
    fun key e he => absurd he (hempty key e)⟩
  intro m hm key
  rw [List.mem_singleton.mp hm]
  exact List.nodup_nil

theorem Numbered.coherent (h : Numbered net) {m m' : CatalogEntries} (hm : m ∈ net.past)
    (hm' : m' ∈ net.past) : LastWriter.Coherent CatalogEntry.version (entryAt m) (entryAt m') := by
  intro i e e' he he' hversions
  obtain ⟨hmem, hnode⟩ := (entryAt_eq_some_iff (h.onePerNode m hm)).mp he
  obtain ⟨hmem', hnode'⟩ := (entryAt_eq_some_iff (h.onePerNode m' hm')).mp he'
  exact h.unique i.1 e e' ⟨m, hm, hmem⟩ ⟨m', hm', hmem'⟩ (hnode.trans hnode'.symm) hversions

end Net

/-- CORRECT: on the snapshots of any run merging is commutative, associative and idempotent,
    whatever the order in which the maps are walked through. So when no merge among some nodes
    changes a catalog any more, they have the same entries. -/
theorem catalogs_converge (trace : List CatalogEvent) (net : CatalogNet)
    (hrun : run catalogStep {} trace = some net) :
    (∀ order order', ∀ a ∈ net.past, ∀ b ∈ net.past,
      SameEntries (mergeEntries order b a) (mergeEntries order' a b)) ∧
    (∀ o₁ o₂ o₃ o₄, ∀ a ∈ net.past, ∀ b ∈ net.past, ∀ c ∈ net.past,
      SameEntries (mergeEntries o₁ c (mergeEntries o₂ b a))
        (mergeEntries o₃ (mergeEntries o₄ c b) a)) ∧
    (∀ order, ∀ a ∈ net.past, SameEntries (mergeEntries order a a) a) ∧
    ∀ nodes : Set String,
      (∀ x ∈ nodes, ∀ y ∈ nodes, ∃ order, SameEntries
        (merge order (snapshot (net.catalogs y)) (net.catalogs x)).entries
        (net.catalogs x).entries) →
      ∀ x ∈ nodes, ∀ y ∈ nodes, SameEntries (net.catalogs x).entries (net.catalogs y).entries := by
  have h := numbered_run hrun
  have hone := h.onePerNode
  refine ⟨?_, ?_, ?_, ?_⟩
  · intro order order' a ha b hb
    rw [sameEntries_iff ((hone a ha).merge _ _) ((hone b hb).merge _ _),
      entryAt_mergeEntries (hone b hb), entryAt_mergeEntries (hone a ha),
      LastWriter.join_comm (h.coherent ha hb)]
  · intro o₁ o₂ o₃ o₄ a ha b hb c hc
    rw [sameEntries_iff (((hone a ha).merge _ _).merge _ _) ((hone a ha).merge _ _),
      entryAt_mergeEntries (hone c hc), entryAt_mergeEntries (hone b hb),
      entryAt_mergeEntries ((hone b hb).merge _ _), entryAt_mergeEntries (hone c hc),
      LastWriter.join_assoc]
  · intro order a ha
    rw [sameEntries_iff ((hone a ha).merge _ _) (hone a ha), entryAt_mergeEntries (hone a ha),
      LastWriter.join_self]
  · intro nodes hquiet x hx y hy
    have hmem := h.current
    -- a quiet exchange in each direction says that each catalog absorbs the other
    have habsorbs : ∀ u ∈ nodes, ∀ v ∈ nodes, LastWriter.join CatalogEntry.version
        (entryAt (net.catalogs u).entries) (entryAt (net.catalogs v).entries) =
          entryAt (net.catalogs u).entries := by
      intro u hu v hv
      obtain ⟨order, hsame⟩ := hquiet u hu v hv
      rw [← entryAt_mergeEntries (hone _ (hmem v)) order]
      exact (sameEntries_iff ((hone _ (hmem u)).merge _ _) (hone _ (hmem u))).mp hsame
    rw [sameEntries_iff (hone _ (hmem x)) (hone _ (hmem y))]
    exact LastWriter.eq_of_join_eq (h.coherent (hmem x) (hmem y)) (habsorbs x hx y hy)
      (habsorbs y hy x hx)

/-- Node `a` registers an instance and node `b` merges its catalog. -/
def oneRegistration : List CatalogEvent :=
  [.register "a" ("default", "web") "10.0.0.1" 80, .merge "b" .asBuilt 1]

/-- The catalog with this instance. -/
def webOnA : CatalogEntries :=
  AList.insert ("default", "web") [⟨"a", "10.0.0.1", 80, 1⟩] ∅

def afterOneRegistration : CatalogNet :=
  (({} : CatalogNet).put "a" { entries := webOnA, version := 1 }).put "b" { entries := webOnA }

theorem catalogs_converge_two :
    SameEntries (afterOneRegistration.catalogs "a").entries
      (afterOneRegistration.catalogs "b").entries := by
  obtain ⟨-, -, hidempotent, hquiet⟩ := catalogs_converge oneRegistration afterOneRegistration rfl
  refine hquiet {"a", "b"} ?_ "a" (by simp) "b" (by simp)
  have hentries : ∀ z ∈ ({"a", "b"} : Set String),
      (afterOneRegistration.catalogs z).entries = webOnA := by
    rintro z (rfl | rfl) <;> rfl
  intro x hx y hy
  refine ⟨.asBuilt, ?_⟩
  rw [merge, snapshot, hentries x hx, hentries y hy]
  exact hidempotent .asBuilt webOnA (List.mem_append_right _ (List.mem_singleton_self _))

end Ekafleet.Gossip
