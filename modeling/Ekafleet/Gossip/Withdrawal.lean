import Ekafleet.Gossip.Catalog

/-! Instances that were withdrawn | source: gossip/catalog.rs

    A deregistration removes an entry from one catalog and leaves no trace of it. A merge cannot
    tell an instance that is gone from one that is new, so an instance that was ever registered can
    come back from a snapshot taken while it was there. -/

namespace Ekafleet.Gossip
open Run

/-- A catalog has an instance of a service on a node. -/
def Lists (m : CatalogEntries) (key : ServiceKey) (node : String) : Prop :=
  ∃ e ∈ listed m key, e.nodeId = node

/-- The event registers the instance of a service on a node. -/
def CatalogEvent.Registers (key : ServiceKey) (node : String) : CatalogEvent → Prop
  | .register node' key' _ _ => node' = node ∧ key' = key
  | .deregister _ _ | .merge _ _ _ => False

/-- From now on no merge of a snapshot from before makes an instance appear in a catalog, whatever
    happens, as long as it is not registered again. -/
def NoResurrection (net : CatalogNet) (key : ServiceKey) (owner : String) : Prop :=
  ∀ later net₁ node order index net₂, (∀ ev ∈ later, ¬ ev.Registers key owner) →
    run catalogStep net later = some net₁ → index < net.past.length →
    catalogStep net₁ (.merge node order index) = some net₂ →
    Lists (net₂.catalogs node).entries key owner → Lists (net₁.catalogs node).entries key owner

theorem lists_iff {m : CatalogEntries} {key : ServiceKey} {node : String} :
    Lists m key node ↔ (entryAt m (key, node)).isSome := by
  simp [Lists, entryAt, List.find?_isSome]

theorem lists_mergeEntries {remote : CatalogEntries} {key : ServiceKey} {node : String}
    (hone : OnePerNode remote) (h : Lists remote key node) (order : HashMap.Order)
    (loc : CatalogEntries) : Lists (mergeEntries order remote loc) key node := by
  rw [lists_iff] at h ⊢
  obtain ⟨e, he⟩ := Option.isSome_iff_exists.mp h
  rw [entryAt_mergeEntries hone, LastWriter.join, he]
  cases entryAt loc (key, node) with
  | none => rfl
  | some x =>
    simp only [LastWriter.newer]
    split_ifs <;> rfl

theorem not_lists_deregister (key : ServiceKey) (node : String) (s : CatalogState) :
    ¬ Lists (deregister key node s).entries key node := by
  rintro ⟨e, he, hnode⟩
  rw [listed_deregister, if_pos rfl] at he
  exact absurd hnode (by simpa using (List.mem_filter.mp he).2)

section Runs
variable {net net' : CatalogNet} {key : ServiceKey} {e : CatalogEntry} {owner : String}
  {ev : CatalogEvent} {trace : List CatalogEvent}

/-- STEP: an entry that becomes known was registered by this event. -/
theorem known_step (h : Numbered net) (hstep : catalogStep net ev = some net')
    (he : Known net' key e) : Known net key e ∨ ev.Registers key e.nodeId := by
  rcases catalogStep_cases hstep with ⟨node, k, address, port, s, rfl, hs, rfl⟩ |
    ⟨node, k, rfl, rfl⟩ | ⟨node, order, index, remote, rfl, hremote, rfl⟩ <;>
    rcases known_put.mp he with he | he
  · exact .inl he
  · rcases mem_listed_register hs he with ⟨rfl, rfl⟩ | he
    · exact .inr ⟨rfl, rfl⟩
    · exact .inl (h.known_current he)
  · exact .inl he
  · exact .inl (h.known_current (mem_listed_deregister he))
  · exact .inl he
  · rcases mem_of_mem_mergeEntries he with he | he
    · exact .inl ⟨remote, List.mem_of_getElem? hremote, he⟩
    · exact .inl (h.known_current he)

/-- RUN: what is known was registered. -/
theorem registered_of_known (hrun : run catalogStep {} trace = some net) (he : Known net key e) :
    ∃ ev ∈ trace, ev.Registers key e.nodeId := by
  refine invariant_history catalogStep {}
    (fun tr net => ∀ key e, Known net key e → ∃ ev ∈ tr, ev.Registers key e.nodeId)
      ?_ ?_ hrun key e he
  · rintro key e ⟨m, hm, he⟩
    rw [List.mem_singleton.mp hm] at he
    exact absurd he List.not_mem_nil
  · intro tr net ev net' hrun ih hstep key e he
    rcases known_step (numbered_run hrun) hstep he with he | hev
    · grind
    · exact ⟨ev, List.mem_append_right _ (List.mem_singleton_self ev), hev⟩

theorem past_grows (hstep : catalogStep net ev = some net') : net.past <+: net'.past := by
  rcases catalogStep_cases hstep with ⟨node, k, address, port, s, -, hs, rfl⟩ |
    ⟨node, k, -, rfl⟩ | ⟨node, order, index, remote, -, hremote, rfl⟩ <;>
    exact List.prefix_append _ _

/-- RUN: an instance that was registered is in some snapshot. -/
theorem lists_of_registers (hrun : run catalogStep {} trace = some net)
    (h : ∃ ev ∈ trace, ev.Registers key owner) : ∃ m ∈ net.past, Lists m key owner := by
  refine invariant_history catalogStep {} (fun tr net => (∃ ev ∈ tr, ev.Registers key owner) →
    ∃ m ∈ net.past, Lists m key owner) (by rintro ⟨ev, hev, -⟩; cases hev) ?_ hrun h
  rintro tr net ev net' hrun ih hstep ⟨ev', hev', hreg⟩
  rcases List.mem_append.mp hev' with hev' | hev'
  · obtain ⟨m, hm, hlists⟩ := ih ⟨ev', hev', hreg⟩
    exact ⟨m, (past_grows hstep).subset hm, hlists⟩
  · rw [List.mem_singleton.mp hev'] at hreg
    rcases catalogStep_cases hstep with ⟨node, k, address, port, s, rfl, hs, rfl⟩ |
      ⟨node, k, rfl, -⟩ | ⟨node, order, index, remote, rfl, -, -⟩
    · obtain ⟨rfl, rfl⟩ := hreg
      exact ⟨s.entries, List.mem_append_right _ (List.mem_singleton_self _), mem_register hs⟩
    · exact hreg.elim
    · exact hreg.elim

theorem resurrects (h : Numbered net) {m : CatalogEntries} (hm : m ∈ net.past)
    (hlists : Lists m key owner) : ¬ NoResurrection net key owner := by
  intro hnever
  obtain ⟨index, hlt, hindex⟩ := List.mem_iff_getElem.mp hm
  let net₁ := net.put owner (deregister key owner (net.catalogs owner))
  have hcatalog : net₁.catalogs owner = deregister key owner (net.catalogs owner) :=
    put_catalogs_self net owner _
  have hremote : net₁.past[index]? = some m := by
    rw [← hindex, ← List.getElem?_eq_getElem hlt]
    exact List.getElem?_append_left hlt
  have hstep : catalogStep net₁ (.merge owner .asBuilt index) =
      some (net₁.put owner (merge .asBuilt m (net₁.catalogs owner))) := by
    rw [catalogStep, hremote]
    rfl
  have hback := hnever [.deregister owner key] net₁ owner .asBuilt index _
    (by simp [CatalogEvent.Registers]) rfl hlt hstep
  rw [hcatalog] at hback
  refine not_lists_deregister key owner _ (hback ?_)
  rw [put_catalogs_self]
  exact lists_mergeEntries (h.onePerNode m hm) hlists _ _

end Runs

/-- EXACT: after any run, older snapshots cannot bring an instance back exactly when it was never
    registered. Deregistering it and spreading that makes no difference. -/
theorem no_resurrection_iff (trace : List CatalogEvent) (net : CatalogNet) (key : ServiceKey)
    (owner : String) (hrun : run catalogStep {} trace = some net) :
    NoResurrection net key owner ↔ ∀ ev ∈ trace, ¬ ev.Registers key owner := by
  constructor
  · intro hnever ev hev hreg
    obtain ⟨m, hm, hlists⟩ := lists_of_registers hrun ⟨ev, hev, hreg⟩
    exact resurrects (numbered_run hrun) hm hlists hnever
  · rintro hnone later net₁ node order index net₂ hlater hrun₁ - hstep ⟨e, he, rfl⟩
    have hrun₂ : run catalogStep {} (trace ++ later ++ [.merge node order index]) = some net₂ := by
      refine (run_concat_iff catalogStep).mpr ⟨net₁, ?_, hstep⟩
      rw [run_append, hrun]
      exact hrun₁
    obtain ⟨ev, hev, hreg⟩ := registered_of_known hrun₂
      ((numbered_run hrun₂).known_current he)
    rcases List.mem_append.mp hev with hev | hev
    · rcases List.mem_append.mp hev with hev | hev
      · exact absurd hreg (hnone ev hev)
      · exact absurd hreg (hlater ev hev)
    · rw [List.mem_singleton.mp hev] at hreg
      exact hreg.elim

/-- Node `a` registers an instance, `b` merges its catalog; `a` deregisters the instance and `b`
    merges the catalog of `a` once more. -/
def withdrawnEverywhere : List CatalogEvent :=
  [.register "a" ("default", "web") "10.0.0.1" 80, .merge "b" .asBuilt 1,
    .deregister "a" ("default", "web"), .merge "b" .asBuilt 3]

/-- The older snapshot of `b` brings the instance back into the catalog of its owner. -/
theorem withdrawn_instance_returns :
    (run catalogStep {} withdrawnEverywhere).map
        (fun net => listed (net.catalogs "a").entries ("default", "web")) = some [] ∧
      (run catalogStep {} (withdrawnEverywhere ++ [.merge "a" .asBuilt 2])).map
        (fun net => listed (net.catalogs "a").entries ("default", "web")) =
          some [⟨"a", "10.0.0.1", 80, 1⟩] := by
  constructor <;> rfl

/-- An instance that was never registered stays out. -/
theorem no_resurrection_unregistered :
    NoResurrection afterOneRegistration ("default", "db") "a" := by
  refine (no_resurrection_iff oneRegistration afterOneRegistration _ _ rfl).mpr ?_
  simp [oneRegistration, CatalogEvent.Registers]

end Ekafleet.Gossip
