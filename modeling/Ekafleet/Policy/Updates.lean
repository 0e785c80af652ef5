import Ekafleet.Policy.Nftables

/-! What policy updates let through | source: policy/nftables.rs, agent/handlers.rs

    Every update that `nft` takes adds its rules at the end of the input chain, and nothing ever
    removes one. What the chain accepts is the sum of all of them. -/

namespace Ekafleet.Policy
open Raft (Ipv4Addr)

/-- An update, and which texts `nft` takes when it arrives. -/
structure Update where
  policies : List NetworkPolicy
  takes : String → Bool

section Run
variable (alphanumeric : Char → Bool)

/-- The table after a sequence of updates. -/
def afterUpdates (updates : List Update) (nft : Nft) : Nft :=
  updates.foldl (fun nft u => handlePolicyUpdate alphanumeric u.takes u.policies nft) nft

/-- The text an update submits. -/
def Update.text (u : Update) : String :=
  "\n".intercalate ((u.policies.map policyRule).map (policyText alphanumeric))

/-- Every policy has a port, and `nft` takes the text. -/
def Update.Taken (u : Update) : Prop :=
  (∀ p ∈ u.policies, p.allowedPorts ≠ []) ∧ u.takes (u.text alphanumeric) = true

instance decidableTaken (u : Update) : Decidable (u.Taken alphanumeric) :=
  inferInstanceAs (Decidable (_ ∧ _))

/-- The rules an update leaves in the chain. -/
def Update.rules (u : Update) : List Rule :=
  if u.Taken alphanumeric then u.policies.map fun p => policyCommand (policyRule p) else []

end Run

variable {alphanumeric : Char → Bool}

/-! ### Rules are only added -/

theorem wellFormed_policyCommand (p : NetworkPolicy) :
    (policyCommand (policyRule p)).wellFormed = true ↔ p.allowedPorts ≠ [] := by
  unfold Rule.wellFormed policyCommand policyRule
  cases p.allowedPorts <;> simp

theorem foldlM_addInput : ∀ (rules : List Rule) (t : Table),
    (rules.map NftCommand.addInput).foldlM (fun state c => c.run state) (some t) =
      if rules.all (·.wellFormed) then some (some { t with input := t.input ++ rules }) else none
  | [], t => by simp
  | r :: rest, t => by
    have hrun : (NftCommand.addInput r).run (some t) =
        if r.wellFormed then some (some { t with input := t.input ++ [r] }) else none := rfl
    rw [List.map_cons, List.foldlM_cons, hrun, List.all_cons]
    cases r.wellFormed with
    | false => rfl
    | true =>
      rw [if_pos rfl, Option.bind_eq_bind, Option.bind_some, foldlM_addInput rest, Bool.true_and,
        List.append_assoc, List.singleton_append]

/-- STEP: an update adds its rules to the input chain and leaves the rest of the table alone. -/
theorem handlePolicyUpdate_some (u : Update) (t : Table) :
    handlePolicyUpdate alphanumeric u.takes u.policies (some t) =
      some { t with input := t.input ++ u.rules alphanumeric } := by
  have hcommands :
    (u.policies.map policyRule).map (fun r => NftCommand.addInput (policyCommand r)) =
      (u.policies.map fun p => policyCommand (policyRule p)).map NftCommand.addInput := by
    simp
  have hports : ((u.policies.map fun p => policyCommand (policyRule p)).all (·.wellFormed)) = true ↔
      ∀ p ∈ u.policies, p.allowedPorts ≠ [] := by
    simp [wellFormed_policyCommand]
  unfold handlePolicyUpdate applyPolicies
  by_cases hempty : u.policies = []
  · simp [hempty, Update.rules]
  rw [if_neg (by simpa using hempty), applyRuleset, hcommands, foldlM_addInput]
  change Option.getD (if u.takes (u.text alphanumeric) = true then _ else _) _ = _
  by_cases htakes : u.takes (u.text alphanumeric) = true
  · rw [if_pos htakes, Update.rules]
    by_cases hall : ∀ p ∈ u.policies, p.allowedPorts ≠ []
    · rw [if_pos (hports.mpr hall), if_pos ⟨hall, htakes⟩, Option.getD_some]
    · rw [if_neg (mt hports.mp hall), if_neg fun h => hall h.1, List.append_nil, Option.getD_none]
  · rw [if_neg htakes, Update.rules, if_neg fun h => htakes h.2, List.append_nil, Option.getD_none]

theorem handlePolicyUpdate_none (u : Update) :
    handlePolicyUpdate alphanumeric u.takes u.policies none = none := by
  unfold handlePolicyUpdate applyPolicies
  split
  · rfl
  · next hne =>
    obtain ⟨r, rest, hrules⟩ := List.exists_cons_of_ne_nil (by simpa using hne)
    rw [applyRuleset, hrules]
    split <;> rfl

/-- RUN: the rules of all updates stand behind those of the table at the start. -/
theorem afterUpdates_some : ∀ (updates : List Update) (t : Table),
    afterUpdates alphanumeric updates (some t) =
      some { t with input := t.input ++ updates.flatMap (·.rules alphanumeric) }
  | [], t => by simp [afterUpdates]
  | u :: rest, t => by
    rw [afterUpdates, List.foldl_cons, handlePolicyUpdate_some]
    simpa [afterUpdates] using afterUpdates_some rest
      { t with input := t.input ++ u.rules alphanumeric }

theorem afterUpdates_none : ∀ updates : List Update, afterUpdates alphanumeric updates none = none
  | [] => rfl
  | u :: rest => by
    rw [afterUpdates, List.foldl_cons, handlePolicyUpdate_none]
    exact afterUpdates_none rest

/-! ### What the chains accept -/

theorem verdict_of_accept {rules : List Rule} (h : ∀ r ∈ rules, r.accept = true) (p : Packet) :
    verdict false rules p = true ↔ ∃ r ∈ rules, r.cond.applies p = true := by
  rcases hfind : rules.find? fun r => r.cond.applies p with _ | r <;> rw [verdict, hfind]
  · grind
  grind

/-- The base rules let the packet in. -/
def Base (p : Packet) : Prop := baseTable.acceptsInput p = true

/-- A TCP packet between unspecified addresses, to a port of a policy. -/
def BetweenUnspecified (policy : NetworkPolicy) (p : Packet) : Prop :=
  p.addresses = some (unspecified, unspecified) ∧ p.transport = .tcp ∧
    ∃ port ∈ policy.allowedPorts, p.dport = port.toUInt16

theorem applies_policyCommand (policy : NetworkPolicy) (p : Packet) :
    (policyCommand (policyRule policy)).cond.applies p = true ↔
      BetweenUnspecified policy p := by
  simp only [policyCommand, policyRule, Match.applies, BetweenUnspecified,
    Option.any_eq_true, Bool.and_eq_true, beq_iff_eq, List.contains_iff_mem,
    List.mem_map, Prod.exists]
  grind

theorem mem_rules {u : Update} {r : Rule} : r ∈ u.rules alphanumeric ↔
    u.Taken alphanumeric ∧ ∃ policy ∈ u.policies, policyCommand (policyRule policy) = r := by
  unfold Update.rules
  split <;> rename_i h <;> simp [h]

/-- EXACT: after updates of the initialized table, input is accepted if the base rules accept it or
    a policy of any update that was taken does, read as the agent reads it. -/
theorem acceptsInput_afterUpdates (updates : List Update) (p : Packet) :
    Table.acceptsInput
        ⟨baseTable.input ++ updates.flatMap (·.rules alphanumeric), baseTable.output⟩ p = true ↔
      Base p ∨ ∃ u ∈ updates, u.Taken alphanumeric ∧
        ∃ policy ∈ u.policies, BetweenUnspecified policy p := by
  have hbase : ∀ r ∈ baseTable.input, r.accept = true := by decide
  have hrules : ∀ r ∈ updates.flatMap (·.rules alphanumeric), r.accept = true := by
    intro r hr
    obtain ⟨u, -, hr⟩ := List.mem_flatMap.mp hr
    obtain ⟨-, policy, -, rfl⟩ := mem_rules.mp hr
    rfl
  have hpolicies : (∃ r ∈ updates.flatMap (·.rules alphanumeric), r.cond.applies p = true) ↔
      ∃ u ∈ updates, u.Taken alphanumeric ∧ ∃ policy ∈ u.policies, BetweenUnspecified policy p := by
    constructor
    · grind [mem_rules, applies_policyCommand]
    · rintro ⟨u, hu, htaken, policy, hpolicy, hp⟩
      exact ⟨_, List.mem_flatMap.mpr ⟨u, hu, mem_rules.mpr ⟨htaken, policy, hpolicy, rfl⟩⟩,
        (applies_policyCommand policy p).mpr hp⟩
  rw [Table.acceptsInput, verdict_of_accept (List.forall_mem_append.mpr ⟨hbase, hrules⟩), Base,
    Table.acceptsInput, verdict_of_accept hbase, ← hpolicies]
  simp only [List.mem_append, or_and_right, exists_or]

theorem length_rules (updates : List Update) :
    (updates.flatMap (·.rules alphanumeric)).length =
      ((updates.filter (·.Taken alphanumeric)).map (·.policies.length)).sum := by
  induction updates with
  | nil => rfl
  | cons u rest ih =>
    rw [List.flatMap_cons, List.length_append, ih, Update.rules]
    by_cases h : u.Taken alphanumeric <;> simp [h]

/-- CORRECT: for any reading of which flows a policy stands for and any sequence of updates, the
    input chain then accepts exactly what the base rules accept and the flows of the last set, the
    output chain is as it was and there is at most one more rule per policy of the last set, exactly
    if the table was there, the flows of the last set are those between unspecified addresses of all
    sets that were taken (up to the base rules), and none of these has more policies than the last
    one. -/
theorem policy_updates_replace_iff (alphanumeric : Char → Bool)
    (flows : NetworkPolicy → Packet → Prop) (initialized : Bool) (earlier : List Update)
    (last : Update) :
    (∃ t, afterUpdates alphanumeric (earlier ++ [last])
      (if initialized then some baseTable else none) =
        some t ∧
      (∀ p, t.acceptsInput p = true ↔ Base p ∨ ∃ policy ∈ last.policies, flows policy p) ∧
      (∀ p, t.acceptsOutput p = baseTable.acceptsOutput p) ∧
      t.input.length + t.output.length ≤
        baseTable.input.length + baseTable.output.length + last.policies.length) ↔
    initialized = true ∧
      (∀ p, ¬ Base p →
        ((∃ policy ∈ last.policies, flows policy p) ↔
          ∃ u ∈ earlier ++ [last], u.Taken alphanumeric ∧
            ∃ policy ∈ u.policies, BetweenUnspecified policy p)) ∧
      (((earlier ++ [last]).filter (·.Taken alphanumeric)).map (·.policies.length)).sum ≤
        last.policies.length := by
  cases initialized with
  | false =>
    simp only [Bool.false_eq_true, if_false, afterUpdates_none, reduceCtorEq,
      false_and, exists_false]
  | true =>
    simp only [if_true, afterUpdates_some, Option.some.injEq, exists_eq_left', true_and,
      acceptsInput_afterUpdates, List.length_append, length_rules]
    refine and_congr ?_ ⟨fun h => by have := h.2; omega, fun h => ⟨fun _ => rfl, by omega⟩⟩
    refine forall_congr' fun p => ?_
    by_cases hbase : Base p
    · simp [hbase]
    · simp only [hbase, false_or, not_false_eq_true, forall_const]
      exact iff_comm

/-! ### Two updates -/

/-- The web service may call the API, and later only the database. -/
def apiPolicy : NetworkPolicy := ⟨"web", "api", [80], "10.100.1.1", "10.100.2.1"⟩
def databasePolicy : NetworkPolicy := ⟨"web", "db", [5432], "10.100.1.1", "10.100.3.1"⟩

def twoUpdates : List Update := [⟨[apiPolicy], fun _ => true⟩, ⟨[databasePolicy], fun _ => true⟩]

/-- The flow that the second set no longer allows, as the agent reads it. -/
def stalePacket : Packet :=
  { addresses := some (unspecified, unspecified), transport := .tcp, dport := 80 }

/-- The flow that the first set allows, by the addresses it names. -/
def namedPacket : Packet :=
  { addresses := some (⟨10, 100, 1, 1⟩, ⟨10, 100, 2, 1⟩), transport := .tcp, dport := 80 }

/-- After the second update the first one is still in force, and the chain has the rules of both.
    The addresses that a policy names are never let through. -/
theorem stale_policy_in_force :
    (∃ t, afterUpdates Char.isAlphanum twoUpdates (some baseTable) = some t ∧
      t.acceptsInput stalePacket = true ∧
      t.input.length = baseTable.input.length + 2) ∧
    ¬ Base stalePacket ∧ ¬ BetweenUnspecified databasePolicy stalePacket ∧
    ∃ t, afterUpdates Char.isAlphanum (twoUpdates.take 1) (some baseTable) = some t ∧
      t.acceptsInput namedPacket = false := by
  refine ⟨⟨_, rfl, by decide, by decide⟩, by unfold Base; decide, ?_, _, rfl, by decide⟩
  rintro ⟨-, -, port, hport, hdport⟩
  cases List.mem_singleton.mp hport
  exact absurd hdport (by decide)

end Ekafleet.Policy
