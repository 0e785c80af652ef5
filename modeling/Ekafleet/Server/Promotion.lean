import Ekafleet.Server.Revert

/-! Promoting a canary, and which nodes a failed rollout reverts | source: server/deployer.rs

    A canary that waits for an operator is rolled out to the remaining nodes by a second call. With
    `auto_revert`, the nodes that received the new version are to be sent the previous one when the
    rollout fails. -/

namespace Ekafleet.Server
open Raft Scheduler Proto Effect

section Promotion
variable (env : Environment) (F : Type) [F64 F]

/-- A promotion has no progress deadline. -/
abbrev promoteCanary := (env.port false).promoteCanary F

end Promotion

/-! ### Reverting exactly what was deployed -/

/-- The node received the new version. -/
def Received (plan : DeploymentPlan) (log : List Sent) (node : String) : Prop :=
  ∃ m ∈ log, m.node = node ∧ m.delivered = true ∧
    ∃ id strategy, m.message = .deploy ⟨id, plan.serviceName, plan.storePath, strategy⟩

/-- The nodes that have the new version, those of `before` or through the log, are sent the previous
    one, and it reaches no other node. -/
structure RevertsExactly (plan : DeploymentPlan) (prev : String) (before : List String)
    (log : List Sent) : Prop where
  complete : ∀ node, node ∈ before ∨ Received plan log node → Reverts plan.serviceName prev log node
  only : ∀ m ∈ log, m.delivered = true →
    (∃ id strategy, m.message = .deploy ⟨id, plan.serviceName, prev, strategy⟩) →
      m.node ∈ before ∨ Received plan log m.node

section Exact
variable {env : Environment} {F : Type} [F64 F] {plan : DeploymentPlan} {prev : String}

theorem Received.reverts {log : List Sent} {node : String} (h : Received plan log node) :
    Reverts plan.serviceName plan.storePath log node := by
  obtain ⟨m, hm, hnode, -, hmessage⟩ := h
  exact ⟨m, hm, hnode, hmessage⟩

theorem revertsExactly_same {before : List String} {log : List Sent} (hsame : plan.storePath = prev)
    (hbefore : ∀ node ∈ before, Reverts plan.serviceName prev log node) :
    RevertsExactly plan prev before log where
  complete := by
    grind [Received.reverts]
  only := by
    intro m hm hdelivered hmessage
    exact .inr ⟨m, hm, rfl, hdelivered, hsame ▸ hmessage⟩

/-! ### A node that cannot be reached -/

theorem chunks_cons {α : Type} {n : ℕ} (hn : n ≠ 0) (a : α) (l : List α) :
    ∃ t rest, chunks n (a :: l) = (a :: t) :: rest := by
  obtain ⟨k, hk⟩ : ∃ k, ((a :: l).length + n - 1) / n = k + 1 := by
    refine Nat.exists_eq_succ_of_ne_zero (Nat.ne_of_gt (Nat.div_pos ?_ (Nat.pos_of_ne_zero hn)))
    rw [List.length_cons]
    omega
  obtain ⟨m, rfl⟩ := Nat.exists_eq_succ_of_ne_zero hn
  rw [chunks, hk, List.range_succ_eq_map, List.map_cons, Nat.zero_mul, List.drop_zero,
    List.take_succ_cons]
  exact ⟨_, _, rfl⟩

theorem rollBatches_of_first {timed : Bool} {id : String} {p : Placement} {t : List Placement}
    {w w' : Dispatch} {halt : Halt}
    (h : (env.port timed).rollPlacement id plan p w = (.error halt, w')) :
    ∀ rest, (env.port timed).rollBatches id plan ((p :: t) :: rest) w = (.error halt, w')
  | [] => by rw [Port.rollBatches, forM_cons_apply, bind_apply, h]
  | next :: rest => by
    rw [Port.rollBatches, bind_apply, forM_cons_apply, bind_apply, h]
    simp

/-- A fleet that answers every message but possibly the first. -/
def answering (first : Bool) : Environment where
  reaches log _ := first || !log.isEmpty
  healthy _ _ _ := true
  expired _ := false
  uuid _ := "d-1"
  migrationError _ _ := none

theorem sendDeploy_missed (timed : Bool) (id serviceName path : String) (strategy : DeployStrategy)
    (node : String) (pending : HashMap String PendingCanary) :
    sendDeploy (answering false) timed id serviceName path strategy node ⟨[], pending⟩ =
      (.ok false, ⟨[⟨node, .deploy ⟨id, serviceName, path, strategy⟩, false⟩], pending⟩) := by
  cases timed <;> rfl

theorem effectiveParallel_error {e : DeployError} (h : effectiveParallel F plan = .error e) :
    ∀ id, e ≠ .awaitingPromotion id := by
  grind [effectiveParallel]

variable {p : Placement} {ps : List Placement}

theorem executeRolling_missed {n : UInt32} (hn : effectiveParallel F plan = .ok n) (hzero : n ≠ 0)
    (hps : plan.placements = p :: ps) (timed : Bool) (id : String)
    : ∃ e, (∀ id', e ≠ .awaitingPromotion id') ∧
      executeRolling (answering false) F timed id plan {} = (.error (.failed e), { sent :=
        [⟨p.machineName, .deploy ⟨id, plan.serviceName, plan.storePath, .rolling⟩, false⟩] }) := by
  obtain ⟨t, rest, hchunks⟩ := chunks_cons (n := n.toNat)
    (fun h => hzero (UInt32.toNat_inj.mp (by simpa using h))) p ps
  obtain ⟨e, he, hfirst⟩ : ∃ e, (∀ id', e ≠ .awaitingPromotion id') ∧
      ((answering false).port timed).rollPlacement id plan p {} = (.error (.failed e), { sent :=
        [⟨p.machineName, .deploy ⟨id, plan.serviceName, plan.storePath, .rolling⟩, false⟩] }) := by
    simp only [Port.rollPlacement, port_sendDeploy, bind_apply, sendDeploy_missed]
    cases plan.autoRevert
    · exact ⟨.nodeFailed p.machineName "unreachable", nofun, rfl⟩
    · exact ⟨.reverted s!"failed to reach node {p.machineName}", nofun, rfl⟩
  refine ⟨e, he, ?_⟩
  rw [executeRolling, Port.executeRolling, hn, lift, bind_apply, pure_apply]
  simp only [hzero, if_false, hps, hchunks]
  exact rollBatches_of_first hfirst rest

theorem executeStrategy_missed (hprev : plan.previousStorePath = some prev)
    (hps : plan.placements = p :: ps)
    (hzero : ¬ (plan.strategy = .rolling ∧ effectiveParallel F plan = .ok 0)) :
    ∃ first halt log, executeStrategy (answering first) F "d-1" plan {} =
        (.error halt, { sent := log }) ∧ halt.Ordinary ∧ (∀ m ∈ log, m.delivered = false) ∧
      (first = true ∨ log ≠ []) := by
  cases hstrategy : plan.strategy with
  | rolling =>
    cases hparallel : effectiveParallel F plan with
    | error e =>
      refine ⟨true, .failed e, [], ?_, effectiveParallel_error hparallel, by simp, .inl rfl⟩
      simp only [executeStrategy, hstrategy, executeRolling, Port.executeRolling, hparallel, lift,
        bind_apply, fail]
    | ok n =>
      have hn : n ≠ 0 := by
        rintro rfl
        exact hzero ⟨hstrategy, hparallel⟩
      obtain ⟨e, he, hrun⟩ :=
        executeRolling_missed hparallel hn hps plan.progressDeadline.isSome "d-1"
      exact ⟨false, .failed e, _, by simpa only [executeStrategy, hstrategy] using hrun,
        he, by simp, .inr (by simp)⟩
  | canary =>
    refine ⟨false, .failed (.nodeFailed p.machineName "unreachable"), [⟨p.machineName, .deploy
      ⟨"d-1", plan.serviceName, plan.storePath, .canary⟩, false⟩], ?_, by rintro id ⟨⟩, by simp,
      .inr (by simp)⟩
    simp only [executeStrategy, hstrategy, executeCanary, Port.executeCanary, hps, port_sendDeploy,
      bind_apply, sendDeploy_missed]
    rfl
  | blueGreen =>
    refine ⟨false, .failed (.reverted
      s!"green node {p.machineName} unreachable — cutover aborted"), [⟨p.machineName, .deploy
      ⟨"d-1", plan.serviceName, plan.storePath, .blueGreen⟩, false⟩], ?_, by rintro id ⟨⟩, by simp,
      .inr (by simp)⟩
    rw [executeStrategy_blueGreen hstrategy, executeBlueGreen_of_ne (by simp [hps]), hps]
    simp only [stageGreen, bind_apply, sendDeploy_missed, abortBlueGreen, hprev]
    rfl

theorem delivered_revertLog {first : Bool} {id serviceName : String} {m : Sent} :
    ∀ {ps : List Placement} {before : List Sent}, first = true ∨ before ≠ [] →
      m ∈ revertLog (answering first) id serviceName prev before ps → m.delivered = true
  | q :: ps, before, hanswers, hm => by
    rcases List.mem_cons.mp hm with rfl | hm
    · rcases hanswers with rfl | hne
      · rfl
      · simp [answering, hne]
    · exact delivered_revertLog (.inr (by simp)) hm

/-! ### The nodes `execute` reverts -/

theorem sentBy_execute_of_nil (hnil : plan.placements = []) (w : Dispatch) :
    sentBy (execute env F plan) w = [] := by
  have hcovers : Covers (fun _ => False) env plan plan.placements := by
    intro p hp
    exact absurd (hnil ▸ hp) List.not_mem_nil
  obtain ⟨new, hsent, hnew⟩ := within_execute (F := F) hcovers w
  rw [sentBy_eq hsent]
  exact List.eq_nil_iff_forall_not_mem.mpr hnew

theorem execute_panics (hstrategy : plan.strategy = .rolling)
    (hzero : effectiveParallel F plan = .ok 0) (w : Dispatch) :
    (execute env F plan w).1 = .error .panic := by
  rw [execute_apply]
  simp only [executeStrategy, hstrategy, executeRolling, Port.executeRolling, hzero, lift,
    bind_apply, pure_apply]
  rfl

theorem execute_touches_others (hrevert : plan.autoRevert = true)
    (hprev : plan.previousStorePath = some prev) (hpath : plan.storePath ≠ prev)
    (hps : plan.placements = p :: ps)
    (hzero : ¬ (plan.strategy = .rolling ∧ effectiveParallel F plan = .ok 0)) :
    ∃ env e, (execute env F plan {}).1 = .error (.failed e) ∧ (∀ id, e ≠ .awaitingPromotion id) ∧
      ¬ RevertsExactly plan prev [] (sentBy (execute env F plan) {}) := by
  obtain ⟨first, halt, log, hrun, hordinary, hmissed, hanswers⟩ :=
    executeStrategy_missed hprev hps hzero
  obtain ⟨e, he, hconclude⟩ := conclude_reverting (answering first) hrevert hprev "d-1" hordinary
    { sent := log }
  have hexecute : execute (answering first) F plan {} =
      conclude (answering first) "d-1" plan (.error halt) { sent := log } :=
    congrArg (fun r : Except Halt Unit × Dispatch => conclude (answering first) "d-1" plan r.1 r.2)
      hrun
  refine ⟨answering first, e, by rw [hexecute, hconclude], he, fun hexact => ?_⟩
  rw [sentBy, hexecute, hconclude] at hexact
  simp only [List.length_nil, List.drop_zero] at hexact
  -- the revert of the first placement arrives
  have hreverted : Reverts plan.serviceName prev
      (revertLog (answering first) "d-1" plan.serviceName prev log plan.placements) p.machineName :=
    reverts_revertLog (hps ▸ List.mem_cons_self)
  obtain ⟨m, hm, -, hmessage⟩ := hreverted
  have hdelivered := delivered_revertLog hanswers hm
  rcases hexact.only m (List.mem_append_right _ hm) hdelivered hmessage with hbefore | hreceived
  · exact absurd hbefore List.not_mem_nil
  · obtain ⟨m', hm', -, hdelivered', id, strategy, hmessage'⟩ := hreceived
    rcases List.mem_append.mp hm' with hlog | hrev
    · exact absurd hdelivered' (by rw [hmissed m' hlog]; exact Bool.false_ne_true)
    · rw [(mem_revertLog hrev).1] at hmessage'
      grind

theorem execute_reverts_iff (hrevert : plan.autoRevert = true)
    (hprev : plan.previousStorePath = some prev) :
    (∀ env w e, (execute env F plan w).1 = .error (.failed e) →
        (∀ id, e ≠ .awaitingPromotion id) →
          RevertsExactly plan prev [] (sentBy (execute env F plan) w)) ↔
      plan.placements = [] ∨ plan.strategy = .rolling ∧ effectiveParallel F plan = .ok 0 ∨
        plan.storePath = prev := by
  constructor
  · intro hall
    by_contra! hnot
    obtain ⟨hne, hzero, hpath⟩ := hnot
    obtain ⟨p, ps, hps⟩ := List.exists_cons_of_ne_nil hne
    obtain ⟨env, e, herror, he, hexact⟩ := execute_touches_others (F := F) hrevert hprev hpath hps
      fun h => hzero h.1 h.2
    exact hexact (hall env {} e herror he)
  · rintro (hnil | ⟨hstrategy, hzero⟩ | hsame) env w e herror -
    · rw [sentBy_execute_of_nil hnil]
      exact ⟨by simp [Received], by simp⟩
    · rw [execute_panics hstrategy hzero] at herror
      cases herror
    · exact revertsExactly_same hsame (by simp)

/-! ### The nodes a promotion reverts -/

/-- The halts other than waiting for an operator. -/
def Halt.NotWaiting (halt : Halt) : Prop := ∀ id, halt ≠ .failed (.awaitingPromotion id)

theorem Halt.Ordinary.notWaiting : ∀ halt : Halt, halt.Ordinary → halt.NotWaiting
  | .failed _, h => fun id heq => h id (Halt.failed.inj heq)
  | .deadline, _ => nofun

variable {timed : Bool} {id : String}

theorem raises_rollBatches : ∀ batches : List (List Placement),
    Raises Halt.NotWaiting ((env.port timed).rollBatches id plan batches) := by
  have hplacement : ∀ p, Raises Halt.NotWaiting ((env.port timed).rollPlacement id plan p) := by
    intro p
    refine ((raises_sendDeploy _ _ _ _ _ _).mono Halt.Ordinary.notWaiting).bind fun delivered => ?_
    cases delivered
    · cases plan.autoRevert <;> exact raises_fail nofun
    · exact raises_pure _
  intro batches
  induction batches with
  | nil => exact raises_pure _
  | cons batch rest ih =>
    cases rest with
    | nil => exact raises_forM hplacement batch
    | cons next rest =>
      rw [Port.rollBatches]
      · exact (raises_forM hplacement batch).bind fun _ =>
          ((raises_waitHealthy _ _ _).mono Halt.Ordinary.notWaiting).bind fun _ => ih
      · simp

theorem raises_executeRolling :
    Raises Halt.NotWaiting (executeRolling env F timed id plan) := by
  refine (raises_lift fun e he id heq => ?_).bind fun parallel => ?_
  · exact effectiveParallel_error he id (Halt.failed.inj heq)
  · split
    · exact raises_fail nofun
    · exact raises_rollBatches _

theorem raises_promote (hpromote : plan.autoPromote = true) {canary : Placement}
    {rest : List Placement} :
    Raises Halt.NotWaiting ((env.port timed).promoteOrWait F id plan canary rest) := by
  unfold Port.promoteOrWait
  rw [hpromote, if_pos rfl]
  split
  · exact raises_pure _
  · exact raises_executeRolling

variable {serviceName : String} {w w' : Dispatch}

theorem sendDeploy_ok {path node : String} {strategy : DeployStrategy} {delivered : Bool}
    (h : sendDeploy env timed id serviceName path strategy node w = (.ok delivered, w')) :
    w' = { w with
      sent := w.sent ++ [⟨node, .deploy ⟨id, serviceName, path, strategy⟩, delivered⟩] } := by
  obtain ⟨_, w₁, hcheck, hsend⟩ := bind_ok h
  unfold checkpoint at hcheck
  split at hcheck
  · cases hcheck
  · cases hcheck
    cases hsend
    rfl

theorem waitHealthy_ok (h : waitHealthy env timed serviceName ps w = (.ok (), w')) : w' = w := by
  obtain ⟨_, w₁, hcheck, hgate⟩ := bind_ok h
  obtain ⟨passed, w₂, hread, hrest⟩ := bind_ok hgate
  unfold checkpoint at hcheck
  split at hcheck
  · cases hcheck
  · cases hcheck
    cases hread
    split at hrest <;> cases hrest
    rfl

theorem executeCanary_waiting {id' : String}
    (h : executeCanary env F timed id plan w = (.error (.failed (.awaitingPromotion id')), w')) :
    ∃ canary rest, plan.placements = canary :: rest ∧
      w'.pendingCanaries =
        w.pendingCanaries.insert plan.serviceName ⟨id', plan, [canary], rest⟩ ∧
      Received plan (sentBy (executeCanary env F timed id plan) w) canary.machineName := by
  have hsent : sentBy (executeCanary env F timed id plan) w = w'.sent.drop w.sent.length := by
    rw [sentBy, h]
  rw [hsent]
  rw [executeCanary, Port.executeCanary] at h
  rcases hps : plan.placements with _ | ⟨canary, rest⟩ <;> rw [hps] at h
  · cases h
  refine ⟨canary, rest, rfl, ?_⟩
  rcases bind_error h with hsend | ⟨delivered, w₁, hsend, h⟩
  · -- a cancelled command is no waiting canary
    exact absurd rfl (Halt.Ordinary.notWaiting _
      (raises_sendDeploy _ _ _ _ _ _ w _ (congrArg Prod.fst hsend)) id')
  cases delivered with
  | false => cases h
  | true =>
    rw [if_pos rfl] at h
    rcases bind_error h with hgate | ⟨_, w₂, hgate, h⟩
    · exact absurd rfl (Halt.Ordinary.notWaiting _
        (raises_waitHealthy _ _ _ w₁ _ (congrArg Prod.fst hgate)) id')
    · rw [waitHealthy_ok hgate, sendDeploy_ok hsend] at h
      cases hpromote : plan.autoPromote with
      | true => exact absurd rfl (raises_promote hpromote _ _ (congrArg Prod.fst h) id')
      | false =>
        unfold Port.promoteOrWait at h
        rw [hpromote] at h
        cases h
        refine ⟨rfl, ?_⟩
        rw [Environment.port, List.drop_left]
        exact ⟨_, List.mem_cons_self, rfl, rfl, id, .canary, rfl⟩

theorem promoteCanary_nil (id : String) (canary : List Placement) :
    promoteCanary env F ⟨id, plan, canary, []⟩ = pure () := rfl

theorem promoteCanary_cons (id : String) (canary : List Placement) (p : Placement)
    (ps : List Placement) : promoteCanary env F ⟨id, plan, canary, p :: ps⟩ =
      executeRolling env F false id
        { plan with strategy := .rolling, placements := p :: ps, autoPromote := true } := rfl

theorem executeRolling_first (env : Environment) {n : UInt32}
    (hn : effectiveParallel F plan = .ok n) (hzero : n ≠ 0) (hps : plan.placements = p :: ps)
    (id : String) (w : Dispatch)
    : ∃ m more, m.node = p.machineName ∧
      m.message = .deploy ⟨id, plan.serviceName, plan.storePath, .rolling⟩ ∧
      (executeRolling env F false id plan w).2.sent = w.sent ++ m :: more := by
  obtain ⟨t, rest, hchunks⟩ := chunks_cons (n := n.toNat)
    (fun h => hzero (UInt32.toNat_inj.mp (by simpa using h))) p ps
  have hcovers : ∀ ps, Covers (fun _ => True) env plan ps := fun _ _ _ _ _ _ _ => trivial
  have hplacement : ∀ q, Within (Sends fun _ => True) ((env.port false).rollPlacement id plan q) :=
    fun q => within_rollPlacement (hcovers [q]) List.mem_cons_self
  let send := sendDeploy env false id plan.serviceName plan.storePath .rolling p.machineName
  have hfirst :
    Sends (fun _ => True) (send w).2 ((env.port false).rollPlacement id plan p w).2 := by
    refine Within.after (fun delivered => ?_) send w
    cases delivered
    · cases plan.autoRevert <;> exact within_fail _
    · exact within_pure _
  have hbatch : Sends (fun _ => True) ((env.port false).rollPlacement id plan p w).2
      ((p :: t).forM ((env.port false).rollPlacement id plan) w).2 :=
    Within.after (fun _ => within_forM hplacement t) _ w
  have hall : Sends (fun _ => True) ((p :: t).forM ((env.port false).rollPlacement id plan) w).2
      ((env.port false).rollBatches id plan ((p :: t) :: rest) w).2 := by
    cases rest with
    | nil => exact refl_of _ _
    | cons next rest =>
      rw [Port.rollBatches]
      · exact Within.after (fun _ => (within_waitHealthy _ _ _).bind fun _ =>
          within_rollBatches fun b _ => hcovers b) _ w
      · simp
  obtain ⟨more, hmore, -⟩ := trans_of (Sends fun _ => True) (trans_of _ hfirst hbatch) hall
  refine ⟨⟨p.machineName, .deploy ⟨id, plan.serviceName, plan.storePath, .rolling⟩,
    env.reaches w.sent p.machineName⟩, more, rfl, rfl, ?_⟩
  rw [executeRolling, Port.executeRolling, hn, lift, bind_apply, pure_apply]
  simp only [hzero, if_false, hps, hchunks, hmore]
  exact List.append_assoc _ _ _

theorem promote_refused {e : DeployError} (hparallel : effectiveParallel F plan = .error e)
    (id : String) (canary : List Placement) (p : Placement) (ps : List Placement) (w : Dispatch) :
    promoteCanary env F ⟨id, plan, canary, p :: ps⟩ w = (.error (.failed e), w) := by
  have hrest : effectiveParallel F { plan with
      strategy := .rolling, placements := p :: ps, autoPromote := true } = .error e := hparallel
  rw [promoteCanary_cons, executeRolling, Port.executeRolling, hrest]
  rfl

theorem promote_panics (hparallel : effectiveParallel F plan = .ok 0) (id : String)
    (canary : List Placement) (p : Placement) (ps : List Placement) (w : Dispatch) :
    promoteCanary env F ⟨id, plan, canary, p :: ps⟩ w = (.error .panic, w) := by
  have hrest : effectiveParallel F { plan with
      strategy := .rolling, placements := p :: ps, autoPromote := true } = .ok 0 := hparallel
  rw [promoteCanary_cons, executeRolling, Port.executeRolling, hrest]
  rfl

theorem promote_rolling_iff {n : UInt32} (hparallel : effectiveParallel F plan = .ok n)
    (hzero : n ≠ 0) (id : String) (canary p : Placement) (ps : List Placement) :
    (∀ env w e, (promoteCanary env F ⟨id, plan, [canary], p :: ps⟩ w).1 = .error (.failed e) →
        (∀ id, e ≠ .awaitingPromotion id) → RevertsExactly plan prev [canary.machineName]
          (sentBy (promoteCanary env F ⟨id, plan, [canary], p :: ps⟩) w)) ↔
      plan.storePath = prev ∧ p.machineName = canary.machineName := by
  let rest : DeploymentPlan :=
    { plan with strategy := .rolling, placements := p :: ps, autoPromote := true }
  have hrest : effectiveParallel F rest = .ok n := hparallel
  constructor
  · intro hall
    obtain ⟨e, he, hrun⟩ :=
      executeRolling_missed hrest hzero (rfl : rest.placements = p :: ps) false id
    have hexact := hall (answering false) {} e (by rw [promoteCanary_cons, hrun]) he
    rw [sentBy, promoteCanary_cons, hrun] at hexact
    obtain ⟨m, hm, hnode, id', strategy, hmessage⟩ :=
      hexact.complete canary.machineName (.inl List.mem_cons_self)
    grind
  · rintro ⟨hsame, hnode⟩ env w e - -
    obtain ⟨m, more, hfirst, hmessage, hsent⟩ := executeRolling_first env hrest hzero
      (rfl : rest.placements = p :: ps) id w
    rw [promoteCanary_cons, sentBy_eq hsent]
    refine revertsExactly_same hsame fun node hcanary => ?_
    rw [List.mem_singleton.mp hcanary]
    exact ⟨m, List.mem_cons_self, hfirst.trans hnode, id, .rolling, hsame ▸ hmessage⟩

theorem promote_reverts_iff (id : String) (canary : Placement) (remaining : List Placement) :
    (∀ env w e, (promoteCanary env F ⟨id, plan, [canary], remaining⟩ w).1 = .error (.failed e) →
        (∀ id, e ≠ .awaitingPromotion id) → RevertsExactly plan prev [canary.machineName]
          (sentBy (promoteCanary env F ⟨id, plan, [canary], remaining⟩) w)) ↔
      remaining = [] ∨ effectiveParallel F plan = .ok 0 ∨
        plan.storePath = prev ∧ (effectiveParallel F plan).isOk = true ∧
          remaining.head?.map (·.machineName) = some canary.machineName := by
  cases remaining with
  | nil =>
    refine iff_of_true (fun env w e herror _ => ?_) (.inl rfl)
    rw [promoteCanary_nil] at herror
    cases herror
  | cons p ps =>
    cases hparallel : effectiveParallel F plan with
    | error e =>
      refine iff_of_false (fun hall => ?_) (by simp [Except.isOk, Except.toBool])
      have hexact := hall (answering true) {} e (by rw [promote_refused hparallel])
        (effectiveParallel_error hparallel)
      rw [sentBy, promote_refused hparallel] at hexact
      obtain ⟨m, hm, -⟩ := hexact.complete canary.machineName (.inl List.mem_cons_self)
      exact absurd hm List.not_mem_nil
    | ok n =>
      by_cases hzero : n = 0
      · subst hzero
        refine iff_of_true (fun env w e herror _ => ?_) (.inr (.inl rfl))
        rw [promote_panics hparallel] at herror
        cases herror
      · rw [promote_rolling_iff hparallel hzero]
        simp [Except.isOk, Except.toBool, hzero]

end Exact

/-- CORRECT: with `auto_revert` and a known previous version, a failed `execute` reverts exactly the
    nodes that received the new version, whatever the fleet does, only if there is nothing to
    deploy, the rollout panics, or both versions are the same. A failed promotion does so only if
    there is nothing to promote, it panics, or both versions are the same and the canary's node
    comes first. -/
theorem auto_revert_exact_iff (F : Type) [F64 F] (plan : DeploymentPlan) (prev : String)
    (hrevert : plan.autoRevert = true) (hprev : plan.previousStorePath = some prev) :
    ((∀ env w e, (execute env F plan w).1 = .error (.failed e) →
        (∀ id, e ≠ .awaitingPromotion id) →
          RevertsExactly plan prev [] (sentBy (execute env F plan) w)) ↔
      plan.placements = [] ∨ plan.strategy = .rolling ∧ effectiveParallel F plan = .ok 0 ∨
        plan.storePath = prev) ∧
    ∀ (id : String) (canary : Placement) (remaining : List Placement),
      (∀ env w e, (promoteCanary env F ⟨id, plan, [canary], remaining⟩ w).1 = .error (.failed e) →
          (∀ id, e ≠ .awaitingPromotion id) →
            RevertsExactly plan prev [canary.machineName]
              (sentBy (promoteCanary env F ⟨id, plan, [canary], remaining⟩) w)) ↔
        remaining = [] ∨ effectiveParallel F plan = .ok 0 ∨
          plan.storePath = prev ∧ (effectiveParallel F plan).isOk = true ∧
            remaining.head?.map (·.machineName) = some canary.machineName :=
  ⟨execute_reverts_iff hrevert hprev, promote_reverts_iff⟩

/-- Two nodes behind a canary, batches of one. -/
def canaryPlan : DeploymentPlan where
  serviceName := "web"
  strategy := .canary
  maxParallel := 1
  placements := [⟨"web", "web-0", "n1"⟩, ⟨"web", "web-1", "n2"⟩]
  storePath := "/nix/store/new-web"
  autoRevert := true
  autoPromote := false
  progressDeadline := none
  disruptionBudget := none
  totalReplicas := 2
  previousStorePath := some "/nix/store/old-web"

theorem auto_revert_exact_web :
    ¬ ∀ env w e, (execute env Ratio canaryPlan w).1 = .error (.failed e) →
      (∀ id, e ≠ .awaitingPromotion id) →
        RevertsExactly canaryPlan "/nix/store/old-web" []
          (sentBy (execute env Ratio canaryPlan) w) := by
  rw [(auto_revert_exact_iff Ratio canaryPlan _ rfl rfl).1]
  decide

/-- The operator promotes the canary, its second node cannot be reached: the promotion fails, and
    the canary keeps the new version. And when the canary itself cannot be reached, the second node
    is sent the previous version though it never received another. -/
theorem web_canary_kept_and_other_touched :
    ((promoteCanary (answering false) Ratio
        ⟨"d-1", canaryPlan, [⟨"web", "web-0", "n1"⟩], [⟨"web", "web-1", "n2"⟩]⟩ {}).1 =
        .error (.failed (.reverted "failed to reach node n2")) ∧
      ¬ RevertsExactly canaryPlan "/nix/store/old-web" ["n1"]
        (sentBy (promoteCanary (answering false)
        Ratio ⟨"d-1", canaryPlan, [⟨"web", "web-0", "n1"⟩], [⟨"web", "web-1", "n2"⟩]⟩) {})) ∧
    (execute (answering false) Ratio canaryPlan {}).1 =
        .error (.failed (.nodeFailed "n1" "unreachable")) ∧
      ¬ RevertsExactly canaryPlan "/nix/store/old-web" []
        (sentBy (execute (answering false) Ratio canaryPlan) {}) := by
  have hpromote : sentBy (promoteCanary (answering false) Ratio
      ⟨"d-1", canaryPlan, [⟨"web", "web-0", "n1"⟩], [⟨"web", "web-1", "n2"⟩]⟩) {} =
      [⟨"n2", .deploy ⟨"d-1", "web", "/nix/store/new-web", .rolling⟩, false⟩] := rfl
  have hexecute : sentBy (execute (answering false) Ratio canaryPlan) {} =
      [⟨"n1", .deploy ⟨"d-1", "web", "/nix/store/new-web", .canary⟩, false⟩,
        ⟨"n1", .deploy ⟨"d-1", "web", "/nix/store/old-web", .rolling⟩, true⟩,
        ⟨"n2", .deploy ⟨"d-1", "web", "/nix/store/old-web", .rolling⟩, true⟩] := rfl
  refine ⟨⟨by decide +kernel, fun hexact => ?_⟩, by decide +kernel, fun hexact => ?_⟩
  · obtain ⟨m, hm, hnode, -⟩ := hexact.complete "n1" (by simp)
    rw [hpromote, List.mem_singleton] at hm
    subst hm
    exact absurd hnode (by decide)
  · have honly := hexact.only ⟨"n2", .deploy ⟨"d-1", "web", "/nix/store/old-web", .rolling⟩, true⟩
      (by rw [hexecute]; simp) rfl ⟨_, _, rfl⟩
    rw [hexecute] at honly
    simp [Received, canaryPlan] at honly

end Ekafleet.Server
