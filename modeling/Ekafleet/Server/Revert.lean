import Ekafleet.Server.Deployer

/-! What a failed rollout takes back | source: server/deployer.rs

    A blue-green rollout unwinds the nodes that received the new version before it reports a
    failure. -/

namespace Ekafleet.Server
open Raft Scheduler Proto Effect

/-! ### The log of a computation -/

/-- What a computation adds to the log. -/
def sentBy {α : Type} (m : Deploy α) (w : Dispatch) : List Sent := (m w).2.sent.drop w.sent.length

theorem sentBy_eq {α : Type} {m : Deploy α} {w : Dispatch} {new : List Sent}
    (h : (m w).2.sent = w.sent ++ new) : sentBy m w = new := by
  rw [sentBy, h, List.drop_left]

section Untimed
variable (env : Environment)

/-- The log of a revert that follows `before`: the previous path to each node, in their order. -/
def revertLog (id serviceName prev : String) (before : List Sent) : List Placement → List Sent
  | [] => []
  | p :: ps =>
    let m : Sent := ⟨p.machineName, .deploy ⟨id, serviceName, prev, .rolling⟩,
      env.reaches before p.machineName⟩
    m :: revertLog id serviceName prev (before ++ [m]) ps

/-- EXACT: a revert without a deadline returns after it sent the previous path to every node. -/
theorem revertDeployedNodes_untimed (id serviceName prev : String) :
    ∀ (ps : List Placement) (w : Dispatch),
      revertDeployedNodes env false id serviceName prev ps w =
        (.ok (), { w with sent := w.sent ++ revertLog env id serviceName prev w.sent ps })
  | [], w => by simp [revertDeployedNodes, revertLog, pure_apply]
  | p :: ps, w => by
    let first : Sent := ⟨p.machineName, .deploy ⟨id, serviceName, prev, .rolling⟩,
      env.reaches w.sent p.machineName⟩
    have hrest := revertDeployedNodes_untimed id serviceName prev ps
      { w with sent := w.sent ++ [first] }
    rw [List.append_assoc, List.singleton_append] at hrest
    exact hrest

end Untimed

/-! ### Taking back -/

/-- The log has a command that deploys `path` of the service to the node. -/
def Reverts (serviceName path : String) (log : List Sent) (node : String) : Prop :=
  ∃ m ∈ log, m.node = node ∧
    ∃ id strategy, m.message = .deploy ⟨id, serviceName, path, strategy⟩

theorem Reverts.append_left {serviceName path : String} {log : List Sent} {node : String}
    (h : Reverts serviceName path log node) (before : List Sent) :
    Reverts serviceName path (before ++ log) node := by
  obtain ⟨m, hm, hsent⟩ := h
  exact ⟨m, List.mem_append_right _ hm, hsent⟩

section RevertLog
variable {env : Environment} {id serviceName prev : String}

theorem reverts_revertLog {p : Placement} : ∀ {ps : List Placement} {before : List Sent}, p ∈ ps →
    Reverts serviceName prev (revertLog env id serviceName prev before ps) p.machineName
  | q :: ps, before, hp => by
    rcases List.mem_cons.mp hp with rfl | hp
    · exact ⟨_, List.mem_cons_self, rfl, id, .rolling, rfl⟩
    · exact (reverts_revertLog hp).append_left [_]

theorem mem_revertLog {m : Sent} : ∀ {ps : List Placement} {before : List Sent},
    m ∈ revertLog env id serviceName prev before ps →
      m.message = .deploy ⟨id, serviceName, prev, .rolling⟩ ∧ ∃ p ∈ ps, m.node = p.machineName
  | q :: ps, before, hm => by
    rcases List.mem_cons.mp hm with rfl | hm
    · exact ⟨rfl, q, List.mem_cons_self, rfl⟩
    · obtain ⟨hmessage, p, hp, hnode⟩ := mem_revertLog hm
      exact ⟨hmessage, p, List.mem_cons_of_mem _ hp, hnode⟩

end RevertLog

/-! ### Blue-green -/

/-- A command that stages the new version. -/
def Green (plan : DeploymentPlan) (m : Sent) : Prop :=
  ∃ id, m.message = .deploy ⟨id, plan.serviceName, plan.storePath, .blueGreen⟩

/-- Every node that received the new version is sent the previous one afterwards. -/
def Unwound (plan : DeploymentPlan) (prev : String) : List Sent → Prop
  | [] => True
  | m :: later =>
    (Green plan m → m.delivered = true → Reverts plan.serviceName prev later m.node) ∧
      Unwound plan prev later

section BlueGreen
variable {env : Environment} {plan : DeploymentPlan} {prev : String}

theorem unwound_of_not_green : ∀ {log : List Sent}, (∀ m ∈ log, ¬ Green plan m) →
    Unwound plan prev log
  | [], _ => trivial
  | m :: _, h => ⟨fun hgreen => absurd hgreen (h m List.mem_cons_self),
      unwound_of_not_green fun m' hm' => h m' (List.mem_cons_of_mem _ hm')⟩

theorem unwound_append {reverts : List Sent} (hreverts : ∀ m ∈ reverts, ¬ Green plan m) :
    ∀ {log : List Sent}, (∀ m ∈ log, m.delivered = true →
      Reverts plan.serviceName prev reverts m.node) → Unwound plan prev (log ++ reverts)
  | [], _ => unwound_of_not_green hreverts
  | m :: log, h => ⟨fun _ hdelivered => (h m List.mem_cons_self hdelivered).append_left log,
      unwound_append hreverts fun m' hm' => h m' (List.mem_cons_of_mem _ hm')⟩

theorem not_unwound_singleton {m : Sent} (hgreen : Green plan m) (hdelivered : m.delivered = true) :
    ¬ Unwound plan prev [m] := by
  intro h
  obtain ⟨m', hm', -⟩ := h.1 hgreen hdelivered
  exact absurd hm' List.not_mem_nil

theorem not_green_revertLog {id : String} {before : List Sent} {ps : List Placement} :
    ∀ m ∈ revertLog env id plan.serviceName prev before ps, ¬ Green plan m := by
  rintro m hm ⟨id', hgreen⟩
  rw [(mem_revertLog hm).1] at hgreen
  injection hgreen with hcmd
  injection hcmd with _ _ _ hstrategy
  cases hstrategy

theorem abortBlueGreen_untimed (hprev : plan.previousStorePath = some prev) (id : String)
    (deployed : List Placement) (w : Dispatch) :
    abortBlueGreen env false id plan deployed w = (.ok (), { w with
      sent := w.sent ++ revertLog env id plan.serviceName prev w.sent deployed }) := by
  rw [abortBlueGreen, hprev]
  exact revertDeployedNodes_untimed env id plan.serviceName prev deployed w

/-- STEP: without a deadline, staging either reaches every node or takes back what it staged. -/
theorem stageGreen_untimed (hprev : plan.previousStorePath = some prev) (id : String) :
    ∀ (rest deployed : List Placement) (w : Dispatch),
      (∃ greens, stageGreen env false id plan deployed rest w =
          (.ok (), { w with sent := w.sent ++ greens }) ∧
        ∀ m ∈ greens, ∃ p ∈ rest, m.node = p.machineName) ∨
      ∃ halt greens reverts, stageGreen env false id plan deployed rest w =
          (.error halt, { w with sent := w.sent ++ (greens ++ reverts) }) ∧
        (∀ m ∈ reverts, ¬ Green plan m) ∧
        (∀ p ∈ deployed, Reverts plan.serviceName prev reverts p.machineName) ∧
        ∀ m ∈ greens, m.delivered = true → Reverts plan.serviceName prev reverts m.node
  | [], deployed, w => .inl ⟨[], by simp [stageGreen, pure_apply], by simp⟩
  | p :: rest, deployed, w => by
    let first : Sent := ⟨p.machineName, .deploy ⟨id, plan.serviceName, plan.storePath, .blueGreen⟩,
      env.reaches w.sent p.machineName⟩
    let halt : Halt := .failed (.reverted
      s!"green node {p.machineName} unreachable — cutover aborted")
    have hfirst : stageGreen env false id plan deployed (p :: rest) w =
        (if env.reaches w.sent p.machineName then
          stageGreen env false id plan (deployed ++ [p]) rest
          else abortBlueGreen env false id plan deployed >>= fun _ => fail halt)
          { w with sent := w.sent ++ [first] } := rfl
    rw [hfirst]
    cases hreach : env.reaches w.sent p.machineName with
    | true =>
      rw [if_pos rfl]
      rcases stageGreen_untimed hprev id rest (deployed ++ [p])
        { w with sent := w.sent ++ [first] } with
        ⟨greens, hrun, hgreens⟩ | ⟨halt, greens, reverts, hrun, hnot, hdeployed, hgreens⟩
      · grind
      grind
    | false =>
      -- the unreachable node did not receive anything; the ones before it are taken back
      refine .inr ⟨halt, [first],
        revertLog env id plan.serviceName prev (w.sent ++ [first]) deployed, ?_,
        not_green_revertLog, fun q hq => reverts_revertLog hq, ?_⟩
      · rw [if_neg Bool.false_ne_true, bind_apply, abortBlueGreen_untimed hprev,
          ← List.append_assoc]
        rfl
      grind

theorem executeBlueGreen_of_ne (hne : plan.placements ≠ []) (timed : Bool) (id : String) :
    executeBlueGreen env timed id plan = (do
      stageGreen env timed id plan [] plan.placements
      let gate ← attempt (waitHealthy env timed plan.serviceName plan.placements)
      cutOver env timed id plan gate) := by
  unfold executeBlueGreen
  split
  · exact absurd (by assumption) hne
  · rfl

theorem executeBlueGreen_of_nil (hnil : plan.placements = []) (timed : Bool) (id : String) :
    executeBlueGreen env timed id plan = pure () := by
  rw [executeBlueGreen, hnil]

theorem attempt_waitHealthy_untimed (w : Dispatch) (serviceName : String) (ps : List Placement) :
    (attempt (waitHealthy env false serviceName ps) : Deploy _) w =
      (.ok (if env.healthy w.sent serviceName ps then .ok () else .error (.failed .healthTimeout)),
        w) := by
  cases h : env.healthy w.sent serviceName ps <;>
    simp [attempt, waitHealthy, checkpoint, bind_apply, Effect.read, pure_apply, fail, h]

/-- RUN: without a deadline, a blue-green rollout that fails has unwound itself. -/
theorem executeBlueGreen_untimed (env : Environment)
    (hprev : plan.previousStorePath = some prev) (id : String) (w : Dispatch) :
    (executeBlueGreen env false id plan w).1 = .ok () ∨
      ∃ halt new, executeBlueGreen env false id plan w =
          (.error halt, { w with sent := w.sent ++ new }) ∧ Unwound plan prev new := by
  by_cases hne : plan.placements = []
  · exact .inl (by rw [executeBlueGreen_of_nil hne]; rfl)
  · rw [executeBlueGreen_of_ne hne, bind_apply]
    rcases stageGreen_untimed hprev id plan.placements [] w with
      ⟨greens, hrun, hgreens⟩ | ⟨halt, greens, reverts, hrun, hnot, -, hgreens⟩
    · rw [hrun]
      simp only [bind_apply, attempt_waitHealthy_untimed]
      cases env.healthy (w.sent ++ greens) plan.serviceName plan.placements with
      | true => exact .inl rfl
      | false =>
        refine .inr ⟨.failed (.reverted "green instances did not become healthy — cutover aborted"),
          greens ++ revertLog env id plan.serviceName prev (w.sent ++ greens) plan.placements, ?_,
          unwound_append not_green_revertLog ?_⟩
        · simp only [Bool.false_eq_true, if_false, cutOver, bind_apply,
            abortBlueGreen_untimed hprev, fail, if_true, List.append_assoc]
        grind [reverts_revertLog]
    · exact .inr ⟨halt, greens ++ reverts, by rw [hrun], unwound_append hnot hgreens⟩

/-- The halts after which a rollout reverts. -/
def Halt.Ordinary : Halt → Prop
  | .deadline => True
  | .panic => False
  | .failed e => ∀ id, e ≠ .awaitingPromotion id

theorem raises_checkpoint (timed : Bool) : Raises Halt.Ordinary (checkpoint env timed) := by
  intro w e h
  unfold checkpoint at h
  split at h
  · cases h
    trivial
  · cases h

theorem raises_sendDeploy (timed : Bool) (id serviceName path : String) (strategy : DeployStrategy)
    (node : String) :
    Raises Halt.Ordinary (sendDeploy env timed id serviceName path strategy node) :=
  (raises_checkpoint timed).bind fun _ _ _ h => nomatch h

theorem raises_waitHealthy (timed : Bool) (serviceName : String) (ps : List Placement) :
    Raises Halt.Ordinary (waitHealthy env timed serviceName ps) := by
  refine (raises_checkpoint timed).bind fun _ => (raises_read _).bind fun passed => ?_
  cases passed
  · exact raises_fail nofun
  · exact raises_pure _

theorem raises_abortBlueGreen (timed : Bool) (id : String) (deployed : List Placement) :
    Raises Halt.Ordinary (abortBlueGreen env timed id plan deployed) := by
  unfold abortBlueGreen
  split
  · exact raises_pure _
  · exact raises_forM (fun _ => (raises_sendDeploy _ _ _ _ _ _).bind fun _ => raises_pure _) _

theorem raises_stageGreen (timed : Bool) (id : String) : ∀ rest deployed : List Placement,
    Raises Halt.Ordinary (stageGreen env timed id plan deployed rest)
  | [], _ => raises_pure _
  | _ :: rest, deployed => by
    refine (raises_sendDeploy _ _ _ _ _ _).bind fun delivered => ?_
    cases delivered
    · exact (raises_abortBlueGreen timed id deployed).bind fun _ => raises_fail nofun
    · exact raises_stageGreen timed id rest _

theorem raises_cutOver (timed : Bool) (id : String) {halt : Halt} (h : halt.Ordinary) :
    Raises Halt.Ordinary (cutOver env timed id plan (.error halt)) := by
  cases halt with
  | deadline => exact raises_fail trivial
  | panic => exact h.elim
  | failed e =>
    refine (raises_abortBlueGreen timed id _).bind fun _ => raises_fail fun id' => ?_
    split
    · exact fun heq => nomatch heq
    · exact h id'

theorem raises_executeBlueGreen (timed : Bool) (id : String) :
    Raises Halt.Ordinary (executeBlueGreen env timed id plan) := by
  unfold executeBlueGreen
  split
  · exact raises_pure _
  · exact (raises_stageGreen timed id _ _).bind fun _ =>
      (raises_waitHealthy timed _ _).attempt_bind (fun _ => raises_pure _)
        fun _ h => raises_cutOver timed id h

/-- EXACT: with `auto_revert` and a known previous path, a failed rollout ends with a revert of all
    placements. -/
theorem conclude_reverting (env : Environment) (hrevert : plan.autoRevert = true)
    (hprev : plan.previousStorePath = some prev) (id : String) {halt : Halt} (h : halt.Ordinary)
    (w : Dispatch) : ∃ e, (∀ id', e ≠ .awaitingPromotion id') ∧
      conclude env id plan (.error halt) w = (.error (.failed e), { w with
        sent := w.sent ++ revertLog env id plan.serviceName prev w.sent plan.placements }) := by
  have hand : ∀ e, conclude.revertAnd env id plan e w = (.error (.failed e), { w with
      sent := w.sent ++ revertLog env id plan.serviceName prev w.sent plan.placements }) := by
    intro e
    have hbody : conclude.revertAnd env id plan e =
        revertDeployedNodes env false id plan.serviceName prev plan.placements >>= fun _ =>
          fail (.failed e) := by rw [conclude.revertAnd, hrevert, hprev]
    rw [hbody, bind_apply, revertDeployedNodes_untimed]
    rfl
  cases halt with
  | deadline => exact ⟨deadlineError plan, by simp [deadlineError, hrevert], hand _⟩
  | panic => exact h.elim
  | failed e =>
    refine ⟨e, h, ?_⟩
    cases e with
    | awaitingPromotion id' => exact absurd rfl (h id')
    | _ => exact hand _

theorem conclude_not_reverting (hrevert : plan.autoRevert = false) (id : String)
    (result : Except Halt Unit) (w : Dispatch) : (conclude env id plan result w).2 = w := by
  have hand : ∀ e, (conclude.revertAnd env id plan e w).2 = w := by
    intro e
    rw [conclude.revertAnd, hrevert]
    rfl
  rcases result with (_ | _ | e) | _
  · exact hand _
  · rfl
  · cases e with
    | awaitingPromotion id' => rfl
    | _ => exact hand _
  · rfl

section Execute
variable {F : Type} [F64 F]

theorem execute_apply (w : Dispatch) :
    execute env F plan w = conclude env (env.uuid w.sent) plan
      (executeStrategy env F (env.uuid w.sent) plan w).1
      (executeStrategy env F (env.uuid w.sent) plan w).2 := rfl

theorem executeStrategy_sent (env : Environment) (F : Type) [F64 F] (plan : DeploymentPlan)
    (id : String) (w : Dispatch) : ∃ new,
    (executeStrategy env F id plan w).2.sent = w.sent ++ new ∧
      ∀ m ∈ new, ∃ p ∈ plan.placements, m.node = p.machineName :=
  within_executeStrategy (P := fun m => ∃ p ∈ plan.placements, m.node = p.machineName)
    (fun p hp _ _ _ _ => ⟨p, hp, rfl⟩) w

theorem executeStrategy_blueGreen (hstrategy : plan.strategy = .blueGreen) (id : String) :
    executeStrategy env F id plan =
      executeBlueGreen env plan.progressDeadline.isSome id plan := by
  simp only [executeStrategy, hstrategy]

theorem unwound_of_autoRevert (hstrategy : plan.strategy = .blueGreen)
    (hprev : plan.previousStorePath = some prev) (hrevert : plan.autoRevert = true)
    (w : Dispatch) {halt : Halt} (h : (execute env F plan w).1 = .error halt) :
    Unwound plan prev (sentBy (execute env F plan) w) := by
  obtain ⟨log, hlog, hnodes⟩ :=
    executeStrategy_sent env F plan (env.uuid w.sent) w
  rw [execute_apply] at h
  cases hresult : (executeStrategy env F (env.uuid w.sent) plan w).1 with
  | ok u =>
    rw [hresult] at h
    cases h
  | error halt' =>
    have hordinary : halt'.Ordinary := by
      rw [executeStrategy_blueGreen hstrategy] at hresult
      exact raises_executeBlueGreen _ _ w halt' hresult
    obtain ⟨e, -, hrun⟩ := conclude_reverting env hrevert hprev (env.uuid w.sent) hordinary
      (executeStrategy env F (env.uuid w.sent) plan w).2
    have hsent : (execute env F plan w).2.sent = w.sent ++ (log ++
        revertLog env (env.uuid w.sent) plan.serviceName prev (w.sent ++ log) plan.placements) := by
      rw [execute_apply, hresult, hrun, hlog, List.append_assoc]
    grind [sentBy_eq, unwound_append, not_green_revertLog, reverts_revertLog]

theorem unwound_of_untimed (hstrategy : plan.strategy = .blueGreen)
    (hprev : plan.previousStorePath = some prev) (hrevert : plan.autoRevert = false)
    (hdeadline : plan.progressDeadline = none) (w : Dispatch) {halt : Halt}
    (h : (execute env F plan w).1 = .error halt) :
    Unwound plan prev (sentBy (execute env F plan) w) := by
  have hstate : (execute env F plan w).2 =
      (executeBlueGreen env false (env.uuid w.sent) plan w).2 := by
    rw [execute_apply, conclude_not_reverting hrevert, executeStrategy_blueGreen hstrategy,
      hdeadline]
    rfl
  rcases executeBlueGreen_untimed env hprev (env.uuid w.sent) w with
    hok | ⟨halt', new, hrun, hunwound⟩
  · rw [execute_apply, executeStrategy_blueGreen hstrategy, hdeadline] at h
    simp only [Option.isSome_none, hok] at h
    cases h
  · have hsent : (execute env F plan w).2.sent = w.sent ++ new := by rw [hstate, hrun]
    rwa [sentBy_eq hsent]

/-- A fleet that answers every message, and a deadline that strikes once something was sent. -/
def strikesMidway : Environment where
  reaches _ _ := true
  healthy _ _ _ := true
  expired log := !log.isEmpty
  uuid _ := "d-1"
  migrationError _ _ := none

theorem left_half_green (hstrategy : plan.strategy = .blueGreen) (hrevert : plan.autoRevert = false)
    (hdeadline : plan.progressDeadline ≠ none) {p : Placement} {ps : List Placement}
    (hps : plan.placements = p :: ps) :
    (execute strikesMidway F plan {}).1 = .error (.failed .healthTimeout) ∧
      sentBy (execute strikesMidway F plan) {} = [⟨p.machineName,
        .deploy ⟨"d-1", plan.serviceName, plan.storePath, .blueGreen⟩, true⟩] := by
  let green : Sent :=
    ⟨p.machineName, .deploy ⟨"d-1", plan.serviceName, plan.storePath, .blueGreen⟩, true⟩
  have htimed : plan.progressDeadline.isSome = true := Option.isSome_iff_ne_none.mpr hdeadline
  have hcancelled : executeStrategy strikesMidway F "d-1" plan {} =
      (.error .deadline, { sent := [green] }) := by
    rw [executeStrategy_blueGreen hstrategy, htimed, executeBlueGreen_of_ne (by simp [hps]), hps]
    -- the next suspension point is another command, or the health gate
    cases ps <;> rfl
  have hrun : execute strikesMidway F plan {} =
      conclude strikesMidway "d-1" plan (.error .deadline) { sent := [green] } :=
    congrArg (fun r : Except Halt Unit × Dispatch => conclude strikesMidway "d-1" plan r.1 r.2)
      hcancelled
  have hstate : (execute strikesMidway F plan {}).2 = { sent := [green] } := by
    rw [hrun, conclude_not_reverting hrevert]
  refine ⟨?_, by rw [sentBy, hstate]; rfl⟩
  rw [hrun]
  simp [conclude, conclude.revertAnd, deadlineError, hrevert, fail]

end Execute

end BlueGreen

/-- CORRECT: a blue-green rollout with a known previous version takes back all of a failed rollout,
    whatever the fleet does, exactly when `auto_revert` is set, there is no progress deadline, or
    there is nothing to deploy. -/
theorem blueGreen_unwinds_iff (F : Type) [F64 F] (plan : DeploymentPlan) (prev : String)
    (hstrategy : plan.strategy = .blueGreen) (hprev : plan.previousStorePath = some prev) :
    (∀ env w halt, (execute env F plan w).1 = .error halt →
        Unwound plan prev (sentBy (execute env F plan) w)) ↔
      plan.autoRevert = true ∨ plan.progressDeadline = none ∨ plan.placements = [] := by
  constructor
  · intro hall
    by_contra! hnot
    obtain ⟨hrevert, hdeadline, hne⟩ := hnot
    obtain ⟨p, ps, hps⟩ := List.exists_cons_of_ne_nil hne
    obtain ⟨herror, hsent⟩ := left_half_green (F := F) hstrategy (Bool.not_eq_true _ ▸ hrevert)
      hdeadline hps
    have hunwound := hall strikesMidway {} _ herror
    rw [hsent] at hunwound
    exact not_unwound_singleton ⟨_, rfl⟩ rfl hunwound
  · intro h env w halt herror
    cases hrevert : plan.autoRevert with
    | true => exact unwound_of_autoRevert hstrategy hprev hrevert w herror
    | false =>
      rcases h with h | hdeadline | hnil
      · exact absurd h (by simp [hrevert])
      · exact unwound_of_untimed hstrategy hprev hrevert hdeadline w herror
      · rw [execute_apply, executeStrategy_blueGreen hstrategy,
          executeBlueGreen_of_nil hnil] at herror
        cases herror

/-- Two nodes, a deadline and no `auto_revert`. -/
def greenPlan : DeploymentPlan where
  serviceName := "web"
  strategy := .blueGreen
  maxParallel := 1
  placements := [⟨"web", "web-0", "n1"⟩, ⟨"web", "web-1", "n2"⟩]
  storePath := "/nix/store/green-web"
  autoRevert := false
  autoPromote := false
  progressDeadline := some 60
  disruptionBudget := none
  totalReplicas := 2
  previousStorePath := some "/nix/store/blue-web"

theorem blueGreen_unwinds_web :
    greenPlan.strategy = .blueGreen ∧
      greenPlan.previousStorePath = some "/nix/store/blue-web" ∧
      ∀ env w halt, (execute env Ratio { greenPlan with autoRevert := true } w).1 = .error halt →
        Unwound { greenPlan with autoRevert := true } "/nix/store/blue-web"
          (sentBy (execute env Ratio { greenPlan with autoRevert := true }) w) :=
  ⟨rfl, rfl, (blueGreen_unwinds_iff Ratio _ _ rfl rfl).mpr (.inl rfl)⟩

/-- The deadline strikes between the two nodes: one stays green, the rollout has failed. -/
theorem web_left_half_green :
    (execute strikesMidway Ratio greenPlan {}).1 = .error (.failed .healthTimeout) ∧
      ¬ Unwound greenPlan "/nix/store/blue-web"
        (sentBy (execute strikesMidway Ratio greenPlan) {}) := by
  obtain ⟨herror, hsent⟩ :=
    left_half_green (F := Ratio) (rfl : greenPlan.strategy = .blueGreen) rfl (by decide) rfl
  exact ⟨herror, hsent ▸ not_unwound_singleton ⟨_, rfl⟩ rfl⟩

end Ekafleet.Server
