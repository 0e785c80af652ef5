import Ekafleet.Server.Promotion

/-! Health gates in time | source: server/deployer.rs

    A rollout is run against a timeline: what `fleet_status` lists at each moment, which agents can
    be reached, how long things take. The gate is the poll loop of the source, and a trace records
    the commands and the gates in their order. `execute_rolling` has a gate between two batches
    only. -/

namespace Ekafleet.Server
open Raft Scheduler Proto Effect

/-! ### The poll loop -/

/-- The pause between two polls, in nanoseconds, as all times here. -/
def pollInterval : ℕ := 10 ^ 9

/-- What happens around a rollout, by the time at which it happens. -/
structure Timeline where
  /-- The services as `fleet_status` lists them. -/
  services : ℕ → List ServiceStatus
  /-- Whether a message to the node arrives. -/
  reaches : ℕ → String → Bool
  /-- How long it takes to send a message. -/
  sending : ℕ → ℕ
  /-- By how much the pause after a poll is too long. -/
  oversleep : ℕ → ℕ

def Timeline.nextPoll (τ : Timeline) (now : ℕ) : ℕ := now + pollInterval + τ.oversleep now

/-- The two durations of a plan that its gates use. -/
structure GateTimes where
  minHealthyTime : ℕ
  healthyDeadline : ℕ

/-- The service is listed with a healthy instance on every node. -/
def allHealthy (services : List ServiceStatus) (serviceName : String) (nodes : List String) :
    Bool :=
  match services.find? (·.name = serviceName) with
  | none => false
  | some svc => nodes.all fun node =>
      svc.instances.any fun i => i.nodeId = node && i.health = .healthy

/-- How a health gate ends. -/
inductive GateEnd where
  | passed (since til : ℕ)
  | timedOut (time : ℕ)

section Poll
variable (τ : Timeline) (gate : GateTimes) (serviceName : String) (nodes : List String)

/-- The rounds of `wait_healthy` from a poll at `now` on; `since` is the first of the healthy polls
    just before it. -/
def pollHealthy (started : ℕ) (since : Option ℕ) (now : ℕ) : GateEnd :=
  if gate.healthyDeadline < now - started then .timedOut now
  else if allHealthy (τ.services now) serviceName nodes then
    match since with
    | some s =>
      if gate.minHealthyTime ≤ now - s then .passed s now
      else pollHealthy started (some s) (τ.nextPoll now)
    | none => pollHealthy started (some now) (τ.nextPoll now)
  else pollHealthy started none (τ.nextPoll now)
termination_by started + gate.healthyDeadline + 1 - now
decreasing_by all_goals simp only [Timeline.nextPoll, pollInterval]; omega

/-- Polls from one time to another, each of which found every node healthy. -/
inductive HealthyPolls : ℕ → ℕ → Prop
  | first {t : ℕ} (h : allHealthy (τ.services t) serviceName nodes = true) : HealthyPolls t t
  | next {s t : ℕ} (hpolls : HealthyPolls s t)
      (h : allHealthy (τ.services (τ.nextPoll t)) serviceName nodes = true) :
      HealthyPolls s (τ.nextPoll t)

variable {τ gate serviceName nodes}

theorem HealthyPolls.le {s t : ℕ} (h : HealthyPolls τ serviceName nodes s t) : s ≤ t := by
  induction h with
  | first => exact le_rfl
  | next _ _ ih => exact ih.trans (by simp only [Timeline.nextPoll]; omega)

/-- RUN: a gate that is passed was preceded by healthy polls only, for at least the healthy time. -/
theorem pollHealthy_passed {started s til : ℕ} {since : Option ℕ} {now : ℕ}
    (h : pollHealthy τ gate serviceName nodes started since now = .passed s til)
    (hnow : started ≤ now)
    (hsince : ∀ t ∈ since, started ≤ t ∧
      ∃ p, HealthyPolls τ serviceName nodes t p ∧ now = τ.nextPoll p) :
    started ≤ s ∧ s + gate.minHealthyTime ≤ til ∧ HealthyPolls τ serviceName nodes s til := by
  have hlater : ∀ t, started ≤ t → started ≤ τ.nextPoll t := by
    intro t ht
    simp only [Timeline.nextPoll]
    omega
  fun_induction pollHealthy τ gate serviceName nodes started since now with
  | case1 => cases h
  | case2 now _ hhealthy t hlong =>
    cases h
    obtain ⟨hstarted, p, hpolls, rfl⟩ := hsince s rfl
    have hall := hpolls.next hhealthy
    have hle := hall.le
    exact ⟨hstarted, by omega, hall⟩
  | case3 now _ hhealthy t _ ih =>
    obtain ⟨hstarted, p, hpolls, rfl⟩ := hsince t rfl
    refine ih h (hlater _ hnow) ?_
    rintro _ ⟨⟩
    exact ⟨hstarted, _, hpolls.next hhealthy, rfl⟩
  | case4 now _ hhealthy ih =>
    refine ih h (hlater _ hnow) ?_
    rintro _ ⟨⟩
    exact ⟨hnow, now, .first hhealthy, rfl⟩
  | case5 now _ _ _ ih => exact ih h (hlater _ hnow) (by rintro _ ⟨⟩)

theorem pollHealthy_healthy {started : ℕ}
    (hhealthy : ∀ t, allHealthy (τ.services t) serviceName nodes = true)
    (hmin : gate.minHealthyTime ≤ τ.nextPoll started - started)
    (hdeadline : τ.nextPoll started - started ≤ gate.healthyDeadline) :
    pollHealthy τ gate serviceName nodes started none started =
      .passed started (τ.nextPoll started) := by
  rw [pollHealthy, if_neg (by omega), if_pos (hhealthy _)]
  rw [pollHealthy, if_neg (by omega), if_pos (hhealthy _)]
  simp only [if_pos hmin]

end Poll

/-! ### Rollouts in time -/

/-- What happens in a rollout, with its times. -/
inductive RolloutEvent where
  | sent (m : Sent) (done : ℕ)
  | passed (batch : List Placement) (since til : ℕ)
  | timedOut (batch : List Placement) (time : ℕ)

/-- A rollout with its clock and trace. -/
structure TimedDispatch where
  now : ℕ := 0
  trace : List RolloutEvent := []
  pendingCanaries : HashMap String PendingCanary := ∅

namespace Timed

abbrev Deploy := Effect TimedDispatch Halt

section Rollout
variable (τ : Timeline) (gate : GateTimes)

def sendDeploy (deploymentId serviceName storePath : String) (strategy : DeployStrategy)
    (node : String) : Deploy Bool := fun w =>
  let delivered := τ.reaches w.now node
  let done := w.now + τ.sending w.now
  let m : Sent := ⟨node, .deploy ⟨deploymentId, serviceName, storePath, strategy⟩, delivered⟩
  (.ok delivered, { w with now := done, trace := w.trace ++ [.sent m done] })

/-- Wait for instances to report healthy status. -/
def waitHealthy (serviceName : String) (placements : List Placement) : Deploy Unit := fun w =>
  match pollHealthy τ gate serviceName (placements.map (·.machineName)) w.now none w.now with
  | .passed since til =>
    (.ok (), { w with now := til, trace := w.trace ++ [.passed placements since til] })
  | .timedOut time =>
    (.error (.failed .healthTimeout),
      { w with now := time, trace := w.trace ++ [.timedOut placements time] })

/-- A rollout whose gates are polled on a timeline. -/
def port : Port TimedDispatch where
  sendDeploy := sendDeploy τ
  waitHealthy := waitHealthy τ gate
  park name pending w := { w with pendingCanaries := w.pendingCanaries.insert name pending }

variable (F : Type) [F64 F]

abbrev executeRolling := (port τ gate).executeRolling F

abbrev executeCanary := (port τ gate).executeCanary F

abbrev promoteCanary := (port τ gate).promoteCanary F

end Rollout

end Timed

/-- The rollouts that go batch by batch. -/
inductive Rollout where
  | rolling (deploymentId : String) (plan : DeploymentPlan)
  | canary (deploymentId : String) (plan : DeploymentPlan)
  | promotion (pending : PendingCanary)

namespace Rollout

def plan : Rollout → DeploymentPlan
  | .rolling _ plan => plan
  | .canary _ plan => plan
  | .promotion pending => pending.plan

/-- The rollout on a timeline. -/
def timed (τ : Timeline) (gate : GateTimes) (F : Type) [F64 F] : Rollout → Timed.Deploy Unit
  | .rolling id plan => Timed.executeRolling τ gate F id plan
  | .canary id plan => Timed.executeCanary τ gate F id plan
  | .promotion pending => Timed.promoteCanary τ gate F pending

end Rollout

/-- The messages of a trace. -/
def messages (trace : List RolloutEvent) : List Sent :=
  trace.filterMap fun
    | .sent m _ => some m
    | _ => none

@[simp] theorem messages_append (trace new : List RolloutEvent) :
    messages (trace ++ new) = messages trace ++ messages new := List.filterMap_append ..

/-! ### Which batches pass a gate -/

/-- The event is the delivery of the new version to the placement's node, not after `since`. -/
def Delivers (serviceName storePath : String) (since : ℕ) (e : RolloutEvent) (p : Placement) :
    Prop :=
  ∃ id strategy done, done ≤ since ∧
    e = .sent ⟨p.machineName, .deploy ⟨id, serviceName, storePath, strategy⟩, true⟩ done

theorem Delivers.mono {serviceName storePath : String} {since since' : ℕ} {e : RolloutEvent}
    {p : Placement} (h : Delivers serviceName storePath since e p) (hle : since ≤ since') :
    Delivers serviceName storePath since' e p := by
  obtain ⟨id, strategy, done, hdone, he⟩ := h
  exact ⟨id, strategy, done, hdone.trans hle, he⟩

/-- Batch after batch receives the new version and then passes the gate: its nodes are healthy at
    every poll, for at least the healthy time. -/
inductive Gated (τ : Timeline) (gate : GateTimes) (serviceName storePath : String) :
    List (List Placement) → List RolloutEvent → Prop
  | nil : Gated τ gate serviceName storePath [] []
  | batch {batch : List Placement} {rest : List (List Placement)} {sends tail : List RolloutEvent}
      {since til : ℕ} (hsends : List.Forall₂ (Delivers serviceName storePath since) sends batch)
      (hlong : since + gate.minHealthyTime ≤ til)
      (hpolls : HealthyPolls τ serviceName (batch.map (·.machineName)) since til)
      (hrest : Gated τ gate serviceName storePath rest tail) :
      Gated τ gate serviceName storePath (batch :: rest) (sends ++ .passed batch since til :: tail)

namespace RolloutEvent

def isPassed : RolloutEvent → Bool
  | .passed _ _ _ => true
  | _ => false

/-- The number of gates that were passed. -/
def gates (trace : List RolloutEvent) : ℕ := trace.countP isPassed

theorem gates_append (trace new : List RolloutEvent) :
    gates (trace ++ new) = gates trace + gates new :=
  List.countP_append

theorem gates_passed (batch : List Placement) (since til : ℕ) (rest : List RolloutEvent) :
    gates (.passed batch since til :: rest) = gates rest + 1 := List.countP_cons_of_pos rfl

theorem gates_delivers {serviceName storePath : String} {since : ℕ} {sends : List RolloutEvent}
    {batch : List Placement} (h : List.Forall₂ (Delivers serviceName storePath since) sends batch) :
    gates sends = 0 := by
  induction h with
  | nil => rfl
  | cons he _ ih =>
    obtain ⟨id, strategy, done, -, rfl⟩ := he
    exact ih

end RolloutEvent

open RolloutEvent in
theorem Gated.gates_eq {τ : Timeline} {gate : GateTimes} {serviceName storePath : String}
    {batches : List (List Placement)} {trace : List RolloutEvent}
    (h : Gated τ gate serviceName storePath batches trace) : gates trace = batches.length := by
  induction h with
  | nil => rfl
  | batch hsends _ _ _ ih =>
    rw [gates_append, gates_passed, gates_delivers hsends, ih, List.length_cons, Nat.zero_add]

namespace Timed
open RolloutEvent

section Gates
variable {τ : Timeline} {gate : GateTimes} {w w' : TimedDispatch}

variable {id : String} {plan : DeploymentPlan}

/-- STEP: a command that arrives delivers the new version. -/
theorem sendDeploy_ok {serviceName path : String} {strategy : DeployStrategy} {p : Placement}
    (h : sendDeploy τ id serviceName path strategy p.machineName w = (.ok true, w')) :
    w.now ≤ w'.now ∧ ∃ e, w'.trace = w.trace ++ [e] ∧ Delivers serviceName path w'.now e p := by
  simp only [sendDeploy, Prod.mk.injEq, Except.ok.injEq] at h
  obtain ⟨hreaches, rfl⟩ := h
  refine ⟨Nat.le_add_right _ _, _, rfl, id, strategy, _, le_rfl, ?_⟩
  rw [hreaches]

/-- STEP: a node of a batch receives it. -/
theorem rollPlacement_ok {p : Placement}
    (h : (port τ gate).rollPlacement id plan p w = (.ok (), w')) :
    w.now ≤ w'.now ∧ ∃ e, w'.trace = w.trace ++ [e] ∧
      Delivers plan.serviceName plan.storePath w'.now e p := by
  obtain ⟨delivered, w₁, hsend, hrest⟩ := bind_ok h
  cases delivered with
  | true =>
    cases hrest
    exact sendDeploy_ok hsend
  | false =>
    rw [if_neg Bool.false_ne_true] at hrest
    split at hrest <;> cases hrest

/-- RUN: so does every node of it. -/
theorem batch_ok {batch : List Placement}
    (h : (batch.forM ((port τ gate).rollPlacement id plan) : Deploy PUnit) w = (.ok (), w')) :
    w.now ≤ w'.now ∧ ∃ sends, w'.trace = w.trace ++ sends ∧
      List.Forall₂ (Delivers plan.serviceName plan.storePath w'.now) sends batch := by
  induction batch generalizing w with
  | nil =>
    cases h
    exact ⟨le_rfl, [], (List.append_nil _).symm, .nil⟩
  | cons p ps ih =>
    obtain ⟨_, w₁, hfirst, hrest⟩ := bind_ok h
    obtain ⟨hle, e, he, hdelivers⟩ := rollPlacement_ok hfirst
    obtain ⟨hle', sends, hsends, hall⟩ := ih hrest
    refine ⟨hle.trans hle', e :: sends, ?_, .cons (hdelivers.mono hle') hall⟩
    rw [hsends, he, List.append_assoc, List.singleton_append]

/-- STEP: a gate that lets the rollout go on. -/
theorem waitHealthy_ok {serviceName : String} {ps : List Placement}
    (h : waitHealthy τ gate serviceName ps w = (.ok (), w')) :
    ∃ since til, w'.trace = w.trace ++ [.passed ps since til] ∧ w.now ≤ since ∧
      since + gate.minHealthyTime ≤ til ∧
        HealthyPolls τ serviceName (ps.map (·.machineName)) since til := by
  unfold waitHealthy at h
  cases hpoll : pollHealthy τ gate serviceName (ps.map (·.machineName)) w.now none w.now with
  | passed since til =>
    rw [hpoll] at h
    cases h
    exact ⟨since, til, rfl, pollHealthy_passed hpoll le_rfl (by rintro _ ⟨⟩)⟩
  | timedOut time =>
    rw [hpoll] at h
    cases h

/-- RUN: batches that were rolled out passed one gate less than they are. -/
theorem rollBatches_ok {batches : List (List Placement)}
    (h : (port τ gate).rollBatches id plan batches w = (.ok (), w')) :
    ∃ new, w'.trace = w.trace ++ new ∧ gates new = batches.length - 1 := by
  induction batches generalizing w with
  | nil =>
    cases h
    exact ⟨[], (List.append_nil _).symm, rfl⟩
  | cons batch rest ih =>
    cases rest with
    | nil =>
      obtain ⟨-, sends, hsends, hall⟩ := batch_ok h
      exact ⟨sends, hsends, gates_delivers hall⟩
    | cons next rest =>
      obtain ⟨_, w₁, hbatch, hrest⟩ := bind_ok h
      obtain ⟨_, w₂, hgate, hrest⟩ := bind_ok hrest
      obtain ⟨-, sends, hsends, hall⟩ := batch_ok hbatch
      obtain ⟨since, til, hpassed, -⟩ := waitHealthy_ok hgate
      obtain ⟨new, hnew, hgates⟩ := ih hrest
      refine ⟨sends ++ .passed batch since til :: new, ?_, ?_⟩
      · rw [hnew, hpassed, hsends, List.append_assoc, List.append_assoc, List.singleton_append]
      · rw [gates_append, gates_passed, gates_delivers hall, hgates]
        simp

end Gates
end Timed

/-- The size of the batches; zero where the rollout does not come to them. -/
def batchSize (F : Type) [F64 F] (plan : DeploymentPlan) : ℕ :=
  ((effectiveParallel F plan).toOption.getD 0).toNat

namespace Rollout

/-- The batches in the order in which they are sent the new version. -/
def batches (F : Type) [F64 F] : Rollout → List (List Placement)
  | .rolling _ plan => chunks (batchSize F plan) plan.placements
  | .canary _ plan => match plan.placements with
    | [] => []
    | first :: rest => [first] :: chunks (batchSize F plan) rest
  | .promotion pending => chunks (batchSize F pending.plan) pending.remaining

/-- What lies between the two states: every batch received the new version and passed its gate. -/
def EveryBatchGated (τ : Timeline) (gate : GateTimes) (F : Type) [F64 F] (rollout : Rollout)
    (w w' : TimedDispatch) : Prop :=
  ∃ new, w'.trace = w.trace ++ new ∧
    Gated τ gate rollout.plan.serviceName rollout.plan.storePath (rollout.batches F) new

/-- Nothing is deployed but the canary. -/
def NoneBehindCanary : Rollout → Prop
  | .rolling _ plan => plan.placements = []
  | .canary _ plan => plan.placements.tail = []
  | .promotion pending => pending.remaining = []

end Rollout

/-! ### The last batch -/

theorem chunks_nil {α : Type} (n : ℕ) : chunks n ([] : List α) = [] := by
  simp [Nat.eq_zero_or_pos, chunks]

namespace Timed
open RolloutEvent

variable {τ : Timeline} {gate : GateTimes} {F : Type} [F64 F] {w w' : TimedDispatch}

variable {id : String} {plan : DeploymentPlan} {canary : Placement}

theorem executeRolling_ok (h : executeRolling τ gate F id plan w = (.ok (), w')) :
    plan.placements = [] ∧ w' = w ∨ plan.placements ≠ [] ∧ ∃ new, w'.trace = w.trace ++ new ∧
      gates new < (chunks (batchSize F plan) plan.placements).length := by
  obtain ⟨parallel, w₁, hlift, hrest⟩ := bind_ok h
  obtain ⟨hparallel, rfl⟩ := lift_ok hlift
  have hsize : batchSize F plan = parallel.toNat := by rw [batchSize, hparallel]; rfl
  split at hrest
  · cases hrest
  · rename_i hzero
    cases hps : plan.placements with
    | nil =>
      rw [hps, chunks_nil] at hrest
      cases hrest
      exact .inl ⟨rfl, rfl⟩
    | cons p ps =>
      obtain ⟨new, hnew, hgates⟩ := rollBatches_ok hrest
      have hpos : parallel.toNat ≠ 0 := fun h0 => hzero (UInt32.toNat_inj.mp h0)
      obtain ⟨t, rest, hchunks⟩ := chunks_cons hpos p ps
      grind

theorem rolling_gated_iff (h : executeRolling τ gate F id plan w = (.ok (), w')) :
    (∃ new, w'.trace = w.trace ++ new ∧ Gated τ gate plan.serviceName plan.storePath
      (chunks (batchSize F plan) plan.placements) new) ↔ plan.placements = [] := by
  rcases executeRolling_ok h with ⟨hnil, rfl⟩ | ⟨hne, new, hnew, hgates⟩
  · rw [hnil, chunks_nil]
    exact iff_of_true ⟨[], (List.append_nil _).symm, .nil⟩ rfl
  · refine iff_of_false ?_ hne
    grind [List.append_cancel_left, Gated.gates_eq]

/-- STEP: a canary that is promoted at once received the new version and passed its gate. -/
theorem executeCanary_ok {rest : List Placement} (hps : plan.placements = canary :: rest)
    (h : executeCanary τ gate F id plan w = (.ok (), w')) :
    ∃ e since til w₁, Delivers plan.serviceName plan.storePath since e canary ∧
      since + gate.minHealthyTime ≤ til ∧
      HealthyPolls τ plan.serviceName [canary.machineName] since til ∧
      w₁.trace = w.trace ++ [e, .passed [canary] since til] ∧
      (port τ gate).promoteOrWait F id plan canary rest w₁ = (.ok (), w') := by
  rw [executeCanary, Port.executeCanary, hps] at h
  obtain ⟨delivered, w₁, hsend, hrest⟩ := bind_ok h
  cases delivered with
  | true =>
    obtain ⟨_, w₂, hgate, hpromote⟩ := bind_ok hrest
    obtain ⟨-, e, he, hdelivers⟩ := sendDeploy_ok hsend
    obtain ⟨since, til, hpassed, hnow, hlong, hpolls⟩ := waitHealthy_ok hgate
    refine ⟨e, since, til, w₂, hdelivers.mono hnow, hlong, hpolls, ?_, hpromote⟩
    rw [hpassed, he, List.append_assoc]
    rfl
  | false => cases hrest

theorem executeCanary_alone {since til : ℕ} (hps : plan.placements = [canary])
    (hpromote : plan.autoPromote = true)
    (hreaches : τ.reaches w.now canary.machineName = true)
    (hpoll : pollHealthy τ gate plan.serviceName [canary.machineName] (w.now + τ.sending w.now) none
      (w.now + τ.sending w.now) = .passed since til) :
    ∃ w', executeCanary τ gate F id plan w = (.ok (), w') := by
  have hsend : sendDeploy τ id plan.serviceName plan.storePath .canary canary.machineName w =
      (.ok true, (sendDeploy τ id plan.serviceName plan.storePath .canary
        canary.machineName w).2) :=
    Prod.ext (congrArg Except.ok hreaches) rfl
  rw [executeCanary, Port.executeCanary, hps]
  simp only [port, bind_apply]
  rw [hsend]
  simp only [if_true, bind_apply, sendDeploy, waitHealthy, List.map_cons, List.map_nil, hpoll]
  rw [Port.promoteOrWait, hpromote]
  exact ⟨_, rfl⟩

theorem promoteOrWait_ok {rest : List Placement}
    (h : (port τ gate).promoteOrWait F id plan canary rest w = (.ok (), w')) :
    rest = [] ∧ w' = w ∨ rest ≠ [] ∧ executeRolling τ gate F id
      { plan with strategy := .rolling, placements := rest } w = (.ok (), w') := by
  unfold Port.promoteOrWait at h
  split at h
  · cases rest with
    | nil =>
      cases h
      exact .inl ⟨rfl, rfl⟩
    | cons p ps => exact .inr ⟨List.cons_ne_nil _ _, h⟩
  · cases h

theorem canary_gated_iff (h : executeCanary τ gate F id plan w = (.ok (), w')) :
    (Rollout.canary id plan).EveryBatchGated τ gate F w w' ↔ plan.placements.tail = [] := by
  unfold Rollout.EveryBatchGated
  cases hps : plan.placements with
  | nil =>
    rw [executeCanary, Port.executeCanary, hps] at h
    cases h
    simp only [Rollout.batches, hps]
    exact iff_of_true ⟨[], (List.append_nil _).symm, .nil⟩ rfl
  | cons canary rest =>
    obtain ⟨e, since, til, w₁, hdelivers, hlong, hpolls, htrace, hpromote⟩ := executeCanary_ok hps h
    simp only [Rollout.batches, hps, List.tail_cons]
    rcases promoteOrWait_ok hpromote with ⟨rfl, rfl⟩ | ⟨hne, hrolling⟩
    · refine iff_of_true ⟨_, htrace, ?_⟩ rfl
      rw [chunks_nil]
      exact .batch (.cons hdelivers .nil) hlong hpolls .nil
    · rcases executeRolling_ok hrolling with ⟨hnil, -⟩ | ⟨-, new, hnew, hgates⟩
      · exact absurd hnil hne
      refine iff_of_false ?_ hne
      rintro ⟨new', hnew', hgated⟩
      -- The canary's gate is one; the batches behind it passed too few.
      have hone : gates [e, .passed [canary] since til] = 1 := by
        obtain ⟨_, _, _, -, rfl⟩ := hdelivers
        rfl
      have hsplit : w'.trace = w.trace ++ ([e, .passed [canary] since til] ++ new) := by
        rw [hnew, htrace, List.append_assoc]
      obtain rfl := List.append_cancel_left (hsplit.symm.trans hnew')
      have hall := hgated.gates_eq
      rw [gates_append, hone, List.length_cons] at hall
      have hgates' : gates new < (chunks (batchSize F plan) rest).length := hgates
      omega

theorem promotion_gated_iff {pending : PendingCanary}
    (h : promoteCanary τ gate F pending w = (.ok (), w')) :
    (Rollout.promotion pending).EveryBatchGated τ gate F w w' ↔ pending.remaining = [] := by
  unfold Rollout.EveryBatchGated
  unfold promoteCanary Port.promoteCanary at h
  cases hremaining : pending.remaining with
  | nil =>
    rw [hremaining] at h
    cases h
    simp only [Rollout.batches, hremaining, chunks_nil]
    exact iff_of_true ⟨[], (List.append_nil _).symm, .nil⟩ trivial
  | cons p ps =>
    rw [hremaining] at h
    simp only [Rollout.batches, hremaining]
    exact rolling_gated_iff h

end Timed

/-- CORRECT: a rollout that returned has passed a health gate with every batch, after that batch
    was sent the new version, only if nothing was deployed but a canary. Every other rollout is
    reported as done right after its last batch was sent the new version. -/
theorem every_batch_gated_iff (τ : Timeline) (gate : GateTimes) (F : Type) [F64 F]
    (rollout : Rollout) (w w' : TimedDispatch) (h : rollout.timed τ gate F w = (.ok (), w')) :
    rollout.EveryBatchGated τ gate F w w' ↔ rollout.NoneBehindCanary := by
  cases rollout with
  | rolling id plan => exact Timed.rolling_gated_iff h
  | canary id plan => exact Timed.canary_gated_iff h
  | promotion pending =>
    exact Timed.promotion_gated_iff h

/-- One second of health, within thirty. -/
def oneSecond : GateTimes := ⟨pollInterval, 30 * pollInterval⟩

/-- A fleet that is always reached and lists these services all the time. -/
def listing (services : List ServiceStatus) : Timeline where
  services _ := services
  reaches _ _ := true
  sending _ := 0
  oversleep _ := 0

/-- `web` on one node. -/
def soloPlan : DeploymentPlan :=
  { canaryPlan with placements := [⟨"web", "web-0", "n1"⟩], autoPromote := true }

/-- `web` reports that it is healthy on its node. -/
def healthyTimeline : Timeline := listing [⟨"web", [⟨"web-0", "n1", .running, .healthy⟩]⟩]

/-- The only instance is a canary, and it is healthy: the rollout returns after its gate. -/
theorem solo_canary_gated :
    ∃ w', (Rollout.canary "d-1" soloPlan).timed healthyTimeline oneSecond Ratio {} = (.ok (), w') ∧
      (Rollout.canary "d-1" soloPlan).EveryBatchGated healthyTimeline oneSecond Ratio {} w' := by
  have hpoll : pollHealthy healthyTimeline oneSecond "web" ["n1"] 0 none 0 =
      .passed 0 (healthyTimeline.nextPoll 0) :=
    pollHealthy_healthy (fun _ => rfl) (by simp [oneSecond, Timeline.nextPoll])
      (by simp [oneSecond, Timeline.nextPoll, healthyTimeline, listing, pollInterval])
  obtain ⟨w', hrun⟩ : ∃ w', Timed.executeCanary healthyTimeline oneSecond Ratio "d-1" soloPlan {} =
      (.ok (), w') := Timed.executeCanary_alone rfl rfl rfl hpoll
  exact ⟨w', hrun, (every_batch_gated_iff healthyTimeline oneSecond Ratio
    (.canary "d-1" soloPlan) {} w' hrun).mpr rfl⟩

/-- One node, which never reports the service: the rolling deployment returns as soon as the command
    is sent. -/
theorem unhealthy_rollout_returns :
    (∀ t, allHealthy ((listing []).services t) "web" ["n1"] = false) ∧
    ((Rollout.rolling "d-1" soloPlan).timed (listing []) oneSecond Ratio {}).1 = .ok () ∧
    ¬ (Rollout.rolling "d-1" soloPlan).EveryBatchGated (listing []) oneSecond Ratio {}
      ((Rollout.rolling "d-1" soloPlan).timed (listing []) oneSecond Ratio {}).2 := by
  have hrun : ((Rollout.rolling "d-1" soloPlan).timed (listing []) oneSecond Ratio {}).1 = .ok () :=
    rfl
  have hok : Timed.executeRolling (listing []) oneSecond Ratio "d-1" soloPlan {} =
      (.ok (), ((Rollout.rolling "d-1" soloPlan).timed (listing []) oneSecond Ratio {}).2) :=
    Prod.ext hrun rfl
  refine ⟨fun _ => rfl, hrun, fun hgated => ?_⟩
  exact List.cons_ne_nil _ _ ((Timed.rolling_gated_iff hok).mp hgated)

end Ekafleet.Server
