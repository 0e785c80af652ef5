import Ekafleet.Server.HealthGate

/-! Rolling deployments, message by message | source: server/deployer.rs, server/state.rs

    The gate is looked at round by round, with a clock that is read at three points of a round. A
    rollout is looked at as the sequence of its commands, cut into parts by the gates it passed. -/

namespace Ekafleet.Server
open Raft Scheduler Proto Effect

/-! ### The rounds of a gate -/

/-- When the rounds of a poll loop happen: each looks at the deadline, takes the status of the
    fleet, and then reads the clock again, which dates the sample. -/
structure PollClock where
  started : ℕ
  checked : ℕ → ℕ
  sampled : ℕ → ℕ
  dated : ℕ → ℕ
  started_le : started ≤ checked 0
  checked_le : ∀ k, checked k ≤ sampled k
  sampled_le : ∀ k, sampled k ≤ dated k
  dated_le : ∀ k, dated k ≤ checked (k + 1)

/-- The pause after each round takes at least as long as it should. -/
def PollClock.Sleeps (clock : PollClock) : Prop :=
  ∀ k, clock.dated k + pollInterval ≤ clock.checked (k + 1)

section Rounds
variable (clock : PollClock) (services : ℕ → List ServiceStatus) (gate : GateTimes)
  (serviceName : String) (nodes : List String)

/-- At most `n` rounds of `wait_healthy`, from round `k` on: the round in which it returned, and
    what. `since` dates the first of the healthy samples just before. -/
def waitRounds : (n k : ℕ) → (since : Option ℕ) → Option (ℕ × Except DeployError Unit)
  | 0, _, _ => none
  | n + 1, k, since =>
    if gate.healthyDeadline < clock.checked k - clock.started then some (k, .error .healthTimeout)
    else if allHealthy (services (clock.sampled k)) serviceName nodes then
      match since with
      | some s =>
        if gate.minHealthyTime ≤ clock.dated k - s then some (k, .ok ())
        else waitRounds n (k + 1) (some s)
      | none => waitRounds n (k + 1) (some (clock.dated k))
    else waitRounds n (k + 1) none

variable {clock services gate serviceName nodes}

/-- The samples of the rounds from `i` up to `k` found every node healthy. -/
def HealthyFrom (clock : PollClock) (services : ℕ → List ServiceStatus) (serviceName : String)
    (nodes : List String) (i k : ℕ) : Prop :=
  ∀ j, i ≤ j → j < k → allHealthy (services (clock.sampled j)) serviceName nodes = true

theorem HealthyFrom.succ {i k : ℕ} (h : HealthyFrom clock services serviceName nodes i k)
    (hk : allHealthy (services (clock.sampled k)) serviceName nodes = true) :
    HealthyFrom clock services serviceName nodes i (k + 1) := by
  intro j hij hjk
  rcases Nat.lt_succ_iff_lt_or_eq.mp hjk with hlt | rfl
  · exact h j hij hlt
  · exact hk

theorem PollClock.dated_mono (clock : PollClock) : Monotone clock.dated := by
  refine monotone_nat_of_le_succ fun k => ?_
  exact (clock.dated_le k).trans ((clock.checked_le _).trans (clock.sampled_le _))

/-- RUN: a gate that is passed saw healthy samples only, over at least the healthy time. -/
theorem waitRounds_ok {n k j : ℕ} {since : Option ℕ}
    (h : waitRounds clock services gate serviceName nodes n k since = some (j, .ok ()))
    (hsince : ∀ s ∈ since, ∃ i < k, s = clock.dated i ∧
      HealthyFrom clock services serviceName nodes i k) :
    ∃ i < j, clock.dated i + gate.minHealthyTime ≤ clock.dated j ∧
      HealthyFrom clock services serviceName nodes i (j + 1) := by
  -- the invariant `hsince` says which round the remembered instant belongs to
  induction n generalizing k since with
  | zero => cases h
  | succ n ih =>
    unfold waitRounds at h
    split at h
    · cases h
    split at h
    · rename_i hhealthy
      cases since with
      | none =>
        refine ih h ?_
        rintro _ ⟨⟩
        refine ⟨k, Nat.lt_succ_self k, rfl, fun j hij hjk => ?_⟩
        obtain rfl : j = k := by omega
        exact hhealthy
      | some s =>
        obtain ⟨i, hik, rfl, hfrom⟩ := hsince s rfl
        dsimp only at h
        split at h
        · rename_i hlong
          cases h
          have hmono := clock.dated_mono hik.le
          exact ⟨i, hik, by omega, hfrom.succ hhealthy⟩
        · refine ih h ?_
          rintro _ ⟨⟩
          exact ⟨i, Nat.lt_succ_of_lt hik, rfl, hfrom.succ hhealthy⟩
    · exact ih h (by rintro _ ⟨⟩)

/-- RUN: the only error is the timeout, after the deadline. -/
theorem waitRounds_error {n k j : ℕ} {since : Option ℕ} {e : DeployError}
    (h : waitRounds clock services gate serviceName nodes n k since = some (j, .error e)) :
    e = .healthTimeout ∧ gate.healthyDeadline < clock.checked j - clock.started := by
  induction n generalizing k since with
  | zero => cases h
  | succ n ih =>
    unfold waitRounds at h
    grind

theorem PollClock.Sleeps.checked_ge (h : clock.Sleeps) (k : ℕ) :
    clock.started + k * pollInterval ≤ clock.checked k := by
  induction k with
  | zero => simpa using clock.started_le
  | succ k ih =>
    have hsleep := h k
    have hround := (clock.checked_le k).trans (clock.sampled_le k)
    rw [Nat.succ_mul]
    omega

/-- The round in which a deadline is over at the latest. -/
theorem PollClock.Sleeps.late (h : clock.Sleeps) (deadline : ℕ) :
    deadline < clock.checked (deadline / pollInterval + 1) - clock.started := by
  have hlate := h.checked_ge (deadline / pollInterval + 1)
  have hbound : deadline < (deadline / pollInterval + 1) * pollInterval :=
    Nat.lt_mul_of_div_lt (Nat.lt_succ_self _) (by decide)
  omega

/-- RUN: the loop ends in the round that finds the deadline passed, if not before. -/
theorem waitRounds_returns {last : ℕ}
    (hlast : gate.healthyDeadline < clock.checked last - clock.started) :
    ∀ {n k : ℕ} (since : Option ℕ), k ≤ last → last < k + n → ∃ j r, j ≤ last ∧
      waitRounds clock services gate serviceName nodes n k since = some (j, r)
  | 0, k, _, hk, hn => absurd hn (by omega)
  | n + 1, k, since, hk, hn => by
    unfold waitRounds
    by_cases hlate : gate.healthyDeadline < clock.checked k - clock.started
    · rw [if_pos hlate]
      exact ⟨k, _, hk, rfl⟩
    rw [if_neg hlate]
    have hnext : k + 1 ≤ last := by
      grind
    have hrest : ∀ since, ∃ j r, j ≤ last ∧
        waitRounds clock services gate serviceName nodes n (k + 1) since = some (j, r) :=
      fun since => waitRounds_returns hlast since hnext (by omega)
    split
    · cases since with
      | none => exact hrest _
      | some s =>
        dsimp only
        split
        · exact ⟨k, _, hk, rfl⟩
        · exact hrest _
    · exact hrest _

end Rounds

/-! ### The clock of a timeline -/

namespace Timeline
variable (τ : Timeline) (started : ℕ)

/-- The time of each poll. -/
def pollAt : ℕ → ℕ
  | 0 => started
  | k + 1 => τ.nextPoll (pollAt k)

/-- The clock of a poll loop in which only the pauses take time. -/
@[simps] def clock : PollClock where
  started := started
  checked := τ.pollAt started
  sampled := τ.pollAt started
  dated := τ.pollAt started
  started_le := le_rfl
  checked_le _ := le_rfl
  sampled_le _ := le_rfl
  dated_le k := by simp only [pollAt, nextPoll]; omega

theorem clock_sleeps : (τ.clock started).Sleeps := fun _ => Nat.le_add_right _ _

end Timeline

/-- When a gate ended, and what it returned. -/
def GateEnd.result : GateEnd → ℕ × Except DeployError Unit
  | .passed _ til => (til, .ok ())
  | .timedOut time => (time, .error .healthTimeout)

section Link
variable {τ : Timeline} {gate : GateTimes} {serviceName : String}
  {nodes : List String} {started : ℕ}

/-- RUN: on the clock of a timeline the rounds are the polls. -/
theorem result_pollHealthy {n k j : ℕ} {since : Option ℕ} {r : Except DeployError Unit}
    (h : waitRounds (τ.clock started) τ.services gate serviceName nodes n k since = some (j, r)) :
    (pollHealthy τ gate serviceName nodes started since (τ.pollAt started k)).result =
      (τ.pollAt started j, r) := by
  induction n generalizing k since with
  | zero => cases h
  | succ n ih =>
    unfold waitRounds at h
    simp only [Timeline.clock_checked, Timeline.clock_started, Timeline.clock_sampled,
      Timeline.clock_dated] at h
    unfold pollHealthy
    split_ifs at h ⊢
    · cases h
      rfl
    · cases since with
      | none => exact ih h
      | some s =>
        simp only at h ⊢
        split_ifs at h ⊢
        · cases h
          rfl
        · exact ih h
    · exact ih h

/-- REFINEMENT: the gate of a rollout on a timeline is the loop of rounds on its clock. -/
theorem Timed.waitHealthy_refines (placements : List Placement) (w : TimedDispatch) :
    ∃ j r, waitRounds (τ.clock w.now) τ.services gate serviceName (placements.map (·.machineName))
        (gate.healthyDeadline / pollInterval + 2) 0 none = some (j, r) ∧
      (Timed.waitHealthy τ gate serviceName placements w).2.now = τ.pollAt w.now j ∧
      (Timed.waitHealthy τ gate serviceName placements w).1 = r.mapError .failed := by
  have hlate := (τ.clock_sleeps w.now).late gate.healthyDeadline
  obtain ⟨j, r, -, hrounds⟩ := waitRounds_returns hlate none (Nat.zero_le _)
    (by omega : _ < 0 + (gate.healthyDeadline / pollInterval + 2))
  refine ⟨j, r, hrounds, ?_⟩
  have hresult := result_pollHealthy hrounds
  unfold Timed.waitHealthy
  cases hend : pollHealthy τ gate serviceName (placements.map (·.machineName)) w.now none w.now <;>
    rw [Timeline.pollAt, hend] at hresult <;> cases hresult <;> exact ⟨rfl, rfl⟩

end Link

/-! ### What a sample says about the fleet -/

/-- The node is registered and carries the service with a healthy instance. -/
def FleetState.HealthyAt (s : FleetState) (serviceName node : String) : Prop :=
  ∃ n info, s.nodes.lookup node = some n ∧ n.services.lookup serviceName = some info ∧
    info.health = .healthy

theorem healthyAt_of_allHealthy {s : FleetState} {order : HashMap.Order} {serviceName : String}
    {nodes : List String} (h : allHealthy (s.fleetStatus order) serviceName nodes = true) :
    ∀ node ∈ nodes, s.HealthyAt serviceName node := by
  intro node hnode
  unfold allHealthy at h
  split at h
  · cases h
  rename_i svc hfind
  obtain rfl : svc.name = serviceName := by simpa using List.find?_some hfind
  obtain ⟨i, hi, hgood⟩ := List.any_eq_true.mp (List.all_eq_true.mp h node hnode)
  obtain ⟨rfl, hhealth⟩ : i.nodeId = node ∧ i.health = .healthy := by simpa using hgood
  rw [(FleetState.mem_fleetStatus.mp (List.mem_of_find?_eq_some hfind)).2, FleetState.mem_reportsOf,
    FleetState.mem_reports] at hi
  obtain ⟨n, info, hn, hinfo, heq⟩ := hi
  refine ⟨n, info, hn, hinfo, ?_⟩
  rwa [heq] at hhealth

/-- At most `n` rounds of `wait_healthy` against a fleet that changes in time. -/
def waitFleet (clock : PollClock) (fleet : ℕ → FleetState) (order : ℕ → HashMap.Order)
    (gate : GateTimes) (serviceName : String) (placements : List Placement) (n : ℕ) :
    Option (ℕ × Except DeployError Unit) :=
  waitRounds clock (fun t => (fleet t).fleetStatus (order t)) gate serviceName
    (placements.map (·.machineName)) n 0 none

/-- CORRECT: whatever the fleet does, a gate that is passed saw every node healthy at all samples
    from one to another that is dated at least the healthy time later; a gate that fails does so
    after its deadline; and if the pauses last a second, it returns after a bounded number of
    samples. -/
theorem wait_healthy_correct (clock : PollClock) (fleet : ℕ → FleetState)
    (order : ℕ → HashMap.Order) (gate : GateTimes) (serviceName : String)
    (placements : List Placement) :
    (∀ n j, waitFleet clock fleet order gate serviceName placements n = some (j, .ok ()) →
      ∃ i < j, clock.dated i + gate.minHealthyTime ≤ clock.dated j ∧
        ∀ k, i ≤ k → k ≤ j → ∀ p ∈ placements,
          (fleet (clock.sampled k)).HealthyAt serviceName p.machineName) ∧
    (∀ n j e, waitFleet clock fleet order gate serviceName placements n = some (j, .error e) →
      e = .healthTimeout ∧ gate.healthyDeadline < clock.checked j - clock.started) ∧
    (clock.Sleeps → ∀ n, gate.healthyDeadline / pollInterval + 2 ≤ n →
      ∃ j r, j ≤ gate.healthyDeadline / pollInterval + 1 ∧
        waitFleet clock fleet order gate serviceName placements n = some (j, r)) := by
  refine ⟨fun n j h => ?_, fun n j e h => waitRounds_error h, fun hsleeps n hn => ?_⟩
  · obtain ⟨i, hij, hlong, hhealthy⟩ := waitRounds_ok h (by rintro _ ⟨⟩)
    refine ⟨i, hij, hlong, fun k hik hkj p hp => ?_⟩
    refine healthyAt_of_allHealthy (hhealthy k hik (Nat.lt_succ_of_le hkj)) _ ?_
    exact List.mem_map_of_mem hp
  · exact waitRounds_returns (hsleeps.late _) none (Nat.zero_le _) (by omega)

/-- One node that carries `web` in the given health. -/
def webFleet (health : HealthStatus) : FleetState :=
  ⟨[⟨"n1", { lastHeartbeat := 0, services := [⟨"web", ⟨"web-0", "/nix/store/new-web", .running,
    health⟩⟩].toAList }⟩].toAList⟩

/-- `web` becomes healthy after one second. -/
def recovering (t : ℕ) : FleetState :=
  webFleet (if t < pollInterval then .unhealthy else .healthy)

/-- One second of health, within three. -/
def threeSeconds : GateTimes := ⟨pollInterval, 3 * pollInterval⟩

/-- With a poll every second, the gate of a service that recovers is passed in the third round, on
    the samples of the last two; that of a service that stays unhealthy fails in the fifth round,
    after its deadline. -/
theorem recovering_gate_passes :
    let clock := (listing []).clock 0
    waitFleet clock recovering (fun _ => .asBuilt) threeSeconds "web" [⟨"web", "web-0", "n1"⟩] 5 =
        some (2, .ok ()) ∧
      (∃ i < 2, clock.dated i + pollInterval ≤ clock.dated 2 ∧ ∀ k, i ≤ k → k ≤ 2 →
        (recovering (clock.sampled k)).HealthyAt "web" "n1") ∧
      waitFleet clock (fun _ => webFleet .unhealthy) (fun _ => .asBuilt) threeSeconds "web"
        [⟨"web", "web-0", "n1"⟩] 5 = some (4, .error .healthTimeout) ∧
      3 * pollInterval < clock.checked 4 - clock.started ∧ clock.Sleeps ∧
      ∃ j r, j ≤ 4 ∧ waitFleet clock recovering (fun _ => .asBuilt) threeSeconds "web"
        [⟨"web", "web-0", "n1"⟩] 5 = some (j, r) := by
  intro clock
  have hpasses : waitFleet clock recovering (fun _ => .asBuilt) threeSeconds "web"
      [⟨"web", "web-0", "n1"⟩] 5 = some (2, .ok ()) := by decide +kernel
  have hfails :
    waitFleet clock (fun _ => webFleet .unhealthy) (fun _ => .asBuilt) threeSeconds "web"
      [⟨"web", "web-0", "n1"⟩] 5 = some (4, .error .healthTimeout) := by decide +kernel
  have hsleeps : clock.Sleeps := (listing []).clock_sleeps 0
  have hrecovering := wait_healthy_correct clock recovering (fun _ => .asBuilt) threeSeconds "web"
    [⟨"web", "web-0", "n1"⟩]
  have hunhealthy := wait_healthy_correct clock (fun _ => webFleet .unhealthy) (fun _ => .asBuilt)
    threeSeconds "web" [⟨"web", "web-0", "n1"⟩]
  obtain ⟨i, hi, hlong, hhealthy⟩ := hrecovering.1 5 2 hpasses
  refine ⟨hpasses, ⟨i, hi, hlong, fun k hik hk => ?_⟩, hfails, ((hunhealthy.2.1 5 4 _ hfails).2),
    hsleeps, hrecovering.2.2 hsleeps 5 (by decide)⟩
  exact hhealthy k hik hk _ (List.mem_singleton_self _)

/-! ### The commands of a rollout -/

theorem chunks_of_ne_nil {α : Type} {n : ℕ} (hn : n ≠ 0) {l : List α} (hl : l ≠ []) :
    chunks n l = l.take n :: chunks n (l.drop n) := by
  have hpos : 0 < l.length := List.length_pos_iff.mpr hl
  have hcount : (l.length + n - 1) / n = ((l.drop n).length + n - 1) / n + 1 := by
    rw [List.length_drop]
    rcases Nat.lt_or_ge l.length n with hlt | hge
    · rw [Nat.sub_eq_zero_of_le hlt.le, Nat.div_eq_of_lt (by omega : 0 + n - 1 < n)]
      exact Nat.div_eq_of_lt_le (by omega) (by omega)
    · rw [show l.length + n - 1 = (l.length - n + n - 1) + n by omega,
        Nat.add_div_right _ (Nat.pos_of_ne_zero hn)]
  rw [chunks, hcount, List.range_succ_eq_map, List.map_cons, List.map_map, Nat.zero_mul,
    List.drop_zero]
  refine congrArg (List.cons _) (List.map_congr_left fun i _ => ?_)
  rw [Function.comp_apply, List.drop_drop, Nat.succ_mul, Nat.add_comm]

theorem flatten_chunks {α : Type} {n : ℕ} (hn : n ≠ 0) (l : List α) : (chunks n l).flatten = l := by
  induction hlen : l.length using Nat.strong_induction_on generalizing l with
  | _ m ih =>
    rcases eq_or_ne l [] with rfl | hl
    · rw [chunks_nil]
      rfl
    · have hpos : 0 < l.length := List.length_pos_iff.mpr hl
      rw [chunks_of_ne_nil hn hl, List.flatten_cons,
        ih (l.drop n).length (by rw [List.length_drop]; omega) (l.drop n) rfl]
      exact List.take_append_drop n l

theorem length_le_of_mem_chunks {α : Type} {n : ℕ} {l c : List α} (h : c ∈ chunks n l) :
    c.length ≤ n := by
  obtain ⟨i, -, rfl⟩ := List.mem_map.mp h
  exact List.length_take_le _ _

/-- The command for a placement. -/
def rollingCommand (deploymentId : String) (plan : DeploymentPlan) (p : Placement) :
    String × ServerMessage :=
  (p.machineName, .deploy ⟨deploymentId, plan.serviceName, plan.storePath, .rolling⟩)

namespace RolloutEvent

/-- The commands of a trace, whether they arrived or not. -/
def commands (trace : List RolloutEvent) : List (String × ServerMessage) :=
  (messages trace).map fun m => (m.node, m.message)

/-- The commands that arrived. -/
def deliveries (trace : List RolloutEvent) : List (String × ServerMessage) :=
  ((messages trace).filter (·.delivered)).map fun m => (m.node, m.message)

theorem commands_append (trace new : List RolloutEvent) :
    commands (trace ++ new) = commands trace ++ commands new := by
  simp [commands]

theorem deliveries_append (trace new : List RolloutEvent) :
    deliveries (trace ++ new) = deliveries trace ++ deliveries new := by
  simp [deliveries]

end RolloutEvent

namespace Timed
open RolloutEvent

/-- A computation sends the given commands in their order, all of them if it returns. -/
def Commands (cmds : List (String × ServerMessage)) (m : Deploy Unit) : Prop :=
  ∀ w, ∃ new, (m w).2.trace = w.trace ++ new ∧ commands new <+: cmds ∧ deliveries new <+: cmds ∧
    ((m w).1 = .ok () → commands new = cmds ∧ deliveries new = cmds)

theorem commands_pure : Commands [] (pure ()) :=
  fun _ => ⟨[], (List.append_nil _).symm, List.prefix_rfl, List.prefix_rfl, fun _ => ⟨rfl, rfl⟩⟩

theorem Commands.bind {cmds cmds' : List (String × ServerMessage)} {m : Deploy Unit}
    {f : Unit → Deploy Unit} (hm : Commands cmds m) (hf : ∀ u, Commands cmds' (f u)) :
    Commands (cmds ++ cmds') (m >>= f) := by
  intro w
  obtain ⟨new, htrace, hcommands, hdeliveries, hall⟩ := hm w
  rw [bind_apply]
  rcases hrun : m w with ⟨e | u, w₁⟩ <;> rw [hrun] at htrace hall
  · grind
  · obtain ⟨hcommands, hdeliveries⟩ := hall rfl
    obtain ⟨new', htrace', hcommands', hdeliveries', hall'⟩ := hf u w₁
    refine ⟨new ++ new', ?_, ?_, ?_, fun hok => ?_⟩
    · rw [htrace', htrace, List.append_assoc]
    · rw [commands_append, hcommands]
      exact (List.prefix_append_right_inj _).mpr hcommands'
    · rw [deliveries_append, hdeliveries]
      exact (List.prefix_append_right_inj _).mpr hdeliveries'
    grind [commands_append, deliveries_append]

section Commands
variable (τ : Timeline) (gate : GateTimes) (id : String) (plan : DeploymentPlan)

/-- STEP: one command; the rollout stops if it does not arrive. -/
theorem commands_rollPlacement (p : Placement) :
    Commands [rollingCommand id plan p] ((port τ gate).rollPlacement id plan p) := by
  intro w
  rw [Port.rollPlacement, bind_apply]
  rcases hreach : τ.reaches w.now p.machineName with _ | _
  · refine ⟨[.sent ⟨p.machineName, _, false⟩ (w.now + τ.sending w.now)], ?_, List.prefix_rfl,
      List.nil_prefix, ?_⟩ <;> simp only [port, sendDeploy, hreach] <;> cases plan.autoRevert
    · rfl
    · rfl
    · rintro ⟨⟩
    · rintro ⟨⟩
  · refine ⟨[.sent ⟨p.machineName, _, true⟩ (w.now + τ.sending w.now)], ?_, List.prefix_rfl,
      List.prefix_rfl, fun _ => ⟨rfl, rfl⟩⟩
    simp only [port, sendDeploy, hreach]
    rfl

/-- RUN: a batch. -/
theorem commands_batch : ∀ batch : List Placement,
    Commands (batch.map (rollingCommand id plan)) (batch.forM ((port τ gate).rollPlacement id plan))
  | [] => commands_pure
  | p :: ps => (commands_rollPlacement τ gate id plan p).bind fun _ => commands_batch ps

theorem commands_waitHealthy (serviceName : String) (ps : List Placement) :
    Commands [] (waitHealthy τ gate serviceName ps) := by
  intro w
  rw [waitHealthy]
  split
  · exact ⟨[_], rfl, List.prefix_rfl, List.prefix_rfl, fun _ => ⟨rfl, rfl⟩⟩
  · exact ⟨[_], rfl, List.prefix_rfl, List.prefix_rfl, fun _ => ⟨rfl, rfl⟩⟩

/-- RUN: batch after batch. -/
theorem commands_rollBatches : ∀ batches : List (List Placement),
    Commands (batches.flatten.map (rollingCommand id plan))
      ((port τ gate).rollBatches id plan batches)
  | [] => commands_pure
  | [batch] => by
    rw [List.flatten_singleton]
    exact commands_batch τ gate id plan batch
  | batch :: next :: rest => by
    rw [List.flatten_cons, List.map_append]
    refine (commands_batch τ gate id plan batch).bind fun _ => ?_
    exact (commands_waitHealthy τ gate plan.serviceName batch).bind fun _ =>
      commands_rollBatches (next :: rest)

end Commands

/-! ### The parts between two gates -/

/-- RUN: every batch of a returned rollout but the last was sent and then passed its gate, before
    the next one was sent. -/
theorem rollBatches_gated {τ : Timeline} {gate : GateTimes} {w w' : TimedDispatch} {id : String}
    {plan : DeploymentPlan} {batches : List (List Placement)}
    (h : (port τ gate).rollBatches id plan batches w = (.ok (), w')) :
    ∃ front last, w'.trace = w.trace ++ (front ++ last) ∧
      Gated τ gate plan.serviceName plan.storePath batches.dropLast front ∧
      List.Forall₂ (Delivers plan.serviceName plan.storePath w'.now) last
        (batches.getLastD []) := by
  induction batches generalizing w with
  | nil =>
    cases h
    exact ⟨[], [], (List.append_nil _).symm, .nil, .nil⟩
  | cons batch rest ih =>
    cases rest with
    | nil =>
      obtain ⟨-, sends, hsends, hall⟩ := batch_ok h
      exact ⟨[], sends, hsends, .nil, hall⟩
    | cons next rest =>
      obtain ⟨_, w₁, hbatch, hrest⟩ := bind_ok h
      obtain ⟨_, w₂, hgate, hrest⟩ := bind_ok hrest
      obtain ⟨-, sends, hsends, hall⟩ := batch_ok hbatch
      obtain ⟨since, til, hpassed, hnow, hlong, hpolls⟩ := waitHealthy_ok hgate
      obtain ⟨front, last, htrace, hgated, hlast⟩ := ih hrest
      refine ⟨sends ++ .passed batch since til :: front, last, ?_, ?_, ?_⟩
      · rw [htrace, hpassed, hsends]
        simp
      · rw [List.dropLast_cons_of_ne_nil (List.cons_ne_nil _ _)]
        exact .batch (hall.imp fun _ _ hdelivers => hdelivers.mono hnow) hlong hpolls hgated
      · simpa using hlast

end Timed

theorem infix_of_no_gate {part before after : List RolloutEvent} {e : RolloutEvent}
    (he : e.isPassed = true) (hpart : ∀ x ∈ part, x.isPassed = false)
    (h : part <:+: before ++ e :: after) : part <:+: before ∨ part <:+: after := by
  obtain ⟨s, t, heq⟩ := h
  rw [List.append_assoc] at heq
  rcases List.append_eq_append_iff.mp heq with ⟨u, rfl, hu⟩ | ⟨u, rfl, hu⟩
  · -- the part starts before the gate, so it ends there too
    rcases List.append_eq_append_iff.mp hu with ⟨v, rfl, -⟩ | ⟨v, rfl, hv⟩
    · exact .inl ⟨s, v, by simp⟩
    · rcases v with _ | ⟨x, v⟩
      · exact .inl ⟨s, [], by simp⟩
      grind
  · rcases u with _ | ⟨x, u⟩
    · rcases part with _ | ⟨x, part⟩
      · exact .inl List.nil_infix
      grind
    · obtain ⟨rfl, rfl⟩ := List.cons.inj hu
      exact .inr ⟨u, t, by simp⟩

theorem length_messages_le (trace : List RolloutEvent) : (messages trace).length ≤ trace.length :=
  List.length_filterMap_le _ _

/-- RUN: between two gates lies at most a batch. -/
theorem Gated.messages_le {τ : Timeline} {gate : GateTimes} {serviceName storePath : String}
    {batches : List (List Placement)} {front last part : List RolloutEvent} {n : ℕ}
    (h : Gated τ gate serviceName storePath batches front) (hsize : ∀ b ∈ batches, b.length ≤ n)
    (hlast : last.length ≤ n) (hpart : ∀ x ∈ part, x.isPassed = false)
    (hin : part <:+: front ++ last) : (messages part).length ≤ n := by
  induction h with
  | nil => exact ((length_messages_le part).trans hin.length_le).trans hlast
  | batch hsends _ _ _ ih =>
    rw [List.append_assoc, List.cons_append] at hin
    rcases infix_of_no_gate rfl hpart hin with hin | hin
    · refine ((length_messages_le part).trans hin.length_le).trans ?_
      rw [hsends.length_eq]
      exact hsize _ List.mem_cons_self
    · exact ih (fun b hb => hsize b (List.mem_cons_of_mem _ hb)) hin

theorem effectiveParallel_le {F : Type} [F64 F] {plan : DeploymentPlan} {n : UInt32}
    (h : effectiveParallel F plan = .ok n) :
    n.toNat ≤ plan.maxParallel.toNat ∧ ∀ budget, plan.disruptionBudget = some budget →
      n.toNat ≤ (allowedDisruptions F budget plan.totalReplicas).toNat := by
  unfold effectiveParallel at h
  cases hbudget : plan.disruptionBudget with
  | none =>
    rw [hbudget] at h
    cases h
    exact ⟨le_rfl, by rintro _ ⟨⟩⟩
  | some budget =>
    grind [Except.ok.inj, le_rfl, UInt32.le_iff_toNat_le, UInt32.lt_iff_toNat_lt, UInt32.not_le]

open RolloutEvent in
/-- CORRECT: a rolling deployment that returns sent one command to each placement, in their order;
    no more than a batch of them lie between two gates; and each batch but the last passed its gate
    before the next was sent. One that fails sent a first part of these commands. -/
theorem rolling_sends_in_batches (τ : Timeline) (gate : GateTimes) (F : Type) [F64 F] (id : String)
    (plan : DeploymentPlan) (w : TimedDispatch) (n : UInt32) (hn : effectiveParallel F plan = .ok n)
    (hpos : 1 ≤ n.toNat) :
    ∃ new, (Timed.executeRolling τ gate F id plan w).2.trace = w.trace ++ new ∧
      ((Timed.executeRolling τ gate F id plan w).1 = .ok () →
        commands new = plan.placements.map (rollingCommand id plan) ∧
        deliveries new = plan.placements.map (rollingCommand id plan) ∧
        (∀ part, part <:+: new → (∀ e ∈ part, e.isPassed = false) →
          (messages part).length ≤ plan.maxParallel.toNat ∧
          ∀ budget, plan.disruptionBudget = some budget →
            (messages part).length ≤ (allowedDisruptions F budget plan.totalReplicas).toNat) ∧
        ∃ front last til, new = front ++ last ∧
          Gated τ gate plan.serviceName plan.storePath
            (chunks n.toNat plan.placements).dropLast front ∧
          List.Forall₂ (Delivers plan.serviceName plan.storePath til) last
            ((chunks n.toNat plan.placements).getLastD [])) ∧
      (∀ e, (Timed.executeRolling τ gate F id plan w).1 = .error e →
        commands new <+: plan.placements.map (rollingCommand id plan) ∧
        deliveries new <+: plan.placements.map (rollingCommand id plan)) := by
  have hzero : n ≠ 0 := by
    rintro rfl
    exact absurd hpos (by decide)
  have hrun : Timed.executeRolling τ gate F id plan w =
      (Timed.port τ gate).rollBatches id plan (chunks n.toNat plan.placements) w := by
    rw [Timed.executeRolling, Port.executeRolling, hn]
    change (if n = 0 then fail .panic else _ : Timed.Deploy Unit) w = _
    rw [if_neg hzero]
  have hflatten : (chunks n.toNat plan.placements).flatten = plan.placements :=
    flatten_chunks (by omega) _
  obtain ⟨new, htrace, hcommands, hdeliveries, hall⟩ :=
    Timed.commands_rollBatches τ gate id plan (chunks n.toNat plan.placements) w
  rw [hflatten] at hcommands hdeliveries hall
  rw [hrun]
  refine ⟨new, htrace, fun hok => ?_, fun _ _ => ⟨hcommands, hdeliveries⟩⟩
  obtain ⟨front, last, hsplit, hgated, hlast⟩ := Timed.rollBatches_gated (Prod.ext hok rfl)
  obtain rfl : new = front ++ last := List.append_cancel_left (htrace.symm.trans hsplit)
  refine ⟨(hall hok).1, (hall hok).2, fun part hin hpart => ?_, front, last, _, rfl, hgated, hlast⟩
  have hsize : ∀ b ∈ (chunks n.toNat plan.placements).dropLast, b.length ≤ n.toNat :=
    fun b hb => length_le_of_mem_chunks (List.mem_of_mem_dropLast hb)
  have hlen : last.length ≤ n.toNat := by
    rw [hlast.length_eq]
    rcases hchunks : chunks n.toNat plan.placements with _ | ⟨b, rest⟩
    · exact Nat.zero_le _
    · refine length_le_of_mem_chunks (l := plan.placements) ?_
      rw [hchunks, List.getLastD_cons]
      exact List.getLastD_mem_cons
  have hpartLen := hgated.messages_le hsize hlen hpart hin
  obtain ⟨hmax, hbudget⟩ := effectiveParallel_le hn
  exact ⟨hpartLen.trans hmax, fun budget hb => hpartLen.trans (hbudget budget hb)⟩

namespace Timed

/-- A batch on a timeline on which every node is reached. -/
theorem batch_returns {τ : Timeline} (gate : GateTimes)
    (hreaches : ∀ t node, τ.reaches t node = true) (id : String) (plan : DeploymentPlan)
    (batch : List Placement) (w : TimedDispatch) :
    ∃ w', (batch.forM ((port τ gate).rollPlacement id plan) : Deploy PUnit) w = (.ok (), w') := by
  induction batch generalizing w with
  | nil => exact ⟨w, rfl⟩
  | cons p ps ih =>
    rw [forM_cons_apply, bind_apply, Port.rollPlacement, bind_apply]
    simp only [port, sendDeploy, hreaches]
    exact ih _

/-- A rollout on a timeline on which every node is reached and healthy returns. -/
theorem rollBatches_returns {τ : Timeline} {gate : GateTimes} (id : String) (plan : DeploymentPlan)
    (hreaches : ∀ t node, τ.reaches t node = true)
    (hmin : ∀ t, gate.minHealthyTime ≤ τ.nextPoll t - t)
    (hdeadline : ∀ t, τ.nextPoll t - t ≤ gate.healthyDeadline) (batches : List (List Placement))
    (hhealthy : ∀ b ∈ batches, ∀ t,
      allHealthy (τ.services t) plan.serviceName (b.map (·.machineName)) = true)
    (w : TimedDispatch) : ∃ w', (port τ gate).rollBatches id plan batches w = (.ok (), w') := by
  induction batches generalizing w with
  | nil => exact ⟨w, rfl⟩
  | cons batch rest ih =>
    obtain ⟨w₁, hbatch⟩ := batch_returns gate hreaches id plan batch w
    cases rest with
    | nil => exact ⟨w₁, hbatch⟩
    | cons next rest =>
      have hpoll := pollHealthy_healthy (hhealthy batch List.mem_cons_self) (hmin w₁.now)
        (hdeadline w₁.now)
      rw [Port.rollBatches, bind_apply, hbatch]
      · simp only [bind_apply, port, waitHealthy, hpoll]
        exact ih (fun b hb => hhealthy b (List.mem_cons_of_mem _ hb)) _
      · simp

end Timed

/-- `web` on three nodes. -/
def threeNodes : DeploymentPlan :=
  { canaryPlan with
    placements := [⟨"web", "web-0", "n1"⟩, ⟨"web", "web-1", "n2"⟩, ⟨"web", "web-2", "n3"⟩] }

/-- `web` reports that it is healthy on all of them. -/
def threeHealthy : Timeline :=
  listing [⟨"web", [⟨"web-0", "n1", .running, .healthy⟩, ⟨"web-1", "n2", .running, .healthy⟩,
    ⟨"web-2", "n3", .running, .healthy⟩]⟩]

open RolloutEvent in
/-- Three batches of one node: the rollout returns, all commands arrived, and the first two batches
    passed their gates before the next one was sent. -/
theorem three_batches_pass_two_gates :
    effectiveParallel Ratio threeNodes = .ok 1 ∧
    (Timed.executeRolling threeHealthy oneSecond Ratio "d-1" threeNodes {}).1 = .ok () ∧
    ∃ front last til,
      (Timed.executeRolling threeHealthy oneSecond Ratio "d-1" threeNodes {}).2.trace =
        front ++ last ∧
      deliveries (front ++ last) = threeNodes.placements.map (rollingCommand "d-1" threeNodes) ∧
      Gated threeHealthy oneSecond "web" "/nix/store/new-web"
        [[⟨"web", "web-0", "n1"⟩], [⟨"web", "web-1", "n2"⟩]] front ∧ gates front = 2 ∧
      List.Forall₂ (Delivers "web" "/nix/store/new-web" til) last [⟨"web", "web-2", "n3"⟩] := by
  have hreturns : (Timed.executeRolling threeHealthy oneSecond Ratio "d-1" threeNodes {}).1 =
      .ok () := by
    have hpause : ∀ t, threeHealthy.nextPoll t - t = pollInterval := by
      intro t
      simp [Timeline.nextPoll, threeHealthy, listing]
    have hhealthy : ∀ b ∈ chunks 1 threeNodes.placements,
        allHealthy (threeHealthy.services 0) "web" (b.map (·.machineName)) = true := by decide
    obtain ⟨w', hrun⟩ : ∃ w', (Timed.port threeHealthy oneSecond).rollBatches "d-1" threeNodes
        (chunks 1 threeNodes.placements) {} = (.ok (), w') :=
      Timed.rollBatches_returns "d-1" threeNodes (fun _ _ => rfl) (fun t => (hpause t).ge)
        (fun t => (hpause t).le.trans (by decide)) _ (fun b hb _ => hhealthy b hb) {}
    exact congrArg Prod.fst hrun
  obtain ⟨new, htrace, hok, -⟩ := rolling_sends_in_batches threeHealthy oneSecond Ratio "d-1"
    threeNodes {} 1 rfl (by decide)
  obtain ⟨-, hdeliveries, -, front, last, til, rfl, hgated, hlast⟩ := hok hreturns
  exact ⟨rfl, hreturns, front, last, til, htrace, hdeliveries, hgated, hgated.gates_eq, hlast⟩

end Ekafleet.Server
