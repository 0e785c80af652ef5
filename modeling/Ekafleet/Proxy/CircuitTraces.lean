import Ekafleet.Lib.Run
import Ekafleet.Proxy.Circuit

/-! Runs of a circuit breaker | source: proxy/circuit.rs

    What a breaker does is told from the calls it served: how many failures came since the last
    success, when it last opened, and what was recorded since it became half-open. The counters of
    the code agree with that history in the states where the code reads them, also when the failure
    counter wraps while the breaker is open. -/

namespace Ekafleet.Proxy

/-- The calls to a breaker. -/
inductive Call where | allow | success | failure
  deriving DecidableEq, Repr

/-- A call on the breaker of an upstream and the instant at which it reads the clock. -/
structure TimedCall where
  now : ℕ
  call : Call
  deriving DecidableEq, Repr

def BreakerState.serve (b : BreakerState) (e : TimedCall) : BreakerState :=
  match e.call with
  | .allow => (b.allowRequest e.now).2
  | .success => b.recordSuccess
  | .failure => b.recordFailure e.now

/-- The breaker of an upstream after the calls on it since its creation. -/
def breakerAfter (config : CircuitConfig) (trace : List TimedCall) : BreakerState :=
  trace.foldl BreakerState.serve { config := config }

theorem breakerAfter_concat (config : CircuitConfig) (trace : List TimedCall) (e : TimedCall) :
    breakerAfter config (trace ++ [e]) = (breakerAfter config trace).serve e := by
  rw [breakerAfter, List.foldl_append]
  rfl

/-- The failures recorded since the last recorded success, or since creation. -/
def failuresSinceSuccess (trace : List TimedCall) : ℕ :=
  trace.foldl (fun n e => match e.call with
    | .allow => n
    | .success => 0
    | .failure => n + 1) 0

/-- The successes recorded in a part of a trace. -/
def successes (part : List TimedCall) : ℕ := part.countP (·.call = .success)

/-- The breaker moved to a state with call `e` and stayed in it through all of `since`. -/
structure InStateSince (config : CircuitConfig) (state : CircuitState)
    (trace before : List TimedCall)
    (e : TimedCall) (since : List TimedCall) : Prop where
  split : trace = before ++ e :: since
  moved : (breakerAfter config before).state ≠ state
  stayed : ∀ part, part <+: since → (breakerAfter config (before ++ e :: part)).state = state

/-! ### One call -/

theorem failuresSinceSuccess_concat (trace : List TimedCall) (e : TimedCall) :
    failuresSinceSuccess (trace ++ [e]) = match e.call with
      | .allow => failuresSinceSuccess trace
      | .success => 0
      | .failure => failuresSinceSuccess trace + 1 := by
  rw [failuresSinceSuccess, List.foldl_append]
  rfl

section Step
variable {config : CircuitConfig} {trace before since : List TimedCall} {e f : TimedCall}
  {state : CircuitState}

theorem inStateSince_moved (hbefore : (breakerAfter config trace).state ≠ state)
    (hafter : (breakerAfter config (trace ++ [e])).state = state) :
    InStateSince config state (trace ++ [e]) trace e [] where
  split := rfl
  moved := hbefore
  stayed part hpart := by
    rw [List.prefix_nil.mp hpart]
    exact hafter

theorem InStateSince.concat (h : InStateSince config state trace before f since)
    (hafter : (breakerAfter config (trace ++ [e])).state = state) :
    InStateSince config state (trace ++ [e]) before f (since ++ [e]) where
  split := by rw [h.split, List.append_assoc, List.cons_append]
  moved := h.moved
  stayed part hpart := by
    rcases List.prefix_concat_iff.mp hpart with rfl | hpart
    · rw [← List.cons_append, ← List.append_assoc, ← h.split]
      exact hafter
    · exact h.stayed part hpart

end Step

/-! ### The counters agree with the history -/

/-- The stay in half-open so far: what was recorded in it, and that it does not suffice to close. -/
structure Probing (config : CircuitConfig) (trace before : List TimedCall) (f : TimedCall)
    (since : List TimedCall) : Prop where
  stay : InStateSince config .halfOpen trace before f since
  noFailure : ∀ x ∈ since, x.call ≠ .failure
  counted : (breakerAfter config trace).consecutiveSuccesses.toNat = successes since
  short : successes since < config.successThreshold.toNat

/-- What the fields of the breaker say about the calls so far, each in the state that reads it. -/
structure Tracked (config : CircuitConfig) (trace : List TimedCall) : Prop where
  closed : (breakerAfter config trace).state = .closed →
    (breakerAfter config trace).consecutiveFailures.toNat = failuresSinceSuccess trace ∧
      failuresSinceSuccess trace < config.failureThreshold.toNat
  opened : (breakerAfter config trace).state = .opened → ∃ before f since,
    InStateSince config .opened trace before f since ∧
      (breakerAfter config trace).openedAt = some f.now
  halfOpen : (breakerAfter config trace).state = .halfOpen →
    ∃ before f since, Probing config trace before f since

section Calls
variable {config : CircuitConfig} {trace before since : List TimedCall} {e f : TimedCall}
  {b : BreakerState}

theorem tracked_of_closed (hstate : (breakerAfter config trace).state = .closed)
    (hcount : (breakerAfter config trace).consecutiveFailures.toNat = failuresSinceSuccess trace)
    (hlt : failuresSinceSuccess trace < config.failureThreshold.toNat) : Tracked config trace where
  closed _ := ⟨hcount, hlt⟩
  opened h := absurd (hstate.symm.trans h) (by decide)
  halfOpen h := absurd (hstate.symm.trans h) (by decide)

theorem tracked_of_opened (hsince : InStateSince config .opened trace before f since)
    (hstate : (breakerAfter config trace).state = .opened)
    (hopened : (breakerAfter config trace).openedAt = some f.now) : Tracked config trace where
  closed h := absurd (hstate.symm.trans h) (by decide)
  opened _ := ⟨before, f, since, hsince, hopened⟩
  halfOpen h := absurd (hstate.symm.trans h) (by decide)

theorem tracked_of_opens (hstate : (breakerAfter config trace).state ≠ .opened)
    (hafter : (breakerAfter config (trace ++ [e])).state = .opened)
    (hopened : (breakerAfter config (trace ++ [e])).openedAt = some e.now) :
    Tracked config (trace ++ [e]) :=
  tracked_of_opened (inStateSince_moved hstate hafter) hafter hopened

theorem Tracked.stay_opened (h : Tracked config trace)
    (hstate : (breakerAfter config trace).state = .opened)
    (hafter : (breakerAfter config (trace ++ [e])).state = .opened)
    (hsame : (breakerAfter config (trace ++ [e])).openedAt =
      (breakerAfter config trace).openedAt) : Tracked config (trace ++ [e]) := by
  obtain ⟨before, f, since, hsince, hopened⟩ := h.opened hstate
  exact tracked_of_opened (hsince.concat hafter) hafter (hsame.trans hopened)

theorem tracked_of_probing (h : Probing config trace before f since)
    (hstate : (breakerAfter config trace).state = .halfOpen) : Tracked config trace where
  closed h := absurd (hstate.symm.trans h) (by decide)
  opened h := absurd (hstate.symm.trans h) (by decide)
  halfOpen _ := ⟨before, f, since, h⟩

theorem toNat_succ_of_lt {n threshold : UInt32} (h : n.toNat < threshold.toNat) :
    (n + 1).toNat = n.toNat + 1 := by
  have hbound := threshold.toNat_lt
  rw [UInt32.toNat_add, UInt32.toNat_one, Nat.mod_eq_of_lt (by omega)]

theorem serve_config (b : BreakerState) (e : TimedCall) : (b.serve e).config = b.config := by
  cases hcall : e.call <;> cases hstate : b.state <;>
    simp only [BreakerState.serve, hcall, BreakerState.allowRequest, BreakerState.recordSuccess,
      BreakerState.recordFailure, hstate] <;> split_ifs <;> rfl

@[simp] theorem breakerAfter_config (config : CircuitConfig) (trace : List TimedCall) :
    (breakerAfter config trace).config = config := by
  induction trace using List.reverseRecOn with
  | nil => rfl
  | append_singleton trace e ih => rw [breakerAfter_concat, serve_config, ih]

/-! ### Being asked -/

theorem allowRequest_of_ne_opened (h : b.state ≠ .opened) (now : ℕ) :
    b.allowRequest now = (true, b) := by
  cases hstate : b.state with
  | opened => exact absurd hstate h
  | closed | halfOpen => simp only [BreakerState.allowRequest, hstate]

theorem allowRequest_of_opened {now opened : ℕ} (h : b.state = .opened)
    (hopened : b.openedAt = some opened) :
    b.allowRequest now = if b.config.openDuration ≤ now - opened then
      (true, { b with state := .halfOpen, consecutiveSuccesses := 0 }) else (false, b) := by
  simp only [BreakerState.allowRequest, h, hopened, Option.any_some, decide_eq_true_eq]

theorem Tracked.allow (h : Tracked config trace) (hs : 1 ≤ config.successThreshold)
    (hcall : e.call = .allow) : Tracked config (trace ++ [e]) := by
  have hserve : breakerAfter config (trace ++ [e]) =
      ((breakerAfter config trace).allowRequest e.now).2 := by
    rw [breakerAfter_concat, BreakerState.serve, hcall]
  cases hstate : (breakerAfter config trace).state with
  | closed =>
    rw [allowRequest_of_ne_opened (by rw [hstate]; decide)] at hserve
    obtain ⟨hcount, hlt⟩ := h.closed hstate
    grind [failuresSinceSuccess, failuresSinceSuccess_concat, tracked_of_closed]
  | opened =>
    obtain ⟨before, f, since, hsince, hopened⟩ := h.opened hstate
    rw [allowRequest_of_opened hstate hopened] at hserve
    split_ifs at hserve with hpassed
    · -- it becomes half-open with this call, and nothing has been recorded since
      have hafter : (breakerAfter config (trace ++ [e])).state = .halfOpen := by rw [hserve]
      have hmoved := inStateSince_moved (by rw [hstate]; decide) hafter
      refine tracked_of_probing ⟨hmoved, ?_, ?_, ?_⟩ hafter
      · exact fun x hx => absurd hx List.not_mem_nil
      · rw [hserve]; rfl
      · exact UInt32.le_iff_toNat_le.mp hs
    · exact h.stay_opened hstate (by rw [hserve, hstate]) (by rw [hserve])
  | halfOpen =>
    rw [allowRequest_of_ne_opened (by rw [hstate]; decide)] at hserve
    obtain ⟨before, f, since, hprobing⟩ := h.halfOpen hstate
    have hafter : (breakerAfter config (trace ++ [e])).state = .halfOpen := by rw [hserve, hstate]
    have hsame : successes (since ++ [e]) = successes since := by simp [successes, hcall]
    refine tracked_of_probing ⟨hprobing.stay.concat hafter, ?_, ?_, ?_⟩ hafter
    · exact List.forall_mem_append.mpr ⟨hprobing.noFailure, by simp [hcall]⟩
    · rw [hserve, hsame, hprobing.counted]
    · rw [hsame]; exact hprobing.short

/-! ### Recorded successes -/

theorem recordSuccess_of_ne_halfOpen (h : b.state ≠ .halfOpen) :
    b.recordSuccess = { b with consecutiveFailures := 0 } := by
  cases hstate : b.state with
  | halfOpen => exact absurd hstate h
  | closed | opened => simp only [BreakerState.recordSuccess, hstate]

theorem recordSuccess_of_halfOpen (h : b.state = .halfOpen) :
    b.recordSuccess = if b.config.successThreshold ≤ b.consecutiveSuccesses + 1 then
      { b with
        state := .closed, openedAt := none, consecutiveFailures := 0,
        consecutiveSuccesses := b.consecutiveSuccesses + 1 }
      else { b with
        consecutiveFailures := 0, consecutiveSuccesses := b.consecutiveSuccesses + 1 } := by
  simp only [BreakerState.recordSuccess, h]

theorem Tracked.success (h : Tracked config trace) (hf : 1 ≤ config.failureThreshold)
    (hcall : e.call = .success) : Tracked config (trace ++ [e]) := by
  have hserve : breakerAfter config (trace ++ [e]) = (breakerAfter config trace).recordSuccess := by
    rw [breakerAfter_concat, BreakerState.serve, hcall]
  have hfailures : failuresSinceSuccess (trace ++ [e]) = 0 := by
    rw [failuresSinceSuccess_concat, hcall]
  have hpositive : failuresSinceSuccess (trace ++ [e]) < config.failureThreshold.toNat := by
    rw [hfailures]; exact UInt32.le_iff_toNat_le.mp hf
  cases hstate : (breakerAfter config trace).state with
  | closed =>
    rw [recordSuccess_of_ne_halfOpen (by rw [hstate]; decide)] at hserve
    exact tracked_of_closed (by rw [hserve, hstate]) (by rw [hserve, hfailures]; rfl) hpositive
  | opened =>
    rw [recordSuccess_of_ne_halfOpen (by rw [hstate]; decide)] at hserve
    exact h.stay_opened hstate (by rw [hserve, hstate]) (by rw [hserve])
  | halfOpen =>
    rw [recordSuccess_of_halfOpen hstate, breakerAfter_config] at hserve
    obtain ⟨before, f, since, hprobing⟩ := h.halfOpen hstate
    have hsucc := toNat_succ_of_lt (hprobing.counted ▸ hprobing.short)
    have hcount : successes (since ++ [e]) = successes since + 1 := by simp [successes, hcall]
    split_ifs at hserve with hlast
    · exact tracked_of_closed (by rw [hserve]) (by rw [hserve, hfailures]; rfl) hpositive
    · have hafter : (breakerAfter config (trace ++ [e])).state = .halfOpen := by rw [hserve, hstate]
      refine tracked_of_probing ⟨hprobing.stay.concat hafter, ?_, ?_, ?_⟩ hafter
      · exact List.forall_mem_append.mpr ⟨hprobing.noFailure, by simp [hcall]⟩
      · rw [hserve, hcount, ← hprobing.counted]
        exact hsucc
      · rw [hcount, ← hprobing.counted, ← hsucc]
        exact not_le.mp fun hle => hlast (UInt32.le_iff_toNat_le.mpr hle)

/-! ### Recorded failures -/

theorem recordFailure_of_closed (h : b.state = .closed) (now : ℕ) :
    b.recordFailure now = if b.config.failureThreshold ≤ b.consecutiveFailures + 1 then
      { b with
        state := .opened, openedAt := some now, consecutiveSuccesses := 0,
        consecutiveFailures := b.consecutiveFailures + 1 }
      else { b with
        consecutiveSuccesses := 0, consecutiveFailures := b.consecutiveFailures + 1 } := by
  simp only [BreakerState.recordFailure, h]

theorem recordFailure_of_halfOpen (h : b.state = .halfOpen) (now : ℕ) :
    b.recordFailure now = { b with
      state := .opened, openedAt := some now, consecutiveSuccesses := 0,
      consecutiveFailures := b.consecutiveFailures + 1 } := by
  simp only [BreakerState.recordFailure, h]

theorem recordFailure_of_opened (h : b.state = .opened) (now : ℕ) :
    b.recordFailure now = { b with
      consecutiveSuccesses := 0, consecutiveFailures := b.consecutiveFailures + 1 } := by
  simp only [BreakerState.recordFailure, h]

theorem Tracked.failure (h : Tracked config trace) (hcall : e.call = .failure) :
    Tracked config (trace ++ [e]) := by
  have hserve : breakerAfter config (trace ++ [e]) =
      (breakerAfter config trace).recordFailure e.now := by
    rw [breakerAfter_concat, BreakerState.serve, hcall]
  cases hstate : (breakerAfter config trace).state with
  | closed =>
    rw [recordFailure_of_closed hstate, breakerAfter_config] at hserve
    obtain ⟨hcount, hlt⟩ := h.closed hstate
    have hsucc := toNat_succ_of_lt (hcount ▸ hlt)
    have hfailures : failuresSinceSuccess (trace ++ [e]) = failuresSinceSuccess trace + 1 := by
      rw [failuresSinceSuccess_concat, hcall]
    split_ifs at hserve with hreached
    · exact tracked_of_opens (by rw [hstate]; decide) (by rw [hserve]) (by rw [hserve])
    grind [tracked_of_closed, not_le, UInt32.le_iff_toNat_le]
  | opened =>
    rw [recordFailure_of_opened hstate] at hserve
    exact h.stay_opened hstate (by rw [hserve, hstate]) (by rw [hserve])
  | halfOpen =>
    rw [recordFailure_of_halfOpen hstate] at hserve
    exact tracked_of_opens (by rw [hstate]; decide) (by rw [hserve]) (by rw [hserve])

end Calls

/-! ### Whole runs -/

/-- RUN: the counters agree with the history after any calls. -/
theorem tracked_breakerAfter {config : CircuitConfig} (hf : 1 ≤ config.failureThreshold)
    (hs : 1 ≤ config.successThreshold) (trace : List TimedCall) : Tracked config trace := by
  induction trace using List.reverseRecOn with
  | nil => exact tracked_of_closed rfl rfl (UInt32.le_iff_toNat_le.mp hf)
  | append_singleton trace e ih =>
    cases hcall : e.call with
    | allow => exact ih.allow hs hcall
    | success => exact ih.success hf hcall
    | failure => exact ih.failure hcall

section Transitions
variable {config : CircuitConfig} {trace : List TimedCall} {e : TimedCall}

theorem opens_iff (h : Tracked config trace)
    (hstate : (breakerAfter config trace).state = .closed) :
    (breakerAfter config (trace ++ [e])).state = .opened ↔
      e.call = .failure ∧
        failuresSinceSuccess (trace ++ [e]) = config.failureThreshold.toNat := by
  rw [breakerAfter_concat, failuresSinceSuccess_concat]
  cases hcall : e.call with
  | allow =>
    rw [BreakerState.serve, hcall]
    simp only [allowRequest_of_ne_opened (by rw [hstate]; decide), hstate]
    exact iff_of_false (by decide) fun h => absurd h.1 (by decide)
  | success =>
    rw [BreakerState.serve, hcall]
    simp only [recordSuccess_of_ne_halfOpen (by rw [hstate]; decide), hstate]
    exact iff_of_false (by decide) fun h => absurd h.1 (by decide)
  | failure =>
    obtain ⟨hcount, hlt⟩ := h.closed hstate
    have hsucc := toNat_succ_of_lt (hcount ▸ hlt)
    rw [BreakerState.serve, hcall]
    simp only [recordFailure_of_closed hstate, breakerAfter_config, true_and]
    split_ifs with hreached
    · have hle := UInt32.le_iff_toNat_le.mp hreached
      exact iff_of_true rfl (by omega)
    · have hnle : ¬ config.failureThreshold.toNat ≤ _ := fun hle =>
        hreached (UInt32.le_iff_toNat_le.mpr hle)
      exact iff_of_false (by rw [hstate]; decide) (by omega)

theorem admits_iff (h : Tracked config trace)
    (hclock : (trace ++ [e]).Pairwise fun x y => x.now ≤ y.now)
    (hstate : (breakerAfter config trace).state = .opened) :
    ∃ before f since, InStateSince config .opened trace before f since ∧
      (((breakerAfter config trace).allowRequest e.now).1 = true ↔
        f.now + config.openDuration ≤ e.now) := by
  obtain ⟨before, f, since, hsince, hopened⟩ := h.opened hstate
  refine ⟨before, f, since, hsince, ?_⟩
  have hmem : f ∈ trace := by rw [hsince.split]; simp
  have hle : f.now ≤ e.now := (List.pairwise_append.mp hclock).2.2 f hmem e (by simp)
  rw [allowRequest_of_opened hstate hopened, breakerAfter_config]
  grind

theorem closes_after (h : Tracked config trace)
    (hstate : (breakerAfter config trace).state = .halfOpen)
    (hcloses : (breakerAfter config (trace ++ [e])).state = .closed) :
    ∃ before f since, InStateSince config .halfOpen trace before f since ∧
      (∀ x ∈ since ++ [e], x.call ≠ .failure) ∧
      successes (since ++ [e]) = config.successThreshold.toNat := by
  obtain ⟨before, f, since, hprobing⟩ := h.halfOpen hstate
  rw [breakerAfter_concat] at hcloses
  cases hcall : e.call with
  | allow =>
    rw [BreakerState.serve, hcall] at hcloses
    simp only [allowRequest_of_ne_opened (b := breakerAfter config trace) (by rw [hstate]; decide),
      hstate] at hcloses
    cases hcloses
  | success =>
    rw [BreakerState.serve, hcall] at hcloses
    simp only [recordSuccess_of_halfOpen hstate, breakerAfter_config] at hcloses
    have hsucc := toNat_succ_of_lt (hprobing.counted ▸ hprobing.short)
    split_ifs at hcloses with hlast
    · have hle := UInt32.le_iff_toNat_le.mp hlast
      have hcounted := hprobing.counted
      have hshort := hprobing.short
      have hcount : successes (since ++ [e]) = successes since + 1 := by simp [successes, hcall]
      refine ⟨before, f, since, hprobing.stay, ?_, by omega⟩
      exact List.forall_mem_append.mpr ⟨hprobing.noFailure, by simp [hcall]⟩
    · exact absurd (hstate.symm.trans hcloses) (by decide)
  | failure =>
    rw [BreakerState.serve, hcall] at hcloses
    simp only [recordFailure_of_halfOpen hstate] at hcloses
    cases hcloses

end Transitions

/-- CORRECT: after any calls on an upstream, a closed breaker opens with exactly the failure that is
    the threshold's one since the last success; an open one admits no request before the open
    duration has passed since it opened; a half-open one closes only with the last of the needed
    successes, with no failure since it became half-open. -/
theorem breaker_moves (config : CircuitConfig) (hf : 1 ≤ config.failureThreshold)
    (hs : 1 ≤ config.successThreshold) (trace : List TimedCall) (e : TimedCall)
    (hclock : (trace ++ [e]).Pairwise fun x y => x.now ≤ y.now) :
    ((breakerAfter config trace).state = .closed →
      ((breakerAfter config (trace ++ [e])).state = .opened ↔ e.call = .failure ∧
        failuresSinceSuccess (trace ++ [e]) = config.failureThreshold.toNat)) ∧
    ((breakerAfter config trace).state = .opened →
      ∃ before f since, InStateSince config .opened trace before f since ∧
        (((breakerAfter config trace).allowRequest e.now).1 = true ↔
          f.now + config.openDuration ≤ e.now)) ∧
    ((breakerAfter config trace).state = .halfOpen →
      (breakerAfter config (trace ++ [e])).state = .closed →
      ∃ before f since, InStateSince config .halfOpen trace before f since ∧
        (∀ x ∈ since ++ [e], x.call ≠ .failure) ∧
        successes (since ++ [e]) = config.successThreshold.toNat) := by
  have htracked := tracked_breakerAfter hf hs trace
  exact ⟨opens_iff htracked, admits_iff htracked hclock, closes_after htracked⟩

/-- Four failures leave the breaker with its default settings closed; the fifth opens it. -/
theorem breaker_moves_default :
    (breakerAfter {} (List.replicate 4 ⟨0, .failure⟩)).state = .closed ∧
      (breakerAfter {} (List.replicate 4 ⟨0, .failure⟩ ++ [⟨7, .failure⟩])).state = .opened := by
  refine ⟨by decide, ?_⟩
  have hmoves := breaker_moves {} (by decide) (by decide) (List.replicate 4 ⟨0, .failure⟩)
    ⟨7, .failure⟩ (by decide)
  exact (hmoves.1 (by decide)).mpr (by decide)

/-! ### Trial requests -/

/-- The breaker of an upstream, and for each request it admitted and that recorded nothing since,
    whether it was admitted as a trial. -/
structure Trials where
  breaker : BreakerState
  outstanding : List Bool := []

/-- Requests that pass through a breaker. -/
inductive RequestEvent where
  | arrive (now : ℕ)
  /-- The outcome of one of the outstanding requests is recorded. -/
  | record (now request : ℕ) (ok : Bool)

namespace Trials

/-- One event of a request. -/
def step (s : Trials) : RequestEvent → Option Trials
  | .arrive now =>
    let (admitted, breaker) := s.breaker.allowRequest now
    if admitted then some ⟨breaker, s.outstanding ++ [decide (breaker.state = .halfOpen)]⟩
    else some { s with breaker }
  | .record now request ok =>
    if request < s.outstanding.length then
      some ⟨if ok then s.breaker.recordSuccess else s.breaker.recordFailure now,
        s.outstanding.eraseIdx request⟩
    else none

def trials (s : Trials) : ℕ := s.outstanding.count true

/-- A request comes that the breaker takes for a trial, while another trial is outstanding. -/
def Crowds (s : Trials) : RequestEvent → Prop
  | .arrive now => 0 < s.trials ∧ (s.breaker.allowRequest now).2.state = .halfOpen
  | .record .. => False

theorem admitted_of_halfOpen {b : BreakerState} {now : ℕ}
    (h : (b.allowRequest now).2.state = .halfOpen) : (b.allowRequest now).1 = true := by
  by_cases hstate : b.state = .opened
  · unfold BreakerState.allowRequest at h ⊢
    simp only [hstate] at h ⊢
    split_ifs at h ⊢
    · rfl
    · rw [hstate] at h
      cases h
  · rw [allowRequest_of_ne_opened hstate]

theorem step_crowds {s s' : Trials} {e : RequestEvent} (h : s.Crowds e)
    (hstep : s.step e = some s') : s'.breaker.state = .halfOpen ∧ 1 < s'.trials := by
  cases e with
  | arrive now =>
    obtain ⟨htrial, hstate⟩ := h
    simp only [step, admitted_of_halfOpen hstate, if_true] at hstep
    cases hstep
    refine ⟨hstate, ?_⟩
    simp only [trials, hstate, decide_true, List.count_append, List.count_singleton_self]
    exact Nat.succ_lt_succ htrial
  | record now request ok => exact h.elim

/-- STEP: nothing else makes a second trial. -/
theorem step_trials {s s' : Trials} {e : RequestEvent} (hone : s.trials ≤ 1)
    (hcrowds : ¬ s.Crowds e)
    (hstep : s.step e = some s') : s'.trials ≤ 1 := by
  cases e with
  | arrive now =>
    simp only [step] at hstep
    split_ifs at hstep with hadmitted
    · cases hstep
      rw [trials, List.count_append]
      by_cases hstate : (s.breaker.allowRequest now).2.state = .halfOpen
      · have hnone : ¬ 0 < s.trials := fun htrial => hcrowds ⟨htrial, hstate⟩
        rw [trials] at hnone
        simp only [hstate, decide_true, List.count_singleton_self]
        omega
      · simpa [hstate, trials] using hone
    · cases hstep
      exact hone
  | record now request ok =>
    simp only [step] at hstep
    split_ifs at hstep
    all_goals
      cases hstep
      exact ((List.eraseIdx_sublist ..).count_le _).trans hone

/-- EXACT: in the runs in which no request comes that the breaker takes for a trial while another
    one is outstanding, and in no others, a half-open breaker has at most one outstanding trial all
    along. -/
theorem one_trial_iff (config : CircuitConfig) (events : List RequestEvent) :
    (∀ before s, before <+: events → Run.run step ⟨{ config := config }, []⟩ before = some s →
      s.breaker.state = .halfOpen → s.trials ≤ 1) ↔
    ∀ before e s s', before ++ [e] <+: events →
      Run.run step ⟨{ config := config }, []⟩ before = some s → s.step e = some s' →
        ¬ s.Crowds e := by
  have hexact := Run.along_iff step (P := fun _ s => s.trials ≤ 1) (C := fun s e => ¬ s.Crowds e)
    (show trials ⟨{ config := config }, []⟩ ≤ 1 from Nat.zero_le _) (fun _ s e s' _ hone hstep => by
      refine ⟨fun hone' hcrowds => ?_, fun hcrowds => step_trials hone hcrowds hstep⟩
      obtain ⟨-, htrials⟩ := step_crowds hcrowds hstep
      omega) events
  refine ⟨fun hone before e s s' hpre hrun hstep hcrowds => ?_, fun hcalm before s hpre hrun _ =>
    hexact.mpr hcalm before s hpre hrun⟩
  obtain ⟨hstate, htrials⟩ := step_crowds hcrowds hstep
  have := hone _ s' hpre ((Run.run_concat_iff step).mpr ⟨s, hrun, hstep⟩) hstate
  omega

/-- Five failures open the breaker; of two requests that come after the open duration, both are
    admitted. -/
theorem two_trials :
    ((Run.run step ⟨{ config := {} }, []⟩
      ((List.replicate 5 [.arrive 0, .record 0 0 false]).flatten ++
      [.arrive (30 * 10 ^ 9), .arrive (30 * 10 ^ 9)])).map fun s => (s.breaker.state, s.trials)) =
        some (.halfOpen, 2) := by
  decide +kernel

end Trials

/-! ### The registry -/

/-- A call made through the registry for one of its upstreams. -/
inductive RegistryCall where
  | configure (config : CircuitConfig)
  | timed (e : TimedCall)

namespace CircuitBreakerRegistry

def configure (serviceName : String) (config : CircuitConfig) (r : CircuitBreakerRegistry) :
    CircuitBreakerRegistry :=
  { r with breakers := r.breakers.insert serviceName { config } }

def serve (r : CircuitBreakerRegistry) (c : String × RegistryCall) : CircuitBreakerRegistry :=
  match c.2 with
  | .configure config => r.configure c.1 config
  | .timed e =>
    match e.call with
    | .allow => (r.allowRequest e.now c.1).2
    | .success => r.recordSuccess c.1
    | .failure => r.recordFailure e.now c.1

end CircuitBreakerRegistry

def registryAfter (config : CircuitConfig) (trace : List (String × RegistryCall)) :
    CircuitBreakerRegistry :=
  trace.foldl CircuitBreakerRegistry.serve { defaultConfig := config }

/-- How the breaker of an upstream is configured, and the calls on it since, after one more call.
    The first request asked for creates it; what is recorded before that is dropped. -/
def track (config : CircuitConfig) (serviceName : String)
    (h : Option (CircuitConfig × List TimedCall))
    (c : String × RegistryCall) : Option (CircuitConfig × List TimedCall) :=
  if c.1 = serviceName then
    match c.2 with
    | .configure config => some (config, [])
    | .timed e =>
      if e.call = .allow then some (h.elim (config, [e]) fun h => (h.1, h.2 ++ [e]))
      else h.map fun h => (h.1, h.2 ++ [e])
  else h

/-- The breaker of an upstream is the one its own calls give. -/
def Tracks (config : CircuitConfig) (serviceName : String) (r : CircuitBreakerRegistry)
    (h : Option (CircuitConfig × List TimedCall)) : Prop :=
  r.defaultConfig = config ∧
    r.breakers.lookup serviceName = h.map fun h => breakerAfter h.1 h.2

theorem Tracks.serve {config : CircuitConfig} {serviceName : String} {r : CircuitBreakerRegistry}
    {h : Option (CircuitConfig × List TimedCall)} (hr : Tracks config serviceName r h)
    (c : String × RegistryCall) :
    Tracks config serviceName (r.serve c) (track config serviceName h c) := by
  open CircuitBreakerRegistry in
  obtain ⟨rfl, hr⟩ := hr
  obtain ⟨name, config | ⟨now, call⟩⟩ := c
  · refine ⟨rfl, ?_⟩
    grind [CircuitBreakerRegistry.serve, configure, track, breakerAfter]
  · by_cases hname : name = serviceName
    · subst hname
      cases call <;> cases h <;> refine ⟨rfl, ?_⟩ <;>
        simp_all [CircuitBreakerRegistry.serve, track, allowRequest, recordSuccess, recordFailure,
          breaker, breakerAfter, BreakerState.serve]
    · cases call <;> refine ⟨rfl, ?_⟩ <;>
        simp [CircuitBreakerRegistry.serve, track, allowRequest, recordSuccess, recordFailure,
          hname, Ne.symm hname, hr]

/-- REFINEMENT: whatever is called for the other upstreams, the registry keeps for each upstream the
    breaker that its own calls since creation give. -/
theorem lookup_registryAfter (config : CircuitConfig) (serviceName : String)
    (trace : List (String × RegistryCall)) :
    (registryAfter config trace).breakers.lookup serviceName =
      (trace.foldl (track config serviceName) none).map fun h => breakerAfter h.1 h.2 := by
  have htracks : ∀ r h, Tracks config serviceName r h → Tracks config serviceName
      (trace.foldl CircuitBreakerRegistry.serve r) (trace.foldl (track config serviceName) h) := by
    induction trace with
    | nil => exact fun _ _ hr => hr
    | cons c trace ih => exact fun r h hr => ih _ _ (hr.serve c)
  exact (htracks _ _ ⟨rfl, rfl⟩).2

end Ekafleet.Proxy
