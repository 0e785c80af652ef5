import Ekafleet.Attestation.JoinToken

/-! The rate limit of join tokens | source: attestation/join_token.rs

    An attempt reads the time and then waits for the write lock, so its failure is recorded under an
    earlier time than it happens at, and is dropped too early. -/

namespace Ekafleet.Attestation

/-- An attempt that has read the time and waits for the write lock. -/
structure Attempt where
  token : String
  nodeId : String
  now : ℕ
  deriving DecidableEq, Repr

/-- The time at which an attempt got the lock and was evaluated, and its answer. -/
structure Evaluation where
  time : ℕ
  answer : Except AttestationError Unit

/-- The store between two restarts, with what was evaluated so far. -/
structure Attempts where
  clock : ℕ
  waiting : List Attempt := []
  state : State
  evaluated : List Evaluation := []

/-- What can happen between two restarts; `enter` is the moment the write lock is obtained. -/
inductive AttemptEvent where
  | tick (secs : ℕ)
  | begin (attestationData : Bytes) (nodeId : String)
  | enter (i : ℕ)
  | register (token : String) (boundNodeId : Option String)
  | expireOld (maxAgeSecs started : ℕ)

namespace Attempts

/-- One event. -/
def step (s : Attempts) : AttemptEvent → Option Attempts
  | .tick secs => some { s with clock := s.clock + secs }
  | .begin attestationData nodeId =>
    match tokenOf attestationData with
    | none => some s
    | some token =>
      if token = "" then some s
      else some { s with waiting := s.waiting ++ [⟨token, nodeId, s.clock⟩] }
  | .enter i => do
    let a ← s.waiting[i]?
    let out := consume a.token a.nodeId a.now s.state
    some { s with
      waiting := s.waiting.eraseIdx i
      state := out.contents
      evaluated := s.evaluated ++ [⟨s.clock, out.answer⟩] }
  | .register token boundNodeId =>
    some { s with state := registerBound token boundNodeId s.clock s.state }
  | .expireOld maxAgeSecs started =>
    some { s with state := (Attestation.expireOld maxAgeSecs started s.state).contents }

/-- After a restart no failures are known. -/
def restarted (clock : ℕ) (tokens : HashMap String TokenEntry)
    (consumed : HashMap String ConsumedRecord) : Attempts :=
  { clock, state := { tokens, consumed } }

/-- How an attempt is refused without a look at its token. -/
def tooMany : AttestationError := .failed "too many failed attestation attempts; try again later"

/-- The times at which tokens were looked up and rejected. -/
def wrong (s : Attempts) : List ℕ :=
  (s.evaluated.filter fun e => decide (e.answer ≠ .ok () ∧ e.answer ≠ .error tooMany)).map (·.time)

/-- How many wrong tokens were tried from `t` to 60 seconds later. -/
def wrongIn (s : Attempts) (t : ℕ) : ℕ :=
  s.wrong.countP fun time => decide (t ≤ time ∧ time ≤ t + rateLimitWindowSecs)

/-- The attempt that gets the lock has read the clock in the same second. -/
def prompt (s : Attempts) : AttemptEvent → Bool
  | .enter i => (s.waiting[i]?).all fun a => a.now = s.clock
  | _ => true

end Attempts

/-- EXACT: the failures after an attempt, and whether its token was looked up. -/
theorem consume_failures (token nodeId : String) (now : ℕ) (s : State) :
    let kept := s.failures.filter fun t => decide (now - rateLimitWindowSecs ≤ t)
    let out := consume token nodeId now s
    if rateLimitMaxFailures ≤ kept.length then
      out.answer = .error Attempts.tooMany ∧ out.contents.failures = kept
    else
      (out.answer = .ok () ∧ out.contents.failures = kept) ∨
        (out.answer ≠ .ok () ∧ out.answer ≠ .error Attempts.tooMany ∧
          out.contents.failures = kept ++ [now]) := by
  intro kept out
  split_ifs with hlimit
  · simp [out, consume, kept, Attempts.tooMany] at hlimit ⊢
    grind
  · simp only [out, consume, Attempts.tooMany]
    rw [if_neg hlimit]
    split
    · right; simp [kept]
    · split
      · right; simp [kept]
      · split
        · right; simp [kept]
        · left; simp [kept]

namespace Attempts

/-- The failures are the wrong tokens as far as later attempts count them, and no window holds
    more than the limit. -/
structure Counted (s : Attempts) : Prop where
  past : ∀ e ∈ s.evaluated, e.time ≤ s.clock
  kept : ∀ w, s.clock - rateLimitWindowSecs ≤ w →
    s.state.failures.filter (fun t => decide (w ≤ t)) = s.wrong.filter fun t => decide (w ≤ t)
  bound : ∀ t, s.wrongIn t ≤ rateLimitMaxFailures

/-- The attempts of a window that an attempt in it counts. -/
theorem wrongIn_le_length {s : Attempts} {t now : ℕ} (hnow : now ≤ t + rateLimitWindowSecs) :
    s.wrongIn t ≤
      (s.wrong.filter fun t => decide (now - rateLimitWindowSecs ≤ t)).length := by
  rw [wrongIn, ← List.countP_eq_length_filter]
  refine List.countP_mono_left fun x _ hx => ?_
  simp only [decide_eq_true_eq] at hx ⊢
  omega

theorem wrong_concat (s : Attempts) (e : Evaluation) (waiting : List Attempt) (state : State) :
    wrong { s with waiting, state, evaluated := s.evaluated ++ [e] } =
      s.wrong ++ if e.answer = .ok () ∨ e.answer = .error tooMany then [] else [e.time] := by
  by_cases hanswer : e.answer = .ok () ∨ e.answer = .error tooMany
  · rcases hanswer with h | h <;> simp [wrong, h]
  · simp only [not_or] at hanswer
    simp [wrong, List.filter_append, hanswer]

/-- STEP: a prompt attempt is counted, and its token is looked up only below the limit. -/
theorem Counted.enter {s : Attempts} (h : s.Counted) {i : ℕ} {a : Attempt}
    (ha : s.waiting[i]? = some a) (hnow : a.now = s.clock) {s' : Attempts}
    (hstep : s.step (.enter i) = some s') : s'.Counted := by
  have hkept := h.kept (a.now - rateLimitWindowSecs) (by rw [hnow])
  have hcases := consume_failures a.token a.nodeId a.now s.state
  simp only [hkept] at hcases
  simp only [step, ha] at hstep
  cases hstep
  generalize consume a.token a.nodeId a.now s.state = out at hcases ⊢
  -- What the attempt adds to the failures it adds to the wrong tokens, and only below the limit.
  obtain ⟨new, hwrong, hfailures, hnew⟩ : ∃ new,
      wrong { s with
        waiting := s.waiting.eraseIdx i
        state := out.contents
        evaluated := s.evaluated ++ [⟨s.clock, out.answer⟩] } = s.wrong ++ new ∧
      out.contents.failures =
        (s.wrong.filter fun t => decide (a.now - rateLimitWindowSecs ≤ t)) ++ new ∧
      (new = [] ∨ new = [a.now] ∧
        (s.wrong.filter fun t => decide (a.now - rateLimitWindowSecs ≤ t)).length <
          rateLimitMaxFailures) := by
    rw [wrong_concat]
    refine ⟨_, rfl, ?_⟩
    split_ifs at hcases with hlimit
    · simp [hcases]
    · rcases hcases with ⟨hanswer, hfailures⟩ | ⟨hne, hne', hfailures⟩
      · simp [hanswer, hfailures]
      · simpa [hne, hne', hfailures, hnow] using hlimit
  refine ⟨fun e he => ?_, fun w hw => ?_, fun t => ?_⟩
  · rcases List.mem_append.mp he with he | he
    · exact h.past e he
    · rw [List.mem_singleton.mp he]
  · rw [hwrong, hfailures, List.filter_append, List.filter_append, List.filter_filter]
    congr 1
    refine List.filter_congr fun t _ => ?_
    grind
  · rw [wrongIn, hwrong, List.countP_append]
    have hold := h.bound t
    rw [wrongIn] at hold
    rcases hnew with rfl | ⟨rfl, hbelow⟩
    · simpa using hold
    · rw [List.countP_singleton]
      split_ifs with hin
      · have hle := wrongIn_le_length (s := s) (of_decide_eq_true hin).2
        rw [wrongIn] at hle
        omega
      · exact hold

theorem Counted.step {s s' : Attempts} {e : AttemptEvent} (h : s.Counted)
    (hprompt : s.prompt e = true) (hstep : s.step e = some s') : s'.Counted := by
  cases e with
  | enter i =>
    rcases ha : s.waiting[i]? with _ | a
    · simp [Attempts.step, ha] at hstep
    · exact h.enter ha (by simpa [prompt, ha] using hprompt) hstep
  | tick secs =>
    cases hstep
    refine ⟨fun e he => Nat.le_add_right_of_le (h.past e he), fun w hw => h.kept w ?_, h.bound⟩
    exact (Nat.sub_le_sub_right (Nat.le_add_right _ _) _).trans hw
  | begin attestationData nodeId =>
    rw [Attempts.step] at hstep
    split at hstep
    · cases hstep
      exact h
    · split_ifs at hstep <;> cases hstep <;> exact ⟨h.past, h.kept, h.bound⟩
  | _ =>
    cases hstep
    exact ⟨h.past, h.kept, h.bound⟩

/-- RUN: as long as attempts get the lock in the second in which they read the clock. -/
theorem counted_of_run {clock : ℕ} {tokens : HashMap String TokenEntry}
    {consumed : HashMap String ConsumedRecord} {events : List AttemptEvent}
    (hprompt : ∀ before e s, before ++ [e] <+: events →
      Run.run step (restarted clock tokens consumed) before = some s → s.prompt e = true)
    {before : List AttemptEvent} (hbefore : before <+: events) {s : Attempts}
    (hrun : Run.run step (restarted clock tokens consumed) before = some s) : s.Counted := by
  refine Run.invariant_history step _ (fun tr s => tr <+: events → s.Counted) ?_ ?_ hrun hbefore
  · exact fun _ => ⟨by rintro _ ⟨⟩, fun _ _ => rfl, fun _ => Nat.zero_le _⟩
  · intro tr s e s' hs hinv hstep hpre
    exact (hinv ((List.prefix_append _ _).trans hpre)).step (hprompt tr e s hpre hs) hstep

/-- Sufficient: where every attempt gets the write lock in the second in which it read the clock, at
    most 20 wrong tokens are tried in any closed window of 60 seconds, a further attempt in it is
    refused whatever its token, and a refused attempt leaves the tables unchanged. -/
theorem at_most_twenty_wrong_tokens {clock : ℕ} {tokens : HashMap String TokenEntry}
    {consumed : HashMap String ConsumedRecord} {events : List AttemptEvent}
    (hprompt : ∀ before e s, before ++ [e] <+: events →
      Run.run step (restarted clock tokens consumed) before = some s → s.prompt e = true) :
    ∀ before s, before <+: events →
      Run.run step (restarted clock tokens consumed) before = some s →
      (∀ t, s.wrongIn t ≤ rateLimitMaxFailures) ∧
      ∀ i a, s.waiting[i]? = some a →
        (before ++ [.enter i] <+: events → ∀ t, s.wrongIn t = rateLimitMaxFailures →
          t ≤ s.clock → s.clock ≤ t + rateLimitWindowSecs →
            (consume a.token a.nodeId a.now s.state).answer = .error tooMany) ∧
        ((consume a.token a.nodeId a.now s.state).answer ≠ .ok () →
          (consume a.token a.nodeId a.now s.state).contents.tokens = s.state.tokens ∧
            (consume a.token a.nodeId a.now s.state).contents.consumed = s.state.consumed) := by
  intro before s hbefore hrun
  have hcounted := counted_of_run hprompt hbefore hrun
  refine ⟨hcounted.bound, fun i a ha => ⟨fun hnext t hfull _ hto => ?_, fun hrefused => ?_⟩⟩
  · have hnow : a.now = s.clock := by simpa [prompt, ha] using hprompt _ _ s hnext hrun
    have hkept := hcounted.kept (a.now - rateLimitWindowSecs) (by rw [hnow])
    have hcases := consume_failures a.token a.nodeId a.now s.state
    simp only [hkept] at hcases
    rw [if_pos (hfull ▸ wrongIn_le_length (hnow ▸ hto))] at hcases
    exact hcases.1
  · rcases consume_cases a.token a.nodeId a.now s.state with ⟨e, -, htables⟩ | ⟨hok, -⟩
    · exact htables
    · exact absurd hok hrefused

/-- An attempt with the unknown token `x` that does not wait. -/
def wrongAttempt : List AttemptEvent := [.begin [120] "n1", .enter 0]

/-- Twenty attempts that read the clock at 0 get the lock at 1; one more comes at 61. -/
def delayed : List AttemptEvent :=
  List.replicate 20 (.begin [120] "n1") ++ .tick 1 :: List.replicate 20 (.enter 0) ++
    .tick 60 :: wrongAttempt

theorem twenty_one_wrong_tokens :
    (Run.run step (restarted 0 ∅ ∅) delayed).map (·.wrongIn 1) = some 21 := by
  decide +kernel

/-- A wrong token every second for twenty seconds, and then the good token `g`. -/
def burst : List AttemptEvent :=
  .register "g" none :: (List.replicate 20 (.tick 1 :: wrongAttempt)).flatten ++
    [.tick 1, .begin [103] "n1"]

/-- The window is full after the twenty; the good token is refused and stays as it is. -/
theorem good_token_refused_in_burst :
    ∃ s a, Run.run step (restarted 0 ∅ ∅) burst = some s ∧ s.wrongIn 1 = 20 ∧
      s.waiting[0]? = some a ∧ a.token = "g" ∧
      (consume a.token a.nodeId a.now s.state).answer = .error tooMany ∧
      (consume a.token a.nodeId a.now s.state).contents.tokens = s.state.tokens := by
  have hcheck : Run.check step prompt (restarted 0 ∅ ∅) (burst ++ [.enter 0]) = true := by
    decide +kernel
  have hstate : (Run.run step (restarted 0 ∅ ∅) burst).map (fun s =>
      (s.clock, s.wrongIn 1, s.waiting[0]?)) = some (21, 20, some ⟨"g", "n1", 21⟩) := by
    decide +kernel
  obtain ⟨s, hrun, hs⟩ := Option.map_eq_some_iff.mp hstate
  obtain ⟨hclock, hfull, ha⟩ : s.clock = 21 ∧ s.wrongIn 1 = 20 ∧
    s.waiting[0]? = some ⟨"g", "n1", 21⟩ := by simpa using hs
  obtain ⟨-, hrefused⟩ := at_most_twenty_wrong_tokens (fun _ _ _ => Run.of_check step hcheck) burst
    s (List.prefix_append _ _) hrun
  obtain ⟨hanswer, htables⟩ := hrefused 0 _ ha
  have hmany := hanswer (List.prefix_refl _) 1 hfull (by omega) (by rw [hclock]; decide)
  refine ⟨s, _, hrun, hfull, ha, rfl, hmany, (htables ?_).1⟩
  rw [hmany]
  rintro ⟨⟩

end Attempts

end Ekafleet.Attestation
