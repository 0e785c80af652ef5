import Ekafleet.Lib.Codec
import Ekafleet.Lib.SavedStore

/-! Join tokens | source: attestation/join_token.rs

    A node joins with a token that is used once. Consuming a token removes it and leaves a record,
    which is looked up first, so a token registered again stays consumed. The records are saved
    under a read lock before the attestation is answered. -/

namespace Ekafleet.Attestation
open SavedStore Run

/-- More failures than this within the window, and attempts are rejected outright. -/
def rateLimitMaxFailures : ℕ := 20
def rateLimitWindowSecs : ℕ := 60

/-- A registered join token. -/
structure TokenEntry where
  /-- The only node the token attests, if any. -/
  boundNodeId : Option String
  createdAt : ℕ
  deriving DecidableEq, Repr

/-- Who used a token, and when. -/
structure ConsumedRecord where
  nodeId : String
  consumedAt : ℕ
  deriving DecidableEq, Repr

/-- The tables of the attestor. -/
structure State where
  tokens : HashMap String TokenEntry := ∅
  /-- The audit trail: tokens that were used. -/
  consumed : HashMap String ConsumedRecord := ∅
  /-- Times of recent failures; not saved. -/
  failures : List ℕ := []

/-- Why an attestation is refused. -/
inductive AttestationError where
  | failed (message : String)
  | invalidData (message : String)
  deriving DecidableEq, Repr

/-- The identity a node is given. -/
structure AttestationResult where
  nodeId : String
  selectors : List (String × String)
  deriving DecidableEq, Repr

/-- The calls to the attestor. -/
inductive JoinCall where
  | register (token : String) (boundNodeId : Option String)
  | expireOld (maxAgeSecs : ℕ)
  | attest (attestationData : Bytes) (nodeId : String)
  deriving DecidableEq, Repr

/-- What the calls return. -/
inductive JoinAnswer where
  | registered
  | expired (removed : ℕ)
  | attested (result : AttestationResult)
  | refused (error : AttestationError)
  deriving DecidableEq, Repr

/-- Register a token for one node. -/
def registerBound (token : String) (boundNodeId : Option String) (now : ℕ) (s : State) : State :=
  { s with tokens := s.tokens.insert token ⟨boundNodeId, now⟩ }

/-- Remove old tokens; the cutoff is computed before the call waits for the write lock. -/
def expireOld (maxAgeSecs started : ℕ) (s : State) : Outcome State JoinAnswer :=
  let cutoff := started - maxAgeSecs
  let tokens := s.tokens.retain fun _ entry => decide (cutoff ≤ entry.createdAt)
  let removed := s.tokens.entries.length - tokens.entries.length
  ⟨{ s with tokens }, .expired removed, decide (0 < removed)⟩

/-- Use a token for a node. -/
def consume (token nodeId : String) (now : ℕ) (s : State) :
    Outcome State (Except AttestationError Unit) :=
  let windowStart := now - rateLimitWindowSecs
  let s := { s with failures := s.failures.filter fun t => decide (windowStart ≤ t) }
  let refuse (message : String) : Outcome State (Except AttestationError Unit) :=
    ⟨{ s with failures := s.failures ++ [now] }, .error (.failed message), true⟩
  if rateLimitMaxFailures ≤ s.failures.length then
    ⟨s, .error (.failed "too many failed attestation attempts; try again later"), false⟩
  else if (s.consumed.lookup token).isSome then refuse "join token already consumed"
  else match s.tokens.lookup token with
    | none => refuse "unknown or already-used join token"
    | some entry =>
      if entry.boundNodeId.any (· ≠ nodeId) then refuse "join token is bound to a different node"
      else
        ⟨{ s with
            tokens := s.tokens.erase token
            consumed := s.consumed.insert token ⟨nodeId, now⟩ }, .ok (), true⟩

/-- The token in the data of an attestation. -/
def tokenOf (attestationData : Bytes) : Option String :=
  String.fromUTF8? ⟨attestationData.toArray⟩

/-- Attest a node; `wasBound` was read before the token is consumed. -/
def attest (attestationData : Bytes) (nodeId : String) (wasBound : Bool) (now : ℕ) (s : State) :
    Outcome State JoinAnswer :=
  match tokenOf attestationData with
  | none => ⟨s, .refused (.invalidData "token must be valid UTF-8"), false⟩
  | some token =>
    if token = "" then ⟨s, .refused (.invalidData "empty token"), false⟩
    else
      let out := consume token nodeId now s
      match out.answer with
      | .error e => ⟨out.contents, .refused e, out.saves⟩
      | .ok () =>
        ⟨out.contents, .attested ⟨nodeId, [("attestation_type", "join_token"),
          ("join_token:bound", if wasBound then "true" else "false"), ("node_id", nodeId)]⟩,
          out.saves⟩

/-- The store of the server, with `join_tokens.json` as its file. -/
def joinTokenStore : SavedStore State JoinCall JoinAnswer Bool where
  blank := {}
  look
    | .attest attestationData _, s =>
      ((tokenOf attestationData).bind s.tokens.lookup).any (·.boundNodeId.isSome)
    | _, _ => false
  perform
    | .register token boundNodeId, _, _, now, s =>
      ⟨registerBound token boundNodeId now s, .registered, true⟩
    | .expireOld maxAgeSecs, _, started, _, s => expireOld maxAgeSecs started s
    | .attest attestationData nodeId, wasBound, started, _, s =>
      attest attestationData nodeId wasBound started s
  load _ s := { s with failures := [] }

/-! ### What a call does to a token -/

theorem consume_cases (token nodeId : String) (now : ℕ) (s : State) :
    (∃ e, (consume token nodeId now s).answer = .error e ∧
      (consume token nodeId now s).contents.tokens = s.tokens ∧
      (consume token nodeId now s).contents.consumed = s.consumed) ∨
    (consume token nodeId now s).answer = .ok () ∧ (consume token nodeId now s).saves = true ∧
      s.consumed.lookup token = none ∧
      (∃ entry, s.tokens.lookup token = some entry ∧
        ∀ bound, entry.boundNodeId = some bound → bound = nodeId) ∧
      (consume token nodeId now s).contents.tokens = s.tokens.erase token ∧
      (consume token nodeId now s).contents.consumed = s.consumed.insert token ⟨nodeId, now⟩ := by
  unfold consume
  dsimp only
  split
  · exact .inl ⟨_, rfl, rfl, rfl⟩
  · split
    · exact .inl ⟨_, rfl, rfl, rfl⟩
    · next hunused =>
      split
      · exact .inl ⟨_, rfl, rfl, rfl⟩
      · next entry hentry =>
        split
        · exact .inl ⟨_, rfl, rfl, rfl⟩
        · next hbound =>
          refine .inr ⟨rfl, rfl, by simpa using hunused,
            ⟨entry, hentry, fun bound h => ?_⟩, rfl, rfl⟩
          simpa [h] using hbound

theorem attest_cases (attestationData : Bytes) (nodeId : String) (wasBound : Bool) (now : ℕ)
    (s : State) :
    (∃ e, (attest attestationData nodeId wasBound now s).answer = .refused e ∧
      (attest attestationData nodeId wasBound now s).contents.tokens = s.tokens ∧
      (attest attestationData nodeId wasBound now s).contents.consumed = s.consumed) ∨
    ∃ token result, tokenOf attestationData = some token ∧
      (attest attestationData nodeId wasBound now s).answer = .attested result ∧
      result.nodeId = nodeId ∧ (attest attestationData nodeId wasBound now s).saves = true ∧
      s.consumed.lookup token = none ∧
      (∃ entry, s.tokens.lookup token = some entry ∧
        ∀ bound, entry.boundNodeId = some bound → bound = nodeId) ∧
      (attest attestationData nodeId wasBound now s).contents.tokens = s.tokens.erase token ∧
      (attest attestationData nodeId wasBound now s).contents.consumed =
        s.consumed.insert token ⟨nodeId, now⟩ := by
  unfold attest
  split
  · exact .inl ⟨_, rfl, rfl, rfl⟩
  · next token htoken =>
    split
    · exact .inl ⟨_, rfl, rfl, rfl⟩
    · rcases consume_cases token nodeId now s with
        ⟨e, hanswer, htokens, hconsumed⟩ | ⟨hanswer, hsaves, hunused, hentry, htokens, hconsumed⟩
      · simp only [hanswer]
        exact .inl ⟨e, rfl, htokens, hconsumed⟩
      · simp only [hanswer]
        exact .inr ⟨token, _, htoken, rfl, rfl, hsaves, hunused, hentry, htokens, hconsumed⟩

/-! ### Single use -/

/-- The answer to a call that used the token. -/
def uses (token : String) : JoinCall → JoinAnswer → Bool
  | .attest attestationData _, .attested _ => tokenOf attestationData = some token
  | _, _ => false

/-- The token is used up. -/
def Consumed (token : String) (s : State) : Prop := (s.consumed.lookup token).isSome = true

variable {token : String}

theorem consumed_insert {s : State} (h : Consumed token s) (token' : String) (r : ConsumedRecord) :
    ((s.consumed.insert token' r).lookup token).isSome = true := by
  by_cases heq : token = token'
  · rw [heq, AList.lookup_insert]
    rfl
  · rwa [AList.lookup_insert_ne heq]

theorem respects_consumed (op : JoinCall) :
    Respects joinTokenStore (fun _ => Consumed token) op := by
  intro wasBound started now s h
  cases op with
  | register token' bound => exact h
  | expireOld maxAgeSecs => exact h
  | attest attestationData nodeId =>
    change (((attest attestationData nodeId wasBound started s).contents.consumed).lookup
      token).isSome = true
    rcases attest_cases attestationData nodeId wasBound started s with
      ⟨_, _, _, hconsumed⟩ | ⟨token', _, _, _, _, _, _, _, _, hconsumed⟩
    · rwa [hconsumed]
    · rw [hconsumed]
      exact consumed_insert h token' _

theorem exclusive_uses : Exclusive joinTokenStore (uses token) (Consumed token) where
  won {op wasBound started now s} h := by
    cases op with
    | register token' bound => cases h
    | expireOld maxAgeSecs => cases h
    | attest attestationData nodeId =>
      change uses token _ (attest attestationData nodeId wasBound started s).answer = true at h
      change _ ∧ Consumed token (attest attestationData nodeId wasBound started s).contents ∧
        (attest attestationData nodeId wasBound started s).saves = true
      rcases attest_cases attestationData nodeId wasBound started s with
        ⟨e, hanswer, -⟩ | ⟨token', result, htoken, hanswer, -, hsaves, hunused, -, -, hconsumed⟩
      · rw [hanswer] at h
        cases h
      · rw [hanswer, uses, htoken] at h
        obtain rfl : token' = token := by simpa using h
        refine ⟨by simp [Consumed, hunused], ?_, hsaves⟩
        rw [Consumed, hconsumed, AList.lookup_insert]
        rfl
  respects := respects_consumed
  load h := h

/-! ### Bound tokens -/

/-- The token is registered for no other node. -/
def BoundTo (node token : String) (s : State) : Prop :=
  ∀ entry, s.tokens.lookup token = some entry → entry.boundNodeId = some node

variable {node : String}

theorem respects_boundTo {op : JoinCall}
    (hop : ∀ bound, op = .register token bound → bound = some node) :
    Respects joinTokenStore (fun _ => BoundTo node token) op := by
  intro wasBound started now s h entry hentry
  cases op with
  | register token' bound =>
    change (s.tokens.insert token' ⟨bound, now⟩).lookup token = some entry at hentry
    by_cases heq : token = token'
    · subst heq
      rw [AList.lookup_insert] at hentry
      cases hentry
      exact hop bound rfl
    · rw [AList.lookup_insert_ne heq] at hentry
      exact h entry hentry
  | expireOld maxAgeSecs => exact h entry (HashMap.lookup_retain_eq_some.mp hentry).1
  | attest attestationData nodeId =>
    change ((attest attestationData nodeId wasBound started s).contents.tokens).lookup token =
      some entry at hentry
    rcases attest_cases attestationData nodeId wasBound started s with
      ⟨_, _, htokens, _⟩ | ⟨token', _, _, _, _, _, _, _, htokens, _⟩
    · rw [htokens] at hentry
      exact h entry hentry
    · rw [htokens] at hentry
      by_cases heq : token = token'
      · rw [heq, AList.lookup_erase] at hentry
        cases hentry
      · rw [AList.lookup_erase_ne heq] at hentry
        exact h entry hentry

/-- An attestation with the token is for the node. -/
def AttestsOnly (node token : String) (op : JoinCall) (r : JoinAnswer) : Prop :=
  ∀ attestationData nodeId result, op = .attest attestationData nodeId → r = .attested result →
    tokenOf attestationData = some token → nodeId = node ∧ result.nodeId = node

theorem attestsOnly_perform (op : JoinCall) (wasBound : Bool) (started now : ℕ) (s : State)
    (h : BoundTo node token s) :
    AttestsOnly node token op (joinTokenStore.perform op wasBound started now s).answer := by
  rintro attestationData nodeId result rfl hanswer htoken
  change (attest attestationData nodeId wasBound started s).answer = .attested result at hanswer
  rcases attest_cases attestationData nodeId wasBound started s with
    ⟨e, hrefused, -⟩ | ⟨token', result', htoken', hattested, hnode, -, -,
      ⟨entry, hentry, hbound⟩, -⟩
  · cases hrefused.symm.trans hanswer
  · cases hattested.symm.trans hanswer
    cases htoken'.symm.trans htoken
    have heq : node = nodeId := hbound node (h entry hentry)
    exact ⟨heq.symm, hnode.trans heq.symm⟩

/-- CORRECT: over every interleaving of attestations, registrations, sweeps and restarts a token
    is accepted at most once, and one that is only registered as bound to a node for that node. -/
theorem join_token_single_use (token node : String) (now : ℕ) :
    ∀ (tr : List (Event JoinCall JoinAnswer)) (w : World State JoinCall JoinAnswer Bool),
      run (step joinTokenStore) (fresh joinTokenStore now) tr = some w →
      wins (uses token) tr ≤ 1 ∧
      ((∀ id bound, .perform id (.register token bound) ∈ tr → bound = some node) →
        ∀ id op r, .answer id op r ∈ tr → AttestsOnly node token op r) := by
  intro tr w hrun
  refine ⟨wins_le_one exclusive_uses hrun, fun hregistered id op r hanswer => ?_⟩
  have hlast : Lasting joinTokenStore (fun _ => BoundTo node token) := ⟨fun _ h => h, fun h => h⟩
  refine good_of_answered hlast (fun _ entry h => by cases h)
    (fun op wasBound started now s h => attestsOnly_perform op wasBound started now s h)
    (fun id' op' hmem => respects_boundTo ?_) hrun hanswer
  rintro bound rfl
  exact hregistered id' bound hmem

/-- The token `abc`, presented for a node. -/
def presents (nodeId : String) : JoinCall := .attest [97, 98, 99] nodeId

/-- A token is used, registered again, and presented again after a restart. -/
def replay : List (Event JoinCall JoinAnswer) :=
  let result : AttestationResult := ⟨"n1", [("attestation_type", "join_token"),
    ("join_token:bound", "true"), ("node_id", "n1")]⟩
  let register : JoinCall := .register "abc" (some "n1")
  [.call register, .clock 0, .perform 0 register, .lock 0, .write 0, .answer 0 register .registered,
    .call (presents "n1"), .clock 1, .perform 1 (presents "n1"), .lock 1, .write 1,
    .answer 1 (presents "n1") (.attested result), .restart,
    .call register, .clock 2, .perform 2 register, .lock 2, .write 2,
    .answer 2 register .registered,
    .call (presents "n1"), .clock 3, .perform 3 (presents "n1"), .lock 3, .write 3,
    .answer 3 (presents "n1") (.refused (.failed "join token already consumed"))]

theorem join_token_replay_refused :
    (run (step joinTokenStore) (fresh joinTokenStore 0) replay).isSome = true ∧
      wins (uses "abc") replay ≤ 1 := by
  have hruns : (run (step joinTokenStore) (fresh joinTokenStore 0) replay).isSome = true := by
    decide +kernel
  obtain ⟨w, hw⟩ := Option.isSome_iff_exists.mp hruns
  exact ⟨hruns, (join_token_single_use "abc" "n1" 0 replay w hw).1⟩

end Ekafleet.Attestation
