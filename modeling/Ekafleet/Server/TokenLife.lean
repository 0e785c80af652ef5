import Ekafleet.Lib.SavedStore
import Ekafleet.Server.Rbac

/-! The life of an ACL token | source: server/rbac.rs

    Registrations and revocations run concurrently: each changes the map under the write lock and
    then saves it under a read lock, in two acquisitions. Since the read lock is held until the file
    is written, no stale map overwrites a newer one. -/

namespace Ekafleet.Server
open SavedStore Run

/-- The calls to the token store. -/
inductive TokenCall where
  | register (token : String) (role : Role) (description : String) (ttlSecs : Option ℕ)
      (ns : Option String)
  | revoke (token : String)
  deriving DecidableEq, Repr

/-- What the calls return. -/
inductive TokenAnswer where
  | registered
  | revoked (removed : Bool)
  deriving DecidableEq, Repr

variable (tokenKey : String → String)

/-- The token store of the server, with `tokens.json` as its file. The creation time of a token is
    read before the call waits for the write lock. -/
def tokenStore : SavedStore TokenStore TokenCall TokenAnswer Unit where
  blank := ∅
  look _ _ := ()
  perform
    | .register token role description ttlSecs ns, _, started, _, store =>
      ⟨registerWithOpts tokenKey started store token role description ttlSecs ns, .registered, true⟩
    | .revoke token, _, _, _, store =>
      let removed := (store.lookup (tokenKey token)).isSome
      ⟨store.erase (tokenKey token), .revoked removed, removed⟩
  -- expired tokens are discarded
  load now store := store.retain fun _ entry => !entry.isExpired now

theorem perform_revoke (token : String) (seen : Unit) (started now : ℕ) (store : TokenStore) :
    (tokenStore tokenKey).perform (.revoke token) seen started now store =
      ⟨store.erase (tokenKey token), .revoked (store.lookup (tokenKey token)).isSome,
        (store.lookup (tokenKey token)).isSome⟩ := rfl

abbrev TokenWorld := SavedStore.World TokenStore TokenCall TokenAnswer Unit
abbrev TokenEvent := Event TokenCall TokenAnswer

/-- The answer to a request that carries the token. -/
def authenticate (w : TokenWorld) (token : String) : Option (Role × TokenIdentity) :=
  authenticateSyncIdentity tokenKey w.now w.contents token

/-- The call registers a token with the digest of `token`. -/
def TokenCall.Registers (token : String) : TokenCall → Prop
  | .register token' .. => tokenKey token' = tokenKey token
  | .revoke _ => False

/-- No registration of the token takes effect. -/
def Unregistered (token : String) (tr : List TokenEvent) : Prop :=
  ∀ id op, .perform id op ∈ tr → ¬ op.Registers tokenKey token

/-- A registration of the token has taken effect and is still to be saved. -/
def Unsaved (token : String) (w : TokenWorld) : Prop :=
  ∃ op : TokenCall, op.Registers tokenKey token ∧ Pending w op

/-- The expiry time of the token has passed. -/
def Expired (token : String) (w : TokenWorld) : Prop :=
  ∃ e, w.contents.lookup (tokenKey token) = some e ∧ e.isExpired w.now = true

/-! ### Entries that let nobody in -/

/-- The token is not registered, or has expired. -/
def Lapsed (token : String) (now : ℕ) (store : TokenStore) : Prop :=
  ∀ e, store.lookup (tokenKey token) = some e → e.isExpired now = true

variable {tokenKey} {token : String} {w w' : TokenWorld}

theorem isExpired_later {e : TokenEntry} {t t' : ℕ} (hle : t ≤ t') (h : e.isExpired t = true) :
    e.isExpired t' = true := by
  cases hexp : e.expiresAt with
  | none => simp [TokenEntry.isExpired, hexp] at h
  | some exp =>
    simp only [TokenEntry.isExpired, hexp, Option.any_some, decide_eq_true_eq] at h ⊢
    omega

theorem authenticate_eq_none_iff :
    authenticate tokenKey w token = none ↔ Lapsed tokenKey token w.now w.contents := by
  rw [authenticate, authenticateSyncIdentity, Lapsed]
  grind

theorem lasting_lapsed : Lasting (tokenStore tokenKey) (Lapsed tokenKey token) where
  later hle h e he := isExpired_later hle (h e he)
  load h e he := h e (HashMap.lookup_retain_eq_some.mp he).1

theorem lookup_perform {op : TokenCall} (hop : ¬ op.Registers tokenKey token) {seen : Unit}
    {started now : ℕ} {store : TokenStore} {e : TokenEntry}
    (he : ((tokenStore tokenKey).perform op seen started now store).contents.lookup
      (tokenKey token) = some e) : store.lookup (tokenKey token) = some e := by
  cases op with
  | register token' role description ttlSecs ns =>
    have hne : tokenKey token ≠ tokenKey token' := fun h => hop h.symm
    exact (AList.lookup_insert_ne hne).symm.trans he
  | revoke token' =>
    grind [perform_revoke, AList.lookup_erase, AList.lookup_erase_ne]

theorem respects_lapsed {op : TokenCall} (hop : ¬ op.Registers tokenKey token) :
    Respects (tokenStore tokenKey) (Lapsed tokenKey token) op :=
  fun _ _ _ _ hlapsed e he => hlapsed e (lookup_perform hop he)

theorem revoke_lapses (seen : Unit) (started now : ℕ) (store : TokenStore)
    (h : ((tokenStore tokenKey).perform (.revoke token) seen started now store).answer =
      .revoked true) :
    ((tokenStore tokenKey).perform (.revoke token) seen started now store).saves = true ∧
      Lapsed tokenKey token now
        ((tokenStore tokenKey).perform (.revoke token) seen started now store).contents := by
  refine ⟨TokenAnswer.revoked.inj h, fun e he => ?_⟩
  rw [perform_revoke, AList.lookup_erase] at he
  cases he

/-! ### Entries on disk -/

/-- An entry in memory is on disk, or its registration is still to be saved. -/
def Recorded (tokenKey : String → String) (token : String) (w : TokenWorld) : Prop :=
  ∀ e, w.contents.lookup (tokenKey token) = some e →
    (w.onDisk (tokenStore tokenKey)).lookup (tokenKey token) = some e ∨ Unsaved tokenKey token w

theorem unsaved_step (hw : Sound w) (hu : Unsaved tokenKey token w) {e : TokenEvent}
    (h : step (tokenStore tokenKey) w e = some w') :
    Unsaved tokenKey token w' ∨ (∃ id, e = .write id) ∨ e = .restart := by
  obtain ⟨op, hop, hpending⟩ := hu
  rcases pending_step hw hpending h with hp | hend
  · exact .inl ⟨op, hop, hp⟩
  · exact .inr hend

/-- STEP -/
theorem recorded_step (hw : Sound w) (hr : Recorded tokenKey token w) {e : TokenEvent}
    (h : step (tokenStore tokenKey) w e = some w') : Recorded tokenKey token w' := by
  intro entry hentry
  -- a step that leaves the entry and the file alone
  have hframe : w.contents.lookup (tokenKey token) = some entry →
      w'.file = w.file → (∀ id, e ≠ .write id) → e ≠ .restart →
      (w'.onDisk (tokenStore tokenKey)).lookup (tokenKey token) = some entry ∨
        Unsaved tokenKey token w' := by
    intro hold hfile hwrite hrestart
    rcases hr entry hold with hdisk | hu
    · exact .inl (by rwa [SavedStore.World.onDisk, hfile])
    grind [unsaved_step]
  cases e with
  | tick now =>
    obtain ⟨-, rfl⟩ := step_tick.mp h
    exact hframe hentry rfl (by simp) (by simp)
  | call op => cases h; exact hframe hentry rfl (by simp) (by simp)
  | clock id =>
    obtain ⟨op, seen, -, rfl⟩ := step_clock.mp h
    exact hframe hentry rfl (by simp) (by simp)
  | perform id op =>
    obtain ⟨seen, started, -, -, rfl⟩ := step_perform.mp h
    by_cases hop : op.Registers tokenKey token
    · cases op with
      | register => exact .inr ⟨_, hop, pending_performIn id rfl⟩
      | revoke => exact absurd hop not_false
    · exact hframe (lookup_perform hop hentry) rfl (by simp) (by simp)
  | lock id =>
    obtain ⟨op, r, -, rfl⟩ := step_lock.mp h
    exact hframe hentry rfl (by simp) (by simp)
  | write id =>
    obtain ⟨op, r, data, hid, rfl⟩ := step_write.mp h
    obtain rfl := hw.saving hid
    exact .inl hentry
  | answer id op r =>
    obtain ⟨-, rfl⟩ := step_answer.mp h
    exact hframe hentry rfl (by simp) (by simp)
  | restart =>
    cases h
    refine .inl ?_
    cases hfile : w.file with
    | none =>
      rw [restartIn, hfile] at hentry
      cases hentry
    | some store =>
      have hload : ((tokenStore tokenKey).load w.now store).lookup (tokenKey token) =
        some entry := by
        rw [restartIn, hfile] at hentry
        exact hentry
      rw [SavedStore.World.onDisk, restartIn, hfile]
      exact (HashMap.lookup_retain_eq_some.mp hload).1

/-- RUN -/
theorem recorded_run {now : ℕ} {tr : List TokenEvent}
    (h : run (step (tokenStore tokenKey)) (fresh (tokenStore tokenKey) now) tr = some w) :
    Recorded tokenKey token w :=
  invariant_history (step (tokenStore tokenKey)) _ (fun _ => Recorded tokenKey token)
    (fun _ he => by cases he) (fun _ _ _ _ hrun hr he => recorded_step (sound_run hrun) hr he) h

/-! ### Tokens that have ended -/

/-- CORRECT: after a revocation that answered `true` the token is not accepted, unless a
    registration of it takes effect after the removal. After its expiry, with no registration of it
    still to be saved, the token is not accepted unless a registration takes effect after that. -/
theorem ended_token_refused (tokenKey : String → String) (token : String) (now : ℕ) :
    (∀ before id after w,
      run (step (tokenStore tokenKey)) (fresh (tokenStore tokenKey) now)
        (before ++ .perform id (.revoke token) :: after) = some w →
      .answer id (.revoke token) (.revoked true) ∈ after → Unregistered tokenKey token after →
      authenticate tokenKey w token = none) ∧
    ∀ before w after w',
      run (step (tokenStore tokenKey)) (fresh (tokenStore tokenKey) now) before = some w →
      Expired tokenKey token w → ¬ Unsaved tokenKey token w →
      run (step (tokenStore tokenKey)) w after = some w' → Unregistered tokenKey token after →
      authenticate tokenKey w' token = none := by
  constructor
  · intro before id after w hrun hanswer hafter
    have hkept := kept_of_answered lasting_lapsed hrun hanswer revoke_lapses
      fun id' op hmem => respects_lapsed (hafter id' op hmem)
    exact authenticate_eq_none_iff.mpr hkept.contents
  · rintro before w after w' hbefore ⟨e, he, hexpired⟩ hsaved hrun hafter
    have hdisk : (w.onDisk (tokenStore tokenKey)).lookup (tokenKey token) = some e :=
      (recorded_run hbefore e he).resolve_right hsaved
    -- memory and disk hold the same expired entry
    have hlapsed : Kept (tokenStore tokenKey) (Lapsed tokenKey token) w := by
      constructor
      · intro e' he'
        cases he.symm.trans he'
        exact hexpired
      · intro e' he'
        cases hdisk.symm.trans he'
        exact hexpired
    have hkept := kept_run lasting_lapsed (sound_run hbefore) hlapsed
      (fun id' op hmem => respects_lapsed (hafter id' op hmem)) hrun
    exact authenticate_eq_none_iff.mpr hkept.contents

/-- The calls of a session: a token for good, the same token for ten seconds, and its revocation. -/
def forGood : TokenCall := .register "t" .admin "deploys" none none
def forTenSeconds : TokenCall := .register "t" .admin "deploys" (some 10) none
def revocation : TokenCall := .revoke "t"

/-- A call from its start to its answer, without interruption. -/
def whole (id : ℕ) (op : TokenCall) (r : TokenAnswer) : List TokenEvent :=
  [.call op, .clock id, .perform id op, .lock id, .write id, .answer id op r]

def digest (token : String) : String := token

abbrev session (tr : List TokenEvent) : Option TokenWorld :=
  run (step (tokenStore digest)) (fresh (tokenStore digest) 0) tr

/-- Up to the removal, and from there on to a restart. -/
def beforeRemoval : List TokenEvent := whole 0 forGood .registered ++ [.call revocation, .clock 1]
def afterRemoval : List TokenEvent :=
  [.lock 1, .write 1, .answer 1 revocation (.revoked true), .restart]

/-- A token for ten seconds is registered, and they pass. -/
def expiry : List TokenEvent := whole 0 forTenSeconds .registered ++ [.tick 10]

/-- A token is refused after its revocation, and another after its expiry, also when the server has
    been started again. -/
theorem revoked_and_expired_refused :
    (∃ w, session (beforeRemoval ++ .perform 1 revocation :: afterRemoval) = some w ∧
      authenticate digest w "t" = none) ∧
    ∃ w w', session expiry = some w ∧ Expired digest "t" w ∧
      run (step (tokenStore digest)) w [.restart] = some w' ∧
        authenticate digest w' "t" = none := by
  have hruns : (session (beforeRemoval ++ .perform 1 revocation :: afterRemoval)).isSome =
    true := by
    decide +kernel
  obtain ⟨w, hw⟩ := Option.isSome_iff_exists.mp hruns
  have hexpiry : (session expiry).map (fun w => decide (
      (w.contents.lookup "t").map (·.isExpired w.now) = some true ∧ w.calls.keys = [] ∧
      (run (step (tokenStore digest)) w [.restart]).isSome = true)) = some true := by
    decide +kernel
  obtain ⟨v, hv, hstate⟩ := Option.map_eq_some_iff.mp hexpiry
  obtain ⟨hexpired, hcalls, hrestart⟩ := of_decide_eq_true hstate
  replace hexpired : Expired digest "t" v := Option.map_eq_some_iff.mp hexpired
  obtain ⟨v', hv'⟩ := Option.isSome_iff_exists.mp hrestart
  refine ⟨⟨w, hw, (ended_token_refused digest "t" 0).1 beforeRemoval 1 afterRemoval w hw ?_ ?_⟩,
    v, v', hv, hexpired, hv', (ended_token_refused digest "t" 0).2 expiry v [.restart]
      v' hv hexpired
      ?_ hv' ?_⟩
  · simp [afterRemoval, revocation]
  · intro id op h
    simp [afterRemoval] at h
  · -- no call is open
    have hnone : ∀ id, v.calls.lookup id = none := fun id =>
      AList.lookup_eq_none.mpr (by rw [AList.mem_keys, hcalls]; simp)
    rintro ⟨op, -, id, r, hpending | ⟨data, hpending⟩⟩ <;> rw [hnone id] at hpending <;>
      cases hpending
  · intro id op h
    simp at h

/-- A registration takes effect between the removal and the answer of a revocation. -/
def overlap : List TokenEvent :=
  beforeRemoval ++ [.perform 1 revocation] ++ whole 2 forGood .registered ++
    [.lock 1, .write 1, .answer 1 revocation (.revoked true)]

/-- A token is registered for good; a registration for ten seconds is not saved before it ends. -/
def unsavedExpiry : List TokenEvent :=
  whole 0 forGood .registered ++
    [.call forTenSeconds, .clock 1, .perform 1 forTenSeconds, .tick 10]

/-- A registration that takes effect during a revocation outlives its answer; and a restart brings
    back the registration that an expired one had replaced, if that was not yet saved. -/
theorem ended_token_accepted :
    (session overlap).map (fun w => (authenticate digest w "t").isSome) = some true ∧
    (session unsavedExpiry).map
      (fun w => (w.contents.lookup "t").map (·.isExpired w.now)) = some (some true) ∧
    (session (unsavedExpiry ++ [.restart])).map
      (fun w => (authenticate digest w "t").isSome) = some true := by
  decide +kernel

end Ekafleet.Server
