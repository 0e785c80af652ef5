import Ekafleet.Lib.Custody
import Ekafleet.Server.Canaries

/-! Canaries between rollouts and operators | source: server/api.rs, server/deployer.rs

    The registry has one slot for each service. A rollout that waits for an operator writes the slot
    of its service, a promote or fail RPC takes the slot's canary out and works on it without a
    lock, and a promotion that fails writes the canary back.
    Canaries are numbered in the order in which they started to wait. -/

namespace Ekafleet.Server
open Raft Scheduler Proto Effect

/-! ### The registry and the RPCs at work -/

/-- A canary with its number. -/
structure Ticket where
  serial : ℕ
  pending : PendingCanary

/-- What the operator decides on a canary. -/
inductive Verdict where | promote | fail
  deriving DecidableEq, Repr

/-- A canary that an RPC has taken out, and what the RPC is to do with it. -/
structure Work where
  verdict : Verdict
  ticket : Ticket

/-- The parked canaries, and the calls that work on one. -/
structure Board where
  store : HashMap String Ticket := ∅
  /-- The RPCs that are not finished, by number. -/
  working : HashMap ℕ Work := ∅
  arrived : ℕ := 0
  /-- The canaries that were promoted or failed. -/
  resolved : List ℕ := []

/-- The registry without the numbers. -/
def Board.registry (b : Board) : HashMap String PendingCanary :=
  HashMap.mapVal (fun _ t => t.pending) b.store

/-- What may happen next. The log is that of the messages sent so far. -/
inductive CanaryEvent where
  /-- A canary rollout comes to its end. -/
  | rollout (env : Environment) (timed : Bool) (id : String) (log : List Sent)
      (plan : DeploymentPlan)
  /-- An RPC takes the canary of a service. -/
  | take (rpc : ℕ) (ext : Extensions) (verdict : Verdict) (serviceName : String)
  /-- It has done its work. -/
  | conclude (rpc : ℕ) (env : Environment) (log : List Sent)

namespace Board
variable (F : Type) [F64 F]

/-- What becomes of a canary that was to be promoted. A panic loses it. -/
def concludePromotion (b : Board) (rpc : ℕ) (t : Ticket) : Except Halt Unit → Board
  | .ok () => { b with working := b.working.erase rpc, resolved := b.resolved ++ [t.serial] }
  | .error (.failed _) =>
    { b with working := b.working.erase rpc, store := b.store.insert t.pending.plan.serviceName t }
  | .error _ => { b with working := b.working.erase rpc }

/-- One event of the canaries. -/
def step (b : Board) : CanaryEvent → Option Board
  | .rollout env timed id log plan =>
    match executeCanary env F timed id plan ⟨log, b.registry⟩ with
    | (.error (.failed (.awaitingPromotion _)), w) =>
      (w.pendingCanaries.lookup plan.serviceName).map fun pending =>
        { b with
          store := b.store.insert plan.serviceName ⟨b.arrived, pending⟩, arrived := b.arrived + 1 }
    | _ => some b
  | .take rpc ext verdict serviceName =>
    if rpc ∈ b.working then none
    else match requirePermission ext .deploy, b.store.lookup serviceName with
      | .ok (), some t => some { b with
          store := b.store.erase serviceName, working := b.working.insert rpc ⟨verdict, t⟩ }
      | _, _ => some b
  | .conclude rpc env log =>
    match b.working.lookup rpc with
    | none => none
    | some ⟨.promote, t⟩ =>
      some (b.concludePromotion rpc t (promoteCanary env F t.pending ⟨log, b.registry⟩).1)
    | some ⟨.fail, t⟩ =>
      some { b with working := b.working.erase rpc, resolved := b.resolved ++ [t.serial] }

end Board

/-! ### What a rollout registers -/

section Rollout
variable {env : Environment} {F : Type} [F64 F] {timed : Bool} {id : String} {plan : DeploymentPlan}

theorem executeCanary_not_waiting {w : Dispatch}
    (h : ∀ id', (executeCanary env F timed id plan w).1 ≠
      .error (.failed (.awaitingPromotion id'))) :
    (executeCanary env F timed id plan w).2.pendingCanaries = w.pendingCanaries := by
  replace h := h id
  unfold executeCanary Port.executeCanary at h ⊢
  rcases hps : plan.placements with _ | ⟨canary, rest⟩ <;> rw [hps] at h
  · rfl
  have hsend : SameCanaries w (sendDeploy env timed id plan.serviceName plan.storePath .canary
      canary.machineName w).2 :=
    sameCanaries_sendDeploy w
  simp only [bind_apply, port_sendDeploy] at h ⊢
  rcases hs : sendDeploy env timed id plan.serviceName plan.storePath .canary canary.machineName w
    with ⟨e | delivered, w₁⟩ <;> simp only [hs] at h hsend ⊢
  · exact hsend
  cases delivered with
  | false => exact hsend
  | true =>
    have hwait : SameCanaries w₁ (waitHealthy env timed plan.serviceName [canary] w₁).2 :=
      sameCanaries_waitHealthy w₁
    simp only [if_true, bind_apply, port_waitHealthy] at h ⊢
    rcases hg : waitHealthy env timed plan.serviceName [canary] w₁ with ⟨e | _, w₂⟩ <;>
      simp only [hg] at h hwait ⊢
    · exact Eq.trans hwait hsend
    · unfold Port.promoteOrWait at h ⊢
      cases hpromote : plan.autoPromote <;> simp only [hpromote] at h ⊢
      · exact absurd rfl h
      · refine Eq.trans ?_ (Eq.trans hwait hsend)
        rcases rest with _ | ⟨p, rest⟩
        · rfl
        · exact sameCanaries_executeRolling w₂

variable (env F timed id plan) in
/-- CASES: a rollout registers its canary and waits, or leaves the registry alone. -/
theorem executeCanary_cases (w : Dispatch) :
    (∃ id' w' pending, executeCanary env F timed id plan w =
        (.error (.failed (.awaitingPromotion id')), w') ∧
          pending.plan.serviceName = plan.serviceName ∧
      w'.pendingCanaries = w.pendingCanaries.insert plan.serviceName pending) ∨
    ((∀ id', (executeCanary env F timed id plan w).1 ≠ .error (.failed (.awaitingPromotion id'))) ∧
      (executeCanary env F timed id plan w).2.pendingCanaries = w.pendingCanaries) := by
  by_cases h : ∃ id', (executeCanary env F timed id plan w).1 =
      .error (.failed (.awaitingPromotion id'))
  · obtain ⟨id', hid⟩ := h
    have hrun : executeCanary env F timed id plan w =
        (.error (.failed (.awaitingPromotion id')), (executeCanary env F timed id plan w).2) :=
      Prod.ext hid rfl
    obtain ⟨canary, rest, -, hregistered, -⟩ := executeCanary_waiting hrun
    exact .inl ⟨id', _, _, hrun, rfl, hregistered⟩
  · push Not at h
    exact .inr ⟨h, executeCanary_not_waiting h⟩

end Rollout

/-! ### The steps of the board -/

namespace Board
variable {F : Type} [F64 F] {b b' : Board}

/-- CASES: a rollout puts a new canary into its slot, or changes nothing. -/
theorem step_rollout {env : Environment} {timed : Bool} {id : String} {log : List Sent}
    {plan : DeploymentPlan} (h : b.step F (.rollout env timed id log plan) = some b') :
    (b' = b ∧ b'.registry =
      (executeCanary env F timed id plan ⟨log, b.registry⟩).2.pendingCanaries) ∨
    ∃ pending, pending.plan.serviceName = plan.serviceName ∧ b' = { b with
        store := b.store.insert plan.serviceName ⟨b.arrived, pending⟩, arrived := b.arrived + 1 } ∧
      b'.registry = (executeCanary env F timed id plan ⟨log, b.registry⟩).2.pendingCanaries := by
  rcases executeCanary_cases env F timed id plan ⟨log, b.registry⟩ with
    ⟨id', w', pending, hrun, hname, hregistered⟩ | ⟨hnot, hsame⟩
  · simp only [step, hrun, hregistered, AList.lookup_insert, Option.map_some,
      Option.some.injEq] at h
    subst h
    refine .inr ⟨pending, hname, rfl, ?_⟩
    rw [hrun, hregistered, registry, HashMap.mapVal_insert]
    rfl
  · have hb : b' = b := by
      simp only [step] at h
      split at h
      · next id' w hrun =>
        exact absurd (congrArg Prod.fst hrun) (hnot id')
      · exact (Option.some.inj h).symm
    exact .inl ⟨hb, by rw [hb, hsame]⟩

/-- CASES: an RPC takes the canary of its slot, or changes nothing. -/
theorem step_take {rpc : ℕ} {ext : Extensions} {verdict : Verdict} {name : String}
    (h : b.step F (.take rpc ext verdict name) = some b') :
    b' = b ∨ ∃ t, b.store.lookup name = some t ∧ rpc ∉ b.working ∧ b' = { b with
      store := b.store.erase name, working := b.working.insert rpc ⟨verdict, t⟩ } := by
  simp only [step] at h
  split at h
  · cases h
  · next hfree =>
    split at h
    · next t _ ht => exact .inr ⟨t, ht, hfree, (Option.some.inj h).symm⟩
    · exact .inl (Option.some.inj h).symm

/-- CASES: an RPC that has done its work resolved its canary, wrote it back because a promotion
    failed, or lost it. -/
theorem step_conclude {rpc : ℕ} {env : Environment} {log : List Sent}
    (h : b.step F (.conclude rpc env log) = some b') :
    ∃ work, b.working.lookup rpc = some work ∧
      (b' = { b with
          working := b.working.erase rpc, resolved := b.resolved ++ [work.ticket.serial] } ∨
        (work.verdict = .promote ∧
          (∃ e, (promoteCanary env F work.ticket.pending ⟨log, b.registry⟩).1 =
            .error (.failed e)) ∧
          b' = { b with
            working := b.working.erase rpc
            store := b.store.insert work.ticket.pending.plan.serviceName work.ticket }) ∨
        b' = { b with working := b.working.erase rpc }) := by
  simp only [step] at h
  split at h
  · cases h
  · next t ht =>
    refine ⟨_, ht, ?_⟩
    rcases hresult : (promoteCanary env F t.pending ⟨log, b.registry⟩).1 with halt | _ <;>
      rw [hresult] at h
    · cases halt with
      | failed e => exact .inr (.inl ⟨rfl, ⟨e, rfl⟩, (Option.some.inj h).symm⟩)
      | deadline => exact .inr (.inr (Option.some.inj h).symm)
      | panic => exact .inr (.inr (Option.some.inj h).symm)
    · exact .inl (Option.some.inj h).symm
  · next t ht => exact ⟨_, ht, .inl (Option.some.inj h).symm⟩

/-! ### Each canary is at one place -/

/-- The number held in a slot of the registry, or by an RPC. -/
def heldAt (store : HashMap String Ticket) (working : HashMap ℕ Work) : String ⊕ ℕ → Option ℕ
  | .inl name => (store.lookup name).map (·.serial)
  | .inr rpc => (working.lookup rpc).map (·.ticket.serial)

/-- The abstract view of the board: who holds which canary. -/
def custody (b : Board) : Custody.State (String ⊕ ℕ) where
  holds := heldAt b.store b.working
  issued := b.arrived
  spent := b.resolved

section Held
variable (store : HashMap String Ticket) (working : HashMap ℕ Work)

theorem heldAt_insert_store (name : String) (t : Ticket) :
    heldAt (store.insert name t) working =
      Function.update (heldAt store working) (.inl name) (some t.serial) := by
  funext h
  rcases h with name' | rpc
  · by_cases hname : name' = name
    · subst hname
      simp [heldAt]
    · simp [heldAt, AList.lookup_insert_ne hname, hname]
  · simp [heldAt]

theorem heldAt_erase_store (name : String) :
    heldAt (store.erase name) working =
      Function.update (heldAt store working) (.inl name) none := by
  funext h
  rcases h with name' | rpc
  · by_cases hname : name' = name
    · subst hname
      simp [heldAt]
    · simp [heldAt, AList.lookup_erase_ne hname, hname]
  · simp [heldAt]

theorem heldAt_insert_working (rpc : ℕ) (work : Work) :
    heldAt store (working.insert rpc work) =
      Function.update (heldAt store working) (.inr rpc) (some work.ticket.serial) := by
  funext h
  rcases h with name | rpc'
  · simp [heldAt]
  · by_cases hrpc : rpc' = rpc
    · subst hrpc
      simp [heldAt]
    · simp [heldAt, AList.lookup_insert_ne hrpc, hrpc]

theorem heldAt_erase_working (rpc : ℕ) :
    heldAt store (working.erase rpc) =
      Function.update (heldAt store working) (.inr rpc) none := by
  funext h
  rcases h with name | rpc'
  · simp [heldAt]
  · by_cases hrpc : rpc' = rpc
    · subst hrpc
      simp [heldAt]
    · simp [heldAt, AList.lookup_erase_ne hrpc, hrpc]

end Held

theorem custody_step {e : CanaryEvent} (h : b.step F e = some b') :
    b'.custody = b.custody ∨ Custody.Step b.custody b'.custody := by
  cases e with
  | rollout env timed id log plan =>
    rcases step_rollout h with ⟨rfl, -⟩ | ⟨pending, -, rfl, -⟩
    · exact .inl rfl
    · right
      simp only [custody]
      rw [heldAt_insert_store]
      exact .issue (Sum.inl plan.serviceName)
  | take rpc ext verdict name =>
    rcases step_take h with rfl | ⟨t, ht, -, rfl⟩
    · exact .inl rfl
    · right
      have hheld : heldAt b.store b.working (.inl name) = some t.serial := by simp [heldAt, ht]
      simp only [custody]
      rw [heldAt_insert_working, heldAt_erase_store, ← hheld]
      exact .move (Sum.inl name) (Sum.inr rpc)
  | conclude rpc env log =>
    obtain ⟨work, hwork, hcases⟩ := step_conclude h
    have hheld : heldAt b.store b.working (.inr rpc) = some work.ticket.serial := by
      simp [heldAt, hwork]
    right
    rcases hcases with rfl | ⟨-, -, rfl⟩ | rfl <;> simp only [custody]
    · rw [heldAt_erase_working]
      exact .spend hheld
    · rw [heldAt_insert_store, heldAt_erase_working, ← hheld]
      exact .move (Sum.inr rpc) (Sum.inl work.ticket.pending.plan.serviceName)
    · rw [heldAt_erase_working]
      exact .lose (Sum.inr rpc)

/-- RUN: custody is sound in every state reached. -/
theorem sound_custody {events : List CanaryEvent} (h : Run.run (step F) {} events = some b) :
    Custody.Sound b.custody := by
  have hinit : Custody.Sound ({} : Board).custody := by
    have hempty : ({} : Board).custody = ⟨fun _ => none, 0, []⟩ := by
      rw [custody, Custody.State.mk.injEq]
      refine ⟨funext fun place => ?_, rfl, rfl⟩
      rcases place with name | rpc <;> rfl
    rw [hempty]
    exact Custody.Sound.init
  refine Run.invariant (step F) (fun b => Custody.Sound b.custody) hinit (fun b e b' hb he => ?_) h
  rcases custody_step he with hsame | hstep
  · rw [hsame]
    exact hb
  · exact hb.step hstep

/-! ### The order of canaries in a slot -/

/-- A promotion that ends now fails, and meets a newer canary in the slot of its service. -/
def MeetsNewer (F : Type) [F64 F] (b : Board) : CanaryEvent → Prop
  | .conclude rpc env log => ∃ work t e, b.working.lookup rpc = some work ∧
      work.verdict = .promote ∧
      (promoteCanary env F work.ticket.pending ⟨log, b.registry⟩).1 = .error (.failed e) ∧
      b.store.lookup work.ticket.pending.plan.serviceName = some t ∧
      work.ticket.serial < t.serial
  | _ => False

/-- No slot goes from a newer canary to an older one. -/
def KeepsNewer (b b' : Board) : Prop :=
  ∀ name t t', b.store.lookup name = some t → b'.store.lookup name = some t' → t.serial ≤ t'.serial

theorem keepsNewer_insert {name : String} {t : Ticket} {b' : Board}
    (hstore : b'.store = b.store.insert name t)
    (hnewest : ∀ old, b.store.lookup name = some old → old.serial ≤ t.serial) :
    KeepsNewer b b' := by
  intro name' old new hold hnew
  grind [AList.lookup_insert, Option.some.injEq, AList.lookup_insert_ne]

theorem keepsNewer_of_store_eq (h : b'.store = b.store) : KeepsNewer b b' := by
  intro name t t' ht ht'
  rw [h, ht, Option.some.injEq] at ht'
  rw [ht']

/-- STEP: an older canary takes the place of a newer one exactly if a failing promotion meets it. -/
theorem keepsNewer_step_iff (hsound : Custody.Sound b.custody) {e : CanaryEvent}
    (h : b.step F e = some b') : KeepsNewer b b' ↔ ¬ MeetsNewer F b e := by
  cases e with
  | rollout env timed id log plan =>
    refine iff_of_true ?_ not_false
    rcases step_rollout h with ⟨rfl, -⟩ | ⟨pending, -, rfl, -⟩
    · exact keepsNewer_of_store_eq rfl
    · refine keepsNewer_insert rfl fun old hold => ?_
      have hheld : b.custody.holds (.inl plan.serviceName) = some old.serial := by
        simp [custody, heldAt, hold]
      exact Nat.le_of_lt (hsound.held_lt hheld)
  | take rpc ext verdict name =>
    refine iff_of_true ?_ not_false
    rcases step_take h with rfl | ⟨t, -, -, rfl⟩
    · exact keepsNewer_of_store_eq rfl
    · intro name' old new hold hnew
      by_cases hname : name' = name
      · subst hname
        rw [AList.lookup_erase] at hnew
        cases hnew
      · rw [AList.lookup_erase_ne hname, hold, Option.some.injEq] at hnew
        rw [hnew]
  | conclude rpc env log =>
    constructor
    · rintro hkeeps ⟨work, t, e, hwork, hverdict, hfails, ht, hlt⟩
      -- the failed promotion writes its canary over `t`
      have hb' : b'.store.lookup work.ticket.pending.plan.serviceName = some work.ticket := by
        rcases work with ⟨verdict, ticket⟩
        obtain rfl : verdict = .promote := hverdict
        simp only [step, hwork, hfails, concludePromotion, Option.some.injEq] at h
        rw [← h]
        exact AList.lookup_insert _
      exact absurd (hkeeps _ t work.ticket ht hb') (Nat.not_le_of_lt hlt)
    · intro hmeets
      obtain ⟨work, hwork, hcases⟩ := step_conclude h
      rcases hcases with rfl | ⟨hverdict, ⟨e, hfails⟩, rfl⟩ | rfl
      · exact keepsNewer_of_store_eq rfl
      · refine keepsNewer_insert rfl fun old hold => Nat.le_of_not_lt fun hlt => ?_
        exact hmeets ⟨work, old, e, hwork, hverdict, hfails, hold, hlt⟩
      · exact keepsNewer_of_store_eq rfl

/-- Along the run no older canary takes the place of a newer one. -/
def NeverOlder (F : Type) [F64 F] (events : List CanaryEvent) : Prop :=
  ∀ before e b b', before ++ [e] <+: events → Run.run (step F) {} before = some b →
    b.step F e = some b' → KeepsNewer b b'

end Board

/-- EXACT: in every interleaving of rollouts, promote and fail RPCs and failing promotions each
    canary is promoted or failed at most once; and no older canary takes the place of a newer one in
    the registry if and only if no promotion fails while a newer canary of its service is waiting.
    -/
theorem pending_canaries_iff (F : Type) [F64 F] (events : List CanaryEvent) (final : Board)
    (hrun : Run.run (Board.step F) {} events = some final) :
    final.resolved.Nodup ∧
    (Board.NeverOlder F events ↔
      ∀ before e b, before ++ [e] <+: events → Run.run (Board.step F) {} before = some b →
        ¬ b.MeetsNewer F e) := by
  refine ⟨(Board.sound_custody hrun).nodup, ?_⟩
  constructor
  · intro hnever before e b hinit hb
    obtain ⟨b', hstep⟩ := Run.exists_step (Board.step F) hrun hinit hb
    exact (Board.keepsNewer_step_iff (Board.sound_custody hb) hstep).mp
      (hnever before e b b' hinit hb hstep)
  · intro hmeets before e b b' hinit hb hstep
    exact (Board.keepsNewer_step_iff (Board.sound_custody hb) hstep).mpr
      (hmeets before e b hinit hb)

/-! ### A newer canary is lost -/

namespace Overwritten

/-- The rollout of a version of a service to two nodes, to be promoted by hand. -/
def plan (path : String) : DeploymentPlan where
  serviceName := "web"
  strategy := .canary
  maxParallel := 1
  placements := [⟨"web", "web-0", "n1"⟩, ⟨"web", "web-1", "n2"⟩]
  storePath := path
  autoRevert := false
  autoPromote := false
  progressDeadline := none
  disruptionBudget := none
  totalReplicas := 2
  previousStorePath := none

def operator : Extensions := { role := some .operator }

/-- Version 2 waits, and its promotion starts. -/
def promoting : List CanaryEvent :=
  [.rollout (answering true) false "d-2" [] (plan "/nix/store/v2"), .take 1 operator .promote "web"]

/-- Its promotion fails since the second node cannot be reached. -/
def unreachable : CanaryEvent := .conclude 1 (answering false) []

/-- If nothing else happens, the failed canary waits again. -/
theorem failed_promotion_retried :
    ∃ b, Run.run (Board.step Ratio) {} (promoting ++ [unreachable]) = some b ∧
      b.resolved.Nodup ∧ Board.NeverOlder Ratio (promoting ++ [unreachable]) := by
  have hempty :
    (Run.run (Board.step Ratio) {} promoting).map (·.store.entries.length) = some 0 := by
    decide +kernel
  have hruns : (Run.run (Board.step Ratio) {} (promoting ++ [unreachable])).isSome = true := by
    decide +kernel
  obtain ⟨b, hb⟩ := Option.isSome_iff_exists.mp hruns
  obtain ⟨honce, hiff⟩ := pending_canaries_iff Ratio _ b hb
  refine ⟨b, hb, honce, hiff.mpr fun before e b' hinit hb' hmeets => ?_⟩
  -- the only event that can meet a canary is the last one, and then the registry is empty
  rcases Run.concat_prefix_concat_iff.mp hinit with ⟨rfl, rfl⟩ | hearlier
  · obtain ⟨work, t, halt, -, -, -, ht, -⟩ := hmeets
    rw [hb', Option.map_some, Option.some.injEq, List.length_eq_zero_iff] at hempty
    have hmem := HashMap.mem_of_lookup ht
    rw [hempty] at hmem
    cases hmem
  · have hmem : e ∈ promoting := hearlier.subset (List.mem_append_right _ List.mem_cons_self)
    rcases List.mem_pair.mp hmem with rfl | rfl <;> exact hmeets

/-- If version 3 starts to wait in the meantime, the failed version 2 takes its place. -/
theorem older_replaces_newer :
    ((Run.run (Board.step Ratio) {} (promoting ++
        [.rollout (answering true) false "d-3" [] (plan "/nix/store/v3")])).bind fun b =>
      (b.store.lookup "web").map fun t => (t.serial, t.pending.deploymentId)) = some (1, "d-3") ∧
    ((Run.run (Board.step Ratio) {} (promoting ++
        [.rollout (answering true) false "d-3" [] (plan "/nix/store/v3"),
          unreachable])).bind fun b =>
      (b.store.lookup "web").map fun t => (t.serial, t.pending.deploymentId)) =
        some (0, "d-2") := by
  decide +kernel

end Overwritten

end Ekafleet.Server
