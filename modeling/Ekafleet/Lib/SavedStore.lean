import Ekafleet.Lib.HashMap
import Ekafleet.Lib.Run

/-! A store behind a read-write lock that is saved to a file.

    Calls run concurrently. A call looks at the contents, reads the clock, changes the contents
    under the write lock, and, if there is something to save, writes them to the file under a read
    lock that it holds until the file is written; then it answers. A restart loses all calls and
    starts from the file. Three rules follow: what all calls keep holds in memory and on disk
    (`kept_run`), what a call has achieved when it answers survives restarts (`kept_of_answered`),
    and a success that is saved before it is answered is answered at most once (`wins_le_one`). -/

/-- What a call leaves when it gives the write lock back. -/
structure SavedStore.Outcome (σ ρ : Type) where
  contents : σ
  answer : ρ
  /-- The contents are saved before the answer is given. -/
  saves : Bool

/-- The operations of a store with contents `σ`, calls `ω` and answers `ρ`; `π` is what a call sees
    of the contents before it waits for the write lock. -/
structure SavedStore (σ ω ρ π : Type) where
  blank : σ
  look : ω → σ → π
  perform : ω → π → (started now : ℕ) → σ → SavedStore.Outcome σ ρ
  /-- What a start keeps of the contents of the file. -/
  load : (now : ℕ) → σ → σ

namespace SavedStore
open Run

variable {σ ω ρ π : Type}

/-- Where a call is. -/
inductive Phase (σ ω ρ π : Type) where
  | called (op : ω) (seen : π)
  | waiting (op : ω) (seen : π) (started : ℕ)
  | unsaved (op : ω) (answer : ρ)
  /-- Holds the read lock, with the contents it is writing. -/
  | saving (op : ω) (answer : ρ) (data : σ)
  | done (op : ω) (answer : ρ)

/-- The answer of a call that has made its change. -/
def Phase.outcome : Phase σ ω ρ π → Option (ω × ρ)
  | .called _ _ | .waiting _ _ _ => none
  | .unsaved op r | .saving op r _ | .done op r => some (op, r)

def Phase.isSaving : Phase σ ω ρ π → Bool
  | .saving _ _ _ => true
  | _ => false

/-- Memory, file, clock and open calls. -/
structure World (σ ω ρ π : Type) where
  now : ℕ
  contents : σ
  file : Option σ
  /-- The calls that have not answered, by number. -/
  calls : HashMap ℕ (Phase σ ω ρ π)
  next : ℕ

/-- What happens to a store. -/
inductive Event (ω ρ : Type) where
  | tick (now : ℕ)
  | call (op : ω)
  | clock (id : ℕ)
  | perform (id : ℕ) (op : ω)
  | lock (id : ℕ)
  | write (id : ℕ)
  | answer (id : ℕ) (op : ω) (r : ρ)
  | restart
  deriving DecidableEq, Repr

/-- No call holds the read lock. -/
def World.unlocked (w : World σ ω ρ π) : Bool := w.calls.entries.all fun c => !c.2.isSaving

/-- A call in a new phase. -/
def World.setPhase (w : World σ ω ρ π) (id : ℕ) (p : Phase σ ω ρ π) : World σ ω ρ π :=
  { w with calls := w.calls.insert id p }

variable (d : SavedStore σ ω ρ π)

/-- The first start, without a file. -/
def fresh (now : ℕ) : World σ ω ρ π := ⟨now, d.blank, none, ∅, 0⟩

/-- What a start finds. -/
def World.onDisk (w : World σ ω ρ π) : σ := w.file.getD d.blank

/-- A call makes its change under the write lock. -/
def performIn (w : World σ ω ρ π) (id : ℕ) (op : ω) (seen : π) (started : ℕ) : World σ ω ρ π :=
  let out := d.perform op seen started w.now w.contents
  { w with contents := out.contents }.setPhase id
    (if out.saves then .unsaved op out.answer else .done op out.answer)

def restartIn (w : World σ ω ρ π) : World σ ω ρ π :=
  { w with contents := (w.file.map (d.load w.now)).getD d.blank, calls := ∅ }

variable {d} {w w' : World σ ω ρ π}

theorem lookup_setPhase (id id' : ℕ) (p : Phase σ ω ρ π) :
    (w.setPhase id p).calls.lookup id' = if id' = id then some p else w.calls.lookup id' := by
  rw [World.setPhase]
  split
  · next h => rw [h, AList.lookup_insert]
  · next h => exact AList.lookup_insert_ne h

variable {id now : ℕ} {e : Event ω ρ}

theorem lookup_erase_some {id' : ℕ} {p : Phase σ ω ρ π} (h : (w.calls.erase id).lookup id' = some p)
    : id' ≠ id ∧ w.calls.lookup id' = some p := by
  grind [AList.lookup_erase, AList.lookup_erase_ne]

theorem not_saving_of_unlocked (h : w.unlocked = true) (id : ℕ) (op : ω) (r : ρ) (data : σ) :
    w.calls.lookup id ≠ some (.saving op r data) := by
  intro hsaving
  have hall := List.all_eq_true.mp h _ (HashMap.mem_of_lookup hsaving)
  simp [Phase.isSaving] at hall

/-! ### The read lock -/

/-- What is being written is what memory holds, and calls have numbers already given out. -/
structure Sound (w : World σ ω ρ π) : Prop where
  saving : ∀ {id op r data}, w.calls.lookup id = some (.saving op r data) → data = w.contents
  numbered : ∀ {id p}, w.calls.lookup id = some p → id < w.next

theorem sound_fresh (now : ℕ) : Sound (fresh d now) where
  saving h := by cases h
  numbered h := by cases h

theorem Sound.setPhase (hw : Sound w) {p : Phase σ ω ρ π} (hid : id < w.next)
    (hp : ∀ op r data, p = .saving op r data → data = w.contents) : Sound (w.setPhase id p) where
  saving {id' op r data} h := by
    rw [lookup_setPhase] at h
    split at h
    · exact hp op r data (Option.some.inj h)
    · exact hw.saving h
  numbered {id' p'} h := by
    rw [lookup_setPhase] at h
    split at h
    · next heq => exact heq ▸ hid
    · exact hw.numbered h

theorem Sound.performIn (hw : Sound w) (hunlocked : w.unlocked = true) {id : ℕ} (hid : id < w.next)
    (op : ω) (seen : π) (started : ℕ) : Sound (performIn d w id op seen started) := by
  -- nobody is writing, so that the new contents contradict no write
  have hchanged :
    Sound { w with contents := (d.perform op seen started w.now w.contents).contents } :=
    ⟨fun h => absurd h (not_saving_of_unlocked hunlocked _ _ _ _), hw.numbered⟩
  refine hchanged.setPhase hid fun op' r data h => ?_
  split at h <;> cases h

/-! ### What all calls keep -/

/-- A property of the contents, at the current time, in memory and on disk. -/
structure Kept (d : SavedStore σ ω ρ π) (P : ℕ → σ → Prop) (w : World σ ω ρ π) : Prop where
  contents : P w.now w.contents
  onDisk : P w.now (w.onDisk d)

/-- A property that time and loading leave alone. -/
structure Lasting (d : SavedStore σ ω ρ π) (P : ℕ → σ → Prop) : Prop where
  later : ∀ {t t' c}, t ≤ t' → P t c → P t' c
  load : ∀ {t c}, P t c → P t (d.load t c)

/-- A call cannot break the property. -/
def Respects (d : SavedStore σ ω ρ π) (P : ℕ → σ → Prop) (op : ω) : Prop :=
  ∀ seen started now c, P now c → P now (d.perform op seen started now c).contents

variable {P : ℕ → σ → Prop}

theorem Kept.restartIn (hlast : Lasting d P) (hk : Kept d P w) : Kept d P (restartIn d w) := by
  refine ⟨?_, hk.onDisk⟩
  have hdisk := hk.onDisk
  rw [World.onDisk] at hdisk
  rw [SavedStore.restartIn]
  cases hfile : w.file with
  | none => simpa [hfile] using hdisk
  | some f =>
    rw [hfile] at hdisk
    exact hlast.load hdisk

/-! ### Steps -/

variable [DecidableEq ω] [DecidableEq ρ]

variable (d) in

/-- One event, if it can occur. -/
def step (w : World σ ω ρ π) : Event ω ρ → Option (World σ ω ρ π)
  | .tick now => if w.now ≤ now then some { w with now } else none
  | .call op =>
    some { w with
      calls := w.calls.insert w.next (.called op (d.look op w.contents))
      next := w.next + 1 }
  | .clock id =>
    match w.calls.lookup id with
    | some (.called op seen) => some (w.setPhase id (.waiting op seen w.now))
    | _ => none
  | .perform id op =>
    match w.calls.lookup id with
    | some (.waiting op' seen started) =>
      if op' = op ∧ w.unlocked then some (performIn d w id op seen started) else none
    | _ => none
  | .lock id =>
    match w.calls.lookup id with
    | some (.unsaved op r) => some (w.setPhase id (.saving op r w.contents))
    | _ => none
  | .write id =>
    match w.calls.lookup id with
    | some (.saving op r data) => some ({ w with file := some data }.setPhase id (.done op r))
    | _ => none
  | .answer id op r =>
    match w.calls.lookup id with
    | some (.done op' r') =>
      if op' = op ∧ r' = r then some { w with calls := w.calls.erase id } else none
    | _ => none
  | .restart => some (restartIn d w)

theorem step_tick :
    step d w (.tick now) = some w' ↔ w.now ≤ now ∧ { w with now } = w' := by
  simp [step]

theorem step_clock : step d w (.clock id) = some w' ↔
    ∃ op seen, w.calls.lookup id = some (.called op seen) ∧
      w.setPhase id (.waiting op seen w.now) = w' := by
  simp only [step]
  split <;> simp_all

theorem step_perform {op : ω} : step d w (.perform id op) = some w' ↔
    ∃ seen started, w.calls.lookup id = some (.waiting op seen started) ∧ w.unlocked = true ∧
      performIn d w id op seen started = w' := by
  simp only [step]
  grind

theorem step_lock : step d w (.lock id) = some w' ↔
    ∃ op r, w.calls.lookup id = some (.unsaved op r) ∧
      w.setPhase id (.saving op r w.contents) = w' := by
  simp only [step]
  split <;> simp_all

theorem step_write : step d w (.write id) = some w' ↔
    ∃ op r data, w.calls.lookup id = some (.saving op r data) ∧
      { w with file := some data }.setPhase id (.done op r) = w' := by
  simp only [step]
  split <;> simp_all

theorem step_answer {op : ω} {r : ρ} : step d w (.answer id op r) = some w' ↔
    w.calls.lookup id = some (.done op r) ∧ { w with calls := w.calls.erase id } = w' := by
  simp only [step]
  grind

/-- STEP -/
theorem sound_step (hw : Sound w) (h : step d w e = some w') : Sound w' := by
  cases e with
  | tick now =>
    obtain ⟨-, rfl⟩ := step_tick.mp h
    exact ⟨hw.saving, hw.numbered⟩
  | call op =>
    cases h
    have hnext : Sound { w with next := w.next + 1 } :=
      ⟨hw.saving, fun h => Nat.lt_succ_of_lt (hw.numbered h)⟩
    exact hnext.setPhase (Nat.lt_succ_self w.next) (fun _ _ _ h => by cases h)
  | clock id =>
    obtain ⟨op, seen, hid, rfl⟩ := step_clock.mp h
    exact hw.setPhase (hw.numbered hid) (fun _ _ _ h => by cases h)
  | perform id op =>
    obtain ⟨seen, started, hid, hunlocked, rfl⟩ := step_perform.mp h
    exact hw.performIn hunlocked (hw.numbered hid) op seen started
  | lock id =>
    obtain ⟨op, r, hid, rfl⟩ := step_lock.mp h
    exact hw.setPhase (hw.numbered hid) (fun _ _ _ h => by cases h; rfl)
  | write id =>
    obtain ⟨op, r, data, hid, rfl⟩ := step_write.mp h
    have hfile : Sound { w with file := some data } := ⟨hw.saving, hw.numbered⟩
    exact hfile.setPhase (hw.numbered hid) (fun _ _ _ h => by cases h)
  | answer id op r =>
    obtain ⟨-, rfl⟩ := step_answer.mp h
    exact ⟨fun h => hw.saving (lookup_erase_some h).2, fun h => hw.numbered (lookup_erase_some h).2⟩
  | restart =>
    cases h
    exact ⟨fun h => (by cases h), fun h => (by cases h)⟩

variable {tr : List (Event ω ρ)}

/-- RUN -/
theorem sound_run (h : run (step d) (fresh d now) tr = some w) :
    Sound w :=
  invariant (step d) Sound (sound_fresh now) (fun _ _ _ hw he => sound_step hw he) h

/-- STEP -/
theorem kept_step (hlast : Lasting d P) (hw : Sound w) (hk : Kept d P w)
    (hop : ∀ id op, e = .perform id op → Respects d P op) (h : step d w e = some w') :
    Kept d P w' := by
  cases e with
  | tick now =>
    obtain ⟨hle, rfl⟩ := step_tick.mp h
    exact ⟨hlast.later hle hk.contents, hlast.later hle hk.onDisk⟩
  | call op => cases h; exact ⟨hk.contents, hk.onDisk⟩
  | clock id =>
    obtain ⟨op, seen, -, rfl⟩ := step_clock.mp h
    exact ⟨hk.contents, hk.onDisk⟩
  | perform id op =>
    obtain ⟨seen, started, -, -, rfl⟩ := step_perform.mp h
    exact ⟨hop id op rfl seen started w.now w.contents hk.contents, hk.onDisk⟩
  | lock id =>
    obtain ⟨op, r, -, rfl⟩ := step_lock.mp h
    exact ⟨hk.contents, hk.onDisk⟩
  | write id =>
    obtain ⟨op, r, data, hid, rfl⟩ := step_write.mp h
    -- the data was read under the lock that is still held
    obtain rfl := hw.saving hid
    exact ⟨hk.contents, hk.contents⟩
  | answer id op r =>
    obtain ⟨-, rfl⟩ := step_answer.mp h
    exact ⟨hk.contents, hk.onDisk⟩
  | restart => cases h; exact hk.restartIn hlast

/-- RUN: what the calls of a run keep holds at its end. -/
theorem kept_run (hlast : Lasting d P) (hw : Sound w) (hk : Kept d P w)
    (hop : ∀ id op, .perform id op ∈ tr → Respects d P op) (h : run (step d) w tr = some w') :
    Kept d P w' := by
  refine (invariant_along (step d) (Q := fun e => ∀ id op, e = .perform id op → Respects d P op)
    (I := fun w => Sound w ∧ Kept d P w) ?_ ?_ ⟨hw, hk⟩ h).2
  · rintro w e w' hQ ⟨hw, hk⟩ he
    exact ⟨sound_step hw he, kept_step hlast hw hk hQ he⟩
  · rintro e he id op rfl
    exact hop id op he

/-! ### Calls that are still to be saved -/

/-- A call has made its change, which is still to be saved. -/
def Pending (w : World σ ω ρ π) (op : ω) : Prop :=
  ∃ id r, w.calls.lookup id = some (.unsaved op r) ∨
    ∃ data, w.calls.lookup id = some (.saving op r data)

theorem pending_step (hw : Sound w) {op : ω} (hp : Pending w op) (h : step d w e = some w')
    : Pending w' op ∨ (∃ id, e = .write id) ∨ e = .restart := by
  obtain ⟨id, r, hid⟩ := hp
  -- a step of another call
  have hother : w'.calls.lookup id = w.calls.lookup id → Pending w' op :=
    fun hsame => ⟨id, r, hsame ▸ hid⟩
  cases e with
  | tick now =>
    obtain ⟨-, rfl⟩ := step_tick.mp h
    exact .inl (hother rfl)
  | call op' =>
    cases h
    have hlt : id < w.next := by
      rcases hid with hid | ⟨data, hid⟩
      · exact hw.numbered hid
      · exact hw.numbered hid
    exact .inl (hother (AList.lookup_insert_ne hlt.ne))
  | clock id' =>
    obtain ⟨op', seen, hid', rfl⟩ := step_clock.mp h
    have hne : id ≠ id' := by
      rintro rfl
      rcases hid with hid | ⟨data, hid⟩ <;> cases hid.symm.trans hid'
    exact .inl (hother (by rw [lookup_setPhase, if_neg hne]))
  | perform id' op' =>
    obtain ⟨seen, started, hid', -, rfl⟩ := step_perform.mp h
    have hne : id ≠ id' := by
      rintro rfl
      rcases hid with hid | ⟨data, hid⟩ <;> cases hid.symm.trans hid'
    exact .inl (hother (by rw [performIn, lookup_setPhase, if_neg hne]))
  | lock id' =>
    obtain ⟨op', r', hid', rfl⟩ := step_lock.mp h
    by_cases hne : id = id'
    · subst hne
      rcases hid with hid | ⟨data, hid⟩ <;> cases hid.symm.trans hid'
      exact .inl ⟨id, r, .inr ⟨w.contents, by rw [lookup_setPhase, if_pos rfl]⟩⟩
    · exact .inl (hother (by rw [lookup_setPhase, if_neg hne]))
  | write id' => exact .inr (.inl ⟨id', rfl⟩)
  | answer id' op' r' =>
    grind [step_answer, AList.lookup_erase_ne]
  | restart => exact .inr (.inr rfl)

omit [DecidableEq ω] [DecidableEq ρ] in
theorem pending_performIn (id : ℕ) {op : ω} {seen : π} {started : ℕ}
    (h : (d.perform op seen started w.now w.contents).saves = true) :
    Pending (performIn d w id op seen started) op := by
  refine ⟨id, (d.perform op seen started w.now w.contents).answer, .inl ?_⟩
  rw [performIn, lookup_setPhase, if_pos rfl, if_pos h]

/-! ### What a call has achieved when it answers -/

/-- Where a call with the answer `r` stands after its change: it is still to be saved, or what it
    has achieved is saved, or it will never give that answer. -/
inductive Standing (d : SavedStore σ ω ρ π) (P : ℕ → σ → Prop) (id : ℕ) (op : ω) (r : ρ)
    (w : World σ ω ρ π) : Prop
  | unsaved (hP : P w.now w.contents) (hid : w.calls.lookup id = some (.unsaved op r))
  | saving (data : σ) (hP : P w.now w.contents) (hid : w.calls.lookup id = some (.saving op r data))
  | kept (hk : Kept d P w)
  | void (hid : id < w.next)
      (hother : ∀ p, w.calls.lookup id = some p → ∃ o, p.outcome = some o ∧ o ≠ (op, r))

variable {id : ℕ} {op : ω} {r : ρ}

omit [DecidableEq ω] [DecidableEq ρ] in
theorem Standing.frame (h : Standing d P id op r w)
    (hcalls : w'.calls.lookup id = w.calls.lookup id) (hnext : w.next ≤ w'.next)
    (hP : P w.now w.contents → P w'.now w'.contents) (hk : Kept d P w → Kept d P w') :
    Standing d P id op r w' := by
  cases h with
  | unsaved h hid => exact .unsaved (hP h) (hcalls ▸ hid)
  | saving data h hid => exact .saving data (hP h) (hcalls ▸ hid)
  | kept h => exact .kept (hk h)
  | void hid hother => exact .void (hid.trans_le hnext) fun p hp => hother p (hcalls ▸ hp)

omit [DecidableEq ω] [DecidableEq ρ] in
theorem Standing.outcome (h : Standing d P id op r w) {p : Phase σ ω ρ π}
    (hp : w.calls.lookup id = some p) (hnone : p.outcome = none) : Kept d P w := by
  cases h with
  | unsaved _ hid => cases hid.symm.trans hp; cases hnone
  | saving _ _ hid => cases hid.symm.trans hp; cases hnone
  | kept hk => exact hk
  | void _ hother =>
    obtain ⟨o, ho, -⟩ := hother p hp
    cases hnone.symm.trans ho

theorem standing_step (hlast : Lasting d P) (hw : Sound w) (hs : Standing d P id op r w)
    (hop : ∀ id' op', e = .perform id' op' → Respects d P op') (h : step d w e = some w')
    : Standing d P id op r w' := by
  have hkept : Kept d P w → Kept d P w' := fun hk => kept_step hlast hw hk hop h
  cases e with
  | tick now =>
    obtain ⟨hle, rfl⟩ := step_tick.mp h
    exact hs.frame rfl le_rfl (hlast.later hle) hkept
  | call op' =>
    cases h
    by_cases hid : id = w.next
    · -- a number not given out belongs to no call
      cases hs with
      | unsaved _ hid' => exact absurd (hw.numbered hid') (hid ▸ lt_irrefl _)
      | saving _ _ hid' => exact absurd (hw.numbered hid') (hid ▸ lt_irrefl _)
      | kept hk => exact .kept (hkept hk)
      | void hlt _ => exact absurd hlt (hid ▸ lt_irrefl _)
    · exact hs.frame (AList.lookup_insert_ne hid) (Nat.le_succ _) (fun h => h) hkept
  | clock id' =>
    obtain ⟨op', seen, hid', rfl⟩ := step_clock.mp h
    by_cases hid : id = id'
    · subst hid
      exact .kept (hkept (hs.outcome hid' rfl))
    · refine hs.frame ?_ le_rfl (fun h => h) hkept
      rw [lookup_setPhase, if_neg hid]
  | perform id' op' =>
    obtain ⟨seen, started, hid', -, rfl⟩ := step_perform.mp h
    by_cases hid : id = id'
    · subst hid
      exact .kept (hkept (hs.outcome hid' rfl))
    · refine hs.frame ?_ le_rfl (hop id' op' rfl seen started w.now w.contents) hkept
      rw [performIn, lookup_setPhase, if_neg hid]
  | lock id' =>
    obtain ⟨op', r', hid', rfl⟩ := step_lock.mp h
    by_cases hid : id = id'
    · subst hid
      have hnew : (w.setPhase id (.saving op' r' w.contents)).calls.lookup id =
          some (.saving op' r' w.contents) := by rw [lookup_setPhase, if_pos rfl]
      cases hs with
      | unsaved hP hold =>
        cases hold.symm.trans hid'
        exact .saving _ hP hnew
      | saving _ _ hold => cases hold.symm.trans hid'
      | kept hk => exact .kept (hkept hk)
      | void hlt hother =>
        refine .void hlt fun p hp => ?_
        cases hp.symm.trans hnew
        obtain ⟨o, ho, hne⟩ := hother _ hid'
        exact ⟨o, ho, hne⟩
    · refine hs.frame ?_ le_rfl (fun h => h) hkept
      rw [lookup_setPhase, if_neg hid]
  | write id' =>
    obtain ⟨op', r', data, hid', rfl⟩ := step_write.mp h
    by_cases hid : id = id'
    · subst hid
      cases hs with
      | unsaved _ hold => cases hold.symm.trans hid'
      | saving data' hP hold =>
        -- the lock has kept the contents as they were read
        obtain rfl := hw.saving hid'
        exact .kept ⟨hP, hP⟩
      | kept hk => exact .kept (hkept hk)
      | void hlt hother =>
        refine .void hlt fun p hp => ?_
        rw [lookup_setPhase, if_pos rfl] at hp
        cases hp
        obtain ⟨o, ho, hne⟩ := hother _ hid'
        exact ⟨o, ho, hne⟩
    · refine hs.frame ?_ le_rfl (fun h => h) hkept
      rw [lookup_setPhase, if_neg hid]
  | answer id' op' r' =>
    obtain ⟨hid', rfl⟩ := step_answer.mp h
    by_cases hid : id = id'
    · subst hid
      cases hs with
      | unsaved _ hold => cases hold.symm.trans hid'
      | saving _ _ hold => cases hold.symm.trans hid'
      | kept hk => exact .kept (hkept hk)
      | void hlt _ => exact .void hlt fun p hp => absurd rfl (lookup_erase_some hp).1
    · exact hs.frame (AList.lookup_erase_ne hid) le_rfl (fun h => h) hkept
  | restart =>
    cases h
    -- the call is lost, if it had not answered
    have hlost : id < w.next → Standing d P id op r (restartIn d w) := fun hlt =>
      .void hlt fun p hp => by cases hp
    cases hs with
    | unsaved _ hid => exact hlost (hw.numbered hid)
    | saving _ _ hid => exact hlost (hw.numbered hid)
    | kept hk => exact .kept (hkept hk)
    | void hlt _ => exact hlost hlt

/-- RUN: what a call achieves under the write lock and saves before it answers holds in memory and
    on disk from its answer on, as long as the calls that follow its change keep it. -/
theorem kept_of_answered (hlast : Lasting d P) {before after : List (Event ω ρ)}
    (hrun : run (step d) (fresh d now) (before ++ .perform id op :: after) = some w)
    (hanswer : .answer id op r ∈ after)
    (hsaved : ∀ seen started now c, (d.perform op seen started now c).answer = r →
      (d.perform op seen started now c).saves = true ∧
        P now (d.perform op seen started now c).contents)
    (hop : ∀ id' op', .perform id' op' ∈ after → Respects d P op') : Kept d P w := by
  rw [run_append] at hrun
  obtain ⟨w₀, hbefore, hrun⟩ := Option.bind_eq_some_iff.mp hrun
  rw [run_cons] at hrun
  obtain ⟨w₁, hperform, hafter⟩ := Option.bind_eq_some_iff.mp hrun
  have hsound₀ : Sound w₀ := sound_run hbefore
  have hsound₁ : Sound w₁ := sound_step hsound₀ hperform
  -- after its change the call is unsaved, or its answer is another one
  have hstart : Standing d P id op r w₁ := by
    obtain ⟨seen, started, hid, -, rfl⟩ := step_perform.mp hperform
    by_cases hr : (d.perform op seen started w₀.now w₀.contents).answer = r
    · obtain ⟨hsaves, hP⟩ := hsaved seen started w₀.now w₀.contents hr
      refine .unsaved hP ?_
      rw [performIn, lookup_setPhase, if_pos rfl, if_pos hsaves, hr]
    · refine .void (hsound₀.numbered hid) fun p hp => ?_
      rw [performIn, lookup_setPhase, if_pos rfl] at hp
      refine ⟨(op, (d.perform op seen started w₀.now w₀.contents).answer), ?_, by simpa using hr⟩
      split at hp <;> cases hp <;> rfl
  obtain ⟨mid, rest, rfl⟩ := List.append_of_mem hanswer
  rw [run_append] at hafter
  obtain ⟨w₂, hmid, hafter⟩ := Option.bind_eq_some_iff.mp hafter
  rw [run_cons] at hafter
  obtain ⟨w₃, hanswered, hrest⟩ := Option.bind_eq_some_iff.mp hafter
  have hmid' : Sound w₂ ∧ Standing d P id op r w₂ := by
    refine invariant_along (step d)
      (Q := fun e => ∀ id' op', e = .perform id' op' → Respects d P op')
      (I := fun w => Sound w ∧ Standing d P id op r w) ?_ ?_ ⟨hsound₁, hstart⟩ hmid
    · rintro w e w' hQ ⟨hw, hs⟩ he
      exact ⟨sound_step hw he, standing_step hlast hw hs hQ he⟩
    · rintro e he id' op' rfl
      exact hop id' op' (List.mem_append_left _ he)
  obtain ⟨hsound₂, hstanding⟩ := hmid'
  -- a call that answers has been saved
  have hkept₂ : Kept d P w₂ := by
    obtain ⟨hid, -⟩ := step_answer.mp hanswered
    cases hstanding with
    | unsaved _ hold => cases hold.symm.trans hid
    | saving _ _ hold => cases hold.symm.trans hid
    | kept hk => exact hk
    | void _ hother =>
      obtain ⟨o, ho, hne⟩ := hother _ hid
      exact absurd (Option.some.inj ho).symm hne
  grind [kept_step, kept_run, sound_step, List.mem_append_right, List.mem_cons_of_mem]

/-! ### What answers are given -/

/-- Every call that has made its change has one of the good answers. -/
def Proper (Good : ω → ρ → Prop) (w : World σ ω ρ π) : Prop :=
  ∀ id p op r, w.calls.lookup id = some p → p.outcome = some (op, r) → Good op r

variable {Good : ω → ρ → Prop}

omit [DecidableEq ω] [DecidableEq ρ] in
theorem Proper.setPhase (hw : Proper Good w) {p : Phase σ ω ρ π}
    (hp : ∀ op r, p.outcome = some (op, r) → Good op r) : Proper Good (w.setPhase id p) := by
  intro id' p' op r hp' houtcome
  rw [lookup_setPhase] at hp'
  split at hp'
  · cases hp'
    exact hp op r houtcome
  · exact hw id' p' op r hp' houtcome

/-- STEP: calls that find the property give good answers. -/
theorem proper_step (hgood : ∀ op seen started now c, P now c →
      Good op (d.perform op seen started now c).answer)
    (hP : P w.now w.contents) (hw : Proper Good w) (h : step d w e = some w') :
    Proper Good w' := by
  cases e with
  | tick now =>
    obtain ⟨-, rfl⟩ := step_tick.mp h
    exact hw
  | call op =>
    cases h
    exact Proper.setPhase (w := { w with next := w.next + 1 }) hw (fun _ _ h => by cases h)
  | clock id =>
    obtain ⟨op, seen, -, rfl⟩ := step_clock.mp h
    exact Proper.setPhase hw (fun _ _ h => by cases h)
  | perform id op =>
    obtain ⟨seen, started, -, -, rfl⟩ := step_perform.mp h
    refine Proper.setPhase (w := { w with
      contents := (d.perform op seen started w.now w.contents).contents }) hw fun op' r h => ?_
    split at h <;> cases h <;> exact hgood op seen started w.now w.contents hP
  | lock id =>
    obtain ⟨op, r, hid, rfl⟩ := step_lock.mp h
    refine Proper.setPhase hw fun op' r' h => ?_
    exact hw id _ op' r' hid h
  | write id =>
    obtain ⟨op, r, data, hid, rfl⟩ := step_write.mp h
    refine Proper.setPhase (w := { w with file := some data }) hw fun op' r' h => ?_
    exact hw id _ op' r' hid h
  | answer id op r =>
    obtain ⟨-, rfl⟩ := step_answer.mp h
    exact fun id' p op' r' hp houtcome => hw id' p op' r' (lookup_erase_some hp).2 houtcome
  | restart => cases h; exact fun _ _ _ _ hp => by cases hp

/-- RUN: in a run whose calls keep the property, all answers are good. -/
theorem good_of_answered (hlast : Lasting d P) (hblank : ∀ now, P now d.blank)
    (hgood : ∀ op seen started now c, P now c → Good op (d.perform op seen started now c).answer)
    (hop : ∀ id op, .perform id op ∈ tr → Respects d P op)
    (hrun : run (step d) (fresh d now) tr = some w) (hanswer : .answer id op r ∈ tr) :
    Good op r := by
  obtain ⟨before, after, rfl⟩ := List.append_of_mem hanswer
  rw [run_append] at hrun
  obtain ⟨w₁, hbefore, hrun⟩ := Option.bind_eq_some_iff.mp hrun
  rw [run_cons] at hrun
  obtain ⟨w₂, hanswered, -⟩ := Option.bind_eq_some_iff.mp hrun
  have hproper : (Sound w₁ ∧ Kept d P w₁) ∧ Proper Good w₁ := by
    refine invariant_along (step d)
      (Q := fun e => ∀ id' op', e = .perform id' op' → Respects d P op')
      (I := fun w => (Sound w ∧ Kept d P w) ∧ Proper Good w) ?_ ?_
      ⟨⟨sound_fresh now, hblank now, hblank now⟩, fun _ _ _ _ hp => by cases hp⟩ hbefore
    · rintro w e w' hQ ⟨⟨hw, hk⟩, hproper⟩ he
      exact ⟨⟨sound_step hw he, kept_step hlast hw hk hQ he⟩,
        proper_step hgood hk.contents hproper he⟩
    · rintro e he id' op' rfl
      exact hop id' op' (List.mem_append_left _ he)
  obtain ⟨hid, -⟩ := step_answer.mp hanswered
  exact hproper.2 id _ op r hid rfl

/-! ### Successes that are answered at most once -/

variable (win : ω → ρ → Bool)

/-- The number of successes answered in a trace. -/
def wins (tr : List (Event ω ρ)) : ℕ :=
  tr.countP fun
    | .answer _ op r => win op r
    | _ => false

/-- A call that has succeeded and has not answered. -/
def Claims (w : World σ ω ρ π) (id : ℕ) : Prop :=
  ∃ p op r, w.calls.lookup id = some p ∧ p.outcome = some (op, r) ∧ win op r = true

/-- A success needs contents that are not yet spent, spends them and is saved; nothing undoes it. -/
structure Exclusive (d : SavedStore σ ω ρ π) (win : ω → ρ → Bool) (Spent : σ → Prop) : Prop where
  won : ∀ {op seen started now c}, win op (d.perform op seen started now c).answer = true →
    ¬ Spent c ∧ Spent (d.perform op seen started now c).contents ∧
      (d.perform op seen started now c).saves = true
  respects : ∀ op, Respects d (fun _ => Spent) op
  load : ∀ {now c}, Spent c → Spent (d.load now c)

/-- INVARIANT: at most one call has won or is about to, and what it won is recorded. -/
structure Once (d : SavedStore σ ω ρ π) (win : ω → ρ → Bool) (Spent : σ → Prop)
    (tr : List (Event ω ρ)) (w : World σ ω ρ π) : Prop where
  single : ∀ {i j}, Claims win w i → Claims win w j → i = j
  spent : ∀ {i}, Claims win w i → Spent w.contents
  saved : ∀ {i op r}, w.calls.lookup i = some (.done op r) → win op r = true → Spent (w.onDisk d)
  le_one : wins win tr ≤ 1
  answered : wins win tr ≠ 0 → Kept d (fun _ => Spent) w ∧ ∀ i, ¬ Claims win w i

variable {win} {Spent : σ → Prop}

omit [DecidableEq ω] [DecidableEq ρ] in
theorem wins_concat (tr : List (Event ω ρ)) (e : Event ω ρ) :
    wins win (tr ++ [e]) = wins win tr + wins win [e] := by
  rw [wins, List.countP_append]
  rfl

omit [DecidableEq ω] [DecidableEq ρ] in
theorem claims_setPhase {i : ℕ} {p : Phase σ ω ρ π} (h : Claims win (w.setPhase id p) i) :
    i = id ∧ (∃ op r, p.outcome = some (op, r) ∧ win op r = true) ∨ i ≠ id ∧ Claims win w i := by
  obtain ⟨p', op, r, hp', houtcome, hwin⟩ := h
  rw [lookup_setPhase] at hp'
  split at hp'
  · next hi =>
    cases hp'
    exact .inl ⟨hi, op, r, houtcome, hwin⟩
  · next hi => exact .inr ⟨hi, p', op, r, hp', houtcome, hwin⟩

omit [DecidableEq ω] [DecidableEq ρ] in
theorem Once.frame {tr : List (Event ω ρ)} {e : Event ω ρ} (h : Once d win Spent tr w)
    (hanswer : wins win [e] = 0) (hclaims : ∀ i, Claims win w' i → Claims win w i)
    (hspent : Spent w.contents → Spent w'.contents)
    (hsaved : ∀ {i op r}, w'.calls.lookup i = some (.done op r) → win op r = true →
      Spent (w'.onDisk d))
    (hkept : Kept d (fun _ => Spent) w → Kept d (fun _ => Spent) w') :
    Once d win Spent (tr ++ [e]) w' where
  single hi hj := h.single (hclaims _ hi) (hclaims _ hj)
  spent hi := hspent (h.spent (hclaims _ hi))
  saved := hsaved
  le_one := by rw [wins_concat, hanswer]; exact h.le_one
  answered hne := by
    rw [wins_concat, hanswer] at hne
    obtain ⟨hk, hnone⟩ := h.answered hne
    exact ⟨hkept hk, fun i hi => hnone i (hclaims i hi)⟩

theorem once_step (hx : Exclusive d win Spent) (hw : Sound w) (ho : Once d win Spent tr w)
    (h : step d w e = some w') :
    Once d win Spent (tr ++ [e]) w' := by
  have hlast : Lasting d (fun _ => Spent) := ⟨fun _ h => h, hx.load⟩
  have hkept : Kept d (fun _ => Spent) w → Kept d (fun _ => Spent) w' := fun hk =>
    kept_step hlast hw hk (fun _ op _ => hx.respects op) h
  cases e with
  | tick now =>
    obtain ⟨-, rfl⟩ := step_tick.mp h
    exact ho.frame rfl (fun _ h => h) (fun h => h) ho.saved hkept
  | call op =>
    cases h
    refine ho.frame rfl (fun i hi => ?_) (fun h => h) (fun {i op' r} hi hwin => ?_) hkept
    · rcases claims_setPhase (w := { w with next := w.next + 1 }) hi with ⟨-, _, _, h, -⟩ | ⟨-, hi⟩
      · cases h
      · exact hi
    · have hi' := lookup_setPhase (w := w) w.next i (.called op (d.look op w.contents)) ▸ hi
      split at hi'
      · cases hi'
      · exact ho.saved hi' hwin
  | clock id =>
    obtain ⟨op, seen, hid, rfl⟩ := step_clock.mp h
    refine ho.frame rfl (fun i hi => ?_) (fun h => h) (fun {i op' r} hi hwin => ?_) hkept
    · rcases claims_setPhase hi with ⟨-, _, _, h, -⟩ | ⟨-, hi⟩
      · cases h
      · exact hi
    · rw [lookup_setPhase] at hi
      split at hi
      · cases hi
      · exact ho.saved hi hwin
  | perform id op =>
    obtain ⟨seen, started, hid, -, rfl⟩ := step_perform.mp h
    cases hwin : win op (d.perform op seen started w.now w.contents).answer with
    | false =>
      have hlost : ∀ {i op' r}, (performIn d w id op seen started).calls.lookup i =
          some (.done op' r) → win op' r = true → w.calls.lookup i = some (.done op' r) := by
        grind [performIn, lookup_setPhase]
      refine ho.frame rfl (fun i hi => ?_) (hx.respects op seen started w.now w.contents)
        (fun hi hwin' => ho.saved (hlost hi hwin') hwin') hkept
      rcases claims_setPhase hi with ⟨-, op', r, houtcome, hwin'⟩ | ⟨-, hi⟩
      · split at houtcome <;> cases houtcome <;> (rw [hwin] at hwin'; cases hwin')
      · exact hi
    | true =>
      obtain ⟨hfresh, hspent, hsaves⟩ := hx.won hwin
      -- nobody has succeeded before
      have hnone : ∀ i, ¬ Claims win w i := fun i hi => hfresh (ho.spent hi)
      have hzero : wins win tr = 0 := by
        by_contra hne
        exact hfresh (ho.answered hne).1.contents
      have honly : ∀ {i}, Claims win (performIn d w id op seen started) i → i = id := by
        intro i hi
        rcases claims_setPhase hi with ⟨hi, -⟩ | ⟨-, hi⟩
        · exact hi
        · exact absurd hi (hnone i)
      exact {
        single := fun hi hj => (honly hi).trans (honly hj).symm
        spent := fun _ => hspent
        saved := fun {i op' r} hi hwin' => by
          rw [performIn, lookup_setPhase, if_pos hsaves] at hi
          split at hi
          · cases hi
          · exact absurd ⟨_, op', r, hi, rfl, hwin'⟩ (hnone i)
        le_one := by rw [wins_concat, hzero]; exact Nat.zero_le 1
        answered := fun hne => absurd (by rw [wins_concat, hzero]; rfl) hne }
  | lock id =>
    obtain ⟨op, r, hid, rfl⟩ := step_lock.mp h
    refine ho.frame rfl (fun i hi => ?_) (fun h => h) (fun {i op' r} hi hwin => ?_) hkept
    · rcases claims_setPhase hi with ⟨rfl, _, _, ⟨⟩, hwin⟩ | ⟨-, hi⟩
      · exact ⟨_, _, _, hid, rfl, hwin⟩
      · exact hi
    · rw [lookup_setPhase] at hi
      split at hi
      · cases hi
      · exact ho.saved hi hwin
  | write id =>
    obtain ⟨op, r, data, hid, rfl⟩ := step_write.mp h
    obtain rfl := hw.saving hid
    have hclaims : ∀ i, Claims win ({ w with file := some w.contents }.setPhase id (.done op r)) i →
        Claims win w i := by
      intro i hi
      rcases claims_setPhase hi with ⟨rfl, _, _, ⟨⟩, hwin⟩ | ⟨-, hi⟩
      · exact ⟨_, _, _, hid, rfl, hwin⟩
      · exact hi
    -- the file now has what memory has
    exact ho.frame rfl hclaims (fun h => h)
      (fun hi hwin => ho.spent (hclaims _ ⟨_, _, _, hi, rfl, hwin⟩)) hkept
  | answer id op r =>
    obtain ⟨hid, rfl⟩ := step_answer.mp h
    have hclaims : ∀ i, Claims win { w with calls := w.calls.erase id } i →
        i ≠ id ∧ Claims win w i := by
      rintro i ⟨p, op', r', hp, houtcome, hwin⟩
      exact ⟨(lookup_erase_some hp).1, p, op', r', (lookup_erase_some hp).2, houtcome, hwin⟩
    cases hwin : win op r with
    | false =>
      exact ho.frame (by simp [wins, hwin]) (fun i hi => (hclaims i hi).2) (fun h => h)
        (fun hi => ho.saved (lookup_erase_some hi).2) hkept
    | true =>
      have hclaim : Claims win w id := ⟨_, op, r, hid, rfl, hwin⟩
      have hnone : ∀ i, ¬ Claims win { w with calls := w.calls.erase id } i := fun i hi =>
        (hclaims i hi).1 (ho.single (hclaims i hi).2 hclaim)
      -- it is the first success that is answered
      have hzero : wins win tr = 0 := by
        by_contra hne
        exact (ho.answered hne).2 id hclaim
      exact {
        single := fun hi => absurd hi (hnone _)
        spent := fun hi => absurd hi (hnone _)
        saved := fun hi => ho.saved (lookup_erase_some hi).2
        le_one := by rw [wins_concat, hzero]; simp [wins, hwin]
        answered := fun _ => ⟨⟨ho.spent hclaim, ho.saved hid hwin⟩, hnone⟩ }
  | restart =>
    cases h
    have hnone : ∀ i, ¬ Claims win (restartIn d w) i := by
      rintro i ⟨p, op, r, hp, -⟩
      cases hp
    exact {
      single := fun hi => absurd hi (hnone _)
      spent := fun hi => absurd hi (hnone _)
      saved := fun hi => by cases hi
      le_one := by rw [wins_concat]; exact ho.le_one
      answered := fun hne => ⟨hkept (ho.answered (by rwa [wins_concat] at hne)).1, hnone⟩ }

omit [DecidableEq ω] [DecidableEq ρ] in
theorem once_fresh (now : ℕ) : Once d win Spent [] (fresh d now) where
  single := by rintro i j ⟨p, op, r, hp, -⟩; cases hp
  spent := by rintro i ⟨p, op, r, hp, -⟩; cases hp
  saved h := by cases h
  le_one := Nat.zero_le 1
  answered h := absurd rfl h

/-- RUN: over every interleaving and every restart, at most one success is answered. -/
theorem wins_le_one (hx : Exclusive d win Spent) (h : run (step d) (fresh d now) tr = some w) :
    wins win tr ≤ 1 := by
  have honce : Once d win Spent tr w :=
    invariant_history (step d) (fresh d now) (Once d win Spent) (once_fresh now)
      (fun _ _ _ _ hrun ho he => once_step hx (sound_run hrun) ho he) h
  exact honce.le_one

end SavedStore
