import Mathlib.Tactic

/-! Runs of a partial transition system.

    `step s e` is the state after event `e`, or `none` when `e` cannot happen in `s`. A trace is a
    list of events; the invariant rules turn facts about one step into facts about every run, some
    with the trace so far as a history the invariant may speak about. -/

namespace Run

variable {σ : Type*} {ε : Type*} (step : σ → ε → Option σ)

/-- The state after a whole trace, if every event could happen. -/
def run (s : σ) (trace : List ε) : Option σ := trace.foldlM step s

@[simp] theorem run_nil (s : σ) : run step s [] = some s := rfl

@[simp] theorem run_cons (s : σ) (e : ε) (tr : List ε) :
    run step s (e :: tr) = (step s e).bind (run step · tr) := by
  rw [run, List.foldlM_cons]; rfl

theorem run_append (s : σ) (tr tr' : List ε) :
    run step s (tr ++ tr') = (run step s tr).bind (run step · tr') := by
  rw [run, List.foldlM_append]; rfl

theorem run_concat_iff {s s' : σ} {tr : List ε} {e : ε} :
    run step s (tr ++ [e]) = some s' ↔ ∃ m, run step s tr = some m ∧ step m e = some s' := by
  simp [run_append, Option.bind_eq_some_iff]

theorem concat_prefix_concat_iff {pre tr : List ε} {a e : ε} :
    pre ++ [a] <+: tr ++ [e] ↔ (pre = tr ∧ a = e) ∨ pre ++ [a] <+: tr := by
  have hlast : pre ++ [a] = tr ++ [e] ↔ pre = tr ∧ a = e := by simp
  rw [List.prefix_concat_iff, hlast]

/-- INVARIANT RULE with history. -/
theorem invariant_history (s₀ : σ) (I : List ε → σ → Prop) (h₀ : I [] s₀)
    (hstep : ∀ tr s e s', run step s₀ tr = some s → I tr s → step s e = some s' →
      I (tr ++ [e]) s') :
    ∀ {tr s}, run step s₀ tr = some s → I tr s := by
  intro tr
  induction tr using List.reverseRecOn with
  | nil => rintro s ⟨⟩; exact h₀
  | append_singleton tr e ih =>
    grind [run_concat_iff]

/-- INVARIANT RULE: what holds initially and survives every step holds in every state reached. -/
theorem invariant {s₀ : σ} (I : σ → Prop) (h₀ : I s₀)
    (hstep : ∀ s e s', I s → step s e = some s' → I s') {tr : List ε} {s : σ}
    (h : run step s₀ tr = some s) : I s :=
  invariant_history step s₀ (fun _ => I) h₀ (fun _ s e s' _ => hstep s e s') h

/-- INVARIANT RULE for runs whose events all satisfy `Q`. -/
theorem invariant_along {Q : ε → Prop} {I : σ → Prop}
    (hstep : ∀ s e s', Q e → I s → step s e = some s' → I s') :
    ∀ {tr : List ε} {s s' : σ}, (∀ e ∈ tr, Q e) → I s → run step s tr = some s' → I s' := by
  intro tr
  induction tr with
  | nil =>
    rintro s s' - hs ⟨⟩
    exact hs
  | cons e tr ih =>
    intro s s' hQ hs hrun
    obtain ⟨m, he, hm⟩ := Option.bind_eq_some_iff.mp (run_cons step s e tr ▸ hrun)
    grind

theorem exists_step {s₀ s final : σ} {trace pre : List ε} {e : ε}
    (hrun : run step s₀ trace = some final) (hpre : pre ++ [e] <+: trace)
    (hs : run step s₀ pre = some s) :
    ∃ s', step s e = some s' := by
  obtain ⟨later, rfl⟩ := hpre
  rw [run_append] at hrun
  grind [Option.bind_eq_some_iff, run_concat_iff, Option.some.inj]

/-- EXACT RULE: if a step keeps `P` exactly when it meets `C`, then `P` holds in every state of a
    trace exactly when every step of it meets `C`. -/
theorem along_iff {s₀ : σ} {P : List ε → σ → Prop} {C : σ → ε → Prop} (h₀ : P [] s₀)
    (hstep : ∀ tr s e s', run step s₀ tr = some s → P tr s → step s e = some s' →
      (P (tr ++ [e]) s' ↔ C s e)) (trace : List ε) :
    (∀ pre s, pre <+: trace → run step s₀ pre = some s → P pre s) ↔
      ∀ pre e s s', pre ++ [e] <+: trace → run step s₀ pre = some s →
        step s e = some s' → C s e := by
  constructor
  · grind [List.prefix_append, run_concat_iff]
  · intro hmeets pre s hpre hs
    refine invariant_history step s₀ (fun tr s => tr <+: trace → P tr s) (fun _ => h₀) ?_ hs hpre
    grind [List.prefix_append]

/-- Whether every event of the trace meets `C` in the state it finds. -/
def check (C : σ → ε → Bool) : σ → List ε → Bool
  | _, [] => true
  | s, e :: tr => C s e && (step s e).all (check C · tr)

theorem of_check {C : σ → ε → Bool} : ∀ {trace : List ε} {s₀ : σ}, check step C s₀ trace = true →
    ∀ {pre e s}, pre ++ [e] <+: trace → run step s₀ pre = some s → C s e = true
  | [], _, _, pre, e, _, hpre, _ => absurd (List.prefix_nil.mp hpre) (by simp)
  | a :: trace, s₀, h, pre, e, s, hpre, hrun => by
    obtain ⟨hhead, hrest⟩ := Bool.and_eq_true_iff.mp h
    cases pre with
    | nil =>
      cases hrun
      obtain ⟨rfl, -⟩ := List.cons_prefix_cons.mp hpre
      exact hhead
    | cons b pre =>
      obtain ⟨rfl, hpre'⟩ := List.cons_prefix_cons.mp hpre
      obtain ⟨m, hm, hrun⟩ := Option.bind_eq_some_iff.mp (run_cons step s₀ b pre ▸ hrun)
      rw [hm] at hrest
      exact of_check hrest hpre' hrun

end Run
