import Mathlib.Tactic

/-! Rules for computations and loops that may fail.

    A computation in `Except` that returned went through each of its parts. A loop `for a in xs { s
    = step(s, a)? }` is `xs.foldlM step s` in the `Option` monad. Total correctness: an invariant
    that every step can continue from, indexed by the rest of the list, shows that the loop returns
    and what holds then. Partial correctness: what every returning step keeps holds whenever the
    loop returns. -/

namespace Loop

theorem bind_eq_ok {α β ε : Type} {x : Except ε α} {f : α → Except ε β} {b : β}
    (h : x >>= f = .ok b) : ∃ a, x = .ok a ∧ f a = .ok b := by
  cases x with
  | error e => cases h
  | ok a => exact ⟨a, rfl, h⟩

variable {σ α : Type}

theorem foldlM_total {step : σ → α → Option σ} (I : List α → σ → Prop)
    (hstep : ∀ a rest s, I (a :: rest) s → ∃ s', step s a = some s' ∧ I rest s') :
    ∀ (xs : List α) (s : σ), I xs s → ∃ s', xs.foldlM step s = some s' ∧ I [] s'
  | [], s, h => ⟨s, rfl, h⟩
  | a :: rest, s, h => by
    obtain ⟨s₁, hs₁, h₁⟩ := hstep a rest s h
    obtain ⟨s₂, hs₂, h₂⟩ := foldlM_total I hstep rest s₁ h₁
    exact ⟨s₂, by rw [List.foldlM_cons, hs₁]; exact hs₂, h₂⟩

theorem foldlM_total_const {step : σ → α → Option σ} (I : σ → Prop)
    (hstep : ∀ a s, I s → ∃ s', step s a = some s' ∧ I s') (xs : List α) (s : σ) (h : I s) :
    ∃ s', xs.foldlM step s = some s' ∧ I s' :=
  foldlM_total (fun _ => I) (fun a _ s => hstep a s) xs s h

theorem foldlM_invariant_rest {step : σ → α → Option σ} (I : List α → σ → Prop)
    (hstep : ∀ a rest s s', I (a :: rest) s → step s a = some s' → I rest s') :
    ∀ {xs : List α} {s s' : σ}, I xs s → xs.foldlM step s = some s' → I [] s'
  | [], _, _, hs, h => Option.some.inj h ▸ hs
  | a :: rest, s, s', hs, h => by
    rw [List.foldlM_cons] at h
    obtain ⟨s₁, h₁, h₂⟩ := Option.bind_eq_some_iff.mp h
    exact foldlM_invariant_rest I hstep (hstep a rest s s₁ hs h₁) h₂

theorem foldlM_invariant {step : σ → α → Option σ} (I : σ → Prop) {xs : List α}
    (hstep : ∀ a ∈ xs, ∀ s s', I s → step s a = some s' → I s') {s s' : σ} (hs : I s)
    (h : xs.foldlM step s = some s') : I s' := by
  have hrest := foldlM_invariant_rest (fun rest s => I s ∧ ∀ a ∈ rest, a ∈ xs)
    (fun a rest s s' hi hs' => ⟨hstep a (hi.2 a List.mem_cons_self) s s' hi.1 hs',
      fun b hb => hi.2 b (List.mem_cons_of_mem _ hb)⟩) ⟨hs, fun _ ha => ha⟩ h
  exact hrest.1

theorem foldlM_congr {step step' : σ → α → Option σ} (I : List α → σ → Prop)
    (hstep : ∀ a rest s, I (a :: rest) s →
      step s a = step' s a ∧ ∀ s', step s a = some s' → I rest s') :
    ∀ {xs : List α} {s : σ}, I xs s → xs.foldlM step s = xs.foldlM step' s
  | [], _, _ => rfl
  | a :: rest, s, hs => by
    obtain ⟨hagree, hkeeps⟩ := hstep a rest s hs
    rw [List.foldlM_cons, List.foldlM_cons, ← hagree]
    rcases h : step s a with _ | s'
    · rfl
    · exact foldlM_congr I hstep (hkeeps s' h)

end Loop
