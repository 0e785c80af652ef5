import Mathlib.Tactic

/-! Computations that change a state and may fail, keeping the changes made before the failure.

    Two kinds of facts are proved about them. `Within R m`: on every path, also the failing ones,
    `m` moves the state along the preorder `R`. And the inversion rules `bind_ok`, `forM_ok`: a
    computation that returned went through each of its parts. `Raises Q m`: every
    failure of `m` satisfies `Q`. -/

/-- A computation on states `σ` with errors `ε`. -/
def Effect (σ ε α : Type) := σ → Except ε α × σ

namespace Effect

variable {σ ε α β : Type}

instance : Monad (Effect σ ε) where
  pure a := fun s => (.ok a, s)
  bind m f := fun s => match m s with
    | (.ok a, s') => f a s'
    | (.error e, s') => (.error e, s')

/-- Fail, leaving the state as it is. -/
def fail (e : ε) : Effect σ ε α := fun s => (.error e, s)

/-- Look at the state. -/
def read (f : σ → α) : Effect σ ε α := fun s => (.ok (f s), s)

/-- Change the state. -/
def update (f : σ → σ) : Effect σ ε Unit := fun s => (.ok (), f s)

/-- A result computed elsewhere, its error translated. -/
def lift {ε' : Type} (g : ε' → ε) : Except ε' α → Effect σ ε α
  | .ok a => pure a
  | .error e => fail (g e)

/-- Run `m` and hand over its result, a failure included. -/
def attempt {ε' : Type} (m : Effect σ ε α) : Effect σ ε' (Except ε α) :=
  fun s => (.ok (m s).1, (m s).2)

/-- Run `f` on each element and put the results together. -/
def collect (f : α → Effect σ ε (List β)) : List α → Effect σ ε (List β)
  | [] => pure []
  | a :: rest => do
    let first ← f a
    let others ← collect f rest
    return first ++ others

/-! ### Inversion -/

theorem pure_apply (a : α) (s : σ) : (pure a : Effect σ ε α) s = (.ok a, s) := rfl

theorem bind_apply (m : Effect σ ε α) (f : α → Effect σ ε β) (s : σ) :
    (m >>= f) s = match m s with
      | (.ok a, s') => f a s'
      | (.error e, s') => (.error e, s') := rfl

theorem forM_cons_apply {ι : Type*} (f : ι → Effect σ ε PUnit) (a : ι) (rest : List ι) (s : σ) :
    (List.forM (a :: rest) f : Effect σ ε PUnit) s = (f a >>= fun _ => List.forM rest f) s := rfl

variable {s : σ} {m : Effect σ ε α} {f : α → Effect σ ε β}

theorem forM_append_ok {ι : Type*} {f : ι → Effect σ ε PUnit} {l l' : List ι} {s' s'' : σ}
    (h : l.forM f s = (.ok ⟨⟩, s')) (h' : l'.forM f s' = (.ok ⟨⟩, s'')) :
    (l ++ l').forM f s = (.ok ⟨⟩, s'') := by
  induction l generalizing s with
  | nil =>
    cases h
    exact h'
  | cons a l ih =>
    rw [forM_cons_apply, bind_apply] at h
    rw [List.cons_append, forM_cons_apply, bind_apply]
    rcases hf : f a s with ⟨e | _, s₁⟩ <;> rw [hf] at h
    · cases h
    · exact ih h

/-- INVERSION: a sequence that returned went through its first part. -/
theorem bind_ok {s'' : σ} {b : β} (h : (m >>= f) s = (.ok b, s''))
    : ∃ a s', m s = (.ok a, s') ∧ f a s' = (.ok b, s'') := by
  grind [bind_apply]

/-- INVERSION: a sequence that failed did so in its first or in its second part. -/
theorem bind_error {s'' : σ} {e : ε} (h : (m >>= f) s = (.error e, s'')) :
    m s = (.error e, s'') ∨ ∃ a s', m s = (.ok a, s') ∧ f a s' = (.error e, s'') := by
  rw [bind_apply] at h
  rcases hm : m s with ⟨e' | a, s'⟩ <;> rw [hm] at h
  · cases h
    exact .inl rfl
  · exact .inr ⟨a, s', rfl, h⟩

theorem read_ok {f : σ → α} {s' : σ} {a : α} (h : (read f : Effect σ ε α) s = (.ok a, s')) :
    a = f s ∧ s' = s := by
  cases h; exact ⟨rfl, rfl⟩

theorem lift_ok {ε' : Type} {g : ε' → ε} {r : Except ε' α} {s' : σ} {a : α}
    (h : lift g r s = (.ok a, s')) : r = .ok a ∧ s' = s := by
  cases r with
  | error e => cases h
  | ok a' => cases h; exact ⟨rfl, rfl⟩

/-- LOOP RULE: when every round that returns moves the state by `g`, a loop that returned moved it
    by the fold of `g`. -/
theorem forM_ok_foldl {ι : Type*} {f : ι → Effect σ ε PUnit} {g : σ → ι → σ}
    (hf : ∀ a s s', f a s = (.ok ⟨⟩, s') → s' = g s a) :
    ∀ (xs : List ι) {s s' : σ}, xs.forM f s = (.ok ⟨⟩, s') → s' = xs.foldl g s
  | [], _, _, h => by
    cases h
    rfl
  | a :: rest, s, s', h => by
    rw [forM_cons_apply] at h
    obtain ⟨u, s₁, hfirst, hrest⟩ := bind_ok h
    rw [List.foldl_cons, ← hf a s s₁ hfirst]
    exact forM_ok_foldl hf rest hrest

/-- LOOP RULE: when what a round returns does not depend on the rounds before it, the loop returns
    what the rounds return in the state it starts from. -/
theorem collect_eq_flatMap {f : α → Effect σ ε (List β)} {r : σ → α → List β} {g : σ → α → σ}
    (hf : ∀ a s, f a s = (.ok (r s a), g s a)) :
    ∀ (xs : List α) (s : σ), xs.Pairwise (fun a b => ∀ s, r (g s a) b = r s b) →
      collect f xs s = (.ok (xs.flatMap (r s)), xs.foldl g s)
  | [], _, _ => rfl
  | a :: rest, s, hxs => by
    obtain ⟨hfirst, hrest⟩ := List.pairwise_cons.mp hxs
    have hothers := collect_eq_flatMap hf rest (g s a) hrest
    rw [List.flatMap_congr fun b hb => hfirst b hb s] at hothers
    simp only [collect, bind_apply, hf, hothers, pure_apply, List.foldl_cons, List.flatMap_cons]

/-- LOOP RULE: rounds that do nothing in the state they are in. -/
theorem collect_fixed {f : α → Effect σ ε (List β)} {s : σ} :
    ∀ {xs : List α}, (∀ a ∈ xs, f a s = (.ok [], s)) → collect f xs s = (.ok [], s)
  | [], _ => rfl
  | a :: rest, hf => by
    have hrest := collect_fixed fun b hb => hf b (List.mem_cons_of_mem a hb)
    simp only [collect, bind_apply, hf a List.mem_cons_self, hrest, pure_apply, List.append_nil]

/-! ### Where a computation can take the state -/

/-- Every path of `m` moves the state along `R`. -/
def Within (R : σ → σ → Prop) (m : Effect σ ε α) : Prop := ∀ s, R s (m s).2

variable {R : σ → σ → Prop}

theorem Within.of_eq (h : Within R m) {s' : σ} {r : Except ε α} (hm : m s = (r, s')) : R s s' := by
  have := h s
  rwa [hm] at this

section Preorder
variable [Std.Refl R]

theorem within_pure (a : α) : Within R (pure a : Effect σ ε α) := fun s => refl_of R s

theorem within_fail (e : ε) : Within R (fail e : Effect σ ε α) := fun s => refl_of R s

theorem within_read (f : σ → α) : Within R (read f : Effect σ ε α) := fun s => refl_of R s

theorem within_lift {ε' : Type} (g : ε' → ε) (r : Except ε' α) :
    Within R (lift g r : Effect σ ε α) := by
  cases r with
  | error e => exact within_fail _
  | ok a => exact within_pure _

end Preorder

theorem within_update {f : σ → σ} (h : ∀ s, R s (f s)) : Within R (update f : Effect σ ε Unit) :=
  h

theorem Within.attempt {ε' : Type} {m : Effect σ ε α} (h : Within R m) :
    Within R (attempt m : Effect σ ε' _) := h

theorem Within.bind [IsTrans σ R] (hm : Within R m) (hf : ∀ a, Within R (f a))
    : Within R (m >>= f) := by
  intro s
  have h := hm s
  rw [bind_apply]
  rcases hs : m s with ⟨e | a, s'⟩ <;> rw [hs] at h
  · exact h
  · exact trans_of R h (hf a s')

theorem Within.after [Std.Refl R] (hf : ∀ a, Within R (f a)) (m : Effect σ ε α) (s : σ)
    : R (m s).2 ((m >>= f) s).2 := by
  rw [bind_apply]
  rcases m s with ⟨e | a, s'⟩
  · exact refl_of R s'
  · exact hf a s'

/-- LOOP RULE. -/
theorem within_forM {ι : Type*} [Std.Refl R] [IsTrans σ R] {f : ι → Effect σ ε PUnit}
    (hf : ∀ a, Within R (f a)) : ∀ xs : List ι, Within R (xs.forM f)
  | [] => within_pure _
  | a :: rest => (hf a).bind fun _ => within_forM hf rest

/-- LOOP RULE, when only the elements of the list are known to be well behaved. -/
theorem within_forM_mem [Std.Refl R] [IsTrans σ R] {f : α → Effect σ ε PUnit} :
    ∀ {xs : List α}, (∀ a ∈ xs, Within R (f a)) → Within R (xs.forM f)
  | [], _ => within_pure _
  | a :: _, hf => (hf a List.mem_cons_self).bind fun _ =>
      within_forM_mem fun b hb => hf b (List.mem_cons_of_mem _ hb)

/-- LOOP RULE. -/
theorem within_collect [Std.Refl R] [IsTrans σ R] {f : α → Effect σ ε (List β)}
    (hf : ∀ a, Within R (f a)) : ∀ xs : List α, Within R (collect f xs)
  | [] => within_pure _
  | a :: rest => (hf a).bind fun _ => (within_collect hf rest).bind fun _ => within_pure _

/-- INVARIANT RULE: what every round keeps that meets `C` holds after a loop of such rounds. -/
theorem forM_invariant {ι : Type*} {P : σ → Prop} {C : σ → ι → Prop} {f : ι → Effect σ ε PUnit}
    (hstep : ∀ s a, P s → C s a → P (f a s).2) : ∀ (xs : List ι) {s : σ}, P s →
      (∀ pre a s', pre ++ [a] <+: xs → pre.forM f s = (.ok ⟨⟩, s') → C s' a) → P (xs.forM f s).2
  | [], _, hs, _ => hs
  | a :: rest, s, hs, hC => by
    have hnow := hstep s a hs (hC [] a s (by simp) rfl)
    rw [forM_cons_apply, bind_apply]
    rcases hfirst : f a s with ⟨e | u, s₁⟩ <;> rw [hfirst] at hnow
    · exact hnow
    · refine forM_invariant hstep rest hnow fun pre b s' hpre hrun => hC (a :: pre) b s' ?_ ?_
      · exact List.cons_prefix_cons.mpr ⟨rfl, hpre⟩
      · rw [forM_cons_apply, bind_apply, hfirst]
        exact hrun

/-! ### The errors a computation can raise -/

/-- Every failure of `m` satisfies `Q`. -/
def Raises (Q : ε → Prop) (m : Effect σ ε α) : Prop := ∀ s e, (m s).1 = .error e → Q e

variable {Q : ε → Prop}

theorem raises_pure (a : α) : Raises Q (pure a : Effect σ ε α) := fun _ _ h => nomatch h

theorem raises_read (f : σ → α) : Raises Q (read f : Effect σ ε α) := fun _ _ h => nomatch h

theorem raises_lift {ε' : Type} {g : ε' → ε} {r : Except ε' α} (h : ∀ e, r = .error e → Q (g e)) :
    Raises Q (lift g r : Effect σ ε α) := by
  intro s e he
  cases r with
  | ok a => cases he
  | error e' =>
    cases he
    exact h e' rfl

theorem raises_fail {e : ε} (he : Q e) : Raises Q (fail e : Effect σ ε α) := by
  intro s e' h
  cases h
  exact he

theorem Raises.bind (hm : Raises Q m) (hf : ∀ a, Raises Q (f a)) : Raises Q (m >>= f) := by
  intro s e h
  have hfirst := hm s
  rw [bind_apply] at h
  rcases hs : m s with ⟨e' | a, s'⟩ <;> rw [hs] at h hfirst
  · cases h
    exact hfirst e rfl
  · exact hf a s' e h

theorem Raises.mono {Q' : ε → Prop} (hm : Raises Q m) (h : ∀ e, Q e → Q' e) :
    Raises Q' m := fun s e he => h e (hm s e he)

theorem Raises.attempt_bind {ε' : Type} {Q' : ε' → Prop} {m : Effect σ ε' α}
    {f : Except ε' α → Effect σ ε β} (hm : Raises Q' m) (hok : ∀ a, Raises Q (f (.ok a)))
    (herror : ∀ e, Q' e → Raises Q (f (.error e))) :
    Raises Q ((attempt m : Effect σ ε _) >>= f) := by
  intro s e h
  rw [bind_apply] at h
  simp only [attempt] at h
  cases hs : (m s).1 with
  | ok a => exact hok a _ e (by rwa [hs] at h)
  | error e' => exact herror e' (hm s e' hs) _ e (by rwa [hs] at h)

/-- LOOP RULE. -/
theorem raises_forM {f : α → Effect σ ε PUnit} (hf : ∀ a, Raises Q (f a)) :
    ∀ xs : List α, Raises Q (xs.forM f)
  | [] => raises_pure _
  | a :: rest => (hf a).bind fun _ => raises_forM hf rest

/-! ### Computations that cannot fail -/

theorem Raises.total (h : Raises (fun _ => False) m) (s : σ) :
    ∃ a s', m s = (.ok a, s') := by
  rcases hm : m s with ⟨e | a, s'⟩
  · exact (h s e (by rw [hm])).elim
  · exact ⟨a, s', rfl⟩

/-- LOOP RULE: rounds that cannot fail are all run, and what each of them returns, in whatever state
    it is run, is in the result; nothing else is. -/
theorem collect_total {f : α → Effect σ ε (List β)} (hf : ∀ a, Raises (fun _ => False) (f a)) :
    ∀ (xs : List α) (s : σ), ∃ r s', collect f xs s = (.ok r, s') ∧
      (∀ a ∈ xs, ∃ t r' t', f a t = (.ok r', t') ∧ ∀ b ∈ r', b ∈ r) ∧
      ∀ b ∈ r, ∃ a ∈ xs, ∃ t r' t', f a t = (.ok r', t') ∧ b ∈ r'
  | [], s => ⟨[], s, rfl, by simp, by simp⟩
  | a :: rest, s => by
    obtain ⟨first, s₁, hfirst⟩ := (hf a).total s
    obtain ⟨others, s₂, hothers, hall, honly⟩ := collect_total hf rest s₁
    refine ⟨first ++ others, s₂, ?_, ?_, ?_⟩
    · simp only [collect, bind_apply, hfirst, hothers, pure_apply]
    · grind
    grind

end Effect
