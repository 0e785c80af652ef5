import Ekafleet.Lib.Text

/-! Where texts are cut: at the first or last separator, or at a pattern. -/

namespace Text

/-! ### Separators -/

variable {sep : Char} {s before : String}

/-- EXACT: a text is cut at its last separator. -/
theorem splitLast_eq_some {after : String} :
    splitLast sep s = some (before, after) ↔
      s.toList = before.toList ++ sep :: after.toList ∧ sep ∉ after.toList := by
  unfold splitLast
  constructor
  · intro h
    split at h
    · cases h
    case _ c rest hdrop =>
      obtain ⟨hbefore, hafter⟩ := Prod.mk.inj (Option.some.inj h)
      have hsep : c = sep := by
        have hhead := List.head?_dropWhile_not (fun c => decide (c ≠ sep)) s.toList.reverse
        rw [hdrop] at hhead
        simpa using hhead
      have hparts := List.takeWhile_append_dropWhile (p := fun c => decide (c ≠ sep))
        (l := s.toList.reverse)
      rw [hdrop, hsep] at hparts
      rw [← hbefore, ← hafter, String.toList_ofList, String.toList_ofList]
      refine ⟨?_, fun hmem => ?_⟩
      · rw [← List.reverse_inj]
        refine hparts.symm.trans ?_
        simp
      · simpa using List.mem_takeWhile_imp (List.mem_reverse.mp hmem)
  · rintro ⟨hs, hafter⟩
    have hkeep : ∀ c ∈ after.toList.reverse, decide (c ≠ sep) = true := fun c hc =>
      decide_eq_true fun h => hafter (h ▸ List.mem_reverse.mp hc)
    have hrev : s.toList.reverse = after.toList.reverse ++ sep :: before.toList.reverse := by
      rw [hs]
      simp
    rw [hrev, List.dropWhile_append_of_pos hkeep, List.takeWhile_append_of_pos hkeep]
    simp

theorem splitLast_eq_none : splitLast sep s = none ↔ sep ∉ s.toList := by
  unfold splitLast
  constructor
  · intro h hmem
    split at h
    case _ hdrop =>
      simpa using List.dropWhile_eq_nil_iff.mp hdrop sep (List.mem_reverse.mpr hmem)
    · cases h
  · intro h
    have hdrop : s.toList.reverse.dropWhile (fun c => decide (c ≠ sep)) = [] :=
      List.dropWhile_eq_nil_iff.mpr fun c hc =>
        decide_eq_true fun heq => h (heq ▸ List.mem_reverse.mp hc)
    rw [hdrop]

theorem splitFirst_append {after : String} (hs : s.toList = before.toList ++ sep :: after.toList)
    (hbefore : sep ∉ before.toList) :
    splitFirst sep s = (before, some after) := by
  have hkeep : ∀ c ∈ before.toList, decide (c ≠ sep) = true := fun c hc =>
    decide_eq_true fun h => hbefore (h ▸ hc)
  rw [splitFirst, hs, List.dropWhile_append_of_pos hkeep, List.takeWhile_append_of_pos hkeep]
  simp

theorem splitFirst_eq_some {after : String} (h : splitFirst sep s = (before, some after)) :
    s.toList = before.toList ++ sep :: after.toList ∧ sep ∉ before.toList := by
  unfold splitFirst at h
  split at h
  · cases h
  case _ c rest hdrop =>
    obtain ⟨hbefore, hafter⟩ := Prod.mk.inj h
    have hsep : c = sep := by
      have hhead := List.head?_dropWhile_not (fun c => decide (c ≠ sep)) s.toList
      rw [hdrop] at hhead
      simpa using hhead
    have hparts := List.takeWhile_append_dropWhile (p := fun c => decide (c ≠ sep)) (l := s.toList)
    rw [hdrop, hsep] at hparts
    rw [← hbefore, ← Option.some.inj hafter, String.toList_ofList, String.toList_ofList]
    exact ⟨hparts.symm, fun hmem => by simpa using List.mem_takeWhile_imp hmem⟩

theorem not_mem_of_splitFirst (h : splitFirst sep s = (before, none)) : sep ∉ s.toList := by
  unfold splitFirst at h
  split at h
  case _ hdrop =>
    exact fun hmem => by simpa using List.dropWhile_eq_nil_iff.mp hdrop sep hmem
  · cases h

theorem splitFirst_of_not_mem (h : sep ∉ s.toList) :
    splitFirst sep s = (s, none) := by
  have hdrop : s.toList.dropWhile (fun c => decide (c ≠ sep)) = [] :=
    List.dropWhile_eq_nil_iff.mpr fun c hc => decide_eq_true fun heq => h (heq ▸ hc)
  rw [splitFirst, hdrop]

/-! ### Patterns -/

theorem splitAtPattern_eq_some {pat : List Char} : ∀ {l a b : List Char},
    splitAtPattern pat l = some (a, b) → l = a ++ pat ++ b
  | [], a, b, h => by
    unfold splitAtPattern at h
    split_ifs at h with hpat
    cases h
    simpa using hpat
  | c :: l, a, b, h => by
    unfold splitAtPattern at h
    split at h
    · next rest hpre =>
      cases h
      exact (List.isPrefixOf?_eq_some_iff_append_eq.mp hpre).symm
    · obtain ⟨r, hr, hab⟩ := Option.map_eq_some_iff.mp h
      cases hab
      rw [splitAtPattern_eq_some hr]
      rfl

theorem length_of_splitAtPattern {pat l a b : List Char} (h : splitAtPattern pat l = some (a, b)) :
    l.length = a.length + pat.length + b.length := by
  rw [splitAtPattern_eq_some h, List.length_append, List.length_append]

theorem splitAtPattern_pair (x c d : Char) (l : List Char) :
    splitAtPattern [x, x] (c :: d :: l) =
      if c = x ∧ d = x then some ([], l)
      else (splitAtPattern [x, x] (d :: l)).map fun r => (c :: r.1, r.2) := by
  rw [splitAtPattern]
  by_cases hc : c = x
  · by_cases hd : d = x
    · simp [List.isPrefixOf?, hc, hd]
    · simp [List.isPrefixOf?, hc, hd, Ne.symm hd]
  · simp [List.isPrefixOf?, hc, Ne.symm hc]

theorem splitAtPattern_pair_singleton (x c : Char) : splitAtPattern [x, x] [c] = none := by
  by_cases hc : x = c <;> simp [splitAtPattern, List.isPrefixOf?, hc]

/-- A pair that is found in a text is found there with more text behind it. -/
theorem splitAtPattern_pair_append {x : Char} (m : List Char) : ∀ {l a b : List Char},
    splitAtPattern [x, x] l = some (a, b) → splitAtPattern [x, x] (l ++ m) = some (a, b ++ m)
  | [], _, _, h => by cases h
  | [c], _, _, h => by
    rw [splitAtPattern_pair_singleton] at h
    cases h
  | c :: d :: l, a, b, h => by
    rw [splitAtPattern_pair] at h
    rw [List.cons_append, List.cons_append, splitAtPattern_pair]
    split_ifs at h ⊢ with hpair
    · cases h
      rfl
    · obtain ⟨r, hr, hab⟩ := Option.map_eq_some_iff.mp h
      cases hab
      rw [← List.cons_append, splitAtPattern_pair_append m hr, Option.map_some]

/-- A pair that is not found in a text, which does not end with the half of it, is looked for
    behind the text. -/
theorem splitAtPattern_pair_append_of_none {x : Char} (m : List Char) : ∀ {l : List Char},
    splitAtPattern [x, x] l = none → l.getLast? ≠ some x →
      splitAtPattern [x, x] (l ++ m) = (splitAtPattern [x, x] m).map fun r => (l ++ r.1, r.2)
  | [], _, _ => by simp
  | [c], _, hlast => by
    have hc : ¬ c = x := fun h => hlast (by rw [h]; rfl)
    cases m with
    | nil => rw [List.append_nil, splitAtPattern_pair_singleton]; rfl
    | cons d m => rw [List.singleton_append, splitAtPattern_pair, if_neg fun h => hc h.1]; rfl
  | c :: d :: l, h, hlast => by
    rw [splitAtPattern_pair] at h
    split_ifs at h with hpair
    have ih := splitAtPattern_pair_append_of_none m (Option.map_eq_none_iff.mp h)
      (by rwa [List.getLast?_cons_cons] at hlast)
    rw [List.cons_append] at ih
    rw [List.cons_append, List.cons_append, splitAtPattern_pair, if_neg hpair, ih, Option.map_map]
    rfl

end Text
