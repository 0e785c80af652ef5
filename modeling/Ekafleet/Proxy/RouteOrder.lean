import Ekafleet.Proxy.Routing

/-! The order of the services in the route table | source: proxy/router.rs

    The routes are listed service by service, in the order of a map. Of the routes that fit a
    request, those with the longest prefix have the same one and differ in their hosts, so there
    are two at most. -/

namespace Ekafleet.Proxy

def Route.resolved (r : Route) : ResolvedRoute := ⟨r.serviceName, r.port, r.weight⟩

/-- The routes of one service. -/
def routesOf (e : Σ _ : String, List PortRoute) : List Route :=
  e.2.map fun r => { r with serviceName := e.1 }

section Order
open scoped List

variable (services : HashMap String (List PortRoute)) (hostname path : String)

/-- The route fits, and no route with a longer prefix does. -/
def Longest (r : Route) : Prop :=
  r ∈ updateRoutes .asBuilt services ∧ r.fits hostname path ∧
    ∀ r' ∈ updateRoutes .asBuilt services, r'.fits hostname path →
      r'.pathPrefix.utf8ByteSize ≤ r.pathPrefix.utf8ByteSize

/-- The answer with the longest prefix, and with the host itself rather than with any host. -/
def Expected : Option ResolvedRoute → Prop
  | none => ∀ r ∈ updateRoutes .asBuilt services, ¬ r.fits hostname path
  | some answer => ∃ r, Longest services hostname path r ∧ r.resolved = answer ∧
      ∀ r', Longest services hostname path r' → r'.hostname = hostname → r.hostname = hostname

/-- No two routes have the same host and the same prefix. -/
def DistinctRoutes : Prop :=
  (updateRoutes .asBuilt services).Pairwise fun a b =>
    ¬ (a.hostname = b.hostname ∧ a.pathPrefix = b.pathPrefix)

variable {services hostname path}

theorem updateRoutes_perm (order : HashMap.Order) :
    (updateRoutes order services).Perm (updateRoutes .asBuilt services) :=
  (order.perm _).flatMap_right _

theorem head_insertionSort {α : Type} {f : α → ℕ} {l : List α} {r : α}
    (h : (l.insertionSort fun a b => f b ≤ f a).head? = some r) :
    ∃ l₁ l₂, l = l₁ ++ r :: l₂ ∧ (∀ x ∈ l₁, f x < f r) ∧ ∀ x ∈ l₂, f x ≤ f r := by
  induction l generalizing r with
  | nil => cases h
  | cons a l ih =>
    rw [List.insertionSort_cons] at h
    rcases hsort : l.insertionSort fun a b => f b ≤ f a with _ | ⟨b, t⟩ <;> rw [hsort] at h
    · cases h
      have hnil : l = [] := List.length_eq_zero_iff.mp (by
        rw [← List.length_insertionSort (fun a b => f b ≤ f a), hsort]; rfl)
      exact ⟨[], l, rfl, by simp, by simp [hnil]⟩
    · obtain ⟨l₁, l₂, hl, hlt, hle⟩ := ih (by rw [hsort]; rfl)
      rw [List.orderedInsert_cons] at h
      split_ifs at h with hab
      · cases h
        refine ⟨[], l, rfl, by simp, fun x hx => ?_⟩
        rw [hl] at hx
        grind
      · cases h
        exact ⟨a :: l₁, l₂, by rw [hl]; rfl, by grind, hle⟩

variable {order : HashMap.Order} {a b : Route}

theorem resolve_eq_none (h : resolve (updateRoutes order services) hostname path = none) :
    Expected services hostname path none := by
  intro r hr
  rw [resolve, Option.map_eq_none_iff, List.head?_eq_none_iff] at h
  have hempty := h ▸ List.perm_insertionSort _ _
  exact List.filter_eq_nil_iff.mp hempty.nil_eq.symm r ((updateRoutes_perm order).mem_iff.mpr hr)

/-- EXACT: the first of the routes with the longest prefix is taken. -/
theorem resolve_eq_some {answer : ResolvedRoute}
    (h : resolve (updateRoutes order services) hostname path = some answer) :
    ∃ r l₁ l₂, r.resolved = answer ∧ Longest services hostname path r ∧
      (updateRoutes order services).filter (·.fits hostname path) = l₁ ++ r :: l₂ ∧
      ∀ x ∈ l₁, x.pathPrefix.utf8ByteSize < r.pathPrefix.utf8ByteSize := by
  obtain ⟨r, hhead, hanswer⟩ := Option.map_eq_some_iff.mp h
  obtain ⟨l₁, l₂, hsplit, hlt, hle⟩ := head_insertionSort hhead
  have hmem : ∀ x, x ∈ l₁ ++ r :: l₂ ↔
      x ∈ updateRoutes .asBuilt services ∧ x.fits hostname path = true := fun x => by
    rw [← hsplit, List.mem_filter, (updateRoutes_perm order).mem_iff]
  obtain ⟨hr, hfits⟩ := (hmem r).mp (by simp)
  refine ⟨r, l₁, l₂, hanswer, ⟨hr, hfits, fun r' hr' hfits' => ?_⟩, hsplit, hlt⟩
  rcases List.mem_append.mp ((hmem r').mpr ⟨hr', hfits'⟩) with h' | h'
  · exact (hlt r' h').le
  · rcases List.mem_cons.mp h' with rfl | h'
    · exact le_rfl
    · exact hle r' h'

theorem Longest.prefix_eq (ha : Longest services hostname path a)
    (hb : Longest services hostname path b) : a.pathPrefix = b.pathPrefix := by
  have hsize := Nat.le_antisymm (hb.2.2 a ha.1 ha.2.1) (ha.2.2 b hb.1 hb.2.1)
  obtain ⟨t, ht⟩ := Option.isSome_iff_exists.mp (Bool.and_eq_true_iff.mp ha.2.1).2
  obtain ⟨u, hu⟩ := Option.isSome_iff_exists.mp (Bool.and_eq_true_iff.mp hb.2.1).2
  have heq := (Text.stripPrefix_eq_some ht).symm.trans (Text.stripPrefix_eq_some hu)
  have hbytes := congrArg (fun s : String => s.toByteArray.data.toList) heq
  simp only [String.toByteArray_append, ByteArray.data_append, Array.toList_append] at hbytes
  have hsame := (List.append_inj hbytes hsize).1
  exact String.toByteArray_inj.mp (ByteArray.ext (Array.toList_inj.mp hsame))

theorem Longest.host {r : Route} (h : Longest services hostname path r) :
    r.hostname = hostname ∨ r.hostname = "*" := by
  simpa using (Bool.and_eq_true_iff.mp h.2.1).1

/-- Unless one service lists both routes in this order, the map can bring them in the other one. -/
theorem exists_order (ha : a ∈ updateRoutes .asBuilt services)
    (hb : b ∈ updateRoutes .asBuilt services) (hne : a ≠ b)
    (hlisted : ∀ e ∈ services.entries, ¬ [a, b] <+ routesOf e) :
    ∃ order, [b, a] <+ updateRoutes order services := by
  obtain ⟨e, he, hmem⟩ : ∃ e ∈ services.entries, a ∈ routesOf e := List.mem_flatMap.mp ha
  obtain ⟨e', he', hmem'⟩ : ∃ e ∈ services.entries, b ∈ routesOf e := List.mem_flatMap.mp hb
  by_cases hsame : e = e'
  · subst hsame
    refine ⟨.asBuilt, .trans ?_ (List.sublist_flatten_of_mem (List.mem_map_of_mem he))⟩
    change [b, a] <+ routesOf e
    have hnot := hlisted e he
    obtain ⟨s, t, hst⟩ := List.append_of_mem hmem
    rw [hst] at hmem' hnot ⊢
    rcases List.mem_append.mp hmem' with h | h
    · exact (List.singleton_sublist.mpr h).append (List.singleton_sublist.mpr List.mem_cons_self)
    · have htail : b ∈ t := (List.mem_cons.mp h).resolve_left hne.symm
      exact absurd (.trans (.cons_cons _ (List.singleton_sublist.mpr htail))
        (List.sublist_append_right ..)) hnot
  · obtain ⟨order, rest, hhead⟩ := HashMap.Order.exists_head he'
    have hrest : e ∈ rest := by
      have hin : e ∈ order.arrange services.entries := order.mem_arrange.mpr he
      rw [hhead] at hin
      exact (List.mem_cons.mp hin).resolve_left hsame
    refine ⟨order, ?_⟩
    rw [updateRoutes, hhead, List.flatMap_cons]
    exact (List.singleton_sublist.mpr hmem').append
      (List.singleton_sublist.mpr (List.mem_flatMap.mpr ⟨e, hrest, hmem⟩))

variable (hdistinct : DistinctRoutes services)
include hdistinct

theorem Longest.eq_of_host (ha : Longest services hostname path a)
    (hb : Longest services hostname path b) (hhost : a.hostname = b.hostname) : a = b := by
  by_contra hne
  have : Std.Symm fun a b : Route => ¬ (a.hostname = b.hostname ∧ a.pathPrefix = b.pathPrefix) :=
    ⟨fun _ _ h h' => h ⟨h'.1.symm, h'.2.symm⟩⟩
  exact hdistinct.forall ha.1 hb.1 hne ⟨hhost, ha.prefix_eq hb⟩

/-- Of two routes with the longest prefix the one that comes first is taken. -/
theorem resolve_of_sublist (ha : Longest services hostname path a)
    (hb : Longest services hostname path b)
    (hhost : a.hostname ≠ b.hostname) (hsub : [a, b] <+ updateRoutes order services) :
    resolve (updateRoutes order services) hostname path = some a.resolved := by
  rcases hresolve : resolve (updateRoutes order services) hostname path with _ | answer
  · exact absurd ha.2.1 (resolve_eq_none hresolve a ha.1)
  obtain ⟨r, l₁, l₂, rfl, hr, hsplit, hlt⟩ := resolve_eq_some hresolve
  by_cases hra : r = a
  · rw [hra]
  obtain rfl : r = b := by
    refine hr.eq_of_host hdistinct hb ?_
    have hne := fun h => hra (hr.eq_of_host hdistinct ha h)
    have h₁ := hr.host
    have h₂ := ha.host
    have h₃ := hb.host
    grind
  -- The other one would stand before it, with a shorter prefix.
  have hnodup : (l₁ ++ r :: l₂).Nodup := by
    rw [← hsplit]
    refine List.Nodup.filter _ ((updateRoutes_perm order).nodup_iff.mpr ?_)
    exact List.Pairwise.imp (fun h heq => h ⟨by rw [heq], by rw [heq]⟩) hdistinct
  have hfitting := hsub.filter (·.fits hostname path)
  rw [hsplit, List.filter_cons_of_pos ha.2.1, List.filter_cons_of_pos hb.2.1,
    List.filter_nil] at hfitting
  have hbefore : a ∈ l₁ := by
    rcases List.sublist_append_iff.mp hfitting with ⟨s₁, s₂, hs, h₁, h₂⟩
    rcases s₁ with _ | ⟨x, s₁⟩
    · rw [List.nil_append] at hs
      subst hs
      rcases List.sublist_cons_iff.mp h₂ with h | ⟨t, ht, -⟩
      · have hmem : r ∈ l₂ := h.subset (by simp)
        grind
      · exact absurd (List.cons.inj ht).1 fun h => hra h.symm
    · exact h₁.subset (by grind)
  have := hlt a hbefore
  rw [ha.prefix_eq hb] at this
  exact absurd this (lt_irrefl _)

theorem Expected.unique : ∀ {x y : Option ResolvedRoute}, Expected services hostname path x →
    Expected services hostname path y → x = y
  | none, none, _, _ => rfl
  | none, some _, hx, ⟨r, hr, _⟩ => absurd hr.2.1 (hx r hr.1)
  | some _, none, ⟨r, hr, _⟩, hy => absurd hr.2.1 (hy r hr.1)
  | some _, some _, ⟨r, hr, hanswer, hfirst⟩, ⟨r', hr', hanswer', hfirst'⟩ => by
    have hhost := hr.host
    have hhost' := hr'.host
    rw [← hanswer, ← hanswer', hr.eq_of_host hdistinct hr' (by grind)]

/-- EXACT: the answer is the expected one in every order, and so the same in all of them, exactly
    when a route for the host never meets one for any host with the same, longest prefix, unless
    both lead to the same backend or one service has both, the one for the host first. -/
theorem route_order_iff (hostname path : String) :
    ((∀ order order', resolve (updateRoutes order services) hostname path =
        resolve (updateRoutes order' services) hostname path) ∧
      ∀ order, Expected services hostname path
        (resolve (updateRoutes order services) hostname path)) ↔
    ∀ exact wild, Longest services hostname path exact → Longest services hostname path wild →
      exact.hostname = hostname → wild.hostname ≠ hostname →
        exact.resolved = wild.resolved ∨ ∃ e ∈ services.entries, [exact, wild] <+ routesOf e := by
  constructor
  · rintro ⟨-, hexpected⟩ exact wild hexact hwild hhost hother
    by_contra! hnot
    obtain ⟨hdiffer, hnotfirst⟩ := hnot
    have hne : exact ≠ wild := fun h => hother (h ▸ hhost)
    obtain ⟨order, hsub⟩ := exists_order hexact.1 hwild.1 hne hnotfirst
    have hanswer := hexpected order
    rw [resolve_of_sublist hdistinct hwild hexact (by rwa [hhost]) hsub] at hanswer
    obtain ⟨r, hr, hresolved, hfirst⟩ := hanswer
    rw [hr.eq_of_host hdistinct hexact ((hfirst exact hexact hhost).trans hhost.symm)] at hresolved
    exact hdiffer hresolved
  · intro hcond
    have hexpected : ∀ order, Expected services hostname path
        (resolve (updateRoutes order services) hostname path) := by
      intro order
      rcases hresolve : resolve (updateRoutes order services) hostname path with _ | answer
      · exact resolve_eq_none hresolve
      obtain ⟨r, -, -, rfl, hr, -⟩ := resolve_eq_some hresolve
      by_cases hexact : ∃ r', Longest services hostname path r' ∧ r'.hostname = hostname ∧
          r.hostname ≠ hostname
      · obtain ⟨r', hr', hhost, hother⟩ := hexact
        refine ⟨r', hr', ?_, fun _ _ _ => hhost⟩
        rcases hcond r' r hr' hr hhost hother with hsame | ⟨e, he, hsub⟩
        · exact hsame
        · have hin : [r', r] <+ updateRoutes order services := hsub.trans
            (List.sublist_flatten_of_mem (List.mem_map_of_mem (order.mem_arrange.mpr he)))
          have hfirst := resolve_of_sublist hdistinct hr' hr (by rwa [hhost, ne_comm]) hin
          exact Option.some.inj (hfirst.symm.trans hresolve)
      · refine ⟨r, hr, rfl, fun r' hr' hhost => ?_⟩
        by_contra hother
        exact hexact ⟨r', hr', hhost, hother⟩
    exact ⟨fun order order' => (hexpected order).unique hdistinct (hexpected order'), hexpected⟩

end Order

/-- Two services, one for a host and one for any host. -/
def twoServices : HashMap String (List PortRoute) :=
  [⟨"any", [⟨"*", "/", 1, 100⟩]⟩, ⟨"web", [⟨"a.example", "/", 2, 100⟩]⟩].toAList

theorem twoServices_distinct : DistinctRoutes twoServices := by
  unfold DistinctRoutes
  decide +kernel

/-- In one order of the services the route for any host is taken, in the other that for the host. -/
theorem wildcard_wins :
    DistinctRoutes twoServices ∧
      resolve (updateRoutes .asBuilt twoServices) "a.example" "/" = some ⟨"any", 1, 100⟩ ∧
      resolve (updateRoutes ⟨List.reverse, List.reverse_perm⟩ twoServices) "a.example" "/" =
        some ⟨"web", 2, 100⟩ :=
  ⟨twoServices_distinct, by decide +kernel, by decide +kernel⟩

/-- Another host is answered the same in every order. -/
theorem route_order_other_host :
    DistinctRoutes twoServices ∧ ∀ order order',
      resolve (updateRoutes order twoServices) "b.example" "/" =
        resolve (updateRoutes order' twoServices) "b.example" "/" := by
  have hhosts : ∀ r ∈ updateRoutes .asBuilt twoServices, r.hostname ≠ "b.example" := by
    decide +kernel
  refine ⟨twoServices_distinct, ((route_order_iff twoServices_distinct "b.example" "/").mpr ?_).1⟩
  exact fun exact _ hexact _ hhost _ => absurd hhost (hhosts exact hexact.1)

end Ekafleet.Proxy
