import Mathlib.Data.List.AList
import Mathlib.Tactic

/-! Hash maps together with the order in which they iterate.

    A map is an association list with distinct keys (`AList`); the order of the list is the
    iteration order, so a statement about every `HashMap` is one about every iteration order. On top
    of the library operations stand two in-place updates: `adjust` (change the value of a present
    key) and `upsert` (the entry of a key, created from a default when it is absent). A map that a
    program builds is walked in an `Order`, any rearrangement of its entries. -/

/-- A map with a fixed iteration order. -/
abbrev HashMap (K V : Type) := AList fun _ : K => V

namespace HashMap

variable {K V W : Type}

instance [Countable K] [Countable V] : Countable (HashMap K V) :=
  Function.Injective.countable fun _ _ => AList.ext

/-- The values in iteration order. -/
def values (m : HashMap K V) : List V := m.entries.map Sigma.snd

/-- Rewrite every value in place. -/
def mapVal (f : K → V → W) (m : HashMap K V) : HashMap K W where
  entries := m.entries.map fun e => ⟨e.1, f e.1 e.2⟩
  nodupKeys := by
    rw [List.NodupKeys, List.keys, List.map_map]
    exact m.nodupKeys

theorem keys_mapVal (f : K → V → W) (m : HashMap K V) : (mapVal f m).keys = m.keys := by
  rw [AList.keys, mapVal, List.keys, List.map_map]; rfl

variable [DecidableEq K]

@[simp] theorem lookup_mapVal (f : K → V → W) (m : HashMap K V) (k : K) :
    (mapVal f m).lookup k = (m.lookup k).map (f k) :=
  List.dlookup_map₂ (γ := fun _ => V) (δ := fun _ => W) (l := m.entries) (f := f) k

theorem mapVal_erase (f : K → V → W) (k : K) (m : HashMap K V) :
    mapVal f (m.erase k) = (mapVal f m).erase k := by
  refine AList.ext ?_
  rcases m with ⟨l, hl⟩
  change (l.kerase k).map (fun e => (⟨e.1, f e.1 e.2⟩ : Σ _ : K, W)) =
    (l.map fun e => (⟨e.1, f e.1 e.2⟩ : Σ _ : K, W)).kerase k
  clear hl
  induction l with
  | nil => rfl
  | cons e l ih =>
    by_cases h : k = e.1
    · subst h
      simp
    · simp [List.kerase_cons_ne, h, ih]

theorem mapVal_insert (f : K → V → W) (k : K) (v : V) (m : HashMap K V) :
    mapVal f (m.insert k v) = (mapVal f m).insert k (f k v) := by
  refine AList.ext ?_
  have h := congrArg AList.entries (mapVal_erase f k m)
  exact congrArg (List.cons (⟨k, f k v⟩ : Σ _ : K, W)) h

/-- Change the value of `k` if it is present. -/
def adjust (k : K) (f : V → V) (m : HashMap K V) : HashMap K V :=
  mapVal (fun k' v => if k' = k then f v else v) m

/-- The entry of `k`, started from `d` when absent, after `f`. -/
def upsert (k : K) (d : V) (f : V → V) (m : HashMap K V) : HashMap K V :=
  m.insert k (f ((m.lookup k).getD d))

@[simp] theorem lookup_adjust_self (k : K) (f : V → V) (m : HashMap K V) :
    (adjust k f m).lookup k = (m.lookup k).map f := by
  simp [adjust]

variable {k : K} {m : HashMap K V}

@[simp] theorem lookup_adjust_ne {k' : K} (h : k' ≠ k) (f : V → V) (m : HashMap K V) :
    (adjust k f m).lookup k' = m.lookup k' := by
  simp [adjust, h]

/-! ### Lookups after an update -/

@[grind =] theorem lookup_insert (m : HashMap K V) (k k' : K) (v : V) :
    (m.insert k v).lookup k' = if k' = k then some v else m.lookup k' := by
  split_ifs with h
  · rw [h, AList.lookup_insert]
  · exact AList.lookup_insert_ne h

@[grind =] theorem lookup_erase (m : HashMap K V) (k k' : K) :
    (m.erase k).lookup k' = if k' = k then none else m.lookup k' := by
  split_ifs with h
  · rw [h, AList.lookup_erase]
  · exact AList.lookup_erase_ne h

@[grind =] theorem lookup_adjust (k k' : K) (f : V → V) (m : HashMap K V) :
    (adjust k f m).lookup k' = if k' = k then (m.lookup k).map f else m.lookup k' := by
  split_ifs with h
  · rw [h, lookup_adjust_self]
  · exact lookup_adjust_ne h f m

attribute [grind =] lookup_mapVal AList.lookup_empty

/-! ### Maps as functions -/

/-- The map as a function of the key, without its order. -/
def get (m : HashMap K V) : K → Option V := fun k => m.lookup k

@[simp] theorem get_empty : get (∅ : HashMap K V) = fun _ => none := rfl

@[simp] theorem get_insert (m : HashMap K V) (k : K) (v : V) :
    get (m.insert k v) = Function.update (get m) k (some v) := by
  funext k'
  by_cases h : k' = k
  · subst h; simp [get]
  · simp [get, h]

@[simp] theorem get_singleton (k : K) (v : V) :
    get (AList.singleton k v) = Function.update (fun _ => none) k (some v) := by
  rw [← AList.insert_empty, get_insert, get_empty]

theorem adjust_singleton (k : K) (f : V → V) (v : V) :
    adjust k f (AList.singleton k v) = AList.singleton k (f v) := by
  refine AList.ext ?_
  change [(⟨k, if k = k then f v else v⟩ : Σ _ : K, V)] = [⟨k, f v⟩]
  rw [if_pos rfl]

@[simp] theorem get_erase (m : HashMap K V) (k : K) :
    get (m.erase k) = Function.update (get m) k none := by
  funext k'
  by_cases h : k' = k
  · subst h; simp [get]
  · simp [get, h]

@[simp] theorem get_adjust (m : HashMap K V) (k : K) (f : V → V) :
    get (adjust k f m) = Function.update (get m) k ((get m k).map f) := by
  funext k'
  by_cases h : k' = k
  · subst h; simp [get]
  · simp [get, h]

@[simp] theorem get_upsert (m : HashMap K V) (k : K) (d : V) (f : V → V) :
    get (upsert k d f m) = Function.update (get m) k (some (f ((get m k).getD d))) :=
  get_insert m k _

theorem isEmpty_iff_get (m : HashMap K V) : m.entries = [] ↔ get m = fun _ => none := by
  refine ⟨fun h => funext fun k => ?_, fun h => List.eq_nil_iff_forall_not_mem.mpr ?_⟩
  · rw [get, AList.lookup, h]; rfl
  · rintro ⟨k, v⟩ hmem
    have := congrFun h k
    rw [get, AList.mem_lookup_iff.mpr hmem] at this
    cases this

theorem mem_iff_exists_lookup : k ∈ m ↔ ∃ v, m.lookup k = some v := by
  rw [← AList.lookup_isSome, Option.isSome_iff_exists]

theorem lookup_of_mem {v : V} (h : (⟨k, v⟩ : Σ _ : K, V) ∈ m.entries) : m.lookup k = some v :=
  AList.mem_lookup_iff.mpr h

theorem mem_of_lookup {v : V} (h : m.lookup k = some v) :
    (⟨k, v⟩ : Σ _ : K, V) ∈ m.entries :=
  AList.mem_lookup_iff.mp h

theorem mem_entries_toAList {l : List (Σ _ : K, V)} (h : l.NodupKeys) {e : Σ _ : K, V} :
    e ∈ l.toAList.entries ↔ e ∈ l := by
  obtain ⟨k, v⟩ := e
  rw [← AList.mem_lookup_iff, AList.lookup_to_alist, List.mem_dlookup_iff h]

/-- The entries that satisfy `p`, in their order. -/
def retain (p : K → V → Bool) (m : HashMap K V) : HashMap K V where
  entries := m.entries.filter fun e => p e.1 e.2
  nodupKeys := m.nodupKeys.sublist List.filter_sublist

@[grind =] theorem lookup_retain_eq_some {p : K → V → Bool} {v : V} :
    (retain p m).lookup k = some v ↔ m.lookup k = some v ∧ p k v = true := by
  constructor
  · intro h
    obtain ⟨hmem, hp⟩ := List.mem_filter.mp (mem_of_lookup h)
    exact ⟨lookup_of_mem hmem, hp⟩
  · rintro ⟨h, hp⟩
    exact lookup_of_mem (List.mem_filter.mpr ⟨mem_of_lookup h, hp⟩)

/-! ### Maps the program builds -/

theorem getD_lookup_foldl_upsert {f : W → V → V} {d : V} {k : K} :
    ∀ {l : List (Σ _ : K, W)}, l.NodupKeys → ∀ m : HashMap K V,
      ((l.foldl (fun m r => upsert r.1 d (f r.2) m) m).lookup k).getD d =
        match l.dlookup k with
        | none => (m.lookup k).getD d
        | some w => f w ((m.lookup k).getD d)
  | [], _, _ => rfl
  | r :: rest, hnodup, m => by
    obtain ⟨hnew, hrest⟩ := List.nodupKeys_cons.mp hnodup
    rw [List.foldl_cons, getD_lookup_foldl_upsert hrest]
    by_cases hk : r.1 = k
    · subst hk
      rw [List.dlookup_eq_none.mpr hnew, List.dlookup_cons_eq]
      simp [upsert]
    · rw [List.dlookup_cons_ne _ _ (Ne.symm hk), upsert, AList.lookup_insert_ne (Ne.symm hk)]

/-- How maps that are built along the way iterate: some rearrangement of their entries. -/
structure Order where
  arrange : {α : Type} → List α → List α
  perm : ∀ {α : Type} (l : List α), (arrange l).Perm l

/-- The order in which the entries stand. -/
def Order.asBuilt : Order := ⟨fun l => l, fun _ => .refl _⟩

@[simp] theorem Order.mem_arrange (order : Order) {α : Type} {l : List α} {a : α} :
    a ∈ order.arrange l ↔ a ∈ l :=
  (order.perm l).mem_iff

theorem Order.exists_head {α : Type} {l : List α} {a : α} (h : a ∈ l) :
    ∃ (order : Order) (rest : List α), order.arrange l = a :: rest := by
  obtain ⟨l₁, l₂, rfl⟩ := List.append_of_mem h
  refine ⟨⟨fun l => l.rotate l₁.length, fun l => l.rotate_perm _⟩, l₂ ++ l₁, ?_⟩
  exact List.rotate_append_length_eq l₁ (a :: l₂)

/-- Collect the values `g a` under the keys `f a`, in the order of the list. -/
def groupBy {α : Type} (f : α → K) (g : α → V) (l : List α) : HashMap K (List V) :=
  l.foldl (fun m a => upsert (f a) [] (· ++ [g a]) m) ∅

theorem lookup_foldl_upsert {α : Type} (f : α → K) (g : α → V) (k : K) :
    ∀ (l : List α) (m : HashMap K (List V)),
      (l.foldl (fun m a => upsert (f a) [] (· ++ [g a]) m) m).lookup k =
        if l.filter (f · = k) = [] then m.lookup k
        else some ((m.lookup k).getD [] ++ (l.filter (f · = k)).map g)
  | [], m => by simp
  | a :: l, m => by
    rw [List.foldl_cons, lookup_foldl_upsert f g k l]
    by_cases ha : f a = k
    · subst ha
      by_cases hl : l.filter (f · = f a) = [] <;> simp [upsert, hl]
    · simp [upsert, ha, Ne.symm ha]

theorem lookup_groupBy {α : Type} (f : α → K) (g : α → V) (l : List α) (k : K) :
    (groupBy f g l).lookup k =
      if l.filter (f · = k) = [] then none else some ((l.filter (f · = k)).map g) := by
  rw [groupBy, lookup_foldl_upsert]
  simp

theorem mem_entries_groupBy {α : Type} {f : α → K} {g : α → V} {l : List α} {e : Σ _ : K, List V} :
    e ∈ (groupBy f g l).entries ↔
      l.filter (f · = e.1) ≠ [] ∧ e.2 = (l.filter (f · = e.1)).map g := by
  obtain ⟨k, vs⟩ := e
  rw [← AList.mem_lookup_iff, Option.mem_def, lookup_groupBy]
  grind

theorem flatMap_filter_perm {α : Type} (f : α → K) :
    ∀ {keys : List K} {l : List α}, keys.Nodup → (∀ a ∈ l, f a ∈ keys) →
      (keys.flatMap fun k => l.filter (f · = k)).Perm l
  | [], l, _, hcover => by
    rw [List.eq_nil_iff_forall_not_mem.mpr fun a ha => List.not_mem_nil (hcover a ha)]
    rfl
  | k :: keys, l, hnodup, hcover => by
    obtain ⟨hk, hkeys⟩ := List.nodup_cons.mp hnodup
    have hrest : (keys.flatMap fun k' => l.filter (f · = k')) =
        keys.flatMap fun k' => (l.filter fun a => !decide (f a = k)).filter (f · = k') := by
      refine List.flatMap_congr fun k' hk' => ?_
      rw [List.filter_filter]
      grind
    have hcover' : ∀ a ∈ l.filter (fun a => !decide (f a = k)), f a ∈ keys := by
      grind
    rw [List.flatMap_cons, hrest]
    exact ((flatMap_filter_perm f hkeys hcover').append_left _).trans (List.filter_append_perm _ l)

theorem groupBy_perm {α : Type} (f : α → K) (g : α → V) (l : List α) :
    ((groupBy f g l).entries.flatMap fun e => e.2.map (Prod.mk e.1)).Perm
      (l.map fun a => (f a, g a)) := by
  have hgroups : (groupBy f g l).entries.flatMap (fun e => e.2.map (Prod.mk e.1)) =
      ((groupBy f g l).keys.flatMap fun k => l.filter (f · = k)).map fun a => (f a, g a) := by
    rw [AList.keys, List.keys, List.flatMap_map, List.map_flatMap]
    refine List.flatMap_congr fun e he => ?_
    grind [mem_entries_groupBy, List.map_map, List.map_congr_left]
  rw [hgroups]
  refine (flatMap_filter_perm f (groupBy f g l).keys_nodup fun a ha => ?_).map _
  rw [← AList.mem_keys, mem_iff_exists_lookup, lookup_groupBy]
  have hne : l.filter (f · = f a) ≠ [] := List.ne_nil_of_mem (List.mem_filter.mpr ⟨ha, by simp⟩)
  exact ⟨_, if_neg hne⟩

theorem lookup_foldl_insert {α : Type} (f : α → K) (g : α → V) (m : HashMap K V) (k : K)
    (l : List α) :
    (l.foldl (fun m a => m.insert (f a) (g a)) m).lookup k =
      ((l.filter (f · = k)).getLast?.map g).or (m.lookup k) := by
  induction l using List.reverseRecOn with
  | nil => simp
  | append_singleton l a ih =>
    rw [List.foldl_append, List.foldl_cons, List.foldl_nil, List.filter_append]
    by_cases ha : f a = k
    · subst ha
      simp
    · simp [ha, Ne.symm ha, ih]

theorem lookup_of_foldl_erase {k : K} {v : V} :
    ∀ {keys : List K} {m : HashMap K V},
      (keys.foldl (fun m k => m.erase k) m).lookup k = some v → m.lookup k = some v
  | [], _, h => h
  | key :: keys, m, h => by
    have hrest : (m.erase key).lookup k = some v := lookup_of_foldl_erase h
    by_cases hkey : k = key
    · rw [hkey, AList.lookup_erase] at hrest
      cases hrest
    · rwa [AList.lookup_erase_ne hkey] at hrest

/-! ### Some of the entries, rewritten -/

theorem kerase_eq_filter {l : List (Σ _ : K, V)} (h : l.NodupKeys) (k : K) :
    l.kerase k = l.filter fun e => e.1 ≠ k := by
  induction l with
  | nil => rfl
  | cons e l ih =>
    obtain ⟨hhead, htail⟩ := List.nodupKeys_cons.mp h
    by_cases he : k = e.1
    · grind [decide_eq_true, List.mem_keys_of_mem, List.kerase_cons_eq, List.filter_cons_of_neg,
         List.filter_eq_self]
    · rw [List.kerase_cons_ne he, List.filter_cons_of_pos (by simpa using Ne.symm he), ih htail]

theorem filter_values_erase {p : V → Bool} (h : ∀ v, m.lookup k = some v → p v = false) :
    (values (m.erase k)).filter p = (values m).filter p := by
  rw [values, values, List.filter_map, List.filter_map]
  refine congrArg (List.map fun e : Σ _ : K, V => e.2) ?_
  change (m.entries.kerase k).filter _ = _
  rw [kerase_eq_filter m.nodupKeys, List.filter_filter]
  refine List.filter_congr fun e he => ?_
  by_cases hk : e.1 = k
  · have hp : p e.2 = false := h e.2 (hk ▸ lookup_of_mem he)
    simp [hk, hp]
  · simp [hk]

end HashMap
