import Ekafleet.Lib.Loop
import Ekafleet.Lib.Run
import Ekafleet.Server.Rbac

/-! Creating ACL tokens | source: server/api.rs

    Who may create a token is decided from the creating token and the request's namespace metadata;
    the namespace of the new token is a field of the request body. Chains of creations are runs of
    a system whose state is the token store and the tokens the caller holds. -/

namespace Ekafleet.Server
open Loop

/-- A request for a new token. -/
structure CreateAclTokenRequest where
  role : String
  description : String := ""
  /-- Empty for a fleet-wide token. -/
  ns : String := ""
  deriving DecidableEq, Repr

/-- The new token. -/
structure CreateAclTokenResponse where
  token : String
  role : String
  ns : String
  deriving DecidableEq, Repr

/-- The role of a name. -/
def parseRole : String → Option Role
  | "admin" => some .admin
  | "operator" => some .operator
  | "viewer" => some .viewer
  | _ => none

/-- Two hexadecimal digits for every byte. -/
def hex (bytes : Bytes) : String :=
  String.ofList (bytes.flatMap fun b =>
    [Nat.digitChar (b.toNat / 16), Nat.digitChar (b.toNat % 16)])

variable (tokenKey : String → String)

/-- Create a token; `random` are the bytes of the random generator, if it works. -/
def createAclToken (now : ℕ) (random : Option Bytes) (store : TokenStore) (ext : Extensions)
    (req : CreateAclTokenRequest) : Except Status (TokenStore × CreateAclTokenResponse) := do
  requirePermission ext .manageTokens
  match parseRole req.role with
  | none => throw ⟨.invalidArgument, "role must be admin, operator, or viewer"⟩
  | some role =>
    match random with
    | none => throw ⟨.internal, "RNG failure"⟩
    | some bytes =>
      let token := hex bytes
      let ns := if req.ns = "" then none else some req.ns
      return (registerWithOpts tokenKey now store token role req.description none ns,
        ⟨token, req.role, req.ns⟩)

/-! ### Chains of creations -/

/-- A token in the caller's hands, with the role of the token that created it. -/
structure Held where
  token : String
  creator : Option Role
  deriving DecidableEq, Repr

/-- A client, the tokens it holds, and the store. -/
structure Holder where
  store : TokenStore
  held : List Held

/-- A call made with one of the held tokens. -/
structure Call where
  now : ℕ
  bearer : String
  nsMetadata : Option String := none
  random : Option Bytes
  req : CreateAclTokenRequest
  deriving DecidableEq, Repr

/-- The outcome of a call: the creating role, the new store and the new token. -/
def created (store : TokenStore) (call : Call) :
    Except Status (Option Role × TokenStore × String) := do
  let ext ← intercept tokenKey call.now store
    { authorization := some ("Bearer " ++ call.bearer), nsMetadata := call.nsMetadata }
  let (store', response) ← createAclToken tokenKey call.now call.random store ext call.req
  return (ext.role, store', response.token)

/-- One call: a refused one changes nothing. -/
def holderStep (h : Holder) (call : Call) : Option Holder :=
  if call.bearer ∈ h.held.map (·.token) then
    match created tokenKey h.store call with
    | .error _ => some h
    | .ok (creator, store, token) => some ⟨store, ⟨token, creator⟩ :: h.held⟩
  else none

/-- Every held token is bound to `ns` and no stronger than its creator. -/
def Confined (ns : String) (h : Holder) : Prop :=
  ∀ t ∈ h.held, ∃ e, h.store.lookup (tokenKey t.token) = some e ∧ e.ns = some ns ∧
    ∀ r, t.creator = some r → e.role.le r

theorem Role.le_admin (r : Role) : r.le .admin := fun _ _ => rfl

variable {ext : Extensions} {store : TokenStore} {call : Call} {h' : Holder}

theorem requirePermission_role {role : Role} {perm : Permission} (hrole : ext.role = some role)
    (h : requirePermission ext perm = .ok ()) :
    role.hasPermission perm = true := by
  grind [requirePermission]

theorem createAclToken_spec {now : ℕ} {random : Option Bytes} {store' : TokenStore}
    {req : CreateAclTokenRequest} {response : CreateAclTokenResponse}
    (h : createAclToken tokenKey now random store ext req = .ok (store', response)) :
    requirePermission ext .manageTokens = .ok () ∧
      ∃ e, store' = store.insert (tokenKey response.token) e ∧
        e.ns = if req.ns = "" then none else some req.ns := by
  obtain ⟨_, hperm, h⟩ := bind_eq_ok h
  refine ⟨hperm, ?_⟩
  split at h; · cases h
  split at h; · cases h
  cases h
  exact ⟨_, rfl, rfl⟩

theorem intercept_bearer_role {now : ℕ} {authorization nsMetadata : Option String}
    (h : intercept tokenKey now store
      { authorization := authorization, nsMetadata := nsMetadata } = .ok ext) :
    ∃ role, ext.role = some role := by
  grind [intercept]

theorem created_spec {store' : TokenStore} {creator : Option Role} {token : String}
    (h : created tokenKey store call = .ok (creator, store', token)) :
    creator = some .admin ∧ ∃ e, store' = store.insert (tokenKey token) e ∧
      e.ns = if call.req.ns = "" then none else some call.req.ns := by
  obtain ⟨ext, hext, h⟩ := bind_eq_ok h
  obtain ⟨⟨_, response⟩, hcreate, h⟩ := bind_eq_ok h
  cases h
  obtain ⟨hperm, hentry⟩ := createAclToken_spec tokenKey hcreate
  obtain ⟨role, hrole⟩ := intercept_bearer_role tokenKey hext
  refine ⟨?_, hentry⟩
  have hmanage := requirePermission_role hrole hperm
  cases role <;> simp_all [Role.hasPermission]

/-! ### Runs -/

/-- Every token that was created was created by an admin. -/
def CreatedByAdmin (h : Holder) : Prop := ∀ t ∈ h.held, ∀ r, t.creator = some r → r = .admin

theorem holderStep_cases {h : Holder} (hs : holderStep tokenKey h call = some h') :
    (∃ status, created tokenKey h.store call = .error status ∧ h' = h) ∨
    ∃ creator store token, created tokenKey h.store call = .ok (creator, store, token) ∧
      h' = ⟨store, ⟨token, creator⟩ :: h.held⟩ := by
  grind [holderStep, Option.some.inj]

theorem holderStep_createdByAdmin {h : Holder} (hadm : CreatedByAdmin h)
    (hs : holderStep tokenKey h call = some h') : CreatedByAdmin h' := by
  rcases holderStep_cases tokenKey hs with ⟨_, _, rfl⟩ | ⟨creator, store, token, hcreated, rfl⟩
  · exact hadm
  · intro t ht r hr
    rcases List.mem_cons.mp ht with rfl | ht
    · exact Option.some.inj (hr.symm.trans (created_spec tokenKey hcreated).1)
    · exact hadm t ht r hr

/-- STEP: a call keeps the tokens confined exactly if it is refused or asks for the namespace. -/
theorem confined_step_iff {ns : String} {h : Holder} (hadm : CreatedByAdmin h)
    (hconf : Confined tokenKey ns h) (hs : holderStep tokenKey h call = some h') :
    Confined tokenKey ns h' ↔
      ∀ r, created tokenKey h.store call = .ok r → call.req.ns = ns ∧ ns ≠ "" := by
  have hadm' := holderStep_createdByAdmin tokenKey hadm hs
  rcases holderStep_cases tokenKey hs with ⟨_, herr, rfl⟩ | ⟨creator, store, token, hcreated, rfl⟩
  · exact ⟨fun _ r hr => (nomatch herr.symm.trans hr), fun _ => hconf⟩
  obtain ⟨-, e, rfl, hns⟩ := created_spec tokenKey hcreated
  constructor
  · intro hconf' r _
    obtain ⟨e', he', hbound, -⟩ := hconf' ⟨token, creator⟩ List.mem_cons_self
    grind [AList.lookup_insert]
  · intro hreq t ht
    obtain ⟨rfl, hne⟩ := hreq _ hcreated
    -- an entry is the new one, or the one that was there
    by_cases hkey : tokenKey t.token = tokenKey token
    · exact ⟨e, by rw [hkey, AList.lookup_insert], by rw [hns, if_neg hne],
        fun r hr => hadm' t ht r hr ▸ e.role.le_admin⟩
    · rcases List.mem_cons.mp ht with rfl | ht
      · exact absurd rfl hkey
      · obtain ⟨e', he', hbound, hrole⟩ := hconf t ht
        exact ⟨e', by rw [AList.lookup_insert_ne hkey]; exact he', hbound, hrole⟩

/-- EXACT: in every chain of calls that starts from one token bound to `ns`, all tokens obtained
    are bound to `ns` and no stronger than their creators if and only if every successful call asks
    for `ns` in its body. -/
theorem chain_confined_iff (tokenKey : String → String) (ns : String) (store : TokenStore)
    (token : String) (e : TokenEntry) (hentry : store.lookup (tokenKey token) = some e)
    (hns : e.ns = some ns) (calls : List Call) :
    (∀ pre h, pre <+: calls → Run.run (holderStep tokenKey) ⟨store, [⟨token, none⟩]⟩ pre = some h →
      Confined tokenKey ns h) ↔
    ∀ pre call h h', pre ++ [call] <+: calls →
      Run.run (holderStep tokenKey) ⟨store, [⟨token, none⟩]⟩ pre = some h →
      holderStep tokenKey h call = some h' →
      ∀ r, created tokenKey h.store call = .ok r → call.req.ns = ns ∧ ns ≠ "" := by
  have hadm : ∀ {pre h}, Run.run (holderStep tokenKey) ⟨store, [⟨token, none⟩]⟩ pre = some h →
      CreatedByAdmin h := fun hrun =>
    Run.invariant _ CreatedByAdmin (by simp [CreatedByAdmin])
      (fun _ _ _ hadm hs => holderStep_createdByAdmin tokenKey hadm hs) hrun
  refine Run.along_iff _ ?_ (fun pre h call h' hrun hconf hs =>
    confined_step_iff tokenKey (hadm hrun) hconf hs) calls
  intro t ht
  obtain rfl := List.mem_singleton.mp ht
  exact ⟨e, hentry, hns, nofun⟩

def teamToken : TokenEntry := ⟨.admin, "team a", 0, none, some "team-a"⟩

/-- A call that asks for the namespace of its token keeps to it. -/
theorem chain_confined_team_a :
    ∃ h, Run.run (holderStep id) ⟨[⟨"t", teamToken⟩].toAList, [⟨"t", none⟩]⟩
        [⟨1, "t", some "team-a", some [0xAB], { role := "admin", ns := "team-a" }⟩] = some h ∧
      h.held.length = 2 ∧ Confined id "team-a" h := by
  refine ⟨_, rfl, rfl, ?_⟩
  refine (chain_confined_iff id "team-a" [⟨"t", teamToken⟩].toAList "t" teamToken rfl rfl
    [⟨1, "t", some "team-a", some [0xAB], { role := "admin", ns := "team-a" }⟩]).mpr ?_ _ _
    List.prefix_rfl rfl
  rintro pre call _ _ ⟨rest, hrest⟩ - - - -
  cases pre with
  | nil => cases hrest; decide
  | cons => simp at hrest

/-- A token bound to `team-a` creates a fleet-wide admin token. -/
theorem team_token_creates_fleet_wide :
    (Run.run (holderStep id) ⟨[⟨"t", teamToken⟩].toAList, [⟨"t", none⟩]⟩
      [⟨1, "t", some "team-a", some [0xAB], { role := "admin" }⟩]).map
      (fun h => h.held.map fun t => (h.store.lookup t.token).map fun e => (e.role, e.ns)) =
    some [some (.admin, none), some (.admin, some "team-a")] := by
  decide

end Ekafleet.Server
