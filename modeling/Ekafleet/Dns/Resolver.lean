import Ekafleet.Dns.Names
import Ekafleet.Server.DesiredState

/-! The resolver of an agent | source: dns/resolver.rs, dns/listener.rs, agent/handlers.rs

    Addresses that the server has pushed, fleet-wide or for one namespace, are served until they
    expire. Times are in nanoseconds. -/

namespace Ekafleet.Dns.Resolver
open Raft Proto Server

/-- Addresses, and how long they may be served. -/
structure CacheEntry where
  ips : List Ipv4Addr
  insertedAt : ℕ
  ttl : ℕ

def CacheEntry.isExpired (now : ℕ) (e : CacheEntry) : Bool := e.ttl < now - e.insertedAt

/-- An entry that has not expired. -/
def fresh (now : ℕ) (e : Option CacheEntry) : Option CacheEntry := e.filter (!·.isExpired now)

/-- What the resolver has been told. -/
structure ResolverState where
  cache : HashMap String CacheEntry := ∅
  /-- By namespace and service. -/
  namespaceCache : HashMap (String × String) CacheEntry := ∅

/-- What a lookup says. -/
inductive ResolveResult where
  | cached (ips : List Ipv4Addr)
  | cacheMiss (name : String)
  | forward

/-- The answer for a name, from the entry of the service in it. -/
def answer (fleetDomain name : String) (entry : String → Option CacheEntry) : ResolveResult :=
  match Text.stripSuffix s!".service.{fleetDomain}" name with
  | some service =>
    match entry service with
    | some e => .cached e.ips
    | none => .cacheMiss service
  | none => if (Text.stripSuffix fleetDomain name).isSome then .cacheMiss name else .forward

/-- Look a name up in a namespace. -/
def resolveInNamespace (fleetDomain : String) (now : ℕ) (name ns : String) (s : ResolverState) :
    ResolveResult :=
  answer fleetDomain name fun service =>
    (if ns ≠ "" then fresh now (s.namespaceCache.lookup (ns, service)) else none) <|>
      fresh now (s.cache.lookup service)

/-- What the listener asks. -/
def resolve (fleetDomain : String) (now : ℕ) (name : String) : ResolverState → ResolveResult :=
  resolveInNamespace fleetDomain now name ""

/-- What happens to a resolver. -/
inductive Event where
  | record (r : DnsRecord)
  | invalidate (service : String)
  | clearCache
  | evictExpired

section Run
variable (parse : String → Option Ipv4Addr)

/-- What a record is stored as. Values that are no address are left out. -/
def entryOf (now : ℕ) (r : DnsRecord) : CacheEntry :=
  ⟨r.values.filterMap parse, now, r.ttl.toNat * 10 ^ 9⟩

/-- One event at the resolver. -/
def step (s : ResolverState) (now : ℕ) : Event → ResolverState
  | .record r =>
    if r.ns = "" then { s with cache := s.cache.insert r.name (entryOf parse now r) }
    else { s with namespaceCache := s.namespaceCache.insert (r.ns, r.name) (entryOf parse now r) }
  | .invalidate service => { s with cache := s.cache.erase service }
  | .clearCache => {}
  | .evictExpired => ⟨s.cache.retain fun _ c => !c.isExpired now,
      s.namespaceCache.retain fun _ c => !c.isExpired now⟩

/-- The resolver after a history of timed events. -/
def after (history : List (ℕ × Event)) : ResolverState :=
  history.foldl (fun s e => step parse s e.1 e.2) {}

/-! ### What a history says -/

/-- What an event says about the entry of a service in a namespace (`""`: fleet-wide), if it says
    anything. -/
def verdict (ns service : String) (now : ℕ) : Event → Option (Option CacheEntry)
  | .record r => if r.ns = ns ∧ r.name = service then some (entryOf parse now r) else none
  | .invalidate name => if ns = "" ∧ name = service then some none else none
  | .clearCache => some none
  | .evictExpired => none

/-- The entry by the last event that says something about it. -/
def latest (history : List (ℕ × Event)) (ns service : String) : Option CacheEntry :=
  (history.reverse.findSome? fun e => verdict parse ns service e.1 e.2).join

/-- The stored entry. -/
def entry (s : ResolverState) (ns service : String) : Option CacheEntry :=
  if ns = "" then s.cache.lookup service else s.namespaceCache.lookup (ns, service)

variable {parse} {now t : ℕ} {ns service : String} {history : List (ℕ × Event)}

/-- What has expired at an eviction has expired ever after. -/
theorem fresh_fresh (ht : t ≤ now) (e : Option CacheEntry) :
    fresh now (fresh t e) = fresh now e := by
  ext c
  simp only [fresh, Option.filter_eq_some_iff, CacheEntry.isExpired]
  grind

theorem lookup_retain {K : Type} [DecidableEq K] (m : HashMap K CacheEntry) (k : K) :
    (m.retain fun _ c => !c.isExpired t).lookup k = fresh t (m.lookup k) := by
  ext c
  rw [HashMap.lookup_retain_eq_some, fresh, Option.filter_eq_some_iff]

/-- STEP: the stored entry changes as the event says, or expires. -/
theorem entry_step (s : ResolverState) (t : ℕ) (e : Event) (ns service : String) :
    entry (step parse s t e) ns service =
      match e with
      | .evictExpired => fresh t (entry s ns service)
      | e => (verdict parse ns service t e).getD (entry s ns service) := by
  cases e with
  | record | invalidate | clearCache => grind [step, entry, verdict]
  | evictExpired => grind [step, entry, lookup_retain]

theorem resolveInNamespace_eq (fleetDomain name : String) (s : ResolverState) :
    resolveInNamespace fleetDomain now name ns s = answer fleetDomain name fun service =>
      fresh now (entry s ns service) <|> fresh now (entry s "" service) := by
  rw [resolveInNamespace]
  congr
  funext service
  by_cases hns : ns = ""
  · subst hns
    simp [entry]
  · simp [entry, hns]

/-- RUN: evictions, whenever they happen, change nothing that can be served. -/
theorem fresh_entry_after (h : ∀ e ∈ history, e.1 ≤ now) :
    fresh now (entry (after parse history) ns service) =
      fresh now (latest parse history ns service) := by
  induction history using List.reverseRecOn with
  | nil => simp [after, entry, latest]
  | append_singleton history e ih =>
    specialize ih fun e he => h e (by simp [he])
    have he := h e (by simp)
    obtain ⟨t, e⟩ := e
    rw [after, List.foldl_append, latest, List.reverse_concat, List.findSome?_cons]
    refine (congrArg _ (entry_step (after parse history) t e ns service)).trans ?_
    cases e with
    | evictExpired => exact (fresh_fresh he _).trans ih
    | record | invalidate | clearCache => grind [verdict, latest]

/-- REFINEMENT: a query is answered from the last that was said about the service in the namespace,
    or else fleet-wide, while that has not expired. -/
theorem resolve_serves_latest (fleetDomain name : String) (h : ∀ e ∈ history, e.1 ≤ now) :
    resolveInNamespace fleetDomain now name ns (after parse history) =
      answer fleetDomain name fun service =>
        fresh now (latest parse history ns service) <|>
          fresh now (latest parse history "" service) := by
  simp only [resolveInNamespace_eq, fresh_entry_after h]

/-- Fleet-wide, or of the namespace. -/
def Event.visible (ns : String) : Event → Bool
  | .record r => r.ns = "" || r.ns = ns
  | _ => true

/-- RUN: records of other namespaces never change an answer. -/
theorem resolve_isolated (fleetDomain name : String) (history : List (ℕ × Event)) :
    resolveInNamespace fleetDomain now name ns (after parse (history.filter (·.2.visible ns))) =
      resolveInNamespace fleetDomain now name ns (after parse history) := by
  have hentry : ∀ ns', ns' = "" ∨ ns' = ns → ∀ service,
      entry (after parse (history.filter (·.2.visible ns))) ns' service =
        entry (after parse history) ns' service := by
    intro ns' hns' service
    induction history using List.reverseRecOn with
    | nil => rfl
    | append_singleton history e ih =>
      simp only [after, List.filter_append, List.foldl_append, List.foldl_cons, List.foldl_nil,
        entry_step] at ih ⊢
      obtain ⟨t, e⟩ := e
      cases e <;> grind [Event.visible, verdict, entry_step]
  simp only [resolveInNamespace_eq, hentry ns (.inr rfl), hentry "" (.inl rfl)]

end Run

/-! ### Queries -/

/-- A reply with a question section. -/
def reply (id : Bytes) (rcode : UInt8) (answers : ℕ) (question : Bytes) : Bytes :=
  id ++ [0x85, rcode, 0, 1, UInt8.ofNat (answers / 256), UInt8.ofNat answers, 0, 0, 0, 0] ++
    question

/-- An address, for the name at offset 12. -/
def aRecord (ip : Ipv4Addr) : Bytes :=
  [0xC0, 12, 0, 1, 0, 1, 0, 0, 0, 60, 0, 4, ip.a, ip.b, ip.c, ip.d]

/-- A reply without answers. -/
def buildErrorResponse (query : Bytes) (rcode : UInt8) : Bytes :=
  (if 2 ≤ query.length then query.take 2 else [0, 0]) ++ [0x81, rcode, 0, 0, 0, 0, 0, 0, 0, 0]

/-- Handle a DNS query. `forwarded` is what an upstream server answers. -/
def handleQuery (resolve : String → ResolveResult) (forwarded : Option Bytes) (query : Bytes) :
    Bytes :=
  if query.length < 12 ∨ (query.drop 4).take 2 = [0, 0] then buildErrorResponse query 1
  else match parseQname query 12 with
    | none => buildErrorResponse query 1
    | some (qname, offset) =>
      if query.length < offset + 4 then buildErrorResponse query 1
      else
        let question := (query.drop 12).take (offset + 4 - 12)
        match resolve qname with
        | .cached ips =>
          if (query.drop offset).take 2 ∈ [[0, 1], [0, 255]] then
            reply (query.take 2) 0x80 ips.length question ++ ips.flatMap aRecord
          else reply (query.take 2) 0x80 0 question
        | .cacheMiss _ => reply (query.take 2) 0x83 0 question
        | .forward => forwarded.getD (query.take 2 ++ [0x81, 0x85] ++ query.drop 4)

theorem answer_service (service d : String) (ds : List String)
    (entry : String → Option CacheEntry) :
    answer (".".intercalate (d :: ds)) (".".intercalate (service :: "service" :: d :: ds)) entry =
      (entry service).elim (.cacheMiss service) (.cached ·.ips) := by
  have hname : ".".intercalate (service :: "service" :: d :: ds) =
      service ++ (".service." ++ ".".intercalate (d :: ds)) := by
    simp only [String.intercalate_cons_cons, String.append_assoc]
    rfl
  have hstrip := Text.stripSuffix_append service (".service." ++ ".".intercalate (d :: ds))
  simp only [answer, hname, toString, hstrip]
  cases entry service <;> rfl

/-- CORRECT: a packet that asks for the addresses of a service is answered with those last recorded
    fleet-wide, while they have not expired, and else that there is no such name. -/
theorem service_query_answered (parse : String → Option Ipv4Addr) {now : ℕ}
    {history : List (ℕ × Event)} (h : ∀ e ∈ history, e.1 ≤ now) {service d : String}
    {ds : List String} (hlabels : ∀ l ∈ service :: "service" :: d :: ds, IsLabel l)
    (forwarded : Option Bytes) {header : Bytes} (hheader : header.length = 12)
    (hcount : (header.drop 4).take 2 ≠ [0, 0]) (c₀ c₁ : UInt8) (tail : Bytes) :
    let question := encodeQname (".".intercalate (service :: "service" :: d :: ds)) ++
      [0, 1, c₀, c₁]
    handleQuery (resolve (".".intercalate (d :: ds)) now · (after parse history)) forwarded
        (header ++ (question ++ tail)) =
      (fresh now (latest parse history "" service)).elim (reply (header.take 2) 0x83 0 question)
        fun e => reply (header.take 2) 0x80 e.ips.length question ++ e.ips.flatMap aRecord := by
  have hparse := parseLabels_encoded hlabels ([0, 1, c₀, c₁] ++ tail) header
  rw [← encodeQname_intercalate hlabels, hheader] at hparse
  generalize encodeQname _ = name at hparse ⊢
  rw [← List.append_assoc name] at hparse
  intro question
  rw [handleQuery, if_neg, parseQname, hparse, Option.map_some]
  · simp only [resolve, resolve_serves_latest _ _ h, answer_service]
    rw [if_neg (by simp [question, hheader]; omega)]
    cases fresh now (latest parse history "" service) <;>
      simp [question, hheader, List.drop_append, List.take_append, Nat.add_assoc,
        List.take_of_length_le]
  · simp [hheader, List.drop_append, List.take_append, hcount]

theorem web_query_answered :
    handleQuery (resolve (".".intercalate ["fleet"]) 9 · (after (fun _ => some ⟨10, 0, 0, 7⟩)
        [(0, .record ⟨"web", .a, ["10.0.0.7"], 30, ""⟩)])) none
        ([1, 2, 1, 0, 0, 1, 0, 0, 0, 0, 0, 0] ++ (encodeQname (".".intercalate
          ["web", "service", "fleet"]) ++ [0, 1, 0, 1] ++ [])) =
      reply [1, 2] 0x80 1 (encodeQname (".".intercalate ["web", "service", "fleet"]) ++
        [0, 1, 0, 1]) ++
        aRecord ⟨10, 0, 0, 7⟩ :=
  service_query_answered _ (by simp) (by unfold IsLabel; decide +kernel) none rfl (by decide) 0 1 []

/-! ### What the server sends -/

/-- A record that the server sends to some node in some cycle. -/
def Sent (r : DnsRecord) : Prop :=
  ∃ order desired plan state raft node records,
    (node, .dns records) ∈ desiredStateMessages order desired plan state raft ∧ r ∈ records

theorem namespace_ne {order : HashMap.Order} {specs : List (String × ServiceSpec)}
    {n : Σ _ : String, List String} (h : n ∈ perNodeNamespaces order specs) {ns : String}
    (hns : ns ∈ n.2) : ns ≠ "" := by
  obtain ⟨e, he, rfl⟩ := List.mem_map.mp h
  rw [HashMap.Order.mem_arrange] at he hns
  obtain ⟨-, hvalues⟩ := HashMap.mem_entries_groupBy.mp he
  rw [List.mem_dedup, hvalues] at hns
  grind [isDefaultNamespace]

theorem Sent.ns_ne {r : DnsRecord} (h : Sent r) : r.ns ≠ "" := by
  obtain ⟨order, desired, plan, state, raft, node, records, hmem, hr⟩ := h
  rcases List.mem_append.mp hmem with hmem | hmem
  · obtain ⟨_, -, heq⟩ := List.mem_map.mp hmem
    cases heq
  obtain ⟨n, hn, heq⟩ := List.mem_filterMap.mp hmem
  generalize hsent : dnsRecordsOf _ _ = sent at heq
  cases sent with
  | nil => cases heq
  | cons =>
    cases heq
    rw [← hsent] at hr
    obtain ⟨ns, hns, hr⟩ := List.mem_flatMap.mp hr
    obtain ⟨_, -, hr⟩ := List.mem_flatMap.mp hr
    obtain ⟨_, -, rfl⟩ := List.mem_map.mp hr
    exact namespace_ne hn hns

/-- STEP: records of namespaces leave the fleet-wide cache empty. -/
theorem cache_step {parse : String → Option Ipv4Addr} {s : ResolverState} {e : Event}
    (hs : s.cache = ∅) (he : ∀ r, e = .record r → r.ns ≠ "") (t : ℕ) :
    (step parse s t e).cache = ∅ := by
  cases e with
  | record r => rw [step, if_neg (he r rfl), hs]
  | invalidate | evictExpired =>
    rw [step, hs]
    rfl
  | clearCache => rfl

/-- CORRECT: with what the server sends, the listener has no address for any name. All records are
    those of a namespace, and it asks for none. -/
theorem resolve_never_cached (parse : String → Option Ipv4Addr) (fleetDomain name : String)
    (now : ℕ) {history : List (ℕ × Event)} (h : ∀ e ∈ history, ∀ r, e.2 = .record r → Sent r)
    (ips : List Ipv4Addr) : resolve fleetDomain now name (after parse history) ≠ .cached ips := by
  have hcache : (after parse history).cache = ∅ := by
    refine List.foldlRecOn (motive := fun s => ResolverState.cache s = ∅) history _ rfl ?_
    exact fun s hs e he => cache_step hs (fun r hr => (h e he r hr).ns_ne) _
  rw [resolve, resolveInNamespace, hcache, answer]
  grind [fresh]

/-- The record of `web`, in namespace `prod`. -/
def webRecord : DnsRecord := ⟨"web", .a, ["10.200.7.2"], 30, "prod"⟩

theorem web_served_in_prod : (∀ e ∈ [(0, Event.record webRecord)], e.1 ≤ 10 ^ 9) ∧
    resolveInNamespace "fleet.internal" (10 ^ 9) "web.service.fleet.internal" "prod"
      (after (fun _ => some ⟨10, 200, 7, 2⟩) [(0, .record webRecord)]) =
        .cached [⟨10, 200, 7, 2⟩] :=
  ⟨by simp, (resolve_serves_latest _ _ (by simp)).trans rfl⟩

theorem sent_webRecord : Sent webRecord := by
  refine ⟨.asBuilt, { services := AList.singleton "web" { ns := "prod" } },
    ⟨[⟨"web", [⟨"web", "web-0", "m1"⟩], "", []⟩], [], [], [], true, []⟩, {},
    { namespaceIps := AList.singleton "prod" (AList.singleton "web" ⟨10, 200, 7, 2⟩) }, "m1",
    [webRecord], ?_, List.mem_singleton_self _⟩
  exact List.mem_of_getLast? rfl

theorem web_never_cached : Sent webRecord ∧ ∀ ips, resolve "fleet.internal" 0
    "web.service.fleet.internal" (after (fun _ => some ⟨10, 200, 7, 2⟩) [(0, .record webRecord)]) ≠
      .cached ips := by
  refine ⟨sent_webRecord, fun ips => resolve_never_cached _ _ _ _ (fun e he r hr => ?_) ips⟩
  cases List.mem_singleton.mp he
  cases hr
  exact sent_webRecord

end Ekafleet.Dns.Resolver
