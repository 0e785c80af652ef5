import Ekafleet.Lib.Effect
import Ekafleet.Agent.UnitFile

/-! The supervisor | source: agent/supervisor.rs

    The agent keeps services in step with the desired state through systemd. What it does to the
    host is a log of calls; whether a call succeeds is decided outside, from the calls before it. -/

namespace Ekafleet.Agent
open Proto Effect

/-- The `systemctl` commands the supervisor runs. -/
inductive Systemctl where
  | daemonReload
  | restart (unit : String)
  | enableNow (unit : String)
  | disableNow (unit : String)
  deriving DecidableEq, Repr

/-- The command line of a call. -/
def Systemctl.args : Systemctl → List String
  | .daemonReload => ["daemon-reload"]
  | .restart unit => ["restart", unit]
  | .enableNow unit => ["enable", "--now", unit]
  | .disableNow unit => ["disable", "--now", unit]

/-- What the supervisor does to its host. -/
inductive HostCall where
  | createDir (path : String)
  | write (path content : String)
  | removeFile (path : String)
  | symlink (target link : String)
  | nixStore (root storePath : String)
  | systemctl (cmd : Systemctl)
  deriving DecidableEq, Repr

/-- A call fails in the operating system, or the program it ran reports an error. -/
inductive HostFault where
  | io (message : String)
  | failed (stderr : String)
  deriving DecidableEq, Repr

/-- Why a reconciliation ends early. -/
inductive SupervisorError where
  | systemctl (message : String)
  | io (message : String)
  deriving DecidableEq, Repr

/-- The record of a unit that was installed. -/
structure UnitState where
  unitName : String
  /-- The store path of a native service, the image of a container. -/
  versionKey : String
  running : Bool
  deriving DecidableEq, Repr

/-- The supervisor's records, and the calls it has made. -/
structure Supervisor where
  managedUnits : HashMap String UnitState := ∅
  calls : List HostCall := []

/-- What a reconciliation reports for a service. -/
inductive SupervisorAction where
  | started (name : String)
  | restarted (name : String)
  | stopped (name : String)
  deriving DecidableEq, Repr

/-- How the next call fails after the calls so far, if it does. -/
abbrev Outcomes := List HostCall → HostCall → Option HostFault

/-- A host on which every call succeeds. -/
def noFaults : Outcomes := fun _ _ => none

abbrev Supervise := Effect Supervisor SupervisorError

def HostCall.describe : HostCall → String
  | .systemctl cmd => "systemctl " ++ " ".intercalate cmd.args
  | .nixStore _ _ => "nix-store --add-root"
  | _ => ""

section Operations
variable (out : Outcomes) (dataDir : String)

/-- Make one call on the host. -/
def perform (call : HostCall) : Supervise Unit := fun s =>
  let s' := { s with calls := s.calls ++ [call] }
  match out s.calls call with
  | none => (.ok (), s')
  | some (.io message) => (.error (.io message), s')
  | some (.failed stderr) =>
    (.error (.systemctl s!"{call.describe} failed: {Text.trim stderr}"), s')

/-- Make one call and go on if it fails. -/
def tryPerform (call : HostCall) : Supervise Unit := do
  let _ ← attempt (perform out call)

/-- Keep a native service's closure from garbage collection; a failure is only logged. -/
def rootServiceClosure (name : String) (spec : ServiceSpec) : Supervise Unit :=
  if isContainerService spec || spec.storePath == "" then pure ()
  else do
    let _ ← attempt do
      perform out (.createDir s!"{dataDir}/gcroots")
      perform out (.nixStore s!"{dataDir}/gcroots/{name}" spec.storePath)

/-- Write the unit file and link it into systemd's directory. -/
def writeUnitFile (unit : String) (spec : ServiceSpec) : Supervise Unit := do
  perform out (.createDir s!"{dataDir}/units")
  perform out (.write s!"{dataDir}/units/{unit}" (unitContent spec))
  tryPerform out (.removeFile s!"/etc/systemd/system/{unit}")
  perform out (.symlink s!"{dataDir}/units/{unit}" s!"/etc/systemd/system/{unit}")

/-- Install a unit and start it with `cmd`; only then is it recorded. -/
def installUnit (cmd : String → Systemctl) (name : String) (spec : ServiceSpec) :
    Supervise Unit := do
  rootServiceClosure out dataDir name spec
  writeUnitFile out dataDir (unitName name) spec
  perform out (.systemctl .daemonReload)
  perform out (.systemctl (cmd (unitName name)))
  update fun s =>
    { s with
      managedUnits := s.managedUnits.insert name ⟨unitName name, versionKeyFor spec, true⟩ }

/-- Start a desired service that is not managed, restart one whose version changed. -/
def reconcileService (service : Σ _ : String, ServiceSpec) :
    Supervise (List SupervisorAction) := do
  match ← read (·.managedUnits.lookup service.1) with
  | some existing =>
    if existing.versionKey = versionKeyFor service.2 then return []
    else do
      installUnit out dataDir .restart service.1 service.2
      return [.restarted service.1]
  | none => do
    installUnit out dataDir .enableNow service.1 service.2
    return [.started service.1]

/-- Stop a service that is no longer desired. It is forgotten before it is stopped. -/
def stopService (name : String) : Supervise (List SupervisorAction) := do
  match ← read (·.managedUnits.lookup name) with
  | none => return []
  | some state => do
    update fun s => { s with managedUnits := s.managedUnits.erase name }
    perform out (.systemctl (.disableNow state.unitName))
    tryPerform out (.removeFile s!"{dataDir}/units/{state.unitName}")
    tryPerform out (.removeFile s!"/etc/systemd/system/{state.unitName}")
    perform out (.systemctl .daemonReload)
    tryPerform out (.removeFile s!"{dataDir}/gcroots/{name}")
    return [.stopped name]

/-- Reconcile local services with desired state. -/
def reconcile (order : HashMap.Order) (desired : Specs) :
    Supervise (List SupervisorAction) := do
  let started ← collect (reconcileService out dataDir) (order.arrange desired.entries)
  let toRemove ← read fun s => order.arrange (s.managedUnits.keys.filter (· ∉ desired))
  let stopped ← collect (stopService out dataDir) toRemove
  return started ++ stopped

end Operations

/-! ### Without faults -/

section NoFaults
variable (dataDir : String)

def rootCalls (name : String) (spec : ServiceSpec) : List HostCall :=
  if isContainerService spec || spec.storePath == "" then []
  else [.createDir s!"{dataDir}/gcroots", .nixStore s!"{dataDir}/gcroots/{name}" spec.storePath]

/-- Write, link and start a unit. -/
def installCalls (cmd : String → Systemctl) (name : String) (spec : ServiceSpec) : List HostCall :=
  let unit := unitName name
  rootCalls dataDir name spec ++
    [.createDir s!"{dataDir}/units", .write s!"{dataDir}/units/{unit}" (unitContent spec),
      .removeFile s!"/etc/systemd/system/{unit}",
      .symlink s!"{dataDir}/units/{unit}" s!"/etc/systemd/system/{unit}",
      .systemctl .daemonReload, .systemctl (cmd unit)]

theorem installUnit_noFaults (cmd : String → Systemctl) (name : String) (spec : ServiceSpec)
    (s : Supervisor) :
    installUnit noFaults dataDir cmd name spec s = (.ok (),
      ⟨s.managedUnits.insert name ⟨unitName name, versionKeyFor spec, true⟩,
        s.calls ++ installCalls dataDir cmd name spec⟩) := by
  by_cases h : (isContainerService spec || spec.storePath == "") = true <;>
    simp [installUnit, rootServiceClosure, writeUnitFile, tryPerform, perform, noFaults, attempt,
      update, bind_apply, pure_apply, installCalls, rootCalls, h]

variable {name : String} {m m' : HashMap String UnitState}

theorem mem_installCalls {dataDir : String} {cmd : String → Systemctl} {spec : ServiceSpec}
    {c : HostCall} (hc : c ∈ installCalls dataDir cmd name spec) :
    c = .systemctl (cmd (unitName name)) ∨ c = .systemctl .daemonReload ∨
      ∀ u, c ≠ .systemctl u := by
  simp only [installCalls, rootCalls, List.mem_append] at hc
  grind

/-- The unit of a desired service after the loop over the desired services. -/
def unitAfter (managed : HashMap String UnitState) (name : String) (spec : ServiceSpec) :
    UnitState :=
  match managed.lookup name with
  | some existing =>
    if existing.versionKey = versionKeyFor spec then existing
    else ⟨unitName name, versionKeyFor spec, true⟩
  | none => ⟨unitName name, versionKeyFor spec, true⟩

/-- The calls made for a desired service. -/
def serviceCalls (managed : HashMap String UnitState) (service : Σ _ : String, ServiceSpec) :
    List HostCall :=
  match managed.lookup service.1 with
  | some existing =>
    if existing.versionKey = versionKeyFor service.2 then []
    else installCalls dataDir .restart service.1 service.2
  | none => installCalls dataDir .enableNow service.1 service.2

/-- The calls made for a service that is no longer desired. -/
def stopCalls (managed : HashMap String UnitState) (name : String) : List HostCall :=
  match managed.lookup name with
  | none => []
  | some state =>
    [.systemctl (.disableNow state.unitName), .removeFile s!"{dataDir}/units/{state.unitName}",
      .removeFile s!"/etc/systemd/system/{state.unitName}", .systemctl .daemonReload,
      .removeFile s!"{dataDir}/gcroots/{name}"]

/-- What is reported about a desired service. -/
def serviceActions (managed : HashMap String UnitState) (service : Σ _ : String, ServiceSpec) :
    List SupervisorAction :=
  match managed.lookup service.1 with
  | some existing =>
    if existing.versionKey = versionKeyFor service.2 then [] else [.restarted service.1]
  | none => [.started service.1]

/-- What is reported about a service that is no longer desired. -/
def stopActions (managed : HashMap String UnitState) (name : String) : List SupervisorAction :=
  match managed.lookup name with
  | none => []
  | some _ => [.stopped name]

/-- One round of the loop over the desired services. -/
def serviceRound (s : Supervisor) (service : Σ _ : String, ServiceSpec) : Supervisor where
  managedUnits := match s.managedUnits.lookup service.1 with
    | some existing =>
      if existing.versionKey = versionKeyFor service.2 then s.managedUnits
      else s.managedUnits.insert service.1 (unitAfter s.managedUnits service.1 service.2)
    | none => s.managedUnits.insert service.1 (unitAfter s.managedUnits service.1 service.2)
  calls := s.calls ++ serviceCalls dataDir s.managedUnits service

/-- One round of the loop over the services to remove. -/
def stopRound (s : Supervisor) (name : String) : Supervisor where
  managedUnits := match s.managedUnits.lookup name with
    | none => s.managedUnits
    | some _ => s.managedUnits.erase name
  calls := s.calls ++ stopCalls dataDir s.managedUnits name

theorem reconcileService_noFaults (service : Σ _ : String, ServiceSpec) (s : Supervisor) :
    reconcileService noFaults dataDir service s =
      (.ok (serviceActions s.managedUnits service), serviceRound dataDir s service) := by
  simp only [reconcileService, Effect.read, bind_apply, serviceRound, serviceCalls, unitAfter,
    serviceActions]
  rcases hl : s.managedUnits.lookup service.1 with _ | existing
  · simp [bind_apply, installUnit_noFaults, pure_apply]
  · by_cases hk : existing.versionKey = versionKeyFor service.2
    · simp [hk, pure_apply]
    · simp [hk, bind_apply, installUnit_noFaults, pure_apply]

theorem stopService_noFaults (name : String) (s : Supervisor) :
    stopService noFaults dataDir name s =
      (.ok (stopActions s.managedUnits name), stopRound dataDir s name) := by
  simp only [stopService, Effect.read, bind_apply, stopRound, stopCalls, stopActions]
  rcases hl : s.managedUnits.lookup name with _ | state
  · simp [pure_apply]
  · simp [update, tryPerform, perform, noFaults, attempt, bind_apply, pure_apply]

theorem lookup_serviceRound_self (s : Supervisor) (service : Σ _ : String, ServiceSpec) :
    (serviceRound dataDir s service).managedUnits.lookup service.1 =
      some (unitAfter s.managedUnits service.1 service.2) := by
  simp only [serviceRound]
  rcases hl : s.managedUnits.lookup service.1 with _ | existing
  · simp
  · by_cases hk : existing.versionKey = versionKeyFor service.2 <;> simp [hk, hl, unitAfter]

theorem lookup_serviceRound_ne (s : Supervisor) (service : Σ _ : String, ServiceSpec) {k : String}
    (h : k ≠ service.1) :
    (serviceRound dataDir s service).managedUnits.lookup k = s.managedUnits.lookup k := by
  grind [serviceRound, AList.lookup_insert_ne]

theorem unitAfter_congr (h : m.lookup name = m'.lookup name) (spec : ServiceSpec) :
    unitAfter m name spec = unitAfter m' name spec := by
  rw [unitAfter, unitAfter, h]

theorem serviceCalls_congr {service : Σ _ : String, ServiceSpec}
    (h : m.lookup service.1 = m'.lookup service.1) :
    serviceCalls dataDir m service = serviceCalls dataDir m' service := by
  rw [serviceCalls, serviceCalls, h]

theorem serviceActions_congr {service : Σ _ : String, ServiceSpec}
    (h : m.lookup service.1 = m'.lookup service.1) :
    serviceActions m service = serviceActions m' service := by
  rw [serviceActions, serviceActions, h]

theorem stopActions_congr (h : m.lookup name = m'.lookup name) :
    stopActions m name = stopActions m' name := by
  rw [stopActions, stopActions, h]

theorem stopCalls_congr (h : m.lookup name = m'.lookup name) :
    stopCalls dataDir m name = stopCalls dataDir m' name := by
  rw [stopCalls, stopCalls, h]

/-- RUN (desired services): every service is treated as the records before the loop say. -/
theorem foldl_serviceRound : ∀ (l : List (Σ _ : String, ServiceSpec)) (s : Supervisor),
    l.NodupKeys →
    (∀ k, (l.foldl (serviceRound dataDir) s).managedUnits.lookup k =
      match l.dlookup k with
      | some spec => some (unitAfter s.managedUnits k spec)
      | none => s.managedUnits.lookup k) ∧
    (l.foldl (serviceRound dataDir) s).calls =
      s.calls ++ l.flatMap (serviceCalls dataDir s.managedUnits)
  | [], s, _ => by simp
  | e :: rest, s, hnd => by
    rw [List.nodupKeys_cons] at hnd
    have hne : ∀ x ∈ rest, x.1 ≠ e.1 := by
      rintro x hx hxe
      exact hnd.1 (hxe ▸ List.mem_map.mpr ⟨x, hx, rfl⟩)
    obtain ⟨hlookup, hcalls⟩ := foldl_serviceRound rest (serviceRound dataDir s e) hnd.2
    rw [List.foldl_cons]
    constructor
    · intro k
      rw [hlookup k]
      by_cases hk : k = e.1
      · subst hk
        rw [List.dlookup_eq_none.mpr hnd.1, List.dlookup_cons_eq]
        exact lookup_serviceRound_self dataDir s e
      · rw [List.dlookup_cons_ne _ _ hk]
        have hsame := lookup_serviceRound_ne dataDir s e hk
        rcases rest.dlookup k with _ | spec
        · exact hsame
        · exact congrArg some (unitAfter_congr hsame spec)
    · have hrest : rest.flatMap (serviceCalls dataDir (serviceRound dataDir s e).managedUnits) =
          rest.flatMap (serviceCalls dataDir s.managedUnits) :=
        List.flatMap_congr fun x hx =>
          serviceCalls_congr dataDir (lookup_serviceRound_ne dataDir s e (hne x hx))
      rw [hcalls, hrest, List.flatMap_cons, ← List.append_assoc]
      rfl

theorem lookup_stopRound_ne (s : Supervisor) {k : String} (h : k ≠ name) :
    (stopRound dataDir s name).managedUnits.lookup k = s.managedUnits.lookup k := by
  simp only [stopRound]
  split
  · rfl
  · exact AList.lookup_erase_ne h

theorem lookup_stopRound_self (s : Supervisor) (name : String) :
    (stopRound dataDir s name).managedUnits.lookup name = none := by
  simp only [stopRound]
  split
  · assumption
  · exact AList.lookup_erase _ _

/-- RUN (services to remove): each is forgotten and stopped as recorded. -/
theorem foldl_stopRound : ∀ (l : List String) (s : Supervisor), l.Nodup →
    (∀ k, (l.foldl (stopRound dataDir) s).managedUnits.lookup k =
      if k ∈ l then none else s.managedUnits.lookup k) ∧
    (l.foldl (stopRound dataDir) s).calls = s.calls ++ l.flatMap (stopCalls dataDir s.managedUnits)
  | [], s, _ => by simp
  | name :: rest, s, hnd => by
    obtain ⟨hnotin, hnd⟩ := List.nodup_cons.mp hnd
    obtain ⟨hlookup, hcalls⟩ := foldl_stopRound rest (stopRound dataDir s name) hnd
    rw [List.foldl_cons]
    constructor
    · grind [lookup_stopRound_self, lookup_stopRound_ne]
    · have hrest : rest.flatMap (stopCalls dataDir (stopRound dataDir s name).managedUnits) =
          rest.flatMap (stopCalls dataDir s.managedUnits) :=
        List.flatMap_congr fun x hx => stopCalls_congr dataDir
          (lookup_stopRound_ne dataDir s (ne_of_mem_of_not_mem hx hnotin))
      rw [hcalls, hrest, List.flatMap_cons, ← List.append_assoc]
      rfl

theorem collect_reconcileService (l : List (Σ _ : String, ServiceSpec)) (hl : l.NodupKeys)
    (s : Supervisor) : collect (reconcileService noFaults dataDir) l s =
      (.ok (l.flatMap (serviceActions s.managedUnits)), l.foldl (serviceRound dataDir) s) := by
  refine collect_eq_flatMap (reconcileService_noFaults dataDir) l s ?_
  refine (List.nodupKeys_iff_pairwise.mp hl).imp fun {e e'} hne s => ?_
  exact serviceActions_congr (lookup_serviceRound_ne dataDir s e (Ne.symm hne))

theorem collect_stopService (l : List String) (hl : l.Nodup) (s : Supervisor) :
    collect (stopService noFaults dataDir) l s =
      (.ok (l.flatMap (stopActions s.managedUnits)), l.foldl (stopRound dataDir) s) := by
  refine collect_eq_flatMap (stopService_noFaults dataDir) l s ?_
  refine hl.imp fun {name name'} hne s => ?_
  exact stopActions_congr (lookup_stopRound_ne dataDir s (Ne.symm hne))

/-- EXACT: on a host without faults `reconcile` returns, the records afterwards are those of the
    desired services at their desired versions, and actions and calls are those of the changed
    services followed by those of the removed ones. -/
theorem reconcile_exact (order : HashMap.Order) (desired : Specs)
    (s : Supervisor) : ∃ (s' : Supervisor) (removed : List String),
      reconcile noFaults dataDir order desired s = (.ok
        ((order.arrange desired.entries).flatMap (serviceActions s.managedUnits) ++
          removed.map .stopped), s') ∧
      (∀ k, s'.managedUnits.lookup k = (desired.lookup k).map (unitAfter s.managedUnits k)) ∧
      removed.Nodup ∧ (∀ k, k ∈ removed ↔ k ∈ s.managedUnits ∧ k ∉ desired) ∧
      s'.calls = s.calls ++
        ((order.arrange desired.entries).flatMap (serviceCalls dataDir s.managedUnits) ++
          removed.flatMap (stopCalls dataDir s.managedUnits)) := by
  have hnd : (order.arrange desired.entries).NodupKeys :=
    (List.perm_nodupKeys (order.perm _)).mpr desired.nodupKeys
  have hstarted := collect_reconcileService dataDir (order.arrange desired.entries) hnd s
  obtain ⟨hlookup, hcalls⟩ := foldl_serviceRound dataDir _ s hnd
  have harrange : ∀ k, (order.arrange desired.entries).dlookup k = desired.lookup k := fun k =>
    List.perm_dlookup k hnd (order.perm _)
  simp only [harrange] at hlookup
  generalize (order.arrange desired.entries).foldl (serviceRound dataDir) s = s₁ at *
  -- outside the desired services the first loop left the records alone
  have hout : ∀ k, k ∉ desired → s₁.managedUnits.lookup k = s.managedUnits.lookup k :=
    fun k hk => by
    rw [hlookup k, AList.lookup_eq_none.mpr hk]
  obtain ⟨removed, hr⟩ : ∃ removed, removed =
      order.arrange (s₁.managedUnits.keys.filter (· ∉ desired)) := ⟨_, rfl⟩
  have hnd' : removed.Nodup :=
    hr ▸ (order.perm _).nodup_iff.mpr (s₁.managedUnits.nodupKeys.filter _)
  have hremoved : ∀ k, k ∈ removed ↔ k ∈ s.managedUnits ∧ k ∉ desired := fun k => by
    rw [hr, HashMap.Order.mem_arrange, List.mem_filter, decide_eq_true_eq, ← AList.mem_keys]
    refine and_congr_left fun hk => ?_
    rw [← AList.lookup_isSome, ← AList.lookup_isSome, hout k hk]
  have hstopped := collect_stopService dataDir removed hnd' s₁
  have hactions : removed.flatMap (stopActions s₁.managedUnits) = removed.map .stopped := by
    grind [List.map_eq_flatMap, List.flatMap_congr, HashMap.mem_iff_exists_lookup, stopActions]
  obtain ⟨hlookup', hcalls'⟩ := foldl_stopRound dataDir removed s₁ hnd'
  refine ⟨removed.foldl (stopRound dataDir) s₁, removed, ?_, fun k => ?_, hnd', hremoved, ?_⟩
  · simp only [reconcile, bind_apply, hstarted, Effect.read, ← hr, hstopped, pure_apply, hactions]
  · rw [hlookup' k]
    by_cases hk : k ∈ desired
    · rw [if_neg fun h => ((hremoved k).mp h).2 hk, hlookup k]
      obtain ⟨spec, hspec⟩ := HashMap.mem_iff_exists_lookup.mp hk
      simp [hspec]
    grind [AList.lookup_eq_none]
  · have hsame : ∀ k ∈ removed,
        stopCalls dataDir s₁.managedUnits k = stopCalls dataDir s.managedUnits k := fun k hk =>
      stopCalls_congr dataDir (hout k ((hremoved k).mp hk).2)
    rw [hcalls', hcalls, List.flatMap_congr hsame, List.append_assoc]

theorem reconcile_noFaults (order : HashMap.Order) (desired : Specs)
    (s : Supervisor) : ∃ acts s', reconcile noFaults dataDir order desired s = (.ok acts, s') ∧
      (∀ k, s'.managedUnits.lookup k = (desired.lookup k).map (unitAfter s.managedUnits k)) ∧
      ∃ removed : List String, (∀ k, k ∈ removed ↔ k ∈ s.managedUnits ∧ k ∉ desired) ∧
        s'.calls = s.calls ++
          ((order.arrange desired.entries).flatMap (serviceCalls dataDir s.managedUnits) ++
            removed.flatMap (stopCalls dataDir s.managedUnits)) := by
  obtain ⟨s', removed, hs', hlookup, -, hremoved, hcalls⟩ := reconcile_exact dataDir order desired s
  exact ⟨_, s', hs', hlookup, removed, hremoved, hcalls⟩

end NoFaults

end Ekafleet.Agent
