import Ekafleet.Agent.Convergence
import Ekafleet.Agent.Installed

/-! The host below the supervisor | source: agent/supervisor.rs

    What the calls of the supervisor do to a host: files and links, the units systemd has loaded,
    and what every running unit was started from. `enable --now` leaves a unit alone that is running
    already. -/

namespace Ekafleet.Agent
open Proto

/-- The part of a host that the supervisor changes. -/
structure Host where
  files : HashMap String String := ∅
  /-- Symbolic links and their targets. -/
  links : HashMap String String := ∅
  /-- Unit files as they were when systemd last read them. -/
  loaded : String → Option String := fun _ => none
  /-- The unit file that a running unit was started from. -/
  running : String → Option String := fun _ => none

def systemdPath (unit : String) : String := s!"/etc/systemd/system/{unit}"

def unitPath (dataDir unit : String) : String := s!"{dataDir}/units/{unit}"

namespace Host

/-- The effect of a call that succeeds. -/
def apply (h : Host) : HostCall → Host
  | .createDir _ => h
  | .write path content => { h with files := h.files.insert path content }
  | .removeFile path => { h with files := h.files.erase path, links := h.links.erase path }
  | .symlink target link => { h with links := h.links.insert link target }
  | .nixStore root storePath => { h with links := h.links.insert root storePath }
  | .systemctl .daemonReload => { h with
    loaded := fun unit => (h.links.lookup (systemdPath unit)).bind fun target =>
      h.files.lookup target }
  | .systemctl (.restart unit) => { h with
    running := Function.update h.running unit (h.loaded unit) }
  | .systemctl (.enableNow unit) => { h with
    running := Function.update h.running unit ((h.running unit).or (h.loaded unit)) }
  | .systemctl (.disableNow unit) => { h with running := Function.update h.running unit none }

def applyAll (h : Host) (calls : List HostCall) : Host := calls.foldl apply h

theorem applyAll_append (h : Host) (calls calls' : List HostCall) :
    h.applyAll (calls ++ calls') = (h.applyAll calls).applyAll calls' :=
  List.foldl_append

/-- The unit file of a service. -/
def unitFile (dataDir : String) (h : Host) (name : String) : Option String :=
  h.files.lookup (unitPath dataDir (unitName name))

/-- The unit file of a service and what its unit was started from. -/
def view (dataDir : String) (h : Host) (name : String) : Option String × Option String :=
  (h.unitFile dataDir name, h.running (unitName name))

end Host

/-- No unit file is a link of systemd's directory. Were it the link made to it, that would be a link
    to itself, and the unit could not be started. -/
def Apart (dataDir : String) : Prop :=
  ∀ name name', unitPath dataDir (unitName name) ≠ systemdPath (unitName name')

theorem toList_unitName (name : String) : (unitName name).toList =
    "ekafleet-".toList ++ (name.toList ++ ".service".toList) := by
  simp only [unitName, toString, String.toList_append, List.append_assoc]

theorem apart_of_not_isPrefix {dataDir : String}
    (hdir : ¬ "/etc/systemd/system/ekafleet-".toList <+: dataDir.toList) : Apart dataDir := by
  intro name name' heq
  have hsplit : "/etc/systemd/system/ekafleet-".toList =
      "/etc/systemd/system/".toList ++ "ekafleet-".toList := by decide
  have hlists : dataDir.toList ++ ("/units/".toList ++ (unitName name).toList) =
      "/etc/systemd/system/ekafleet-".toList ++ (name'.toList ++ ".service".toList) := by
    have hpath : (unitPath dataDir (unitName name)).toList =
        dataDir.toList ++ ("/units/".toList ++ (unitName name).toList) := by
      simp only [unitPath, toString, String.toList_append, List.append_assoc]
    have hsystemd : (systemdPath (unitName name')).toList =
        "/etc/systemd/system/".toList ++ (unitName name').toList := String.toList_append
    rw [← hpath, heq, hsystemd, toList_unitName, hsplit, List.append_assoc]
  have hmeet := List.prefix_or_prefix_of_prefix ⟨_, hlists⟩ (List.prefix_append _ _)
  rcases hmeet with hmeet | hmeet
  · -- the data directory ends inside the other path, and what follows there is not `/units/`
    obtain ⟨rest, hrest⟩ := hmeet
    rw [← hrest, List.append_assoc] at hlists
    have hfollows := List.append_cancel_left hlists
    have hinside : ∀ rest ∈ "/etc/systemd/system/ekafleet-".toList.tails, rest ≠ [] →
        ¬ rest <+: "/units/".toList ∧ ¬ "/units/".toList <+: rest := by decide
    have hne : rest ≠ [] := by
      grind
    obtain ⟨hshort, hlong⟩ := hinside rest ((List.mem_tails _ _).mpr ⟨_, hrest⟩) hne
    rcases List.prefix_or_prefix_of_prefix ⟨_, hfollows⟩ (List.prefix_append _ _) with h | h
    · exact hlong h
    · exact hshort h
  · exact hdir hmeet

/-! ### Other services -/

/-- The call can change the unit file or the unit of the service. -/
def HostCall.concerns (dataDir name : String) : HostCall → Prop
  | .write path _ | .removeFile path => path = unitPath dataDir (unitName name)
  | .systemctl (.restart unit) | .systemctl (.enableNow unit) | .systemctl (.disableNow unit) =>
    unit = unitName name
  | _ => False

section Frame
variable {dataDir name : String} {h : Host}

/-- FRAME: other calls leave a service alone. -/
theorem Host.view_apply {call : HostCall} (hcall : ¬ call.concerns dataDir name) :
    (h.apply call).view dataDir name = h.view dataDir name := by
  cases call with
  | createDir | symlink | nixStore => rfl
  | write path content =>
    simp only [Host.view, Host.unitFile, Host.apply, AList.lookup_insert_ne (Ne.symm hcall)]
  | removeFile path =>
    simp only [Host.view, Host.unitFile, Host.apply, AList.lookup_erase_ne (Ne.symm hcall)]
  | systemctl cmd =>
    cases cmd with
    | daemonReload => rfl
    | restart unit | enableNow unit | disableNow unit =>
      simp only [Host.view, Host.unitFile, Host.apply, Function.update_of_ne (Ne.symm hcall)]

theorem Host.view_applyAll {calls : List HostCall}
    (hcalls : ∀ call ∈ calls, ¬ call.concerns dataDir name) :
    (h.applyAll calls).view dataDir name = h.view dataDir name :=
  List.foldlRecOn (motive := fun h' : Host => h'.view dataDir name = h.view dataDir name) _ _ rfl
    fun _ hview call hcall => (Host.view_apply (hcalls call hcall)).trans hview

theorem unitPath_injective {unit unit' : String}
    (heq : unitPath dataDir unit = unitPath dataDir unit') : unit = unit' := by
  simp only [unitPath, ← String.toList_inj, String.toList_append, toString] at heq
  exact String.toList_inj.mp (List.append_cancel_left heq)

theorem gcroot_ne_unitPath (dataDir root unit : String) :
    s!"{dataDir}/gcroots/{root}" ≠ unitPath dataDir unit := by
  intro heq
  simp only [unitPath, ← String.toList_inj, String.toList_append, toString,
    List.append_assoc] at heq
  have hrest := List.append_cancel_left heq
  simp at hrest

theorem not_concerns_installCalls (hdir : Apart dataDir) {cmd : String → Systemctl}
    (hcmd : cmd = .restart ∨ cmd = .enableNow) {other : String} (hne : other ≠ name)
    (spec : ServiceSpec) :
    ∀ call ∈ installCalls dataDir cmd other spec, ¬ call.concerns dataDir name := by
  intro call hcall hconcerns
  simp only [installCalls, rootCalls, List.mem_append] at hcall
  rcases hcall with hcall | hcall
  · split at hcall
    · cases hcall
    · simp only [List.mem_cons, List.not_mem_nil, or_false] at hcall
      rcases hcall with rfl | rfl <;> exact hconcerns
  · simp only [List.mem_cons, List.not_mem_nil, or_false] at hcall
    rcases hcall with rfl | rfl | rfl | rfl | rfl | rfl
    · exact hconcerns
    · exact hne (unitName_injective (unitPath_injective hconcerns))
    · exact hdir _ _ hconcerns.symm
    · exact hconcerns
    · exact hconcerns
    · rcases hcmd with rfl | rfl <;> exact hne (unitName_injective hconcerns)

theorem not_concerns_stopCalls (hdir : Apart dataDir) {managed : HashMap String UnitState}
    {other : String}
    (hunit : ∀ unit, managed.lookup other = some unit → unit.unitName = unitName other)
    (hne : other ≠ name) :
    ∀ call ∈ stopCalls dataDir managed other, ¬ call.concerns dataDir name := by
  intro call hcall hconcerns
  unfold stopCalls at hcall
  split at hcall
  · cases hcall
  · next unit hlookup =>
    simp only [hunit unit hlookup, List.mem_cons, List.not_mem_nil, or_false] at hcall
    rcases hcall with rfl | rfl | rfl | rfl | rfl
    · exact hne (unitName_injective hconcerns)
    · exact hne (unitName_injective (unitPath_injective hconcerns))
    · exact hdir _ _ hconcerns.symm
    · exact hconcerns
    · exact gcroot_ne_unitPath _ _ _ hconcerns

end Frame

/-! ### The service itself -/

/-- The calls that install a unit, up to the one that starts it. -/
def prepareCalls (dataDir name : String) (spec : ServiceSpec) : List HostCall :=
  rootCalls dataDir name spec ++
    [.createDir s!"{dataDir}/units", .write (unitPath dataDir (unitName name)) (unitContent spec),
      .removeFile (systemdPath (unitName name)),
      .symlink (unitPath dataDir (unitName name)) (systemdPath (unitName name)),
      .systemctl .daemonReload]

theorem installCalls_eq (dataDir : String) (cmd : String → Systemctl) (name : String)
    (spec : ServiceSpec) : installCalls dataDir cmd name spec =
      prepareCalls dataDir name spec ++ [.systemctl (cmd (unitName name))] := by
  rw [installCalls, prepareCalls, List.append_assoc]
  rfl

section Own
variable {dataDir : String} (hdir : Apart dataDir) (h : Host) (name : String) (spec : ServiceSpec)

theorem running_rootCalls : (h.applyAll (rootCalls dataDir name spec)).running = h.running := by
  unfold rootCalls
  split <;> rfl

include hdir

theorem prepared : (h.applyAll (prepareCalls dataDir name spec)).unitFile dataDir name =
      some (unitContent spec) ∧
    (h.applyAll (prepareCalls dataDir name spec)).loaded (unitName name) = some (unitContent spec) ∧
    (h.applyAll (prepareCalls dataDir name spec)).running = h.running := by
  have hpath := hdir name name
  have hrunning : (h.applyAll (rootCalls dataDir name spec)).running = h.running :=
    running_rootCalls h name spec
  rw [prepareCalls, Host.applyAll_append, ← hrunning]
  generalize h.applyAll (rootCalls dataDir name spec) = h'
  simp [Host.applyAll, Host.apply, Host.unitFile, AList.lookup_erase_ne hpath]

theorem view_restart : (h.applyAll (installCalls dataDir .restart name spec)).view dataDir name =
    (some (unitContent spec), some (unitContent spec)) := by
  obtain ⟨hfile, hloaded, -⟩ := prepared hdir h name spec
  rw [installCalls_eq, Host.applyAll_append]
  exact Prod.ext hfile ((Function.update_self _ _ _).trans hloaded)

theorem view_enableNow :
    (h.applyAll (installCalls dataDir .enableNow name spec)).view dataDir name =
    (some (unitContent spec), (h.running (unitName name)).or (some (unitContent spec))) := by
  obtain ⟨hfile, hloaded, hrunning⟩ := prepared hdir h name spec
  rw [installCalls_eq, Host.applyAll_append]
  refine Prod.ext hfile ((Function.update_self _ _ _).trans ?_)
  rw [hloaded, hrunning]

theorem view_stopCalls {managed : HashMap String UnitState} {unit : UnitState}
    (hlookup : managed.lookup name = some unit) (hunit : unit.unitName = unitName name) :
    (h.applyAll (stopCalls dataDir managed name)).view dataDir name = (none, none) := by
  have hpath := hdir name name
  have hroot := gcroot_ne_unitPath dataDir name (unitName name)
  simp only [stopCalls, hlookup, hunit]
  change Host.view dataDir (h.applyAll [.systemctl (.disableNow (unitName name)),
    .removeFile (unitPath dataDir (unitName name)), .removeFile (systemdPath (unitName name)),
    .systemctl .daemonReload, .removeFile s!"{dataDir}/gcroots/{name}"]) name = _
  simp [Host.applyAll, Host.apply, Host.view, Host.unitFile, AList.lookup_erase_ne hpath,
    AList.lookup_erase_ne hroot.symm]

end Own

/-! ### A reconciliation without faults -/

/-- The unit file of a service and what its unit runs from, after the records and the desired
    services have been compared. -/
def viewAfter (managed : HashMap String UnitState) (desired : Specs)
    (name : String) (before : Option String × Option String) : Option String × Option String :=
  match desired.lookup name, managed.lookup name with
  | some spec, some unit =>
    if unit.versionKey = versionKeyFor spec then before
    else (some (unitContent spec), some (unitContent spec))
  | some spec, none => (some (unitContent spec), before.2.or (some (unitContent spec)))
  | none, some _ => (none, none)
  | none, none => before

/-- The recorded units are named after their services. -/
def UnitNames (managed : HashMap String UnitState) : Prop :=
  ∀ name unit, managed.lookup name = some unit → unit.unitName = unitName name

section Reconcile
variable {dataDir : String} {managed : HashMap String UnitState}
  {desired : Specs}

theorem not_concerns_serviceCalls (hdir : Apart dataDir) {service : Σ _ : String, ServiceSpec}
    {name : String} (hne : service.1 ≠ name) :
    ∀ call ∈ serviceCalls dataDir managed service, ¬ call.concerns dataDir name := by
  grind [serviceCalls, not_concerns_installCalls]

theorem view_flatMap {α : Type} {f : α → List HostCall} {name : String} {l : List α} {a : α}
    (hl : l.Nodup) (ha : a ∈ l)
    (hothers : ∀ b ∈ l, b ≠ a → ∀ call ∈ f b, ¬ call.concerns dataDir name)
    {v : Option String × Option String → Option String × Option String}
    (hown : ∀ h : Host, (h.applyAll (f a)).view dataDir name = v (h.view dataDir name)) (h : Host) :
    (h.applyAll (l.flatMap f)).view dataDir name = v (h.view dataDir name) := by
  obtain ⟨before, later, rfl⟩ := List.append_of_mem ha
  have hne : a ∉ before ++ later := (List.nodup_cons.mp (List.nodup_middle.mp hl)).1
  have hquiet : ∀ part, part ⊆ before ++ later → ∀ h : Host,
      (h.applyAll (part.flatMap f)).view dataDir name = h.view dataDir name := by
    intro part hpart h
    refine Host.view_applyAll fun call hcall => ?_
    grind
  rw [List.flatMap_append, List.flatMap_cons, Host.applyAll_append, Host.applyAll_append,
    hquiet later (List.subset_append_right _ _), hown, hquiet before (List.subset_append_left _ _)]

theorem view_serviceCalls (hdir : Apart dataDir) {name : String} {spec : ServiceSpec}
    (hspec : desired.lookup name = some spec) (h : Host) :
    (h.applyAll (serviceCalls dataDir managed ⟨name, spec⟩)).view dataDir name =
      viewAfter managed desired name (h.view dataDir name) := by
  rw [viewAfter, hspec]
  unfold serviceCalls
  rcases managed.lookup name with _ | unit
  · exact view_enableNow hdir h name spec
  · dsimp only
    split
    · rfl
    · exact view_restart hdir h name spec

/-- EXACT: what a reconciliation without faults makes of every service. -/
theorem view_reconcile (hdir : Apart dataDir) (order : HashMap.Order)
    (desired : Specs) {s : Supervisor} (hunits : UnitNames s.managedUnits)
    (h : Host) (name : String) :
    (h.applyAll (newCalls s (reconcile noFaults dataDir order desired s).2)).view dataDir name =
      viewAfter s.managedUnits desired name (h.view dataDir name) := by
  obtain ⟨s', removed, hs', -, hnodup, hremoved, hcalls⟩ := reconcile_exact dataDir order desired s
  have hstops : name ∉ removed → ∀ h : Host,
      (h.applyAll (removed.flatMap (stopCalls dataDir s.managedUnits))).view dataDir name =
        h.view dataDir name := by
    intro hname h
    refine Host.view_applyAll fun call hcall => ?_
    obtain ⟨other, hother, hcall⟩ := List.mem_flatMap.mp hcall
    have hne : other ≠ name := by
      rintro rfl
      exact hname hother
    exact not_concerns_stopCalls hdir (hunits other) hne call hcall
  rw [hs', newCalls, hcalls, List.drop_left, Host.applyAll_append]
  by_cases hdesired : name ∈ desired
  · -- started, restarted or left alone by the first loop, not touched by the second
    obtain ⟨spec, hspec⟩ := HashMap.mem_iff_exists_lookup.mp hdesired
    rw [hstops fun hmem => ((hremoved name).mp hmem).2 hdesired]
    refine view_flatMap ((order.perm _).nodup_iff.mpr desired.nodupKeys.nodup)
      (order.mem_arrange.mpr (HashMap.mem_of_lookup hspec)) ?_ (view_serviceCalls hdir hspec) h
    rintro ⟨other, spec'⟩ hother hne
    refine not_concerns_serviceCalls hdir fun heq => hne ?_
    subst heq
    have hlookup := HashMap.lookup_of_mem (order.mem_arrange.mp hother)
    rw [hspec] at hlookup
    rw [Option.some.inj hlookup]
  · -- not touched by the first loop
    have hfirst : (h.applyAll ((order.arrange desired.entries).flatMap
        (serviceCalls dataDir s.managedUnits))).view dataDir name = h.view dataDir name := by
      refine Host.view_applyAll fun call hcall => ?_
      obtain ⟨service, hservice, hcall⟩ := List.mem_flatMap.mp hcall
      have hne : service.1 ≠ name := by
        rintro rfl
        have hlookup := HashMap.lookup_of_mem (order.mem_arrange.mp hservice)
        exact hdesired (HashMap.mem_iff_exists_lookup.mpr ⟨_, hlookup⟩)
      exact not_concerns_serviceCalls hdir hne call hcall
    rw [viewAfter, AList.lookup_eq_none.mpr hdesired]
    by_cases hmanaged : name ∈ s.managedUnits
    · obtain ⟨unit, hunit⟩ := HashMap.mem_iff_exists_lookup.mp hmanaged
      rw [hunit]
      refine view_flatMap (v := fun _ => (none, none)) hnodup
        ((hremoved name).mpr ⟨hmanaged, hdesired⟩) ?_
        (fun h' => view_stopCalls hdir h' name hunit (hunits name unit hunit)) _
      exact fun other _ hne => not_concerns_stopCalls hdir (hunits other) hne
    grind [AList.lookup_eq_none]

end Reconcile

end Ekafleet.Agent
