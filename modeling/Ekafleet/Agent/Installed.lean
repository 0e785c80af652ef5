import Ekafleet.Agent.Running

/-! Installed units | source: agent/handlers.rs, agent/supervisor.rs

    Which program the unit of a service starts, read off the unit files on the host. A deploy
    command sets the store path of a service; the unit file is made from its command, or for a
    container from its name. -/

namespace Ekafleet.Agent
open Proto

/-- The value of an `ExecStart=` line. -/
def execStartOfLine (line : String) : Option String :=
  ((Text.stripPrefix "ExecStart=" (Text.trim line)).map Text.trim).filter (· ≠ "")

/-- Parse the `ExecStart=` value from the contents of a unit file. -/
def execStartFromUnit (content : String) : Option String :=
  (Text.lines content).findSome? execStartOfLine

/-- The content a call writes to a file. -/
def HostCall.writes (file : String) : HostCall → Option String
  | .write path content => if path = file then some content else none
  | _ => none

/-- The unit file of a service, as it was last written. -/
def installedUnit (dataDir : String) (calls : List HostCall) (name : String) : Option String :=
  (calls.filterMap (·.writes s!"{dataDir}/units/{unitName name}")).getLast?

/-- What the installed unit starts. -/
def installedStart (dataDir : String) (a : AgentState) (name : String) : Option String :=
  (installedUnit dataDir a.supervisor.calls name).bind execStartFromUnit

/-- The program of a command line is the given path or lies below it. -/
def runsFrom (path : String) (execStart : Option String) : Bool :=
  execStart.any fun line =>
    let program := line.toList.takeWhile (· ≠ ' ')
    program = path.toList || (path.toList ++ ['/']).isPrefixOf program

/-! ### What a unit file starts -/

theorem execStartFromUnit_eq (content : String) :
    execStartFromUnit content = (Text.split '\n' content).findSome? execStartOfLine := by
  have hreturn : (execStartOfLine ∘ fun line => (Text.stripSuffix "\r" line).getD line) =
      execStartOfLine := by
    funext line
    rw [Function.comp_apply, execStartOfLine, Text.trim_line, execStartOfLine]
  have hblank : ∀ last : String,
    (Option.filter (· ≠ "") (some last)).toList.findSome? execStartOfLine =
      [last].findSome? execStartOfLine := by
    intro last
    by_cases hlast : last = ""
    · rw [hlast]
      decide
    · rw [Option.filter_some, if_pos (by simpa)]
      rfl
  obtain ⟨pieces, last, hsplit⟩ : ∃ pieces last, Text.split '\n' content = pieces ++ [last] := by
    refine ⟨_, _, (List.dropLast_append_getLast (l := Text.split '\n' content) ?_).symm⟩
    simp [Text.split, List.splitOn_ne_nil]
  rw [execStartFromUnit, Text.lines, hsplit, List.findSome?_append, List.findSome?_map, hreturn,
    List.dropLast_concat, List.getLast?_concat, hblank, List.findSome?_append]

theorem execStartFromUnit_append (part rest : String) :
    execStartFromUnit (part ++ ("\n" ++ rest)) =
      (execStartFromUnit part).or (execStartFromUnit rest) := by
  rw [execStartFromUnit_eq, execStartFromUnit_eq part, execStartFromUnit_eq rest,
    ← List.findSome?_append, ← Text.split_append]

theorem execStartFromUnit_other {l : String} (h : '\n' ∉ l.toList)
    (hhead : l.toList.head?.any fun c => !Text.isWhitespace c && c != 'E') :
    execStartFromUnit l = none := by
  obtain ⟨c, hc, hother⟩ := (Option.any_eq_true _ _).mp hhead
  simp only [Bool.and_eq_true, Bool.not_eq_true', bne_iff_ne] at hother
  obtain ⟨cs, hcs⟩ := List.head?_eq_some_iff.mp hc
  have hnone : Text.stripPrefix "ExecStart=" (Text.trim l) = none := by
    rw [← String.ofList_toList (s := l), hcs]
    exact Text.stripPrefix_trim_of_head_ne (by simp [hother.1]) (Ne.symm hother.2) cs _
  rw [execStartFromUnit_eq, Text.split_of_not_mem h, List.findSome?_singleton,
    execStartOfLine, hnone]
  rfl

variable {cmd : String} {spec : ServiceSpec}

theorem execStartFromUnit_start (h : '\n' ∉ cmd.toList) (hcmd : Text.trim cmd ≠ "")
    : execStartFromUnit ("ExecStart=" ++ cmd) =
      some (Text.trim cmd) := by
  have hstart : (Text.stripPrefix "ExecStart=" (Text.trim ("ExecStart=" ++ cmd))).map Text.trim =
      some (Text.trim cmd) :=
    Text.stripPrefix_trim_append (by decide) (by decide) "xecStart".toList cmd
  rw [execStartFromUnit_eq, Text.split_of_not_mem (by simpa using h), List.findSome?_singleton,
    execStartOfLine, hstart, Option.filter_some, if_pos (by simpa)]

/-- The file has the line `ExecStart=cmd`, and no line before it starts anything. -/
def Starts (content cmd : String) : Prop :=
  ∃ before rest, content = before ++ ("\n" ++ ("ExecStart=" ++ cmd ++ ("\n" ++ rest))) ∧
    execStartFromUnit before = none

theorem Starts.append {content : String} (h : Starts content cmd) (more : String) :
    Starts (content ++ more) cmd := by
  obtain ⟨before, rest, rfl, hbefore⟩ := h
  refine ⟨before, rest ++ more, ?_, hbefore⟩
  simp only [String.append_assoc]

theorem Starts.execStart {content : String} (h : Starts content cmd) (hline : '\n' ∉ cmd.toList)
    (hcmd : Text.trim cmd ≠ "") : execStartFromUnit content = some (Text.trim cmd) := by
  obtain ⟨before, rest, rfl, hbefore⟩ := h
  rw [execStartFromUnit_append, hbefore, execStartFromUnit_append,
    execStartFromUnit_start hline hcmd]
  rfl

theorem starts_unit {opening title name after start block program arg tail rest : String}
    (hopening : opening = "[Unit]" ++ ("\n" ++ title))
    (hstart : after ++ start = "\n" ++ (block ++ ("\n" ++ ("ExecStart=" ++ program))))
    (htail : arg ++ tail = cmd ++ ("\n" ++ rest))
    (htitle : execStartFromUnit (title ++ name) = none) (hblock : execStartFromUnit block = none) :
    Starts (opening ++ name ++ after ++ start ++ arg ++ tail) (program ++ cmd) := by
  have hregroup : opening ++ name ++ after ++ start ++ arg ++ tail =
      opening ++ name ++ (after ++ start) ++ (arg ++ tail) := by
    simp only [String.append_assoc]
  refine ⟨"[Unit]" ++ ("\n" ++ (title ++ name ++ ("\n" ++ block))), rest, ?_, ?_⟩
  · rw [hregroup, hopening, hstart, htail]
    simp only [String.append_assoc]
  · rw [execStartFromUnit_append, execStartFromUnit_append, htitle, hblock]
    decide

theorem starts_nativeUnit (hname : '\n' ∉ spec.name.toList) :
    Starts (nativeUnit spec) ("" ++ spec.command) := by
  have htitle : execStartFromUnit ("Description=ekafleet managed: " ++ spec.name) = none :=
    execStartFromUnit_other (by simpa using hname) (by simp; decide)
  have hblock : execStartFromUnit "After=network.target\n\n[Service]\nType=simple" =
    none := by decide
  have htail : spec.command ++ "\nRestart=on-failure\nRestartSec=5\n" =
      spec.command ++ ("\n" ++ "Restart=on-failure\nRestartSec=5\n") := rfl
  unfold nativeUnit
  exact (((((starts_unit (by decide) (by decide) htail htitle hblock).append _).append _).append
    _).append _).append _

theorem starts_containerUnit (hname : '\n' ∉ spec.name.toList) :
    Starts (containerUnit spec)
      ("systemd-nspawn " ++ (s!"--oci-bundle={ociStoreDir}/bundles/{spec.name}" ++ " \\")) := by
  have htitle : execStartFromUnit ("Description=ekafleet container: " ++ spec.name) = none :=
    execStartFromUnit_other (by simpa using hname) (by simp; decide)
  have hblock : execStartFromUnit
      "After=network.target\nWants=machines.target\n\n[Service]\nType=simple" =
        none := by decide
  obtain ⟨args, hargs⟩ : ∃ args, " \\\n  ".intercalate (nspawnArgs spec) =
      s!"--oci-bundle={ociStoreDir}/bundles/{spec.name}" ++ (" \\" ++ ("\n" ++ args)) := by
    refine ⟨"  " ++ " \\\n  ".intercalate (nspawnArgs spec).tail, ?_⟩
    rw [nspawnArgs, List.cons_append, List.cons_append, String.intercalate_cons_cons,
      List.tail_cons, String.append_assoc, List.cons_append]
    rfl
  have htail : " \\\n  ".intercalate (nspawnArgs spec) ++
    "\nExecStop=machinectl terminate ekafleet-" =
      s!"--oci-bundle={ociStoreDir}/bundles/{spec.name}" ++ " \\" ++ ("\n" ++
        (args ++ "\nExecStop=machinectl terminate ekafleet-")) := by
    rw [hargs]
    simp only [String.append_assoc]
  unfold containerUnit
  exact ((((((starts_unit (by decide) (by decide) htail htitle hblock).append _).append _).append
    _).append _).append _).append _

/-- A specification whose name and command are single lines, and that names a command if it needs
    one. -/
def OneLine (spec : ServiceSpec) : Prop :=
  '\n' ∉ spec.name.toList ∧ '\n' ∉ spec.command.toList ∧
    (isContainerService spec = false → Text.trim spec.command ≠ "")

/-- What a specification says to start; its store path does not occur. -/
def specStart (spec : ServiceSpec) : String :=
  if isContainerService spec then
    "systemd-nspawn " ++ (s!"--oci-bundle={ociStoreDir}/bundles/{spec.name}" ++ " \\")
  else Text.trim spec.command

theorem execStart_unitContent (h : OneLine spec) :
    execStartFromUnit (unitContent spec) = some (specStart spec) := by
  obtain ⟨hname, hline, hcmd⟩ := h
  unfold unitContent specStart
  split
  · have hstarts := starts_containerUnit hname
    have htext :
        "systemd-nspawn " ++ (s!"--oci-bundle={ociStoreDir}/bundles/{spec.name}" ++ " \\") =
        String.ofList ('s' :: ("ystemd-nspawn --oci-bundle=/var/lib/ekafleet/oci/bundles/".toList ++
          spec.name.toList ++ [' ']) ++ ['\\']) := by
      rw [← String.toList_inj]
      simp [ociStoreDir, toString]
    have htrim := Text.trim_of_ends (c := 's') (x := '\\') (by decide) (by decide)
      ("ystemd-nspawn --oci-bundle=/var/lib/ekafleet/oci/bundles/".toList ++ spec.name.toList ++
        [' '])
    rw [htext] at hstarts
    rw [hstarts.execStart (by simpa using hname) (by rw [htrim]; simp), htrim, ← htext]
  · next hnative =>
    have hstarts := starts_nativeUnit hname
    rw [String.empty_append] at hstarts
    exact hstarts.execStart hline (hcmd (Bool.eq_false_iff.mpr hnative))

/-! ### What a deploy command writes -/

section Writes
variable {dataDir : String} {managed : HashMap String UnitState}

variable {name : String} {c : HostCall} {service : Σ _ : String, ServiceSpec}

theorem unitFile_injective {k : String}
    (h : s!"{dataDir}/units/{unitName k}" = s!"{dataDir}/units/{unitName name}") : k = name := by
  apply unitName_injective
  simp only [← String.toList_inj, String.toList_append, toString] at h
  exact String.toList_inj.mp (List.append_cancel_left h)

theorem writes_installCalls {cmd : String → Systemctl} {k content : String} {spec : ServiceSpec}
    (hc : c ∈ installCalls dataDir cmd k spec)
    (hw : c.writes s!"{dataDir}/units/{unitName name}" = some content) :
    k = name ∧ content = unitContent spec := by
  simp only [installCalls, rootCalls, List.mem_append] at hc
  rcases hc with hc | hc
  · split at hc
    · cases hc
    · simp only [List.mem_cons, List.not_mem_nil, or_false] at hc
      rcases hc with rfl | rfl <;> cases hw
  · simp only [List.mem_cons, List.not_mem_nil, or_false] at hc
    grind [HostCall.writes, unitFile_injective, Option.some.inj]

theorem writes_stopCalls {k file : String} (hc : c ∈ stopCalls dataDir managed k) :
    c.writes file = none := by
  unfold stopCalls at hc
  split at hc
  · cases hc
  · simp only [List.mem_cons, List.not_mem_nil, or_false] at hc
    rcases hc with rfl | rfl | rfl | rfl | rfl <;> rfl

theorem writes_serviceCalls {content : String} (hc : c ∈ serviceCalls dataDir managed service)
    (hw : c.writes s!"{dataDir}/units/{unitName name}" = some content) :
    service.1 = name ∧ content = unitContent service.2 ∧
      ∀ unit, managed.lookup service.1 = some unit → unit.versionKey ≠ versionKeyFor service.2 := by
  unfold serviceCalls at hc
  split at hc
  · next unit hunit =>
    split at hc
    · cases hc
    · next hkey =>
      obtain ⟨hname, hcontent⟩ := writes_installCalls hc hw
      refine ⟨hname, hcontent, fun unit' hunit' => ?_⟩
      rw [Option.some.inj (hunit'.symm.trans hunit)]
      exact hkey
  · next hnone =>
    obtain ⟨hname, hcontent⟩ := writes_installCalls hc hw
    exact ⟨hname, hcontent, fun unit hunit => by rw [hnone] at hunit; cases hunit⟩

theorem exists_writes_serviceCalls
    (h : ∀ unit, managed.lookup service.1 = some unit → unit.versionKey ≠ versionKeyFor service.2) :
    ∃ c ∈ serviceCalls dataDir managed service,
      c.writes s!"{dataDir}/units/{unitName service.1}" = some (unitContent service.2) := by
  have hinstall : ∀ cmd, ∃ c ∈ installCalls dataDir cmd service.1 service.2,
      c.writes s!"{dataDir}/units/{unitName service.1}" = some (unitContent service.2) := fun cmd =>
    ⟨.write s!"{dataDir}/units/{unitName service.1}" (unitContent service.2),
      by simp [installCalls], by simp [HostCall.writes]⟩
  unfold serviceCalls
  split
  · next unit hunit =>
    rw [if_neg (h unit hunit)]
    exact hinstall _
  · exact hinstall _

end Writes

section Adopt
variable {dataDir : String} {order : HashMap.Order} {a : AgentState}
  {desired : Specs} {name : String} {spec : ServiceSpec}

theorem installedUnit_adopt_kept (hspec : desired.lookup name = some spec) {unit : UnitState}
    (hunit : a.supervisor.managedUnits.lookup name = some unit)
    (hkey : unit.versionKey = versionKeyFor spec) :
    installedUnit dataDir (a.adopt noFaults dataDir order desired).supervisor.calls name =
      installedUnit dataDir a.supervisor.calls name := by
  obtain ⟨acts, s', hs', -, removed, -, hcalls⟩ :=
    reconcile_noFaults dataDir order desired a.supervisor
  rw [AgentState.adopt, hs', hcalls]
  refine getLast?_filterMap_append_none fun c hc => ?_
  rcases List.mem_append.mp hc with hc | hc
  · obtain ⟨service, hmem, hc⟩ := List.mem_flatMap.mp hc
    rcases hw : c.writes _ with _ | content
    · rfl
    · -- only the entry of the service itself could write the file, and it is up to date
      obtain ⟨rfl, -, hnew⟩ := writes_serviceCalls hc hw
      have hsame := HashMap.lookup_of_mem (order.mem_arrange.mp hmem)
      grind
  · obtain ⟨k, -, hc⟩ := List.mem_flatMap.mp hc
    exact writes_stopCalls hc

theorem installedUnit_adopt_written (hspec : desired.lookup name = some spec)
    (hnew : ∀ unit, a.supervisor.managedUnits.lookup name = some unit →
      unit.versionKey ≠ versionKeyFor spec) :
    installedUnit dataDir (a.adopt noFaults dataDir order desired).supervisor.calls name =
      some (unitContent spec) := by
  obtain ⟨acts, s', hs', -, removed, -, hcalls⟩ :=
    reconcile_noFaults dataDir order desired a.supervisor
  rw [AgentState.adopt, hs', hcalls]
  refine getLast?_filterMap_append (fun c hc content hw => ?_) ?_
  · rcases List.mem_append.mp hc with hc | hc
    · obtain ⟨service, hmem, hc⟩ := List.mem_flatMap.mp hc
      obtain ⟨rfl, hcontent, -⟩ := writes_serviceCalls hc hw
      have hsame := HashMap.lookup_of_mem (order.mem_arrange.mp hmem)
      rw [hspec] at hsame
      rw [hcontent, Option.some.inj hsame]
    · obtain ⟨k, -, hc⟩ := List.mem_flatMap.mp hc
      rw [writes_stopCalls hc] at hw
      cases hw
  · obtain ⟨c, hc, hw⟩ : ∃ c ∈ serviceCalls dataDir a.supervisor.managedUnits ⟨name, spec⟩, _ :=
      exists_writes_serviceCalls hnew
    exact ⟨c, List.mem_append_left _ (List.mem_flatMap.mpr
      ⟨⟨name, spec⟩, order.mem_arrange.mpr (HashMap.mem_of_lookup hspec), hc⟩), hw⟩

end Adopt

/-! ### What a deployed service starts -/

/-- The unit of the service is recorded with the version that it has at the given store path. -/
def KeepsUnit (a : AgentState) (name : String) (spec : ServiceSpec) (path : String) : Prop :=
  ∃ unit, a.supervisor.managedUnits.lookup name = some unit ∧
    unit.versionKey = versionKeyFor { spec with storePath := path }

section Deploy
variable {dataDir : String} {order : HashMap.Order} {a : AgentState} {spec : ServiceSpec}
  (cmd : DeployCommand)

theorem lookup_deployed (hspec : a.desiredServices.lookup cmd.serviceName = some spec) :
    (HashMap.adjust cmd.serviceName (fun svc => { svc with storePath := cmd.storePath })
      a.desiredServices).lookup cmd.serviceName =
        some { spec with storePath := cmd.storePath } := by
  rw [HashMap.lookup_adjust_self, hspec, Option.map_some]

/-- EXACT: after a deploy command the unit starts what it started before, if it is recorded with the
    version already, and otherwise what the specification makes it start, whatever the path. -/
theorem installedStart_deploy_kept (hspec : a.desiredServices.lookup cmd.serviceName = some spec)
    (hkeep : KeepsUnit a cmd.serviceName spec cmd.storePath) :
    installedStart dataDir (handleServerMessage noFaults dataDir order a (.deploy cmd))
      cmd.serviceName = installedStart dataDir a cmd.serviceName := by
  obtain ⟨unit, hunit, hkey⟩ := hkeep
  rw [installedStart, handleServerMessage,
    installedUnit_adopt_kept (lookup_deployed cmd hspec) hunit hkey]
  rfl

theorem installedStart_deploy_written (hspec : a.desiredServices.lookup cmd.serviceName = some spec)
    (hnew : ¬ KeepsUnit a cmd.serviceName spec cmd.storePath) :
    installedStart dataDir (handleServerMessage noFaults dataDir order a (.deploy cmd))
      cmd.serviceName = execStartFromUnit (unitContent spec) := by
  rw [installedStart, handleServerMessage, installedUnit_adopt_written (lookup_deployed cmd hspec)
    fun unit hunit hkey => hnew ⟨unit, hunit, hkey⟩]
  rfl

end Deploy

/-- CORRECT: after a deploy command without faults, the unit of the service runs a program from the
    deployed path exactly if it is recorded with that version and ran such a program before, or it
    is not and the specification starts one. Commands with different paths lead to different
    programs exactly if one of them finds the unit recorded and the other does not, and the
    installed unit starts something else than the specification. -/
theorem deploy_runs_from_iff (dataDir : String) (order : HashMap.Order) (a : AgentState)
    (name : String) (spec : ServiceSpec) (hspec : a.desiredServices.lookup name = some spec) :
    (∀ cmd : DeployCommand, cmd.serviceName = name →
      (runsFrom cmd.storePath (installedStart dataDir
          (handleServerMessage noFaults dataDir order a (.deploy cmd)) name) = true ↔
        (KeepsUnit a name spec cmd.storePath ∧
          runsFrom cmd.storePath (installedStart dataDir a name) = true) ∨
        (¬ KeepsUnit a name spec cmd.storePath ∧
          runsFrom cmd.storePath (execStartFromUnit (unitContent spec)) = true))) ∧
    (∀ cmd cmd' : DeployCommand, cmd.serviceName = name → cmd'.serviceName = name →
      cmd.storePath ≠ cmd'.storePath →
        (installedStart dataDir (handleServerMessage noFaults dataDir order a (.deploy cmd)) name ≠
            installedStart dataDir (handleServerMessage noFaults dataDir order a (.deploy cmd'))
              name ↔
          ¬ (KeepsUnit a name spec cmd.storePath ↔ KeepsUnit a name spec cmd'.storePath) ∧
            installedStart dataDir a name ≠ execStartFromUnit (unitContent spec))) ∧
    (OneLine spec → execStartFromUnit (unitContent spec) = some (specStart spec)) := by
  have hkept : ∀ cmd : DeployCommand, cmd.serviceName = name →
      KeepsUnit a name spec cmd.storePath → installedStart dataDir
        (handleServerMessage noFaults dataDir order a (.deploy cmd)) name =
        installedStart dataDir a name := by
    rintro cmd rfl hkeep
    exact installedStart_deploy_kept cmd hspec hkeep
  have hwritten : ∀ cmd : DeployCommand, cmd.serviceName = name →
      ¬ KeepsUnit a name spec cmd.storePath → installedStart dataDir
        (handleServerMessage noFaults dataDir order a (.deploy cmd)) name =
        execStartFromUnit (unitContent spec) := by
    rintro cmd rfl hnew
    exact installedStart_deploy_written cmd hspec hnew
  refine ⟨fun cmd hname => ?_, fun cmd cmd' hname hname' _ => ?_, execStart_unitContent⟩
  · by_cases hkeep : KeepsUnit a name spec cmd.storePath
    · rw [hkept cmd hname hkeep]
      simp [hkeep]
    · rw [hwritten cmd hname hkeep]
      simp [hkeep]
  · by_cases hkeep : KeepsUnit a name spec cmd.storePath <;>
      by_cases hkeep' : KeepsUnit a name spec cmd'.storePath
    · rw [hkept cmd hname hkeep, hkept cmd' hname' hkeep']
      simp [hkeep, hkeep']
    · rw [hkept cmd hname hkeep, hwritten cmd' hname' hkeep']
      simp [hkeep, hkeep']
    · rw [hwritten cmd hname hkeep, hkept cmd' hname' hkeep']
      simp [hkeep, hkeep', ne_comm]
    · rw [hwritten cmd hname hkeep, hwritten cmd' hname' hkeep']
      simp [hkeep, hkeep']

namespace Native

def web : ServiceSpec where
  name := "web"
  storePath := "/nix/store/v1-web"
  command := "/nix/store/v1-web/bin/web --port 80"
  environment := ∅
  resources := none
  healthCheck := none
  ports := []
  livenessProbe := none
  readinessProbe := none
  startupProbe := none
  lifecycle := none
  volumes := []
  cgroupControls := none
  containerImage := ""
  ns := "default"
  namespaceIp := ""

/-- An agent that was told to run the service. -/
def agent : AgentState :=
  handleServerMessage noFaults "/var/lib/ekafleet" .asBuilt {} (.desiredState { services := [web] })

def deployed (path : String) : AgentState :=
  handleServerMessage noFaults "/var/lib/ekafleet" .asBuilt agent
    (.deploy ⟨"d1", "web", path, .rolling⟩)

theorem agent_web : agent.desiredServices.lookup "web" = some web := rfl

theorem agent_unit : agent.supervisor.managedUnits.lookup "web" =
    some ⟨unitName "web", versionKeyFor web, true⟩ := by
  decide

theorem web_starts :
    execStartFromUnit (unitContent web) = some "/nix/store/v1-web/bin/web --port 80" :=
  execStart_unitContent ⟨by decide, by decide +kernel, by decide +kernel⟩

theorem agent_starts :
    installedStart "/var/lib/ekafleet" agent "web" =
      some "/nix/store/v1-web/bin/web --port 80" := by
  have hspec : (servicesByName [web]).lookup "web" = some web := rfl
  have hnew : ∀ unit : UnitState, (∅ : HashMap String UnitState).lookup "web" = some unit →
      unit.versionKey ≠ versionKeyFor web := by
    intro unit hunit
    rw [AList.lookup_empty] at hunit
    cases hunit
  rw [← web_starts, installedStart, agent, handleServerMessage,
    installedUnit_adopt_written hspec hnew, Option.bind_some]

theorem keepsUnit_v1 : KeepsUnit agent "web" web "/nix/store/v1-web" := ⟨_, agent_unit, rfl⟩

theorem not_keepsUnit_v2 : ¬ KeepsUnit agent "web" web "/nix/store/v2-web" := by
  rintro ⟨unit, hunit, hkey⟩
  rw [agent_unit] at hunit
  cases hunit
  exact absurd hkey (by decide)

theorem deployed_v1_starts :
    installedStart "/var/lib/ekafleet" (deployed "/nix/store/v1-web") "web" =
    some "/nix/store/v1-web/bin/web --port 80" :=
  (installedStart_deploy_kept ⟨"d1", "web", "/nix/store/v1-web", .rolling⟩ agent_web
    keepsUnit_v1).trans agent_starts

theorem deployed_v2_starts :
    installedStart "/var/lib/ekafleet" (deployed "/nix/store/v2-web") "web" =
    some "/nix/store/v1-web/bin/web --port 80" :=
  (installedStart_deploy_written ⟨"d1", "web", "/nix/store/v2-web", .rolling⟩ agent_web
    not_keepsUnit_v2).trans web_starts

/-- The command that deploys a new version installs a unit that starts the old one, the same unit
    that deploying the old version again leaves in place. -/
theorem deployed_v2_starts_v1 :
    runsFrom "/nix/store/v2-web"
      (installedStart "/var/lib/ekafleet" (deployed "/nix/store/v2-web") "web") = false ∧
    installedStart "/var/lib/ekafleet" (deployed "/nix/store/v2-web") "web" =
      some "/nix/store/v1-web/bin/web --port 80" ∧
    installedStart "/var/lib/ekafleet" (deployed "/nix/store/v2-web") "web" =
      installedStart "/var/lib/ekafleet" (deployed "/nix/store/v1-web") "web" := by
  rw [deployed_v2_starts, deployed_v1_starts]
  decide

theorem deploy_runs_from_web :
    agent.desiredServices.lookup "web" = some web ∧
    runsFrom "/nix/store/v1-web"
      (installedStart "/var/lib/ekafleet" (deployed "/nix/store/v1-web") "web") = true :=
  ⟨agent_web, ((deploy_runs_from_iff "/var/lib/ekafleet" .asBuilt agent "web" web agent_web).1
    ⟨"d1", "web", "/nix/store/v1-web", .rolling⟩ rfl).mpr
      (.inl ⟨keepsUnit_v1, by rw [agent_starts]; decide⟩)⟩

end Native

end Ekafleet.Agent
