import Ekafleet.Lib.Text
import Ekafleet.Proto

/-! Unit files | source: agent/supervisor.rs

    The systemd unit an agent writes for a service: a program run directly, or a container run by
    `systemd-nspawn`. -/

namespace Ekafleet.Agent
open Proto

def defaultSocketPath : String := "/run/ekafleet/workload-api.sock"

def ociStoreDir : String := "/var/lib/ekafleet/oci"

def unitName (serviceName : String) : String := s!"ekafleet-{serviceName}.service"

/-- Whether a specification describes an OCI container. -/
def isContainerService (spec : ServiceSpec) : Bool := spec.containerImage != ""

/-- What decides whether a service has to be restarted: image or store path. -/
def versionKeyFor (spec : ServiceSpec) : String :=
  if isContainerService spec then spec.containerImage else spec.storePath

def buildNetnsDirective (spec : ServiceSpec) : String :=
  if isDefaultNamespace spec.ns then ""
  else s!"NetworkNamespacePath=/run/netns/ekafleet-{spec.ns}\n"

def buildEnvLines (spec : ServiceSpec) : String :=
  "\n".intercalate (spec.environment.entries.map (fun e => s!"Environment={e.1}={e.2}") ++
    [s!"Environment=SPIFFE_ENDPOINT_SOCKET=unix://{defaultSocketPath}",
      s!"Environment=EKAFLEET_SERVICE={spec.name}"])

/-- A directive that is written when its value is set. -/
def directive (isSet : Bool) (text : String) : List String := if isSet then [text] else []

/-- Lifecycle hooks, stop signal and grace period. -/
def lifecycleDirectives (lifecycle : Option LifecycleHooks) : List String :=
  let stopSignal := ((lifecycle.map (·.stopSignal)).filter (· ≠ "")).getD "SIGTERM"
  let gracePeriod := (lifecycle.map (·.terminationGracePeriodSeconds)).getD 30
  let postStart := (lifecycle.map (·.postStart)).getD []
  let preStop := (lifecycle.map (·.preStop)).getD []
  directive (!postStart.isEmpty) ("ExecStartPost=" ++ " ".intercalate postStart) ++
    directive (!preStop.isEmpty) ("ExecStop=" ++ " ".intercalate preStop) ++
    [s!"KillSignal={stopSignal}", s!"TimeoutStopSec={gracePeriod.toNat}"]

/-- Resource controls; zero and the empty text write nothing. -/
def cgroupDirectives (cg : CgroupControls) : List String :=
  ["Slice=system-ekafleet.slice"] ++
    directive (0 < cg.cpuWeight) s!"CPUWeight={cg.cpuWeight.toNat}" ++
    directive (0 < cg.cpuQuotaPercent) s!"CPUQuota={cg.cpuQuotaPercent.toNat}%" ++
    directive (0 < cg.memoryHighMb) s!"MemoryHigh={cg.memoryHighMb.toNat}M" ++
    directive (0 < cg.memoryMaxMb) s!"MemoryMax={cg.memoryMaxMb.toNat}M" ++
    directive (0 < cg.ioWeight) s!"IOWeight={cg.ioWeight.toNat}" ++
    directive (0 < cg.tasksMax) s!"TasksMax={cg.tasksMax.toNat}" ++
    directive (cg.oomPolicy ≠ "") s!"OOMPolicy={cg.oomPolicy}"

def buildExtraDirectives (spec : ServiceSpec) : String :=
  "\n".intercalate (lifecycleDirectives spec.lifecycle ++
    (spec.cgroupControls.map cgroupDirectives).getD [])

/-- The unit of a native service starts the configured command. -/
def nativeUnit (spec : ServiceSpec) : String :=
  "[Unit]\nDescription=ekafleet managed: " ++ spec.name ++ "\nAfter=network.target\n\n" ++
    "[Service]\nType=simple\nExecStart=" ++ spec.command ++
    "\nRestart=on-failure\nRestartSec=5\n" ++ buildNetnsDirective spec ++
    buildExtraDirectives spec ++ "\n" ++ buildEnvLines spec ++
    "\n\n[Install]\nWantedBy=multi-user.target\n"

/-- Bind mounts asked for through the environment. -/
def extraBinds (spec : ServiceSpec) : List String :=
  spec.environment.entries.flatMap fun e =>
    if e.1 = "EKAFLEET_EXTRA_BINDS" then
      (((Text.split ',' e.2).map Text.trim).filter (· ≠ "")).map fun bind => s!"--bind={bind}"
    else []

def nspawnArgs (spec : ServiceSpec) : List String :=
  let netnsPath := if isDefaultNamespace spec.ns then "/proc/1/ns/net"
    else s!"/run/netns/ekafleet-{spec.ns}"
  [s!"--oci-bundle={ociStoreDir}/bundles/{spec.name}", s!"--machine=ekafleet-{spec.name}",
    s!"--network-namespace-path={netnsPath}", s!"--bind={defaultSocketPath}",
    s!"--bind-ro=/var/lib/ekafleet/secrets/{spec.name}:/run/secrets", "--register=yes",
    "--keep-unit"] ++ extraBinds spec

def containerUnit (spec : ServiceSpec) : String :=
  "[Unit]\nDescription=ekafleet container: " ++ spec.name ++
    "\nAfter=network.target\nWants=machines.target\n\n[Service]\nType=simple\n" ++
    "ExecStart=systemd-nspawn " ++ " \\\n  ".intercalate (nspawnArgs spec) ++
    "\nExecStop=machinectl terminate ekafleet-" ++ spec.name ++
    "\nRestart=on-failure\nRestartSec=5\nKillMode=mixed\n" ++ buildExtraDirectives spec ++ "\n" ++
    buildEnvLines spec ++ "\n\n[Install]\nWantedBy=multi-user.target\n"

/-- The text of a unit file. -/
def unitContent (spec : ServiceSpec) : String :=
  if isContainerService spec then containerUnit spec else nativeUnit spec

end Ekafleet.Agent
