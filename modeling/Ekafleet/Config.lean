import Ekafleet.Lib.HashMap

/-! Fleet configuration | source: config/mod.rs, config/scheduling.rs

    The evaluated Nix configuration as the server reads it. Defaults are the serde defaults of the
    source. Numbers that the server computes with keep their machine width; weights and percentages
    are plain integers. -/

namespace Ekafleet

/-! ### Scheduling -/

/-- How a service is placed and restarted. -/
inductive JobType where | service | stateful | system | batch | sysbatch
  deriving DecidableEq, Repr

/-- A hard constraint on the attributes of a machine. -/
structure Constraint where
  attr : String
  op : String
  value : String
  deriving DecidableEq, Repr

/-- The share of the instances wanted for one value. -/
structure SpreadTarget where
  value : String
  percent : ℕ
  deriving DecidableEq, Repr

/-- How instances are spread over the values of an attribute. -/
structure SpreadConfig where
  attr : String
  weight : Option ℕ := none
  targets : List SpreadTarget := []
  /-- Maximum allowed skew between topology domains. -/
  maxSkew : Option ℕ := none
  minDomains : Option ℕ := none
  /-- When set, the spread is a hard constraint of the filter phase. -/
  required : Bool := false
  deriving DecidableEq, Repr

/-- A preference for machines with an attribute. -/
structure AffinityConfig where
  attr : String
  op : String
  value : String
  weight : ℤ := 50
  deriving DecidableEq, Repr

/-- A preference for machines near another service. -/
structure ServiceAffinityConfig where
  targetService : String
  topologyKey : String
  weight : ℤ := 50
  deriving DecidableEq, Repr

/-- What a taint keeps away. -/
inductive TaintEffect where | noSchedule | preferNoSchedule | noExecute
  deriving DecidableEq, Repr

/-- How a toleration compares values. -/
inductive TolerationOp where | equal | exists
  deriving DecidableEq, Repr

/-- What keeps services off a machine. -/
structure Taint where
  key : String
  value : Option String := none
  effect : TaintEffect
  deriving DecidableEq, Repr

/-- A taint that a service accepts. -/
structure Toleration where
  key : Option String := none
  op : TolerationOp := .equal
  value : Option String := none
  effect : Option TaintEffect := none
  deriving DecidableEq, Repr

/-- How a new version is rolled out. -/
inductive UpdateStrategy where | rolling | canary | blueGreen
  deriving DecidableEq, Repr

/-- How updates of a service are made. -/
structure UpdateConfig where
  strategy : UpdateStrategy := .rolling
  maxParallel : UInt32 := 1
  autoRevert : Bool := false
  autoPromote : Bool := false
  progressDeadlineSecs : Option UInt64 := none
  deriving DecidableEq, Repr

/-- Whether volumes move with their service. -/
structure MigrateConfig where
  migrateOnReschedule : Bool := true
  deriving DecidableEq, Repr

/-- A number of instances or a share of them. -/
inductive DisruptionValue where
  | count (n : UInt32)
  | percent (text : String)
  deriving DecidableEq, Repr

/-- How many instances may be down during a voluntary disruption. -/
structure DisruptionBudget where
  minAvailable : Option DisruptionValue := none
  maxUnavailable : Option DisruptionValue := none
  deriving DecidableEq, Repr

/-- Everything about a service that the scheduler reads. -/
structure SchedulingConfig where
  replicas : UInt32 := 1
  jobType : JobType := .service
  constraints : List Constraint := []
  spread : List SpreadConfig := []
  affinity : List AffinityConfig := []
  update : UpdateConfig := {}
  /-- Soft preference for a node pool: an affinity of weight 50. -/
  pool : Option String := none
  priority : UInt32 := 50
  tolerations : List Toleration := []
  migrate : MigrateConfig := {}
  serviceAffinity : List ServiceAffinityConfig := []
  disruptionBudget : Option DisruptionBudget := none
  deriving DecidableEq, Repr

/-- How candidates are ranked. -/
inductive SchedulerAlgorithm where | binpack | spread
  deriving DecidableEq, Repr

/-! ### Services -/

/-- What is reserved of a resource, and its limit. -/
structure ResourceValue where
  request : UInt64 := 0
  limit : Option UInt64 := none
  deriving DecidableEq, Repr

/-- Settings for the control group of a service. -/
structure CgroupControlsConfig where
  cpuWeight : UInt32 := 100
  memoryHigh : Option UInt64 := none
  memoryMax : Option UInt64 := none
  ioWeight : UInt32 := 100
  tasksMax : Option UInt32 := none
  oomPolicy : String := "stop"
  deriving DecidableEq, Repr

/-- The resources a service asks for. -/
structure ResourceConfig where
  cpu : Option ResourceValue := none
  memory : Option ResourceValue := none
  disk : Option ResourceValue := none
  /-- Extended/device resources, e.g. `gpu ↦ 1`. -/
  extended : HashMap String UInt64 := ∅
  cgroupControls : Option CgroupControlsConfig := none

/-- Whom a service may call. -/
structure IdentityConfig where
  allowedTargets : List String := []
  deriving DecidableEq, Repr

/-- The health probe of a service. -/
structure HealthCheckConfig where
  path : Option String := none
  interval : UInt32 := 10
  timeout : UInt32 := 5
  healthyThreshold : UInt32 := 3
  unhealthyThreshold : UInt32 := 3
  deriving DecidableEq, Repr

/-- A port of a service. -/
structure PortConfig where
  port : UInt16
  protocol : Option String := none
  hostname : Option String := none
  healthCheck : Option HealthCheckConfig := none
  liveness : Option HealthCheckConfig := none
  readiness : Option HealthCheckConfig := none
  startup : Option HealthCheckConfig := none
  deriving DecidableEq, Repr

/-- Who may mount a volume. -/
inductive VolumeAccessMode where | readWriteOnce | readWriteMany
  deriving DecidableEq, Repr

/-- A volume of a service. -/
structure VolumeConfig where
  name : String
  mountPath : String
  sizeMb : UInt64 := 1024
  storageClass : String := "local"
  accessMode : VolumeAccessMode := .readWriteOnce
  reclaimRetain : Bool := true
  deriving DecidableEq, Repr

/-- Commands and times around start and stop. -/
structure LifecycleConfig where
  preStop : Option (List String) := none
  postStart : Option (List String) := none
  stopSignal : String := "SIGTERM"
  terminationGracePeriodSeconds : UInt64 := 30
  deriving DecidableEq, Repr

/-- The container of a service. -/
structure ContainerConfig where
  image : String
  deriving DecidableEq, Repr

/-- The configuration of a service. -/
structure ServiceConfig where
  /-- Program of a native service; unset for containers. -/
  command : Option String := none
  container : Option ContainerConfig := none
  ports : HashMap String PortConfig := ∅
  identity : IdentityConfig := {}
  resources : ResourceConfig := {}
  scheduling : SchedulingConfig := {}
  environment : HashMap String String := ∅
  lifecycle : LifecycleConfig := {}
  volumes : List VolumeConfig := []
  /-- Empty or `default` means host networking. -/
  ns : String := ""

/-! ### Machines and pools -/

/-- The capacity of a machine. -/
structure CapacityConfig where
  cpu : UInt64 := 0
  memory : UInt64 := 0
  disk : UInt64 := 0
  deriving DecidableEq, Repr

/-- The configuration of a machine. -/
structure MachineConfig where
  targetHost : String := ""
  labels : HashMap String String := ∅
  capacity : CapacityConfig := {}
  pool : String := "default"
  /-- Capacity kept back for the system; the scheduler uses `capacity - reserved`. -/
  reserved : CapacityConfig := {}
  taints : List Taint := []
  extendedResources : HashMap String UInt64 := ∅

/-- Cloud providers. -/
inductive CloudProviderType where | aws | azure | gcp
  deriving DecidableEq, Repr

/-- A machine image that is built from a NixOS configuration. -/
structure CloudImageConfig where
  nixosConfig : String
  diskImageAttr : Option String := none
  namePrefix : Option String := none
  /-- Previous images kept for rollback. -/
  retainCount : UInt32 := 2
  maxAgeSeconds : ℕ := 604800
  deriving DecidableEq, Repr

/-- Spot instances of a pool. -/
structure SpotConfig where
  enabled : Bool := false
  maxPrice : Option String := none
  fallbackToOnDemand : Bool := true
  deriving DecidableEq, Repr

/-- Where the machines of a pool come from. -/
structure CloudProviderConfig where
  machineCapacity : CapacityConfig := {}
  provider : CloudProviderType := .aws
  region : String := ""
  imageId : Option String := none
  image : Option CloudImageConfig := none
  spot : Option SpotConfig := none
  joinTimeoutSeconds : ℕ := 600
  deriving DecidableEq, Repr

/-- The configuration of a node pool. -/
structure NodePoolConfig where
  labels : HashMap String String := ∅
  schedulerAlgorithm : Option SchedulerAlgorithm := none
  cloud : Option CloudProviderConfig := none

/-! ### Policies and the fleet -/

/-- Whether a violation blocks or warns. -/
inductive PolicyEnforcement where | enforce | warn
  deriving DecidableEq, Repr

/-- A rule that services have to meet. -/
structure PolicyRule where
  name : String
  /-- `<path> <op> <value>`, the condition a service has to meet. -/
  expression : String
  message : String
  enforcement : PolicyEnforcement := .enforce
  deriving DecidableEq, Repr

/-- The services of a configuration, by name. -/
abbrev Services := HashMap String ServiceConfig

/-- The machines of a configuration, by name. -/
abbrev Machines := HashMap String MachineConfig

/-- The node pools of a configuration, by name. -/
abbrev NodePools := HashMap String NodePoolConfig

/-- The configuration of a fleet. -/
structure FleetConfig where
  services : Services := ∅
  machines : Machines := ∅
  nodePools : NodePools := ∅
  policies : List PolicyRule := []
  name : String := ""

end Ekafleet
