import Ekafleet.Lib.Word
import Ekafleet.Lib.Float64
import Ekafleet.Config

/-! Scheduling candidates | source: server/scheduler/mod.rs

    A candidate is a machine together with what the running schedule has already put on it. Adding
    to the allocation is checked: `none` is the panic of an overflowing `u64` addition. -/

namespace Ekafleet.Scheduler
open Word

/-- Flattened resource requests of a service. -/
structure ResourceRequirements where
  cpu : UInt64
  memory : UInt64
  disk : UInt64
  extended : HashMap String UInt64

def ResourceRequirements.fromConfig (resources : ResourceConfig) : ResourceRequirements where
  cpu := (resources.cpu.map (·.request)).getD 0
  memory := (resources.memory.map (·.request)).getD 0
  disk := (resources.disk.map (·.request)).getD 0
  extended := resources.extended

/-- A machine during scheduling, with its tracked allocation. -/
structure Candidate where
  name : String
  config : MachineConfig
  pool : String
  mergedLabels : HashMap String String
  schedulableCpu : UInt64
  schedulableMemory : UInt64
  schedulableDisk : UInt64
  allocatedCpu : UInt64 := 0
  allocatedMemory : UInt64 := 0
  allocatedDisk : UInt64 := 0
  assignedServices : List String := []
  extendedResources : HashMap String UInt64
  allocatedExtended : HashMap String UInt64 := ∅

namespace Candidate

def availableCpu (c : Candidate) : UInt64 := saturatingSub c.schedulableCpu c.allocatedCpu

def availableMemory (c : Candidate) : UInt64 := saturatingSub c.schedulableMemory c.allocatedMemory

def availableDisk (c : Candidate) : UInt64 := saturatingSub c.schedulableDisk c.allocatedDisk

/-- Mean of the CPU and memory utilisation; a dimension without capacity counts as unused. -/
def utilization {F : Type} [F64 F] (c : Candidate) : F :=
  let f : UInt64 → F := fun n => F64.ofNat n.toNat
  if c.schedulableCpu = 0 ∧ c.schedulableMemory = 0 then F64.ofNat 0
  else
    let cpuUtil := if 0 < c.schedulableCpu then f c.allocatedCpu / f c.schedulableCpu
      else F64.ofNat 0
    let memUtil := if 0 < c.schedulableMemory then f c.allocatedMemory / f c.schedulableMemory
      else F64.ofNat 0
    (cpuUtil + memUtil) / F64.ofNat 2

/-- The loop of `allocate` over the requested extended resources. -/
def allocateExtended (allocated : HashMap String UInt64) :
    List (Σ _ : String, UInt64) → Option (HashMap String UInt64)
  | [] => some allocated
  | ⟨key, val⟩ :: rest => do
    let total ← checkedAdd ((allocated.lookup key).getD 0) val
    allocateExtended (allocated.insert key total) rest

/-- Allocate resources for a service on this candidate. -/
def allocate (c : Candidate) (reqs : ResourceRequirements) (serviceName : String) :
    Option Candidate := do
  let cpu ← checkedAdd c.allocatedCpu reqs.cpu
  let memory ← checkedAdd c.allocatedMemory reqs.memory
  let disk ← checkedAdd c.allocatedDisk reqs.disk
  let ext ← allocateExtended c.allocatedExtended reqs.extended.entries
  return { c with
    allocatedCpu := cpu, allocatedMemory := memory, allocatedDisk := disk
    allocatedExtended := ext, assignedServices := c.assignedServices ++ [serviceName] }

/-- Give back the resources of a service. Every instance of it leaves `assignedServices`, but the
    request is subtracted once. -/
def deallocate (c : Candidate) (reqs : ResourceRequirements) (serviceName : String) : Candidate :=
  { c with
    allocatedCpu := saturatingSub c.allocatedCpu reqs.cpu
    allocatedMemory := saturatingSub c.allocatedMemory reqs.memory
    allocatedDisk := saturatingSub c.allocatedDisk reqs.disk
    allocatedExtended := reqs.extended.entries.foldl
      (fun m e => HashMap.adjust e.1 (saturatingSub · e.2) m) c.allocatedExtended
    assignedServices := c.assignedServices.filter (· ≠ serviceName) }

/-- Whether the candidate still has room for the request. -/
def hasResourcesFor (c : Candidate) (reqs : ResourceRequirements) : Bool :=
  reqs.cpu ≤ c.availableCpu && reqs.memory ≤ c.availableMemory && reqs.disk ≤ c.availableDisk &&
    reqs.extended.entries.all fun e =>
      e.2 ≤ saturatingSub ((c.extendedResources.lookup e.1).getD 0)
        ((c.allocatedExtended.lookup e.1).getD 0)

end Candidate

end Ekafleet.Scheduler
