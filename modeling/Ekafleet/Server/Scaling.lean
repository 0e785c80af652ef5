import Ekafleet.Server.Canaries

/-! Scale requests and the plans after them | source: server/api.rs, raft/state.rs,
    server/reconciler.rs

    A scale request records an override that planning reads in place of the configured count. It
    records nothing if the agents report the requested count at that moment, and says it succeeded.
    -/

namespace Ekafleet.Server
open Raft Scheduler

/-! ### Replica overrides -/

theorem replicaKey_injective {a b : String}
    (h : s!"replica-override/{a}" = s!"replica-override/{b}") : a = b := by
  have hstrings : "replica-override/" ++ a = "replica-override/" ++ b := h
  simpa using hstrings

theorem getReplicaOverride_set (name : String) (count : UInt32) (raft : StateMachineInner) :
    getReplicaOverride (setReplicaOverride name count raft) name = some count := by
  unfold getReplicaOverride setReplicaOverride
  rw [AList.lookup_insert]
  exact congrArg some (Word.or_toLeBytes count)

theorem getReplicaOverride_set_ne {name svc : String} (hne : svc ≠ name) (count : UInt32)
    (raft : StateMachineInner) :
    getReplicaOverride (setReplicaOverride name count raft) svc = getReplicaOverride raft svc := by
  unfold getReplicaOverride setReplicaOverride
  rw [AList.lookup_insert_ne fun h => hne (replicaKey_injective h)]

/-- A world in which agents answer, and nothing else happens. -/
def calm : World where
  order := .asBuilt
  innerOrder := .asBuilt
  agents := answering true
  evalFleet _ := none
  randomToken := none
  randomKey := none
  nonces _ := none
  persistError := none
  streams := { domain := "fleet.internal", lib := Ca.csrLib [], hkdf := fun key _ => key }
  parseIpv4 _ := none
  healthLine _ := .unknown
  statusLine _ := ("", "", .unknown)

/-! ### Histories -/

/-- Histories of scale requests and of what the server hears from its agents. -/
inductive ScaleEvent where
  | scale (world : World) (ext : Extensions) (req : ScaleRequest)
  | report (e : FleetEvent)

namespace ScaleEvent

/-- One event of scaling. -/
def step (s : ControlState) : ScaleEvent → ControlState
  | .scale world ext req => (Server.scale world ext req s).2
  | .report e => { s with fleet := s.fleet.step e }

/-- The state after a history. -/
def after (s : ControlState) (events : List ScaleEvent) : ControlState := events.foldl step s

/-- The event is a scale request for the service. -/
def Asks (name : String) : ScaleEvent → Prop
  | .scale _ _ req => req.serviceName = name
  | .report _ => False

end ScaleEvent

/-- The call reports success. -/
def Succeeds (world : World) (ext : Extensions) (req : ScaleRequest) (s : ControlState) : Prop :=
  ∃ r, (scale world ext req s).1 = .ok r ∧ r.success = true

/-- The replica count of a service that `compute_plan` schedules with. -/
def replicasUsed (desired : FleetConfig) (s : ControlState) (name : String) : Option UInt32 :=
  ((applyOverrides s.raft desired.services).lookup name).map (·.scheduling.replicas)

/-- After every successful request, plans use the requested count until the next request for the
    service. -/
def Honoured (desired : FleetConfig) (name : String) (s : ControlState)
    (events : List ScaleEvent) : Prop :=
  ∀ before world ext count later, before ++ .scale world ext ⟨name, count⟩ :: later <+: events →
    (∀ e ∈ later, ¬ e.Asks name) →
    Succeeds world ext ⟨name, count⟩ (ScaleEvent.after s before) →
    replicasUsed desired
      (ScaleEvent.after s (before ++ .scale world ext ⟨name, count⟩ :: later)) name = some count

section Steps
variable {desired : FleetConfig} {name : String} {s : ControlState}

theorem requirePermission_of_succeeds {world : World} {ext : Extensions} {req : ScaleRequest}
    (h : Succeeds world ext req s) : requirePermission ext .scale = .ok () := by
  rcases hperm : requirePermission ext .scale with e | _
  · obtain ⟨r, hr, -⟩ := h
    rw [scale, permit_error hperm] at hr
    cases hr
  · rfl

theorem replicasUsed_eq {cfg : ServiceConfig} (hcfg : desired.services.lookup name = some cfg) :
    replicasUsed desired s name =
      some ((getReplicaOverride s.raft name).getD cfg.scheduling.replicas) := by
  rw [replicasUsed, applyOverrides, HashMap.lookup_mapVal, hcfg]
  rcases getReplicaOverride s.raft name with _ | count <;> rfl

/-- STEP: after a successful request the count is the requested one, unless nothing was recorded and
    it was another one before. -/
theorem replicasUsed_scale {cfg : ServiceConfig} (hcfg : desired.services.lookup name = some cfg)
    {world : World} {ext : Extensions} {count : UInt32}
    (h : Succeeds world ext ⟨name, count⟩ s) :
    replicasUsed desired (ScaleEvent.step s (.scale world ext ⟨name, count⟩)) name = some count ↔
      s.fleet.instanceCount world.order name ≠ count ∨
        replicasUsed desired s name = some count := by
  rw [ScaleEvent.step, (scale_permitted (requirePermission_of_succeeds h) _).2]
  by_cases hcount : s.fleet.instanceCount world.order name = count
  · rw [if_pos hcount]
    simp [hcount]
  · rw [if_neg hcount, replicasUsed_eq hcfg, getReplicaOverride_set]
    simp [hcount]

/-- FRAME: other events leave the recorded count as it is. -/
theorem getReplicaOverride_step {e : ScaleEvent} (h : ¬ e.Asks name) :
    getReplicaOverride (ScaleEvent.step s e).raft name = getReplicaOverride s.raft name := by
  cases e with
  | report e => rfl
  | scale world ext req =>
    rcases hperm : requirePermission ext .scale with e | _
    · rw [ScaleEvent.step, scale, permit_error hperm]
    · rw [ScaleEvent.step, (scale_permitted hperm req).2]
      split
      · rfl
      · exact getReplicaOverride_set_ne (Ne.symm h) _ _

/-- RUN: the recorded count stays until the next request for the service. -/
theorem getReplicaOverride_after {events : List ScaleEvent} (h : ∀ e ∈ events, ¬ e.Asks name) :
    getReplicaOverride (ScaleEvent.after s events).raft name = getReplicaOverride s.raft name := by
  induction events generalizing s with
  | nil => rfl
  | cons e events ih =>
    obtain ⟨he, hevents⟩ := List.forall_mem_cons.mp h
    rw [ScaleEvent.after, List.foldl_cons]
    exact (ih hevents).trans (getReplicaOverride_step he)

end Steps

/-- EXACT: in every history of scale requests and reports, and for every configuration that has the
    service, plans use the count of the last successful request if and only if at each successful
    request the reported count is another one, or plans used the requested one already. -/
theorem scale_honoured_iff (desired : FleetConfig) (name : String) (cfg : ServiceConfig)
    (hcfg : desired.services.lookup name = some cfg) (s : ControlState)
    (events : List ScaleEvent) :
    Honoured desired name s events ↔
      ∀ before world ext count, before ++ [.scale world ext ⟨name, count⟩] <+: events →
        Succeeds world ext ⟨name, count⟩ (ScaleEvent.after s before) →
        (ScaleEvent.after s before).fleet.instanceCount world.order name ≠ count ∨
          replicasUsed desired (ScaleEvent.after s before) name = some count := by
  constructor
  · intro h before world ext count hinit hsucceeds
    have hnow := h before world ext count [] hinit (by simp) hsucceeds
    rw [ScaleEvent.after, List.foldl_append, List.foldl_cons, List.foldl_nil] at hnow
    exact (replicasUsed_scale hcfg hsucceeds).mp hnow
  · intro h before world ext count later hinit hlater hsucceeds
    have hcall : before ++ [.scale world ext ⟨name, count⟩] <+: events := by
      refine List.IsPrefix.trans ⟨later, ?_⟩ hinit
      simp
    have hnow := (replicasUsed_scale hcfg hsucceeds).mpr (h before world ext count hcall hsucceeds)
    rw [ScaleEvent.after, List.foldl_append, List.foldl_cons]
    rw [replicasUsed_eq hcfg] at hnow ⊢
    rw [← hnow]
    exact congrArg (fun o => some (Option.getD o _)) (getReplicaOverride_after hlater)

/-! ### A request that is lost -/

namespace Lagging

/-- Two replicas of a service. -/
def config : FleetConfig where
  services := [⟨"web", { command := some "web", scheduling := { replicas := 2 } }⟩].toAList

def server : ControlState where
  secretStore := { rawKey := ⟨List.replicate 32 4, rfl⟩ }
  fleetKey := ⟨List.replicate 32 4, 1⟩

def ext : Extensions := { role := some .operator }

/-- Two nodes connect and report an instance each. -/
def reports : List ScaleEvent :=
  [.report (.register 0 "n1"), .report (.register 0 "n2"),
    .report (.status "n1" [⟨"web", "web-0", "", .running⟩]),
    .report (.status "n2" [⟨"web", "web-1", "", .running⟩])]

/-- A single request for another count than the reported one is honoured. -/
theorem first_request_honoured :
    config.services.lookup "web" =
        some { command := some "web", scheduling := { replicas := 2 } } ∧
      Honoured config "web" server [.scale calm ext ⟨"web", 5⟩] := by
  refine ⟨rfl, (scale_honoured_iff config "web" _ rfl server _).mpr ?_⟩
  intro before world ext' count hinit _
  obtain ⟨rfl, heq⟩ : before = [] ∧ ScaleEvent.scale world ext' ⟨"web", count⟩ =
      .scale calm ext ⟨"web", 5⟩ := by
    rcases hinit.sublist.length_le.lt_or_eq with hlt | hlen
    · simp at hlt
    · have hall := hinit.eq_of_length hlen
      rcases before with _ | ⟨e, before⟩
      · exact ⟨rfl, by simpa using hall⟩
      · simp at hall
  cases heq
  exact .inl (by decide)

/-- Five are requested, and before any further report two again: the second call succeeds, and plans
    go on with five. -/
theorem second_request_lost :
    Succeeds calm ext ⟨"web", 2⟩
      (ScaleEvent.after server (reports ++ [.scale calm ext ⟨"web", 5⟩])) ∧
    replicasUsed config (ScaleEvent.after server
      (reports ++ [.scale calm ext ⟨"web", 5⟩, .scale calm ext ⟨"web", 2⟩])) "web" = some 5 := by
  refine ⟨(scale_permitted rfl _).1, ?_⟩
  decide +kernel

end Lagging

end Ekafleet.Server
