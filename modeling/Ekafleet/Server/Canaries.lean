import Ekafleet.Server.ControlApi
import Ekafleet.Server.Drain

/-! The registry of canaries | source: server/deployer.rs, server/reconciler.rs

    Rollouts in batches leave the canaries that wait for an operator alone. -/

namespace Ekafleet.Server
open Raft Scheduler Proto Effect

def SameCanaries (w w' : Dispatch) : Prop := w'.pendingCanaries = w.pendingCanaries

instance SameCanaries.refl : Std.Refl SameCanaries := ⟨fun _ => rfl⟩

instance SameCanaries.trans : IsTrans Dispatch SameCanaries := ⟨fun _ _ _ h h' => Eq.trans h' h⟩

section Frame
variable {env : Environment} {F : Type} [F64 F]

theorem sameCanaries_checkpoint (timed : Bool) : Within SameCanaries (checkpoint env timed) := by
  intro w
  unfold checkpoint
  split <;> rfl

theorem sameCanaries_sendToAgent (node : String) (message : ServerMessage) :
    Within SameCanaries (sendToAgent env node message) := fun _ => rfl

variable {timed : Bool} {id serviceName : String}

theorem sameCanaries_sendDeploy {path node : String} {strategy : DeployStrategy} :
    Within SameCanaries (sendDeploy env timed id serviceName path strategy node) :=
  (sameCanaries_checkpoint timed).bind fun _ => sameCanaries_sendToAgent _ _

theorem sameCanaries_waitHealthy {ps : List Placement} :
    Within SameCanaries (waitHealthy env timed serviceName ps) := by
  refine (sameCanaries_checkpoint timed).bind fun _ => (within_read _).bind fun passed => ?_
  cases passed
  · exact within_fail _
  · exact within_pure _

theorem sameCanaries_rollPlacement {plan : DeploymentPlan} (p : Placement)
    : Within SameCanaries ((env.port timed).rollPlacement id plan p) := by
  refine sameCanaries_sendDeploy.bind fun delivered => ?_
  cases delivered
  · cases plan.autoRevert <;> exact within_fail _
  · exact within_pure _

theorem sameCanaries_rollBatches {timed : Bool} {id : String} {plan : DeploymentPlan} :
    ∀ batches : List (List Placement),
      Within SameCanaries ((env.port timed).rollBatches id plan batches)
  | [] => within_pure _
  | [batch] => within_forM sameCanaries_rollPlacement batch
  | batch :: next :: rest => by
    rw [Port.rollBatches]
    · exact (within_forM sameCanaries_rollPlacement batch).bind fun _ =>
        sameCanaries_waitHealthy.bind fun _ => sameCanaries_rollBatches (next :: rest)
    · simp

theorem sameCanaries_executeRolling {plan : DeploymentPlan} :
    Within SameCanaries (executeRolling env F timed id plan) := by
  refine (within_lift _ _).bind fun parallel => ?_
  split
  · exact within_fail _
  · exact sameCanaries_rollBatches _

end Frame

end Ekafleet.Server
