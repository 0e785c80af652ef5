import Ekafleet.Oci.Pull

/-! The image manager over the life of an agent | source: agent/oci/mod.rs

    An agent makes one pull after the other on the same store, under any policies, with any answers
    of the registries and any failures. Its history keeps a record of each `pull_image` call.
    `ImageManager.pull` makes one such call, or two when a fleet-wide policy is only advisory, and
    reads the image's configuration. -/

namespace Ekafleet.Oci
open Effect

/-- What one `pull_image` call did. -/
structure Record where
  call : Call
  result : Except PullError PullResult
  verified : List Digest
  written : List StoreFile

/-- An agent: its store, the operations made so far, and its pulls, newest first. -/
structure Agent (τ : Type) where
  store : ImageStore τ := {}
  ops : ℕ := 0
  history : List Record := []

def Agent.world {τ : Type} (a : Agent τ) : World τ := { store := a.store, ops := a.ops }

variable {τ : Type} (lib : ImageLib) (sig : SignatureLib) (unp : Unpacker τ) (out : Outside τ)

namespace Agent

/-- The world after a `pull_image` call of the agent. -/
def afterPull (c : Call) (a : Agent τ) : World τ := (Oci.pullImage lib sig unp out c a.world).2

def pullRecord (c : Call) (a : Agent τ) : Record where
  call := c
  result := (Oci.pullImage lib sig unp out c a.world).1
  verified := (a.afterPull lib sig unp out c).verified
  written := (a.afterPull lib sig unp out c).written

/-- A `pull_image` call of the agent. -/
def pullImage (c : Call) (a : Agent τ) : Except PullError PullResult × Agent τ :=
  let w := a.afterPull lib sig unp out c
  let r := a.pullRecord lib sig unp out c
  (r.result, { store := w.store, ops := w.ops, history := r :: a.history })

end Agent

/-- Pulls, and whatever else happens to the store in between: garbage collection removes bundles
    and blobs, reads are only counted. -/
inductive Event where
  | pull (c : Call)
  | other (bundles blobs : List String) (ops : ℕ)

/-- One event at the agent. -/
def step (a : Agent τ) : Event → Agent τ
  | .pull c => (a.pullImage lib sig unp out c).2
  | .other bundles blobs ops =>
    { a with
      store := { a.store with
        bundles := bundles.foldl (fun m s => m.erase s) a.store.bundles
        blobs := blobs.foldl (fun m d => m.erase d) a.store.blobs }
      ops := a.ops + ops }

/-- The agent after a sequence of events, starting with an empty store. -/
def after (events : List Event) : Agent τ := events.foldl (step lib sig unp out) {}

theorem after_concat (events : List Event) (e : Event) :
    after lib sig unp out (events ++ [e]) = step lib sig unp out (after lib sig unp out events) e :=
  List.foldl_concat ..

end Ekafleet.Oci
