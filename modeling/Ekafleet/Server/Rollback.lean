import Ekafleet.Server.Revert

/-! The rollback RPC | source: server/api.rs, raft/state.rs

    A rollback names a generation, and generations count the deployments of a service. What each
    generation consisted of is a function of the commands that were applied. -/

namespace Ekafleet.Server
open Raft Scheduler Proto Effect

/-- A request to go back. -/
structure RollbackRequest where
  machine : String := ""
  all : Bool := false
  /-- Zero is the previous generation. -/
  toGeneration : UInt64 := 0
  deriving DecidableEq, Repr

/-- The answer to it. -/
structure RollbackResponse where
  success : Bool
  message : String
  deriving DecidableEq, Repr

/-! ### The RPC -/

section Rpc
variable (env : Environment) (order : HashMap.Order) (req : RollbackRequest)

/-- The services to roll back: all of them, or those on the machine. -/
def targetServices (deployments : HashMap String DeploymentState) : List String :=
  if req.all || req.machine == "" then (order.arrange deployments.entries).map Sigma.fst
  else ((order.arrange deployments.entries).filter fun e =>
    e.2.placements.any (·.machineName == req.machine)).map Sigma.fst

/-- The generation a service with the given one is rolled back to. -/
def targetGeneration (generation : ℕ) : ℕ :=
  if req.toGeneration = 0 then generation - 1 else req.toGeneration.toNat

/-- Send deploy commands to the agents of a deployment. -/
def sendRollback (serviceName : String) (deployment : DeploymentState) : Deploy Unit :=
  deployment.placements.forM fun p => do
    let id ← read fun w => env.uuid w.sent
    let _ ← sendToAgent env p.machineName
      (.deploy ⟨id, serviceName, deployment.storePath, .rolling⟩)

/-- Roll one service back; the result names it, unless it has no generation to go back to. -/
def rollbackService (deployments : HashMap String DeploymentState) (serviceName : String) :
    Deploy (List String) :=
  match deployments.lookup serviceName with
  | none => pure []
  | some deployment =>
    if targetGeneration req deployment.generation = 0 then pure []
    else do
      sendRollback env serviceName deployment
      return [serviceName]

/-- The part of the RPC behind the permission check. -/
def performRollback (raft : StateMachineInner) : Deploy RollbackResponse :=
  if raft.deployments.entries.isEmpty then pure ⟨false, "No deployment history available"⟩
  else if (targetServices order req raft.deployments).isEmpty then
    pure ⟨false, s!"No services found on machine '{req.machine}'"⟩
  else do
    let rolledBack ← collect (rollbackService env req raft.deployments)
      (targetServices order req raft.deployments)
    return ⟨true, s!"Rolled back {rolledBack.length} services: " ++ ", ".intercalate rolledBack⟩

/-- The RPC that rolls back. -/
def rollback (ext : Extensions) (raft : StateMachineInner) :
    Except Status (Deploy RollbackResponse) := do
  requirePermission ext .deploy
  return performRollback env order req raft

end Rpc

/-! ### Generations -/

/-- What a service was deployed with. -/
structure Version where
  storePath : String
  placements : List PlacementRecord
  deriving DecidableEq, Repr

def Version.nodes (v : Version) : List String := v.placements.map (·.machineName)

/-- The versions of a service: every deployment is a new one, removing the service ends them. -/
def recordVersion (name : String) (versions : List Version) : Command → List Version
  | .deploy serviceName storePath placements =>
    if serviceName = name then versions ++ [⟨storePath, placements⟩] else versions
  | .undeploy serviceName => if serviceName = name then [] else versions
  | _ => versions

/-- The versions of a service after a history of commands, each with the time it was applied at. -/
def versions (history : List (ℕ × Command)) (name : String) : List Version :=
  history.foldl (fun vs c => recordVersion name vs c.2) []

/-- Generations are counted from one. -/
def generationOf (history : List (ℕ × Command)) (name : String) (g : ℕ) : Option Version :=
  if g = 0 then none else (versions history name)[g - 1]?

/-- The state machine after a history. -/
def stateAfter (history : List (ℕ × Command)) : StateMachineInner :=
  history.foldl (fun s c => (applyNext c.1 s c.2).1) {}

/-- The deployment of a service is the last of its versions, under the number of them. -/
def Latest (vs : List Version) (d : Option DeploymentState) : Prop :=
  d.map (fun d => (Version.mk d.storePath d.placements, d.generation)) =
    vs.getLast?.map (·, vs.length)

variable {name : String} {history : List (ℕ × Command)}

/-- STEP: a command keeps the deployment the last version. -/
theorem latest_applyNext {vs : List Version} {s : StateMachineInner}
    (h : Latest vs (s.deployments.lookup name)) (now : ℕ) (c : Command) :
    Latest (recordVersion name vs c) ((applyNext now s c).1.deployments.lookup name) := by
  cases c with
  | deploy serviceName storePath placements =>
    by_cases hname : serviceName = name
    · subst hname
      have hgen : ((s.deployments.lookup serviceName).map (·.generation + 1)).getD 1 =
          vs.length + 1 := by
        unfold Latest at h
        rcases hd : s.deployments.lookup serviceName with _ | d <;> rw [hd] at h
        · grind
        grind
      simp [Latest, recordVersion, applyNext, applyLocked, applyCommand, hgen]
    · have hother :
        (applyNext now s (.deploy serviceName storePath placements)).1.deployments.lookup
          name = s.deployments.lookup name := AList.lookup_insert_ne (Ne.symm hname)
      rw [recordVersion, if_neg hname, hother]
      exact h
  | undeploy serviceName =>
    by_cases hname : serviceName = name
    · subst hname
      simp [Latest, recordVersion, applyNext, applyLocked, applyCommand]
    · have hother : (applyNext now s (.undeploy serviceName)).1.deployments.lookup name =
          s.deployments.lookup name := AList.lookup_erase_ne (Ne.symm hname)
      rw [recordVersion, if_neg hname, hother]
      exact h
  | releaseNamespaceIp ns serviceName =>
    have hsame : (applyNext now s (.releaseNamespaceIp ns serviceName)).1.deployments =
        s.deployments := by
      simp only [applyNext, applyLocked, applyCommand]
      split
      · rfl
      · split <;> rfl
    rw [hsame]
    exact h
  | putSecret | deleteSecret | updateDns | kvPut | kvDelete | trackCloudInstance
  | updateCloudInstance | untrackCloudInstance | allocateNamespaceIp => exact h

/-- RUN: after any history the deployment of a service is the last of its versions. -/
theorem latest_after (name : String) (history : List (ℕ × Command)) :
    Latest (versions history name) ((stateAfter history).deployments.lookup name) := by
  induction history using List.reverseRecOn with
  | nil => rfl
  | append_singleton history c ih =>
    rw [versions, stateAfter, List.foldl_append, List.foldl_append]
    exact latest_applyNext ih c.1 c.2

theorem lookup_stateAfter {v : Version} :
    (versions history name).getLast? = some v ↔
      ∃ d, (stateAfter history).deployments.lookup name = some d ∧
        d.storePath = v.storePath ∧ d.placements = v.placements ∧
        d.generation = (versions history name).length := by
  have hlatest := latest_after name history
  unfold Latest at hlatest
  constructor
  · intro hv
    rw [hv, Option.map_some, Option.map_eq_some_iff] at hlatest
    grind
  · rintro ⟨d, hd, hpath, hplacements, -⟩
    rw [hd, Option.map_some, eq_comm, Option.map_eq_some_iff] at hlatest
    obtain ⟨v', hv', hsame⟩ := hlatest
    rw [hv', (Prod.mk.inj hsame).1, hpath, hplacements]

/-! ### What a rollback sends -/

theorem reverts_append {serviceName path node : String} {log more : List Sent} :
    Reverts serviceName path (log ++ more) node ↔
      Reverts serviceName path log node ∨ Reverts serviceName path more node := by
  simp only [Reverts, List.mem_append, or_and_right, exists_or]

/-- A computation that always returns, and deploys to a node exactly the paths of services that `P`
    gives. -/
def Deploys {α : Type} (m : Deploy α) (P : String → String → String → Prop) : Prop :=
  ∀ w, ∃ a new, m w = (.ok a, { w with sent := w.sent ++ new }) ∧
    ∀ serviceName path node, Reverts serviceName path new node ↔ P serviceName path node

section Deploys
variable {α β : Type} {P Q : String → String → String → Prop}

theorem deploys_pure (a : α) : Deploys (pure a) fun _ _ _ => False := fun w =>
  ⟨a, [], by rw [List.append_nil, pure_apply], fun _ _ _ => by simp [Reverts]⟩

theorem Deploys.bind {m : Deploy α} {f : α → Deploy β} (hm : Deploys m P)
    (hf : ∀ a, Deploys (f a) Q) : Deploys (m >>= f) fun s p n => P s p n ∨ Q s p n := by
  intro w
  obtain ⟨a, new, hw, hP⟩ := hm w
  obtain ⟨b, more, hw', hQ⟩ := hf a { w with sent := w.sent ++ new }
  refine ⟨b, new ++ more, ?_, fun s p n => ?_⟩
  · rw [bind_apply, hw, ← List.append_assoc]
    exact hw'
  · rw [reverts_append, hP, hQ]

theorem Deploys.congr {m : Deploy α} (hm : Deploys m P) (h : ∀ s p n, P s p n ↔ Q s p n) :
    Deploys m Q := fun w => by
  obtain ⟨a, new, hw, hP⟩ := hm w
  exact ⟨a, new, hw, fun s p n => (hP s p n).trans (h s p n)⟩

theorem deploys_forM {f : α → Deploy PUnit} {R : α → String → String → String → Prop}
    (hf : ∀ a, Deploys (f a) (R a)) :
    ∀ l : List α, Deploys (l.forM f) fun s p n => ∃ a ∈ l, R a s p n
  | [] => (deploys_pure _).congr (by simp)
  | a :: rest => ((hf a).bind fun _ => deploys_forM hf rest).congr (by simp)

theorem deploys_collect {f : α → Deploy (List β)} {R : α → String → String → String → Prop}
    (hf : ∀ a, Deploys (f a) (R a)) :
    ∀ l : List α, Deploys (collect f l) fun s p n => ∃ a ∈ l, R a s p n
  | [] => (deploys_pure _).congr (by simp)
  | a :: rest => ((hf a).bind fun _ => (deploys_collect hf rest).bind fun _ => deploys_pure _).congr
      (by simp)

end Deploys

section Sends
variable {env : Environment} {order : HashMap.Order} {req : RollbackRequest}

theorem deploys_sendRollback (serviceName : String) (d : DeploymentState) :
    Deploys (sendRollback env serviceName d) fun s p n =>
      s = serviceName ∧ p = d.storePath ∧ ∃ q ∈ d.placements, q.machineName = n := by
  refine (deploys_forM (R := fun q s p n => s = serviceName ∧ p = d.storePath ∧ q.machineName = n)
    (fun q w => ?_) d.placements).congr fun s p n => ?_
  · refine ⟨⟨⟩, [⟨q.machineName, .deploy ⟨env.uuid w.sent, serviceName, d.storePath, .rolling⟩,
      env.reaches w.sent q.machineName⟩], rfl, fun s p n => ?_⟩
    simp only [Reverts, List.mem_singleton, exists_eq_left, ServerMessage.deploy.injEq,
      DeployCommand.mk.injEq]
    grind
  · grind

theorem deploys_rollbackService (deployments : HashMap String DeploymentState)
    (serviceName : String) :
    Deploys (rollbackService env req deployments serviceName) fun s p n =>
      s = serviceName ∧ ∃ d, deployments.lookup serviceName = some d ∧
        targetGeneration req d.generation ≠ 0 ∧ p = d.storePath ∧
          ∃ q ∈ d.placements, q.machineName = n := by
  unfold rollbackService
  rcases hd : deployments.lookup serviceName with _ | d
  · exact (deploys_pure _).congr (by simp)
  · by_cases htarget : targetGeneration req d.generation = 0
    · simp only [htarget, if_true]
      exact (deploys_pure _).congr (by simp [htarget])
    · simp only [htarget, if_false]
      exact ((deploys_sendRollback serviceName d).bind fun _ => deploys_pure _).congr
        (by simp [htarget])

theorem mem_targetServices {deployments : HashMap String DeploymentState} {name : String} :
    name ∈ targetServices order req deployments ↔ ∃ d, deployments.lookup name = some d ∧
      (req.all = true ∨ req.machine = "" ∨ ∃ p ∈ d.placements, p.machineName = req.machine) := by
  have hentry : ∀ d, ⟨name, d⟩ ∈ deployments.entries ↔ deployments.lookup name = some d :=
    fun d => ⟨HashMap.lookup_of_mem, HashMap.mem_of_lookup⟩
  unfold targetServices
  split
  · next hall =>
    simp only [Bool.or_eq_true, beq_iff_eq] at hall
    simp only [List.mem_map, HashMap.Order.mem_arrange, ← or_assoc, hall, true_or, and_true,
      ← hentry]
    simp
  · next hone =>
    simp only [Bool.or_eq_true, beq_iff_eq, not_or] at hone
    simp only [List.mem_map, List.mem_filter, HashMap.Order.mem_arrange, List.any_eq_true,
      beq_iff_eq, hone, Bool.false_eq_true, false_or, ← hentry]
    simp

theorem deploys_performRollback (raft : StateMachineInner) :
    Deploys (performRollback env order req raft) fun s p n =>
      s ∈ targetServices order req raft.deployments ∧
        ∃ d, raft.deployments.lookup s = some d ∧ targetGeneration req d.generation ≠ 0 ∧
          p = d.storePath ∧ ∃ q ∈ d.placements, q.machineName = n := by
  unfold performRollback
  split
  · next hempty =>
    -- without deployments there are no targets
    have hnone : ∀ s, s ∉ targetServices order req raft.deployments := fun s hs => by
      obtain ⟨d, hd, -⟩ := mem_targetServices.mp hs
      have hmem := HashMap.mem_of_lookup hd
      rw [List.isEmpty_iff.mp hempty] at hmem
      cases hmem
    exact (deploys_pure _).congr (by simp [hnone])
  · split
    · next hempty => exact (deploys_pure _).congr (by simp [List.isEmpty_iff.mp hempty])
    · exact ((deploys_collect (deploys_rollbackService raft.deployments) _).bind fun _ =>
        deploys_pure _).congr (by simp)

end Sends

/-! ### Rolling back to a generation -/

/-- The service has the current version `cur`, and the request asks for it to be rolled back. -/
def Targeted (history : List (ℕ × Command)) (req : RollbackRequest) (name : String)
    (cur : Version) : Prop :=
  (versions history name).getLast? = some cur ∧
    (req.all = true ∨ req.machine = "" ∨ req.machine ∈ cur.nodes)

/-- The version a request asks for. -/
def requested (history : List (ℕ × Command)) (req : RollbackRequest) (name : String) :
    Option Version :=
  generationOf history name (targetGeneration req (versions history name).length)

theorem reverts_rollback {env : Environment} {order : HashMap.Order} {req : RollbackRequest}
    {ext : Extensions} {m : Deploy RollbackResponse}
    (hm : rollback env order req ext (stateAfter history) = .ok m) (w : Dispatch) {cur v : Version}
    (hcur : Targeted history req name cur) (hv : requested history req name = some v)
    (path node : String) :
    Reverts name path (sentBy m w) node ↔ path = cur.storePath ∧ node ∈ cur.nodes := by
  obtain rfl : performRollback env order req (stateAfter history) = m := by
    unfold rollback at hm
    rcases hperm : requirePermission ext .deploy with e | ⟨⟩ <;> rw [hperm] at hm <;> cases hm
    rfl
  obtain ⟨d, hd, hpath, hplacements, hgen⟩ := lookup_stateAfter.mp hcur.1
  have htarget : targetGeneration req d.generation ≠ 0 := by
    rintro hzero
    rw [requested, ← hgen, hzero] at hv
    cases hv
  have hdeploys : Deploys (performRollback env order req (stateAfter history)) _ :=
    deploys_performRollback _
  obtain ⟨a, new, hw, hsent⟩ := hdeploys w
  have hnew : sentBy (performRollback env order req (stateAfter history)) w = new :=
    sentBy_eq (by rw [hw])
  have hmem : name ∈ targetServices order req (stateAfter history).deployments :=
    mem_targetServices.mpr ⟨d, hd, by simpa [Version.nodes, hplacements] using hcur.2⟩
  rw [hnew, hsent]
  simp [hmem, hd, htarget, hpath, hplacements, Version.nodes]

/-- CORRECT: after any history, a rollback sends each targeted service the store path and the nodes
    of the requested generation exactly if these are the path and the nodes of its current one (the
    path does not matter if that has no nodes). -/
theorem rollback_sends_generation_iff (env : Environment) (order : HashMap.Order)
    (req : RollbackRequest) (ext : Extensions) (history : List (ℕ × Command)) (w : Dispatch)
    (m : Deploy RollbackResponse) (hm : rollback env order req ext (stateAfter history) = .ok m) :
    (∀ name cur v, Targeted history req name cur → requested history req name = some v →
      ∀ path node, Reverts name path (sentBy m w) node ↔ path = v.storePath ∧ node ∈ v.nodes) ↔
    ∀ name cur v, Targeted history req name cur → requested history req name = some v →
      (∀ node, node ∈ cur.nodes ↔ node ∈ v.nodes) ∧
        (cur.nodes = [] ∨ cur.storePath = v.storePath) := by
  refine forall₃_congr fun name cur v => forall₂_congr fun hcur hv => ?_
  simp only [reverts_rollback hm w hcur hv]
  constructor
  · intro h
    have hnodes : ∀ node, node ∈ cur.nodes ↔ node ∈ v.nodes := fun node =>
      ⟨fun hnode => ((h cur.storePath node).mp ⟨rfl, hnode⟩).2,
        fun hnode => ((h v.storePath node).mpr ⟨rfl, hnode⟩).2⟩
    refine ⟨hnodes, or_iff_not_imp_left.mpr fun hsome => ?_⟩
    obtain ⟨node, hnode⟩ := List.exists_mem_of_ne_nil _ hsome
    exact ((h cur.storePath node).mp ⟨rfl, hnode⟩).1
  · rintro ⟨hnodes, hempty | hpath⟩ path node
    · simp [← hnodes node, hempty]
    · rw [hnodes node, hpath]

/-- Two deployments of a service, the second on another node. -/
def twoGenerations : List (ℕ × Command) :=
  [(100, .deploy "web" "/nix/store/v1" [⟨"web-0", "n1"⟩]),
    (200, .deploy "web" "/nix/store/v2" [⟨"web-0", "n2"⟩])]

def operatorExtensions : Extensions := { role := some .operator }

/-- All agents are connected. -/
def allConnected : Environment where
  reaches _ _ := true
  healthy _ _ _ := true
  expired _ := false
  uuid _ := "u"
  migrationError _ _ := none

/-- Going back to the first generation sends the second one, to the node that runs it. -/
theorem web_rolled_back_to_itself : ∃ m,
    rollback allConnected .asBuilt { all := true } operatorExtensions (stateAfter twoGenerations) =
      .ok m ∧
    requested twoGenerations { all := true } "web" = some ⟨"/nix/store/v1", [⟨"web-0", "n1"⟩]⟩ ∧
    sentBy m {} = [⟨"n2", .deploy ⟨"u", "web", "/nix/store/v2", .rolling⟩, true⟩] :=
  ⟨_, rfl, by decide +kernel, rfl⟩

/-- The current generation is what a rollback to it sends. -/
theorem rollback_sends_current : ∃ m,
    rollback allConnected .asBuilt { all := true, toGeneration := 2 } operatorExtensions
      (stateAfter twoGenerations) = .ok m ∧
    ∀ cur v, Targeted twoGenerations { all := true, toGeneration := 2 } "web" cur →
      requested twoGenerations { all := true, toGeneration := 2 } "web" = some v →
      ∀ path node, Reverts "web" path (sentBy m {}) node ↔ path = v.storePath ∧ node ∈ v.nodes :=
  ⟨_, rfl, (rollback_sends_generation_iff allConnected .asBuilt { all := true, toGeneration := 2 }
    operatorExtensions twoGenerations {} _ rfl).mpr (by
      rintro name cur v ⟨hcur, -⟩ hv
      by_cases hname : "web" = name
      · subst hname
        obtain rfl := (Option.some.inj hcur.symm).trans (Option.some.inj hv)
        exact ⟨fun _ => .rfl, .inr rfl⟩
      · simp [versions, twoGenerations, recordVersion, hname] at hcur) "web"⟩

end Ekafleet.Server
