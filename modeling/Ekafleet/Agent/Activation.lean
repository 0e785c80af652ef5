import Ekafleet.Lib.Effect
import Ekafleet.Lib.HashMap
import Ekafleet.Lib.Text

/-! System activation | source: agent/activation.rs

    An activation sets the system profile to a store path, runs the activation script of that path
    and moves the link of the current system. The profile directory holds one numbered link per
    generation; the profile is a link to one of them. What programs and file operations do in a
    call, failures included, is given by `Programs`. -/

namespace Ekafleet.Agent.Activation
open Effect

/-- The kinds of operating system errors that are told apart. -/
inductive ErrorKind where | notFound | other
  deriving DecidableEq, Repr

/-- Why an activation ends early. -/
inductive ActivationError where
  | pathNotFound (path : String)
  | activateScriptNotFound (path : String)
  | profileFailed (stderr : String)
  | activationFailed (message : String)
  | io (kind : ErrorKind)
  deriving DecidableEq, Repr

/-- What an activation is to change. -/
inductive ActivationAction where | switch | boot | test
  deriving DecidableEq, Repr

def ActivationAction.text : ActivationAction → String
  | .switch => "switch"
  | .boot => "boot"
  | .test => "test"

/-- Retention policy for old system profile generations; the current one is always kept. -/
structure GenerationRetention where
  keepLast : Option ℕ
  olderThanDays : Option ℕ
  deriving DecidableEq, Repr

def GenerationRetention.isNoop (policy : GenerationRetention) : Bool :=
  policy.keepLast.isNone && policy.olderThanDays.isNone

/-- The arguments of an activation. -/
structure ActivationParams where
  toplevel : String
  activateScript : Option String := none
  action : ActivationAction
  retention : Option GenerationRetention := none
  deriving DecidableEq, Repr

/-- The explicit override, or `bin/activate` below the toplevel. -/
def ActivationParams.resolveActivateScript (params : ActivationParams) : String :=
  match params.activateScript with
  | some script => script
  | none =>
    if params.toplevel.toList.getLast? = some '/' then params.toplevel ++ "bin/activate"
    else params.toplevel ++ "/bin/activate"

/-- What a successful activation reports. -/
structure ActivationResult where
  toplevel : String
  action : ActivationAction
  previousPath : Option String
  deriving DecidableEq, Repr

/-! ### The system -/

/-- How a program ended, with its exit status and what it wrote. -/
inductive Outcome where
  | success
  | failed (status stdout stderr : String)
  | io (kind : ErrorKind)
  deriving DecidableEq, Repr

/-- What an activation reads and changes on a host. -/
structure SystemState where
  /-- Which paths exist. -/
  present : String → Bool
  /-- The target of `/run/current-system`. -/
  currentSystem : Option String
  /-- The links of the profile directory and their targets. -/
  profiles : HashMap String String
  /-- The link that the system profile `/nix/var/nix/profiles/system` points to. -/
  profile : Option String
  /-- The system whose services are running. -/
  running : Option String

/-- What the programs and file operations of one call do. -/
structure Programs where
  nixEnvSet : Outcome := .success
  nixInstall : Outcome := .success
  script : Outcome := .success
  /-- What a script that failed to activate a system left running. -/
  leftRunning : Option String := none
  /-- Whether the old link of the current system can be removed and a new one made. -/
  unlinks : Bool := true
  links : Bool := true
  nixEnvDelete : Outcome := .success
  nixWipe : Outcome := .success
  /-- The generations deleted for some selectors. -/
  deleted : List String → List String := fun _ => []

namespace SystemState

/-- The store path that the system profile resolves to: what the next boot starts. -/
def bootDefault (s : SystemState) : Option String := s.profile.bind s.profiles.lookup

end SystemState

/-- Get the current active system path. -/
def currentSystemPath (s : SystemState) : Option String :=
  if s.currentSystem.any s.present then s.currentSystem else s.profile

def linkName (generation : ℕ) : String := "system-" ++ toString generation ++ "-link"

/-- The generation that a file of the profile directory is the link of. -/
def generationNumber (name : String) : Option ℕ :=
  ((Text.stripPrefix "system-" name).bind (Text.stripSuffix "-link")).bind
    (Text.parseUnsigned (2 ^ 64))

/-- The newest generation. -/
def maxGeneration (s : SystemState) : ℕ :=
  (s.profiles.keys.filterMap generationNumber).foldl max 0

/-- Get the current system generation number. -/
def currentGeneration (s : SystemState) : Option ℕ :=
  if 0 < maxGeneration s then some (maxGeneration s) else none

/-- A successful profile set adds one generation and points the profile to it, in one step. It needs
    a number for the new generation. -/
def addGeneration (toplevel : String) (s : SystemState) : Option SystemState :=
  if maxGeneration s + 1 < 2 ^ 64 then
    some { s with
      profiles := s.profiles.insert (linkName (maxGeneration s + 1)) toplevel
      profile := some (linkName (maxGeneration s + 1)) }
  else none

/-- Deleting generations spares the one that the profile points to. -/
def deleteGenerations (names : List String) (s : SystemState) : Option SystemState :=
  some { s with
    profiles := HashMap.retain (fun name _ => name ∉ names ∨ s.profile = some name) s.profiles }

/-! ### The functions of the source -/

section Calls
variable (p : Programs)

/-- Run a profile-mutating subcommand. -/
def runProfileSet (outcome : Outcome) (change : SystemState → Option SystemState) :
    Effect SystemState ActivationError Unit := fun s =>
  match outcome with
  | .success => match change s with
    | some s' => (.ok (), s')
    | none => (.error (.profileFailed ""), s)
  | .failed _ _ stderr => (.error (.profileFailed (Text.trim stderr)), s)
  | .io kind => (.error (.io kind), s)

/-- `nix-env --set`, or `nix profile install` where `nix-env` is not installed. -/
def setSystemProfile (toplevel : String) : Effect SystemState ActivationError Unit := do
  match ← attempt (runProfileSet p.nixEnvSet (addGeneration toplevel)) with
  | .ok () => pure ()
  | .error (.io .notFound) => runProfileSet p.nixInstall (addGeneration toplevel)
  | .error e => fail e

/-- With `switch` and `test` a script activates a system now, with `boot` it does not. -/
def withRunning (action : ActivationAction) (running : Option String) (s : SystemState) :
    SystemState :=
  if action = .boot then s else { s with running := running }

/-- Execute the activate script with the given action. -/
def runActivateScript (script toplevel : String) (action : ActivationAction) :
    Effect SystemState ActivationError Unit :=
  match p.script with
  | .success => update (withRunning action (some toplevel))
  | .failed status stdout stderr => do
    update (withRunning action p.leftRunning)
    fail (.activationFailed
      s!"{script} {action.text} failed (exit {status}): {stderr}\n{stdout}")
  | .io kind => fail (.io kind)

/-- Remove the link of the current system and make a new one; errors are ignored. A link is made
    only where there is none. -/
def relinkCurrentSystem (toplevel : String) (s : SystemState) : SystemState :=
  let kept := if p.unlinks then none else s.currentSystem
  { s with currentSystem := if kept = none ∧ p.links then some toplevel else kept }

/-- The selectors of `nix-env --delete-generations`. -/
def GenerationRetention.selectors (policy : GenerationRetention) : List String :=
  (policy.olderThanDays.map fun days => s!"{days}d").toList ++
    (policy.keepLast.map fun keep => s!"+{keep}").toList

/-- Delete generations by the policy. -/
def pruneGenerations (policy : GenerationRetention) : Effect SystemState ActivationError Unit := do
  if policy.isNoop then pure ()
  else
    match ← attempt (runProfileSet p.nixEnvDelete (deleteGenerations (p.deleted policy.selectors)))
      with
    | .ok () => pure ()
    | .error (.io .notFound) =>
      -- without `nix-env` only the age bound is expressible
      match policy.olderThanDays with
      | some days => runProfileSet p.nixWipe (deleteGenerations (p.deleted [s!"{days}d"]))
      | none => pure ()
    | .error e => fail e

/-- The part of an activation that changes the system. -/
def applyActivation (params : ActivationParams) (previousPath : Option String) :
    Effect SystemState ActivationError ActivationResult := do
  setSystemProfile p params.toplevel
  runActivateScript p params.resolveActivateScript params.toplevel params.action
  update (relinkCurrentSystem p params.toplevel)
  if let some policy := params.retention then
    -- a pruning failure is only logged
    let _ ← attempt (pruneGenerations p policy)
  return ⟨params.toplevel, params.action, previousPath⟩

/-- Activate an EkaOS system closure. -/
def activateSystem (params : ActivationParams) :
    Effect SystemState ActivationError ActivationResult := do
  let present ← Effect.read SystemState.present
  let current ← Effect.read currentSystemPath
  if params.toplevel = "" then fail (.pathNotFound "(empty)")
  else if ¬ present params.toplevel then fail (.pathNotFound params.toplevel)
  else if ¬ present params.resolveActivateScript then
    fail (.activateScriptNotFound params.resolveActivateScript)
  else if current = some params.toplevel then
    return ⟨params.toplevel, params.action, current⟩
  else applyActivation p params current

/-- Resolve the previous generation's store path from profile links. -/
def previousGenerationPath (s : SystemState) : Option String :=
  let current := (currentGeneration s).getD 0
  if current ≤ 1 then none
  else (s.profiles.lookup (linkName (current - 1))).filter s.present

/-- Rollback to the previous system generation. -/
def rollback (activateScriptOverride : Option String) :
    Effect SystemState ActivationError ActivationResult := do
  match ← Effect.read previousGenerationPath with
  | some path => activateSystem p ⟨path, activateScriptOverride, .switch, none⟩
  | none => fail (.activationFailed "no previous generation available")

end Calls

/-! ### What each part of a call can do -/

section Parts
variable {p : Programs} {s s' : SystemState} {toplevel : String}

/-- Whether the profile can be set to a path: by `nix-env`, or where that is missing by `nix`. -/
def SetsProfile (p : Programs) (s : SystemState) : Prop :=
  maxGeneration s + 1 < 2 ^ 64 ∧
    (p.nixEnvSet = .success ∨ p.nixEnvSet = .io .notFound ∧ p.nixInstall = .success)

/-- The state with a new generation that the profile points to. -/
def withGeneration (toplevel : String) (s : SystemState) : SystemState :=
  { s with
    profiles := s.profiles.insert (linkName (maxGeneration s + 1)) toplevel
    profile := some (linkName (maxGeneration s + 1)) }

theorem runProfileSet_cases (outcome : Outcome) (change : SystemState → Option SystemState)
    (s : SystemState) :
    (∃ s', outcome = .success ∧ change s = some s' ∧
        runProfileSet outcome change s = (.ok (), s')) ∨
      ((outcome = .success → change s = none) ∧
        ∃ e, runProfileSet outcome change s = (.error e, s) ∧
          (e = .io .notFound ↔ outcome = .io .notFound)) := by
  cases outcome with
  | success => cases hchange : change s <;> simp [runProfileSet, hchange]
  | failed status stdout stderr => simp [runProfileSet]
  | io kind => simp [runProfileSet]

theorem addGeneration_eq_some_iff :
    addGeneration toplevel s = some s' ↔
      maxGeneration s + 1 < 2 ^ 64 ∧ s' = withGeneration toplevel s := by
  rw [addGeneration]
  split_ifs with h
  · simp only [h, true_and, Option.some.injEq]
    exact eq_comm
  · simp only [h, false_and]

theorem setSystemProfile_cases (p : Programs) (toplevel : String) (s : SystemState) :
    (SetsProfile p s ∧ setSystemProfile p toplevel s = (.ok (), withGeneration toplevel s)) ∨
      (¬ SetsProfile p s ∧ ∃ e, setSystemProfile p toplevel s = (.error e, s)) := by
  rcases runProfileSet_cases p.nixEnvSet (addGeneration toplevel) s with
    ⟨s', hset, hadd, hrun⟩ | ⟨hnone, e, hrun, he⟩
  · obtain ⟨hnumber, rfl⟩ := addGeneration_eq_some_iff.mp hadd
    refine .inl ⟨⟨hnumber, .inl hset⟩, ?_⟩
    simp only [setSystemProfile, bind_apply, attempt, hrun, pure_apply]
  · by_cases hmissing : e = .io .notFound
    · have henv := he.mp hmissing
      subst hmissing
      have hfallback : setSystemProfile p toplevel s =
          runProfileSet p.nixInstall (addGeneration toplevel) s := by
        simp only [setSystemProfile, bind_apply, attempt, hrun]
      rw [hfallback]
      rcases runProfileSet_cases p.nixInstall (addGeneration toplevel) s with
        ⟨s', hset, hadd, hinstall⟩ | ⟨hfull, e, hinstall, -⟩
      · obtain ⟨hnumber, rfl⟩ := addGeneration_eq_some_iff.mp hadd
        exact .inl ⟨⟨hnumber, .inr ⟨henv, hset⟩⟩, hinstall⟩
      · refine .inr ⟨?_, e, hinstall⟩
        rintro ⟨hnumber, hset | ⟨-, hset⟩⟩
        · exact absurd (henv.symm.trans hset) (by decide)
        · exact absurd ((hfull hset).symm.trans (addGeneration_eq_some_iff.mpr ⟨hnumber, rfl⟩))
            (by simp)
    · refine .inr ⟨?_, e, ?_⟩
      · rintro ⟨hnumber, hset | ⟨hset, -⟩⟩
        · exact absurd ((hnone hset).symm.trans (addGeneration_eq_some_iff.mpr ⟨hnumber, rfl⟩))
            (by simp)
        · exact hmissing (he.mpr hset)
      · simp only [setSystemProfile, bind_apply, attempt, hrun]
        rfl

theorem runActivateScript_cases (p : Programs) (script toplevel : String)
    (action : ActivationAction) (s : SystemState) :
    (p.script = .success ∧ runActivateScript p script toplevel action s =
        (.ok (), withRunning action (some toplevel) s)) ∨
      (p.script ≠ .success ∧ ∃ e running, runActivateScript p script toplevel action s =
        (.error e, withRunning action running s)) := by
  cases hscript : p.script with
  | success =>
    refine .inl ⟨rfl, ?_⟩
    rw [runActivateScript, hscript]
    rfl
  | failed status stdout stderr =>
    refine .inr ⟨by simp, ?_⟩
    rw [runActivateScript, hscript]
    exact ⟨_, p.leftRunning, rfl⟩
  | io kind =>
    refine .inr ⟨by simp, .io kind, s.running, ?_⟩
    rw [runActivateScript, hscript, withRunning, ite_self]
    rfl

/-! What the next boot starts, field by field. -/

@[simp] theorem bootDefault_withGeneration (toplevel : String) (s : SystemState) :
    (withGeneration toplevel s).bootDefault = some toplevel := by
  simp [withGeneration, SystemState.bootDefault]

@[simp] theorem bootDefault_withRunning (action : ActivationAction) (running : Option String)
    (s : SystemState) : (withRunning action running s).bootDefault = s.bootDefault := by
  rw [withRunning]
  split_ifs <;> rfl

@[simp] theorem currentSystem_withRunning (action : ActivationAction) (running : Option String)
    (s : SystemState) : (withRunning action running s).currentSystem = s.currentSystem := by
  rw [withRunning]
  split_ifs <;> rfl

end Parts

/-- Two states that boot and run the same system. -/
structure SameSystem (s s' : SystemState) : Prop where
  bootDefault : s'.bootDefault = s.bootDefault
  running : s'.running = s.running
  currentSystem : s'.currentSystem = s.currentSystem

instance : Std.Refl SameSystem := ⟨fun _ => ⟨rfl, rfl, rfl⟩⟩

instance : IsTrans SystemState SameSystem where
  trans _ _ _ h h' := ⟨h'.bootDefault.trans h.bootDefault, h'.running.trans h.running,
    h'.currentSystem.trans h.currentSystem⟩

theorem within_runProfileSet {R : SystemState → SystemState → Prop} [Std.Refl R]
    {change : SystemState → Option SystemState} (hchange : ∀ s s', change s = some s' → R s s')
    (outcome : Outcome) : Within R (runProfileSet outcome change) := by
  intro s
  rcases runProfileSet_cases outcome change s with ⟨s', -, hs', hrun⟩ | ⟨-, e, hrun, -⟩ <;>
    rw [hrun]
  · exact hchange s s' hs'
  · exact refl_of R s

theorem sameSystem_deleteGenerations (names : List String) (s s' : SystemState)
    (h : deleteGenerations names s = some s') : SameSystem s s' := by
  obtain rfl := Option.some.inj h
  refine ⟨?_, rfl, rfl⟩
  rcases hprofile : s.profile with _ | name
  · simp only [SystemState.bootDefault, hprofile, Option.bind_none]
  · simp only [SystemState.bootDefault, hprofile, Option.bind_some]
    refine Option.ext fun path => ?_
    rw [HashMap.lookup_retain_eq_some]
    simp

theorem within_pruneGenerations (p : Programs) (policy : GenerationRetention) :
    Within SameSystem (pruneGenerations p policy) := by
  rw [pruneGenerations]
  split
  · exact within_pure ()
  · refine Within.bind (within_runProfileSet (sameSystem_deleteGenerations _) _).attempt ?_
    grind [within_pure, within_runProfileSet, sameSystem_deleteGenerations, within_fail]

/-! ### A whole activation -/

section Activation
variable {p : Programs} {params : ActivationParams} {s : SystemState}

/-- The call gets as far as setting the profile: the paths are there, and the system is at another
    path. -/
structure Attempts (params : ActivationParams) (s : SystemState) : Prop where
  nonempty : params.toplevel ≠ ""
  toplevel : s.present params.toplevel = true
  script : s.present params.resolveActivateScript = true
  elsewhere : currentSystemPath s ≠ some params.toplevel

theorem activateSystem_apply (p : Programs) (params : ActivationParams) (s : SystemState) :
    activateSystem p params s =
      if params.toplevel = "" then (.error (.pathNotFound "(empty)"), s)
      else if ¬ s.present params.toplevel then (.error (.pathNotFound params.toplevel), s)
      else if ¬ s.present params.resolveActivateScript then
        (.error (.activateScriptNotFound params.resolveActivateScript), s)
      else if currentSystemPath s = some params.toplevel then
        (.ok ⟨params.toplevel, params.action, currentSystemPath s⟩, s)
      else applyActivation p params (currentSystemPath s) s := by
  change (if params.toplevel = "" then _ else _ : Effect _ _ _) s = _
  split_ifs <;> rfl

theorem activateSystem_of_attempts (h : Attempts params s) :
    activateSystem p params s = applyActivation p params (currentSystemPath s) s := by
  rw [activateSystem_apply, if_neg h.nonempty, if_neg (not_not.mpr h.toplevel),
    if_neg (not_not.mpr h.script), if_neg h.elsewhere]

theorem attempts_of_ok {r : ActivationResult} {s' : SystemState}
    (h : activateSystem p params s = (.ok r, s'))
    (helse : currentSystemPath s ≠ some params.toplevel) : Attempts params s := by
  by_contra hnot
  rw [activateSystem_apply] at h
  split_ifs at h with hempty htoplevel hscript
  · cases h
  · exact hnot ⟨hempty, htoplevel, hscript, helse⟩
  · cases h
  · cases h

theorem activateSystem_of_not_attempts (h : ¬ Attempts params s) :
    (activateSystem p params s).2 = s := by
  rw [activateSystem_apply]
  split_ifs with hempty htoplevel hscript hcurrent <;> try rfl
  exact absurd ⟨hempty, htoplevel, hscript, hcurrent⟩ h

theorem applyActivation_cases (p : Programs) (params : ActivationParams)
    (previousPath : Option String) (s : SystemState) :
    (¬ SetsProfile p s ∧ ∃ e, applyActivation p params previousPath s = (.error e, s)) ∨
      (SetsProfile p s ∧ p.script ≠ .success ∧ ∃ e running,
        applyActivation p params previousPath s =
          (.error e, withRunning params.action running (withGeneration params.toplevel s))) ∨
      (SetsProfile p s ∧ p.script = .success ∧ ∃ s',
        applyActivation p params previousPath s =
          (.ok ⟨params.toplevel, params.action, previousPath⟩, s') ∧
        SameSystem (relinkCurrentSystem p params.toplevel (withRunning params.action
          (some params.toplevel) (withGeneration params.toplevel s))) s' ∧
        (params.retention = none → s' = relinkCurrentSystem p params.toplevel
          (withRunning params.action (some params.toplevel)
            (withGeneration params.toplevel s)))) := by
  rcases setSystemProfile_cases p params.toplevel s with ⟨hset, hrun⟩ | ⟨hset, e, hrun⟩
  · rcases runActivateScript_cases p params.resolveActivateScript params.toplevel params.action
      (withGeneration params.toplevel s) with ⟨hscript, hactivate⟩ |
        ⟨hscript, e, running, hactivate⟩
    · refine .inr (.inr ⟨hset, hscript, ?_⟩)
      simp only [applyActivation, bind_apply, hrun, hactivate, update]
      cases params.retention with
      | none => exact ⟨_, rfl, refl_of SameSystem _, fun _ => rfl⟩
      | some policy =>
        refine ⟨_, rfl, within_pruneGenerations p policy _, ?_⟩
        rintro ⟨⟩
    · refine .inr (.inl ⟨hset, hscript, e, running, ?_⟩)
      simp only [applyActivation, bind_apply, hrun, hactivate]
  · refine .inl ⟨hset, e, ?_⟩
    simp only [applyActivation, bind_apply, hrun]

/-- What the three actions promise: `test` keeps the boot default, `boot` keeps what is running and
    the link to it, and a call that fails keeps the boot default. -/
structure ModesHold (p : Programs) (params : ActivationParams) (s : SystemState) : Prop where
  test : params.action = .test → (activateSystem p params s).2.bootDefault = s.bootDefault
  boot : params.action = .boot → (activateSystem p params s).2.running = s.running ∧
    (activateSystem p params s).2.currentSystem = s.currentSystem
  failed : ∀ e, (activateSystem p params s).1 = .error e →
    (activateSystem p params s).2.bootDefault = s.bootDefault

/-- The link of the current system survives the attempt to replace it. -/
def KeepsLink (p : Programs) (s : SystemState) : Prop :=
  if s.currentSystem = none then p.links = false else p.unlinks = false

theorem currentSystem_relink_iff (h : Attempts params s) :
    (relinkCurrentSystem p params.toplevel s).currentSystem = s.currentSystem ↔ KeepsLink p s := by
  have hother : s.currentSystem ≠ some params.toplevel := by
    intro hlink
    refine h.elsewhere ?_
    rw [currentSystemPath, hlink, Option.any_some, if_pos h.toplevel]
  rw [KeepsLink, relinkCurrentSystem]
  grind

theorem modesHold_of_same (h : (activateSystem p params s).2 = s) : ModesHold p params s := by
  refine ⟨fun _ => ?_, fun _ => ?_, fun _ _ => ?_⟩
  · rw [h]
  · rw [h]
    exact ⟨rfl, rfl⟩
  · rw [h]

theorem modesHold_of_error_iff {e : ActivationError} {running : Option String}
    (h : activateSystem p params s =
      (.error e, withRunning params.action running (withGeneration params.toplevel s))) :
    ModesHold p params s ↔ s.bootDefault = some params.toplevel := by
  have hdefault : (activateSystem p params s).2.bootDefault = some params.toplevel := by
    rw [h, bootDefault_withRunning, bootDefault_withGeneration]
  constructor
  · intro hmodes
    exact (hmodes.failed e (by rw [h])).symm.trans hdefault
  · intro hsame
    have hkept := hdefault.trans hsame.symm
    refine ⟨fun _ => hkept, fun hboot => ?_, fun _ _ => hkept⟩
    rw [h, withRunning, if_pos hboot]
    exact ⟨rfl, rfl⟩

theorem modesHold_of_ok_iff (hattempts : Attempts params s) {r : ActivationResult}
    {s' : SystemState} (h : activateSystem p params s = (.ok r, s'))
    (hsame : SameSystem (relinkCurrentSystem p params.toplevel (withRunning params.action
      (some params.toplevel) (withGeneration params.toplevel s))) s') :
    ModesHold p params s ↔ (params.action = .test → s.bootDefault = some params.toplevel) ∧
      (params.action = .boot → KeepsLink p s) := by
  have hdefault : (activateSystem p params s).2.bootDefault = some params.toplevel := by
    rw [h, hsame.bootDefault]
    exact (bootDefault_withRunning _ _ _).trans (bootDefault_withGeneration _ _)
  have hlink : (activateSystem p params s).2.currentSystem = s.currentSystem ↔ KeepsLink p s := by
    rw [h, hsame.currentSystem, ← currentSystem_relink_iff hattempts]
    simp [relinkCurrentSystem, withGeneration]
  constructor
  · intro hmodes
    refine ⟨fun htest => ?_, fun hboot => hlink.mp (hmodes.boot hboot).2⟩
    exact (hmodes.test htest).symm.trans hdefault
  · rintro ⟨htest, hboot⟩
    refine ⟨fun ht => hdefault.trans (htest ht).symm, fun hb => ⟨?_, hlink.mpr (hboot hb)⟩, ?_⟩
    · rw [h, hsame.running, withRunning, if_pos hb]
      rfl
    · intro e he
      rw [h] at he
      cases he

/-- EXACT: the promises hold for a call exactly when it gets no further than the profile, or cannot
    break them: the boot default is at the path already or may be set and the script succeeds, and a
    `boot` that succeeds cannot replace the link. -/
theorem activation_modes_iff (p : Programs) (params : ActivationParams) (s : SystemState) :
    ModesHold p params s ↔ (Attempts params s → SetsProfile p s →
      (s.bootDefault = some params.toplevel ∨ params.action ≠ .test ∧ p.script = .success) ∧
      (params.action = .boot → p.script = .success → KeepsLink p s)) := by
  by_cases hattempts : Attempts params s
  · have heq := activateSystem_of_attempts (p := p) hattempts
    rcases applyActivation_cases p params (currentSystemPath s) s with
      ⟨hset, e, hrun⟩ | ⟨hset, hscript, e, running, hrun⟩ | ⟨hset, hscript, s', hrun, hsame, -⟩
    · refine iff_of_true (modesHold_of_same ?_) fun _ h => absurd h hset
      rw [heq, hrun]
    · rw [modesHold_of_error_iff (heq.trans hrun)]
      simp [hattempts, hset, hscript]
    · rw [modesHold_of_ok_iff hattempts (heq.trans hrun) hsame]
      simp only [hattempts, hset, hscript, and_true, forall_const]
      rw [or_comm, ← imp_iff_not_or]
  · have heq := activateSystem_of_not_attempts (p := p) hattempts
    exact iff_of_true (modesHold_of_same heq) fun h => absurd h hattempts

end Activation

/-- A system at its first generation, with every path there. -/
def firstBoot : SystemState where
  present _ := true
  currentSystem := some "/nix/store/a"
  profiles := AList.insert (linkName 1) "/nix/store/a" ∅
  profile := some (linkName 1)
  running := some "/nix/store/a"

/-- A test changes what the next boot starts, a boot moves the link of the current system, and a
    switch whose script fails returns an error after it changed what the next boot starts. -/
theorem activation_modes_broken :
    ¬ ModesHold {} ⟨"/nix/store/b", none, .test, none⟩ firstBoot ∧
      ¬ ModesHold {} ⟨"/nix/store/b", none, .boot, none⟩ firstBoot ∧
      ¬ ModesHold { script := .failed "exit status: 1" "" "" }
        ⟨"/nix/store/b", none, .switch, none⟩ firstBoot := by
  refine ⟨fun h => absurd (h.test rfl) ?_, fun h => absurd (h.boot rfl).2 ?_,
    fun h => absurd (h.failed _ rfl) ?_⟩
  · decide +kernel
  · decide +kernel
  · decide +kernel

end Ekafleet.Agent.Activation
