import Vpn1.Deploy.Interruption
import Vpn1.Lib.Sessions

/-! A production `update.sh` up to its first live mutation: what it creates, and which exit trap is
there to remove it. -/

namespace Vpn1.Deploy.Staging

open Traced Interruption

section Script

/-- The functions that `trap … EXIT` names. -/
inductive ExitTrap
  | cleanupStaging
  | onExit
  deriving DecidableEq, Repr

/-- What is on disk for the check of the next invocation, and the variables and the trap of the
shell. -/
structure Shell where
  /-- `TRANSACTION_MARKER` -/
  marker : Bool
  /-- A directory `/opt/.vpn1-update-staging.*` or `/opt/.vpn1-prev-*` of another run. -/
  stale : Bool
  /-- `STAGING_ROOT` and `PREV_OPT_DIR` of this run. -/
  staging : Bool
  prev : Bool
  trap : Option ExitTrap
  stageOk : Bool
  mutationStarted : Bool
  committed : Bool
  rollingBack : Bool
  deriving DecidableEq, Repr

inductive StageStep
  | downloadSource
  | downloadSums
  | sumsEntry
  | sourceChecksum
  | extractSource
  | findSource
  | sourceTree
  | versionsEnv
  | singBoxPin
  | singBoxSums
  | rustTarget
  | binDir
  | downloadBinaries
  | downloadBinarySums
  | binaryChecksum
  | extractBinaries
  | binaryTree
  | installVpnAdmin
  | installSubscription
  | runVpnAdmin
  -- only if the target pins another `sing-box`
  | downloadSingBox
  | singBoxChecksum
  | extractSingBox
  | singBoxBinary
  | installSingBox
  | installLicense
  | singBoxVersion
  deriving DecidableEq, Repr

def sourceSteps : List StageStep :=
  [.downloadSource, .downloadSums, .sumsEntry, .sourceChecksum, .extractSource, .findSource,
    .sourceTree, .versionsEnv, .singBoxPin, .singBoxSums, .rustTarget, .binDir]

def singBoxSteps : List StageStep :=
  [.downloadSingBox, .singBoxChecksum, .extractSingBox, .singBoxBinary, .installSingBox,
    .installLicense, .singBoxVersion]

inductive PrepareStep
  | backupRoot
  | backupDir
  | backupSystemd
  -- a binary or unit is missing
  | present (x : Item)
  | copy (x : Item)
  | copySingBox
  | copyLicense
  | writeMarker
  | chmodMarker
  | moveMarker
  | openLock
  | lock
  | copyConfig
  deriving DecidableEq, Repr

def backupSteps (x : Item) : List PrepareStep := [.present x, .copy x]

def singBoxCopies (stagesSingBox : Bool) : List PrepareStep :=
  if stagesSingBox then [.copySingBox, .copyLicense] else []

def markerSteps : List PrepareStep := [.writeMarker, .chmodMarker, .moveMarker]

def snapshotSteps (stagesSingBox : Bool) : List PrepareStep :=
  .backupRoot :: .backupDir :: .backupSystemd :: (binaries ++ systemdUnits).flatMap backupSteps ++
    helpers.map .copy ++ singBoxCopies stagesSingBox ++ markerSteps

def lockSteps : List PrepareStep := [.openLock, .lock, .copyConfig]

/-- What the invocation finds, and how its commands turn out. -/
structure Env where
  deployment : Bool
  locked : Bool
  resolved : Bool
  alreadyCurrent : Bool
  mktemp : Bool
  stagesSingBox : Bool
  stages : StageStep → Bool
  prepares : PrepareStep → Bool

inductive Exit
  | noDeployment
  | interrupted
  | staleDirectory
  | lockFailed
  | noTarget
  -- `exit 0`
  | nothingToDo
  | mktempFailed
  | stage (x : StageStep)
  | prepare (x : PrepareStep)
  deriving DecidableEq, Repr

abbrev Script := Prog Shell Unit Exit

def step (f : Shell → Shell) : Script Unit := Prog.move () f

def Shell.refused (s : Shell) : Bool := s.marker || (s.stale || s.staging || s.prev)

def check (env : Env) : Script Unit := do
  Prog.ensure env.deployment .noDeployment
  let s ← Prog.look id
  Prog.ensure (!s.marker) .interrupted
  Prog.ensure (!(s.stale || s.staging || s.prev)) .staleDirectory
  Prog.ensure env.locked .lockFailed
  Prog.ensure env.resolved .noTarget
  Prog.ensure (!env.alreadyCurrent) .nothingToDo

/-- A command that ends the script if it fails, by `die` or by `set -e`. -/
def mustStage (env : Env) (x : StageStep) : Script Unit := Prog.ensure (env.stages x) (.stage x)

def unnoticed (_ : Bool) : Script Unit := Prog.mark ()

/-- It is called after `if !`, where `set -e` is off: the commands without a `die` of their own are
followed by the next one, whether they fail or not. -/
def stagePrebuiltBinaries (env : Env) : Script Bool :=
  if env.stages .downloadBinaries then do
    mustStage env .downloadBinarySums
    mustStage env .binaryChecksum
    unnoticed (env.stages .extractBinaries)
    mustStage env .binaryTree
    unnoticed (env.stages .installVpnAdmin)
    unnoticed (env.stages .installSubscription)
    pure true
  else pure false

def stageBinaries (env : Env) : Script Unit := do
  let staged ← stagePrebuiltBinaries env
  Prog.ensure staged (.stage .downloadBinaries)
  mustStage env .runVpnAdmin

def stageSingBox (env : Env) : Script Unit :=
  if env.stagesSingBox then Prog.forEach (mustStage env) singBoxSteps else pure ()

def stage (env : Env) : Script Unit := do
  Prog.ensure env.mktemp .mktempFailed
  step fun s => { s with staging := true }
  step fun s => { s with stageOk := false }
  step fun s => { s with trap := some .cleanupStaging }
  Prog.forEach (mustStage env) sourceSteps
  stageBinaries env
  stageSingBox env
  step fun s => { s with stageOk := true }
  step fun s => { s with trap := none }

def prepare (env : Env) : Script Unit := do
  Prog.forEach (fun x => Prog.ensure (env.prepares x) (.prepare x))
    (snapshotSteps env.stagesSingBox)
  step fun s => { s with marker := true }
  Prog.forEach (fun x => Prog.ensure (env.prepares x) (.prepare x)) lockSteps

/-- The next command renames `/opt/vpn1`. -/
def arm : Script Unit := do
  step fun s => { s with mutationStarted := false, committed := false, rollingBack := false }
  step fun s => { s with trap := some .onExit }
  step fun s => { s with mutationStarted := true }

def untilSwitch (env : Env) : Script Unit := do
  check env
  stage env
  prepare env
  arm

def cleanupStaging (s : Shell) : Shell := if s.stageOk then s else { s with staging := false }

/-- What `rollback_update` does to these files, whether or not the rest of it succeeds. -/
def rollbackUpdate (s : Shell) : Shell :=
  { s with marker := false, staging := false, prev := false, trap := none, rollingBack := true }

def onExit (rc : Nat) (s : Shell) : Shell :=
  if rc ≠ 0 ∧ s.mutationStarted = true ∧ s.committed = false ∧ s.rollingBack = false then
    rollbackUpdate s
  else s

/-- What is left by an invocation that ends with this status. On `INT` and `TERM`, too, `bash` runs
the trap. -/
def exitWith (rc : Nat) (s : Shell) : Shell :=
  match s.trap with
  | none => s
  | some .cleanupStaging => cleanupStaging s
  | some .onExit => onExit rc s

end Script

section Invariant

structure Fresh (start : Shell) : Prop where
  staging : start.staging = false
  prev : start.prev = false
  trap : start.trap = none
  committed : start.committed = false
  rollingBack : start.rollingBack = false

/-- What holds at every point before the first live mutation. -/
structure Tracked (start s : Shell) : Prop where
  stale : s.stale = start.stale
  prev : s.prev = false
  committed : s.committed = false
  rollingBack : s.rollingBack = false
  /-- Only a host that is not refused gets a staging directory. -/
  clear : s.staging = true → start.refused = false
  /-- The marker is written once the stage is complete. -/
  unmarked : s.staging = false ∨ s.stageOk = false → s.marker = start.marker
  onExit : s.trap = some .onExit → s.staging = true

variable {start s : Shell} {env : Env}

theorem wp_ensureAll {ι : Type} (ok : ι → Bool) (e : ι → Exit) (is : List ι)
    {G : Unit → Shell → Prop} :
    Wp (Prog.forEach (fun x => Prog.ensure (ok x) (e x)) is : Script Unit) s G
      (fun _ t => t = s) := by
  apply wp_forEach_keeps (I := fun t => t = s) is rfl
  intro x _ t ht
  rw [wp_ensure]
  split_ifs <;> exact ht

theorem Fresh.tracked (h : Fresh start) : Tracked start start where
  stale := rfl
  prev := h.prev
  committed := h.committed
  rollingBack := h.rollingBack
  clear hstaging := by
    rw [h.staging] at hstaging
    cases hstaging
  unmarked _ := rfl
  onExit htrap := by
    rw [h.trap] at htrap
    cases htrap

theorem Fresh.tracked_staging (h : Fresh start) (hrefused : start.refused = false) (marker : Bool)
    (trap : Option ExitTrap) (stageOk mutationStarted : Bool)
    (hmarker : stageOk = false → marker = start.marker) :
    Tracked start { start with
      staging := true, marker := marker, trap := trap, stageOk := stageOk,
      mutationStarted := mutationStarted } where
  stale := rfl
  prev := h.prev
  committed := h.committed
  rollingBack := h.rollingBack
  clear _ := hrefused
  unmarked hor := hor.elim (fun hfalse => by cases hfalse) hmarker
  onExit _ := rfl

theorem wp_check {G : Unit → Shell → Prop} :
    Wp (check env) s G (fun r t => t = s ∧ (r = .ok () → s.refused = false)) := by
  have hstop : ∀ e : Exit, s = s ∧
      ((.error e : Except Exit Unit) = .ok () → s.refused = false) :=
    fun e => ⟨rfl, fun hok => by cases hok⟩
  rw [check]
  refine wp_ensure_bind (fun _ => hstop _) fun _ => ?_
  rw [wp_look_bind, id]
  refine wp_ensure_bind (fun _ => hstop _) fun hmarker => ?_
  refine wp_ensure_bind (fun _ => hstop _) fun hstale => ?_
  have hrefused : s.refused = false := by
    rw [Bool.not_eq_true'] at hmarker hstale
    rw [Shell.refused, hmarker, hstale]
    rfl
  refine wp_ensure_bind (fun _ => hstop _) fun _ => ?_
  refine wp_ensure_bind (fun _ => hstop _) fun _ => ?_
  rw [wp_ensure]
  split_ifs
  · exact ⟨rfl, fun _ => hrefused⟩
  · exact ⟨rfl, False.elim⟩

theorem wp_stageBinaries {G : Unit → Shell → Prop} (hG : G () s) :
    Wp (stageBinaries env) s G (fun _ t => t = s) := by
  have hstaged : Wp (stagePrebuiltBinaries env) s G (fun _ t => t = s) := by
    unfold stagePrebuiltBinaries
    split_ifs
    · refine wp_ensure_bind (fun _ => rfl) fun _ => ?_
      refine wp_ensure_bind (fun _ => rfl) fun _ => ?_
      rw [wp_bind, unnoticed, wp_mark]
      refine ⟨hG, wp_ensure_bind (fun _ => rfl) fun _ => ?_⟩
      rw [wp_bind, unnoticed, wp_mark]
      refine ⟨hG, ?_⟩
      rw [wp_bind, unnoticed, wp_mark]
      exact ⟨hG, wp_pure.mpr rfl⟩
    · exact wp_pure.mpr rfl
  unfold stageBinaries
  apply hstaged.bind
  · rintro staged t rfl
    refine wp_ensure_bind (fun _ => rfl) fun _ => ?_
    rw [mustStage, wp_ensure]
    split_ifs
    · rfl
    · rfl
  · rintro e t rfl
    rfl

theorem wp_stageSingBox {G : Unit → Shell → Prop} :
    Wp (stageSingBox env) s G (fun _ t => t = s) := by
  unfold stageSingBox
  split_ifs
  · exact wp_ensureAll env.stages .stage _
  · exact wp_pure.mpr rfl

theorem wp_stage (h : Fresh start) (hrefused : start.refused = false) :
    Wp (stage env) start (fun _ t => Tracked start t)
      (fun r t => Tracked start t ∧
        (r = .ok () → t = { start with staging := true, stageOk := true })) := by
  have hstaging := h.tracked_staging hrefused
  have hcovered : Tracked start
      { start with staging := true, stageOk := false, trap := some .cleanupStaging } :=
    hstaging _ _ _ _ fun _ => rfl
  rw [stage]
  refine wp_ensure_bind (fun _ => ⟨h.tracked, fun hok => by cases hok⟩) fun _ => ?_
  rw [wp_bind, step, wp_move]
  refine ⟨hstaging _ _ _ _ fun _ => rfl, ?_⟩
  rw [wp_bind, step, wp_move]
  refine ⟨hstaging _ _ _ _ fun _ => rfl, ?_⟩
  rw [wp_bind, step, wp_move]
  refine ⟨hcovered, ?_⟩
  -- every failing command ends the script under `cleanup_staging`
  have hstop : ∀ (e : Exit) (t : Shell),
      t = { start with staging := true, stageOk := false, trap := some .cleanupStaging } →
      Tracked start t ∧ ((.error e : Except Exit Unit) = .ok () →
        t = { start with staging := true, stageOk := true }) := by
    rintro e t rfl
    exact ⟨hcovered, fun hok => by cases hok⟩
  apply (wp_ensureAll env.stages .stage sourceSteps).bind _ hstop
  rintro - t rfl
  apply (wp_stageBinaries hcovered).bind _ hstop
  rintro - t rfl
  apply wp_stageSingBox.bind _ hstop
  rintro - t rfl
  rw [wp_bind, step, wp_move]
  have hcomplete := hstaging start.marker (some .cleanupStaging) true start.mutationStarted
    (fun hfalse => by cases hfalse)
  refine ⟨hcomplete, ?_⟩
  rw [step, wp_move]
  have hdisarmed := hstaging start.marker none true start.mutationStarted
    (fun hfalse => by cases hfalse)
  refine ⟨hdisarmed, hdisarmed, fun _ => ?_⟩
  rw [← h.trap]

theorem wp_prepare (h : Fresh start) (hrefused : start.refused = false) :
    Wp (prepare env) { start with staging := true, stageOk := true } (fun _ t => Tracked start t)
      (fun r t => Tracked start t ∧
        (r = .ok () → t = { start with staging := true, stageOk := true, marker := true })) := by
  have hstaging : ∀ marker, Tracked start
      { start with staging := true, stageOk := true, marker := marker } := fun marker =>
    h.tracked_staging hrefused marker start.trap true start.mutationStarted
      (fun hfalse => by cases hfalse)
  rw [prepare]
  apply (wp_ensureAll env.prepares .prepare _).bind
  · rintro - t rfl
    rw [wp_bind, step, wp_move]
    refine ⟨hstaging true, ?_⟩
    apply (wp_ensureAll env.prepares .prepare _).mono (fun _ _ hw => hw)
    rintro r t rfl
    exact ⟨hstaging true, fun _ => rfl⟩
  · rintro e t rfl
    exact ⟨hstaging start.marker, fun hok => by cases hok⟩

theorem wp_arm (h : Fresh start) (hrefused : start.refused = false) :
    Wp arm { start with staging := true, stageOk := true, marker := true }
      (fun _ t => Tracked start t) (fun _ t => Tracked start t) := by
  have hstaging : ∀ trap mutationStarted, Tracked start
      { start with
        staging := true, stageOk := true, marker := true, trap := trap,
        mutationStarted := mutationStarted, committed := false, rollingBack := false } := by
    intro trap mutationStarted
    have htracked := h.tracked_staging hrefused true trap true mutationStarted
      (fun hfalse => by cases hfalse)
    rwa [h.committed, h.rollingBack] at htracked
  simp only [arm, step, wp_bind, wp_move]
  exact ⟨hstaging _ _, hstaging _ _, hstaging _ _, hstaging _ _⟩

/-- Wherever an invocation ends before its first live mutation, the invariant holds. -/
theorem tracked_of_mem_states (h : Fresh start) (hs : s ∈ (untilSwitch env).states start) :
    Tracked start s := by
  have hrun : Wp (untilSwitch env) start (fun _ t => Tracked start t)
      (fun _ t => Tracked start t) := by
    rw [untilSwitch]
    apply wp_check.bind
    · rintro ⟨⟩ t ⟨rfl, hrefused⟩
      have hclear := hrefused rfl
      apply (wp_stage h hclear).bind
      · rintro ⟨⟩ u ⟨-, hu⟩
        rw [hu rfl]
        apply (wp_prepare h hclear).bind
        · rintro ⟨⟩ v ⟨-, hv⟩
          rw [hv rfl]
          exact wp_arm h hclear
        · rintro e v ⟨hv, -⟩
          exact hv
      · rintro e u ⟨hu, -⟩
        exact hu
    · rintro e t ⟨rfl, -⟩
      exact h.tracked
  exact hrun.of_mem_states h.tracked (fun _ _ ht => ht) hs

end Invariant

section Leftovers

structure LeavesNothing (start t : Shell) : Prop where
  staging : t.staging = false
  prev : t.prev = false
  marker : t.marker = start.marker

/-- The invocation ends before `mktemp`, or while the trap at that moment is one that cleans up. -/
def Covered (s : Shell) : Prop :=
  s.staging = false ∨ (s.trap = some .cleanupStaging ∧ s.stageOk = false) ∨
    (s.trap = some .onExit ∧ s.mutationStarted = true)

instance (s : Shell) : Decidable (Covered s) :=
  inferInstanceAs (Decidable (_ ∨ _ ∧ _ ∨ _ ∧ _))

variable {start s : Shell} {env : Env}

theorem leavesNothing_self_iff (h : Tracked start s) :
    LeavesNothing start s ↔ s.staging = false := by
  constructor
  · intro hnothing
    exact hnothing.staging
  · intro hstaging
    exact ⟨hstaging, h.prev, h.unmarked (.inl hstaging)⟩

private theorem leavesNothing_cleanupStaging (h : Tracked start s) (hok : s.stageOk = false) :
    LeavesNothing start (cleanupStaging s) := by
  rw [cleanupStaging, hok, if_neg Bool.false_ne_true]
  exact ⟨rfl, h.prev, h.unmarked (.inr hok)⟩

private theorem leavesNothing_rollbackUpdate (h : Tracked start s) (hstaging : s.staging = true) :
    LeavesNothing start (rollbackUpdate s) := by
  have hrefused := h.clear hstaging
  rw [Shell.refused, Bool.or_eq_false_iff] at hrefused
  exact ⟨rfl, rfl, hrefused.1.symm⟩

/-- Elsewhere the trap, if there is one, does nothing. -/
theorem exitWith_of_not_covered (h : ¬Covered s) (rc : Nat) :
    exitWith rc s = s ∧ s.staging = true := by
  obtain ⟨hstaging, hcleanup, hrollback⟩ : ¬s.staging = false ∧
      ¬(s.trap = some .cleanupStaging ∧ s.stageOk = false) ∧
      ¬(s.trap = some .onExit ∧ s.mutationStarted = true) := by
    rwa [Covered, not_or, not_or] at h
  refine ⟨?_, Bool.not_eq_false _ |>.mp hstaging⟩
  rw [exitWith]
  split
  · rfl
  · rename_i htrap
    rw [cleanupStaging, if_pos]
    by_contra hok
    exact hcleanup ⟨htrap, Bool.not_eq_true _ |>.mp hok⟩
  · rename_i htrap
    rw [onExit, if_neg]
    rintro ⟨-, hmutation, -⟩
    exact hrollback ⟨htrap, hmutation⟩

theorem leavesNothing_of_covered (h : Tracked start s) (hcovered : Covered s) {rc : Nat}
    (hrc : rc ≠ 0) : LeavesNothing start (exitWith rc s) := by
  rw [exitWith]
  rcases hcovered with hstaging | ⟨htrap, hok⟩ | ⟨htrap, hmutation⟩
  · have hself := (leavesNothing_self_iff h).mpr hstaging
    split
    · exact hself
    · rw [cleanupStaging]
      split_ifs with hok
      · exact hself
      · exact ⟨rfl, hself.prev, hself.marker⟩
    · rename_i htrap
      rw [h.onExit htrap] at hstaging
      cases hstaging
  · rw [htrap]
    exact leavesNothing_cleanupStaging h hok
  · rw [htrap]
    show LeavesNothing start (onExit rc s)
    rw [onExit, if_pos ⟨hrc, hmutation, h.committed, h.rollingBack⟩]
    exact leavesNothing_rollbackUpdate h (h.onExit htrap)

theorem stale_exitWith (s : Shell) (rc : Nat) : (exitWith rc s).stale = s.stale := by
  rw [exitWith]
  split
  · rfl
  · rw [cleanupStaging]
    split_ifs <;> rfl
  · rw [onExit]
    split_ifs <;> rfl

end Leftovers

end Vpn1.Deploy.Staging
