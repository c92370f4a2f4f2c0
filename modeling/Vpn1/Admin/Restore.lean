import Vpn1.Admin.Reconcile
import Vpn1.Admin.Rotate

/-! `restore`: a checked archive is installed over the store and the key material, loaded into both
services, and undone from backups when a step fails. -/

namespace Vpn1.Admin

open Compat Traced

abbrev Archive := StateFile → Option Content

inductive RestoreStage
  | installing
  | applying
  | restartingSubscription
  deriving DecidableEq, Repr

inductive RestoreError
  | archive
  | usersMissing
  | users (cause : CompatError)
  | privateKeyMissing
  | partialKeyset (missing : StateFile)
  | unreadable (f : StateFile)
  | splitKeyset (cause : CredentialError)
  | halfPair
  | unavailable
  | createDir
  | backup (cause : BackupError)
  | failed (stage : RestoreStage) (recovered : Bool)
  deriving DecidableEq, Repr

/-- What the error of a restore says about its rollback, if it had one. -/
def RestoreError.recovered? : RestoreError → Option Bool
  | .failed _ recovered => some recovered
  | _ => none

def RestoreError.backup? : RestoreError → Option BackupError
  | .backup cause => some cause
  | _ => none

/-- `BACKUP_MANIFEST` without the store. -/
def restoreTargets : List StateFile :=
  [.privateKey, .publicKey, .shortId, .hysteriaCert, .hysteriaKey, .obfsPassword]

section Commands

variable (site : Site) (inv : Invocation)

/-- What has to hold of an archive before anything live is touched; the result is its users. -/
def checkArchive (archive : Archive) (a : RestoreAnswers) :
    Except RestoreError (List CompatUser) :=
  let text := fun f => if a.read f then (archive f).bind Content.text? else none
  if !a.extract then .error .archive
  else match archive .users with
  | none => .error .usersMissing
  | some bytes =>
    match if a.read .users then parseUsersBytes bytes.json? else .error .io with
    | .error e => .error (.users e)
    | .ok users =>
      if (archive .privateKey).isNone then .error .privateKeyMissing
      else match [StateFile.publicKey, .shortId].find? fun f => (archive f).isNone with
      | some f => .error (.partialKeyset f)
      | none =>
        match text .privateKey, text .publicKey with
        | none, _ => .error (.unreadable .privateKey)
        | _, none => .error (.unreadable .publicKey)
        | some priv, some pub =>
          match validateRealityKeypair site.mulBaseClamped (trim priv) (trim pub) with
          | .error e => .error (.splitKeyset e)
          | .ok () =>
            if (archive .hysteriaCert).isSome != (archive .hysteriaKey).isSome then .error .halfPair
            else .ok users

/-- Install one entry; what the archive does not have is left alone. -/
def installEntry (archive : Archive) (a : RestoreAnswers) (f : StateFile) :
    Prog Host Event Unit Unit :=
  match archive f with
  | none => pure ()
  | some bytes => do
    require (a.readAgain f) ()
    match bytes.text? with
    | none => Prog.fail ()
    | some text =>
      installRotatedKeyFile f text (a.install f) ()
      applyRestoredFilePolicy f (a.policy f) ()

def installEntries (archive : Archive) (a : RestoreAnswers) :
    List StateFile → Prog Host Event Unit Unit
  | [] => pure ()
  | f :: fs => do
    installEntry archive a f
    installEntries archive a fs

def installAll (archive : Archive) (users : List CompatUser) (a : RestoreAnswers) :
    Prog Host Event Unit Unit := do
  Prog.mapError (fun _ => ()) (saveUsersAtomic inv.pid users a.save)
  applyRestoredFilePolicy .users (a.policy .users) ()
  installEntries archive a restoreTargets

/-- The rollback closure; the result is whether it collected no error. -/
def undoRestore {ε : Type} (entries : List (StateFile × Bool)) (a : RestoreRollbackAnswers) :
    Prog Host Event ε Bool := do
  let files ← restoreAll a.restore entries
  let rendered ← Prog.attempt (regenerateSingboxConfig site inv true a.regenerate)
  let subscription ←
    if a.subscription.controllable then restartSubscription a.subscriptionRestart
    else pure inv.offline
  pure (files && rendered.isOk && subscription)

def failRestore (entries : List (StateFile × Bool)) (a : RestoreRollbackAnswers)
    (stage : RestoreStage) : Prog Host Event RestoreError Unit := do
  let recovered ← undoRestore site inv entries a
  Prog.fail (.failed stage recovered)

def loadRestored (entries : List (StateFile × Bool)) (a : RestoreAnswers) :
    Prog Host Event RestoreError Unit := do
  match ← Prog.attempt (regenerateSingboxConfig site inv true a.regenerate) with
  | .error _ => failRestore site inv entries a.rollback .applying
  | .ok _ =>
    let served ← if a.live.controllable then restartSubscription a.liveRestart else pure true
    if served then discardBackups a.dropBackup ((entries.filter (·.2)).map Prod.fst)
    else failRestore site inv entries a.rollback .restartingSubscription

def cmdRestore (archive : Archive) (a : RestoreAnswers) : Prog Host Event RestoreError Unit :=
  match checkArchive site archive a with
  | .error e => Prog.fail e
  | .ok users => do
    require (inv.offline || a.singbox.controllable && a.subscription.controllable) .unavailable
    require a.createDirs .createDir
    let usersExisted ← Prog.mapError .backup (backupForRotate .users (a.backup .users))
    let entries ← Prog.mapError .backup (backupAll a.backup a.dropBackup
      (if usersExisted then [.users] else []) restoreTargets)
    let entries := entries ++ [(.users, usersExisted)]
    match ← Prog.attempt (installAll inv archive users a) with
    | .error () => failRestore site inv entries a.rollback .installing
    | .ok () => loadRestored site inv entries a

end Commands

section Paths

variable {site : Site} {inv : Invocation} {archive : Archive} {h : Host}

/-- Every way `regenerate_singbox_config` returns. -/
inductive RegeneratePath (site : Site) (inv : Invocation) (h : Host) (live : Bool)
    (a : RegenerateAnswers) : Except UserError Bool → Host → Prop
  | notLoaded {e : CompatError} (he : loadUsers h a.readUsers = .error e) :
      RegeneratePath site inv h live a (.error (.load e)) h
  | rendered {users : List CompatUser} {r : Except RenderError Bool} {t : Host}
      (hload : loadUsers h a.readUsers = .ok users)
      (hr : RenderPath site inv h users live a.render r t) :
      RegeneratePath site inv h live a (r.mapError .render) t

theorem regenerate_wp (site : Site) (inv : Invocation) (live : Bool) (a : RegenerateAnswers)
    (h : Host) :
    Wp (regenerateSingboxConfig site inv live a) h (fun _ _ => True)
      (RegeneratePath site inv h live a) := by
  unfold regenerateSingboxConfig
  rw [wp_bind, wp_look]
  cases hload : loadUsers h a.readUsers with
  | error e => exact wp_fail.mpr (.notLoaded hload)
  | ok users =>
    dsimp only
    rw [wp_mapError]
    exact (renderAndApply_wp site inv h users live a.render).mono (fun _ _ _ => trivial)
      fun r t hr => .rendered hload hr

theorem RegeneratePath.frame {live : Bool} {a : RegenerateAnswers} {r : Except UserError Bool}
    {t : Host} (hr : RegeneratePath site inv h live a r t) : RenderFrame inv.pid h t := by
  cases hr with
  | notLoaded => exact .refl _ _
  | rendered _ hr => exact hr.frame

def restoredFiles : List StateFile := restoreTargets ++ [.users]

/-- Every file a restore may write, apart from the configuration and its siblings. -/
def restoreTransactionPaths (pid : Nat) : List Path :=
  restoredFiles.map .live ++ restoredFiles.map .rotateTmp ++ restoredFiles.map .rotateBak ++
    [.tmp .users pid]

theorem installEntry_wp (archive : Archive) (a : RestoreAnswers) (f : StateFile) (s : Host) :
    Wp (installEntry archive a f) s (fun w _ => w = .io) fun r t =>
      FilesOnly s t (installPaths f) ∧ (archive f = none → t = s) ∧
        (r = .ok () → ∀ bytes, archive f = some bytes → t.content? f = some bytes) := by
  have h0 : FilesOnly s s (installPaths f) := .refl _ _
  have hsub : ∀ p ∈ [Path.live f], p ∈ installPaths f := by simp [installPaths]
  unfold installEntry
  cases hf : archive f with
  | none => exact wp_pure.mpr ⟨h0, fun _ => rfl, by simp⟩
  | some bytes =>
    dsimp only
    refine wp_require_bind (fun _ => ⟨h0, by simp, by simp⟩) fun _ => ?_
    cases ht : bytes.text? with
    | none => exact wp_fail.mpr ⟨h0, by simp, by simp⟩
    | some text =>
      dsimp only
      rw [wp_bind]
      refine (installRotatedKeyFile_wp f text (a.install f) () s).mono (fun _ _ hw => hw.1) ?_
      rintro r t ⟨ht', hr⟩
      split_ifs at hr
      swap
      · obtain ⟨rfl, -⟩ := hr
        exact ⟨ht', by simp, by simp⟩
      obtain ⟨rfl, hcontent⟩ := hr
      have hexists : t.exists? f = true := by
        simp only [Host.content?, Option.map_eq_some_iff] at hcontent
        obtain ⟨g, hg, -⟩ := hcontent
        simp [Host.exists?, hg]
      refine (applyRestoredFilePolicy_wp f (a.policy f) () t hexists).mono (fun _ _ hw => hw) ?_
      rintro r u ⟨hu, hsame, -⟩
      refine ⟨ht'.trans (hu.mono hsub), by simp, fun _ bytes' hbytes => ?_⟩
      obtain rfl := Option.some.inj hbytes
      rw [hsame, hcontent]
      cases bytes <;> simp_all [Content.text?]

theorem installEntries_wp (archive : Archive) (a : RestoreAnswers) (fs : List StateFile)
    (hnodup : fs.Nodup) (s : Host) :
    Wp (installEntries archive a fs) s (fun w _ => w = .io) fun r t =>
      FilesOnly s t (fs.flatMap installPaths) ∧
        (∀ f ∈ fs, archive f = none → t.files (.live f) = s.files (.live f)) ∧
        (r = .ok () → ∀ f ∈ fs, ∀ bytes, archive f = some bytes → t.content? f = some bytes) := by
  induction fs generalizing s with
  | nil => exact wp_pure.mpr ⟨.refl _ _, by simp, by simp⟩
  | cons f fs ih =>
    obtain ⟨hfnot, hnodup⟩ := List.nodup_cons.mp hnodup
    have hhead : ∀ p ∈ installPaths f, p ∈ (f :: fs).flatMap installPaths := by
      intro p hp
      simp [hp]
    have htail : ∀ p ∈ fs.flatMap installPaths, p ∈ (f :: fs).flatMap installPaths := by
      intro p hp
      rw [List.flatMap_cons, List.mem_append]
      exact .inr hp
    unfold installEntries
    rw [wp_bind]
    refine (installEntry_wp archive a f s).mono (fun _ _ hw => hw) ?_
    rintro r t ⟨ht, habsent, hr⟩
    have hhere {g : StateFile} (hg : g ∈ f :: fs) (hnone : archive g = none) :
        t.files (.live g) = s.files (.live g) := by
      by_cases hgf : g = f
      · rw [habsent (hgf ▸ hnone)]
      · exact ht.files _ (by simpa [installPaths] using hgf)
    cases r with
    | error e => exact ⟨ht.mono hhead, fun g hg hnone => hhere hg hnone, by simp⟩
    | ok u =>
      have hkeep : Path.live f ∉ fs.flatMap installPaths := by
        simp only [List.mem_flatMap, installPaths, not_exists, not_and]
        intro f' hf'
        simpa using fun heq : f = f' => hfnot (heq ▸ hf')
      refine (ih hnodup t).mono (fun _ _ hw => hw) ?_
      rintro r v ⟨hv, hothers, hrest⟩
      refine ⟨(ht.mono hhead).trans (hv.mono htail), fun g hg hnone => ?_,
        fun hok g hg bytes hbytes => ?_⟩
      · rw [← hhere hg hnone]
        rcases List.mem_cons.mp hg with rfl | hgs
        · exact hv.files _ hkeep
        · exact hothers g hgs hnone
      · rcases List.mem_cons.mp hg with rfl | hg
        · rw [hv.content? hkeep]
          exact hr rfl bytes hbytes
        · exact hrest hok g hg bytes hbytes

private theorem installPaths_subset (pid : Nat) :
    ∀ p ∈ restoreTargets.flatMap installPaths, p ∈ restoreTransactionPaths pid := by
  simp [restoreTargets, restoreTransactionPaths, restoredFiles, installPaths]

private theorem savePaths_subset (pid : Nat) :
    ∀ p ∈ savePaths pid, p ∈ restoreTransactionPaths pid := by
  simp [savePaths, restoreTransactionPaths, restoredFiles]

theorem installAll_wp (inv : Invocation) (archive : Archive) (users : List CompatUser)
    (a : RestoreAnswers) (s : Host) :
    Wp (installAll inv archive users a) s (fun w _ => w = .io) fun r t =>
      FilesOnly s t (savePaths inv.pid ++ restoreTargets.flatMap installPaths) ∧
        (r = .ok () → t.content? .users = some (.json (savedUsers users)) ∧
          (∀ f ∈ restoreTargets, archive f = none → t.files (.live f) = s.files (.live f)) ∧
          ∀ f ∈ restoreTargets, ∀ bytes, archive f = some bytes → t.content? f = some bytes) := by
  have hsave : ∀ p ∈ savePaths inv.pid,
      p ∈ savePaths inv.pid ++ restoreTargets.flatMap installPaths :=
    fun _ => List.mem_append_left _
  have hinstall : ∀ p ∈ restoreTargets.flatMap installPaths,
      p ∈ savePaths inv.pid ++ restoreTargets.flatMap installPaths :=
    fun _ => List.mem_append_right _
  have hpolicy : ∀ p ∈ [Path.live .users],
      p ∈ savePaths inv.pid ++ restoreTargets.flatMap installPaths := by simp [savePaths]
  unfold installAll
  rw [wp_bind, wp_mapError]
  refine (saveUsersAtomic_wp inv.pid users a.save s).mono (fun _ _ hw => hw.1) ?_
  rintro r t ⟨ht, hr⟩
  split_ifs at hr
  swap
  · obtain ⟨⟨e, rfl⟩, -⟩ := hr
    exact ⟨ht.mono hsave, by simp⟩
  obtain ⟨rfl, husers⟩ := hr
  have hexists : t.exists? .users = true := by
    simp only [Host.content?, Option.map_eq_some_iff] at husers
    obtain ⟨g, hg, -⟩ := husers
    simp [Host.exists?, hg]
  simp only [Except.mapError]
  rw [wp_bind]
  refine (applyRestoredFilePolicy_wp .users (a.policy .users) () t hexists).mono
    (fun _ _ hw => hw) ?_
  rintro r u ⟨hu, hsame, rfl⟩
  have hfiles := (ht.mono hsave).trans (hu.mono hpolicy)
  split_ifs
  swap
  · exact ⟨hfiles, by simp⟩
  refine (installEntries_wp archive a restoreTargets (by decide) u).mono (fun _ _ hw => hw) ?_
  rintro r v ⟨hv, habsent, hcontents⟩
  refine ⟨hfiles.trans (hv.mono hinstall), fun hok => ⟨?_, fun f hf hnone => ?_, hcontents hok⟩⟩
  · rw [hv.content? (by decide), hsame, husers]
  · have hne : f ≠ .users := fun heq => absurd (heq ▸ hf) (by decide)
    rw [habsent f hf hnone, hu.files _ (by simpa using hne),
      ht.files _ (by simpa [savePaths] using hne)]

/-- `s` is `h` with the archive and its users installed over it. -/
structure Installed (pid : Nat) (archive : Archive) (users : List CompatUser) (h s : Host) : Prop
    extends FilesOnly h s (restoreTransactionPaths pid) where
  store : s.content? .users = some (.json (savedUsers users))
  absent : ∀ f ∈ restoreTargets, archive f = none → s.files (.live f) = h.files (.live f)
  contents : ∀ f ∈ restoreTargets, ∀ bytes, archive f = some bytes → s.content? f = some bytes

/-- What the rollback closure leaves, and whether it collected no error; `h` is the host the
backups were taken of. -/
inductive Undone (site : Site) (inv : Invocation) (a : RestoreRollbackAnswers) (h s : Host) :
    Bool → Host → Prop
  | mk {files : Bool} {w v : Host} {r : Except UserError Bool}
      (hw : FilesOnly s w (restorePaths restoredFiles))
      (hfiles : files = true → ∀ f ∈ restoredFiles, w.files (.live f) = h.files (.live f))
      (hr : RegeneratePath site inv w true a.regenerate r v) :
      Undone site inv a h s
        (files && r.isOk && if a.subscription.controllable then
          (subscriptionStartup v).isSome && a.subscriptionRestart == .active else inv.offline)
        { v with cached := if a.subscription.controllable then
          afterRestart a.subscriptionRestart (subscriptionStartup v) v.cached else v.cached }

inductive RestoreReached (site : Site) (inv : Invocation) (archive : Archive) (a : RestoreAnswers)
    (h : Host) : RestoreStage → Host → Prop
  | installing {s : Host} (hs : FilesOnly h s (restoreTransactionPaths inv.pid)) :
      RestoreReached site inv archive a h .installing s
  | applying {i s : Host} {e : UserError} {users : List CompatUser}
      (hi : Installed inv.pid archive users h i)
      (hr : RegeneratePath site inv i true a.regenerate (.error e) s) :
      RestoreReached site inv archive a h .applying s
  | restarting {i u : Host} {live : Bool} {users : List CompatUser}
      (hi : Installed inv.pid archive users h i)
      (hr : RegeneratePath site inv i true a.regenerate (.ok live) u) :
      RestoreReached site inv archive a h .restartingSubscription
        { u with cached := afterRestart a.liveRestart (subscriptionStartup u) u.cached }

/-- Every way a restore ends. -/
inductive RestorePath (site : Site) (inv : Invocation) (archive : Archive) (a : RestoreAnswers)
    (h : Host) : Except RestoreError Unit → Host → Prop
  | untouched {e : RestoreError} {t : Host} (he : e.recovered? = none)
      (ht : FilesOnly h t (bakPaths restoredFiles)) : RestorePath site inv archive a h (.error e) t
  | undone {users : List CompatUser} {stage : RestoreStage} {recovered : Bool} {s t : Host}
      (hcheck : checkArchive site archive a = .ok users)
      (hs : RestoreReached site inv archive a h stage s)
      (ht : Undone site inv a.rollback h s recovered t) :
      RestorePath site inv archive a h (.error (.failed stage recovered)) t
  | restored {users : List CompatUser} {live : Bool} {i u t : Host}
      (hcheck : checkArchive site archive a = .ok users) (hi : Installed inv.pid archive users h i)
      (hr : RegeneratePath site inv i true a.regenerate (.ok live) u)
      (hserved : a.live.controllable = true →
        (subscriptionStartup u).isSome = true ∧ a.liveRestart = .active)
      (ht : FilesOnly { u with cached :=
        if a.live.controllable then subscriptionStartup u else u.cached } t
          (bakPaths restoredFiles)) :
      RestorePath site inv archive a h (.ok ()) t

theorem undoRestore_wp {ε : Type} (site : Site) (inv : Invocation) (a : RestoreRollbackAnswers)
    {h s : Host} {entries : List (StateFile × Bool)}
    (hentries : entries.map Prod.fst = restoredFiles) (hs : BackedUp h s entries) :
    Wp (undoRestore site inv entries a : Prog Host Event ε Bool) s (fun _ _ => True) fun r t =>
      ∃ recovered, r = .ok recovered ∧ Undone site inv a h s recovered t := by
  have hnodup : (entries.map Prod.fst).Nodup := by
    rw [hentries]
    decide
  unfold undoRestore
  rw [wp_bind]
  refine (restoreAll_wp a.restore entries hnodup hs).mono (fun _ _ _ => trivial) ?_
  rintro r w ⟨hw, files, rfl, hfiles⟩
  rw [hentries] at hw
  have hback : files = true → ∀ f ∈ restoredFiles, w.files (.live f) = h.files (.live f) := by
    intro hyes f hf
    rw [← hentries] at hf
    obtain ⟨e, he, rfl⟩ := List.mem_map.mp hf
    exact hfiles hyes e he
  dsimp only
  rw [wp_bind, wp_attempt]
  refine (regenerate_wp site inv true a.regenerate w).mono (fun _ _ _ => trivial) ?_
  intro r v hr
  have hend := Undone.mk (a := a) (h := h) hw hback hr
  dsimp only
  cases hq : a.subscription.controllable with
  | false =>
    simp only [hq, Bool.false_eq_true, if_false, wp_bind] at hend ⊢
    exact wp_pure.mpr (wp_pure.mpr ⟨_, rfl, hend⟩)
  | true =>
    simp only [hq, if_true, wp_bind] at hend ⊢
    exact wp_restartSubscription (fun _ => trivial) (wp_pure.mpr ⟨_, rfl, hend⟩)

theorem failRestore_wp (stage : RestoreStage) {a : RestoreAnswers} {s : Host}
    {entries : List (StateFile × Bool)} {users : List CompatUser}
    (hcheck : checkArchive site archive a = .ok users)
    (hentries : entries.map Prod.fst = restoredFiles) (hback : BackedUp h s entries)
    (hs : RestoreReached site inv archive a h stage s) :
    Wp (failRestore site inv entries a.rollback stage) s (fun _ _ => True)
      (RestorePath site inv archive a h) := by
  unfold failRestore
  rw [wp_bind]
  refine (undoRestore_wp site inv a.rollback hentries hback).mono (fun _ _ _ => trivial) ?_
  rintro r t ⟨recovered, rfl, ht⟩
  exact wp_fail.mpr (.undone hcheck hs ht)

theorem BackedUp.of_frame {pid : Nat} {s t : Host} {entries : List (StateFile × Bool)}
    (hs : BackedUp h s entries) (ht : RenderFrame pid s t) : BackedUp h t entries :=
  ⟨hs.existed, fun e he => by
    rw [ht.same.files _ (by simp [renderPaths, swapPaths, stampPaths]), hs.copy e he]⟩

theorem BackedUp.withCached {s : Host} {entries : List (StateFile × Bool)}
    (hs : BackedUp h s entries) (m : Option PublicMaterial) :
    BackedUp h { s with cached := m } entries :=
  ⟨hs.existed, hs.copy⟩

theorem loadRestored_wp {a : RestoreAnswers} {i : Host} {entries : List (StateFile × Bool)}
    {users : List CompatUser} (hcheck : checkArchive site archive a = .ok users)
    (hentries : entries.map Prod.fst = restoredFiles) (hback : BackedUp h i entries)
    (hi : Installed inv.pid archive users h i) :
    Wp (loadRestored site inv entries a) i (fun _ _ => True)
      (RestorePath site inv archive a h) := by
  unfold loadRestored
  rw [wp_bind, wp_attempt]
  refine (regenerate_wp site inv true a.regenerate i).mono (fun _ _ _ => trivial) ?_
  intro r u hr
  have hbacked := hback.of_frame hr.frame
  cases r with
  | error e => exact failRestore_wp .applying hcheck hentries hbacked (.applying hi hr)
  | ok live =>
    -- the backups of the files that existed are dropped
    have hdrop : ∀ v : Host, (a.live.controllable = true →
          (subscriptionStartup u).isSome = true ∧ a.liveRestart = .active) →
        v = { u with cached := if a.live.controllable then subscriptionStartup u else u.cached } →
        Wp (discardBackups a.dropBackup ((entries.filter (·.2)).map Prod.fst)) v
          (fun _ _ => True) (RestorePath site inv archive a h) := by
      rintro v hserved rfl
      refine (discardBackups_wp a.dropBackup restoredFiles _ ?_ (.refl _ _)).mono
        (fun _ _ _ => trivial) ?_
      · intro g hg
        obtain ⟨e, he, rfl⟩ := List.mem_map.mp hg
        rw [← hentries]
        exact List.mem_map_of_mem (List.mem_of_mem_filter he)
      · rintro r t ⟨rfl, ht⟩
        exact .restored hcheck hi hr hserved ht
    dsimp only
    cases hq : a.live.controllable with
    | false =>
      simp only [hq, Bool.false_eq_true, if_false, wp_bind] at hdrop ⊢
      exact wp_pure.mpr (hdrop u (by simp) rfl)
    | true =>
      simp only [hq, if_true, wp_bind] at hdrop ⊢
      apply wp_restartSubscription
      · exact fun _ => trivial
      · cases hup : (subscriptionStartup u).isSome && a.liveRestart == .active with
        | true =>
          rw [Bool.and_eq_true, beq_iff_eq] at hup
          simpa [hup.2] using hdrop _ (fun _ => hup) rfl
        | false =>
          simpa using failRestore_wp .restartingSubscription hcheck hentries
            (hbacked.withCached _) (.restarting hi hr)

theorem checkArchive_error {a : RestoreAnswers} {e : RestoreError}
    (he : checkArchive site archive a = .error e) : e.recovered? = none ∧ e.backup? = none := by
  unfold checkArchive at he
  dsimp only at he
  split at he
  · cases he
    exact ⟨rfl, rfl⟩
  split at he
  · cases he
    exact ⟨rfl, rfl⟩
  split at he
  · cases he
    exact ⟨rfl, rfl⟩
  split at he
  · cases he
    exact ⟨rfl, rfl⟩
  split at he
  · cases he
    exact ⟨rfl, rfl⟩
  split at he
  · cases he
    exact ⟨rfl, rfl⟩
  · cases he
    exact ⟨rfl, rfl⟩
  split at he
  · cases he
    exact ⟨rfl, rfl⟩
  split at he
  · cases he
    exact ⟨rfl, rfl⟩
  · cases he

/-- Every restore ends along one of the paths. -/
theorem cmdRestore_wp (site : Site) (inv : Invocation) (archive : Archive) (a : RestoreAnswers)
    (h : Host) :
    Wp (cmdRestore site inv archive a) h (fun _ _ => True) (RestorePath site inv archive a h) := by
  have h0 : FilesOnly h h (bakPaths restoredFiles) := .refl _ _
  unfold cmdRestore
  cases hcheck : checkArchive site archive a with
  | error e => exact wp_fail.mpr (.untouched (checkArchive_error hcheck).1 h0)
  | ok users =>
    dsimp only
    refine wp_require_bind (fun _ => .untouched rfl h0) fun _ => ?_
    refine wp_require_bind (fun _ => .untouched rfl h0) fun _ => ?_
    rw [wp_bind, wp_mapError]
    refine (backupForRotate_wp .users (a.backup .users) h).mono (fun _ _ _ => trivial) ?_
    rintro r t ⟨ht, hr⟩
    have hbak : FilesOnly h t (bakPaths restoredFiles) :=
      ht.mono (by simp [bakPaths, restoredFiles])
    cases r with
    | error e => exact .untouched rfl hbak
    | ok existed =>
      obtain ⟨hexisted, -, hcopy⟩ := hr
      simp only [Except.mapError]
      rw [wp_bind, wp_mapError]
      have hprepared : ∀ f ∈ (if existed then [StateFile.users] else []), f ∈ restoredFiles := by
        cases existed <;> simp [restoredFiles]
      refine (backupAll_wp a.backup a.dropBackup restoredFiles _ restoreTargets
        (fun _ hf => List.mem_append_left _ hf) hprepared (by decide) hbak).mono
          (fun _ _ _ => trivial) ?_
      rintro r u ⟨hu, hr⟩
      cases r with
      | error e => exact .untouched rfl hu
      | ok entries =>
        obtain ⟨hnames, hbacked, hothers⟩ := hr
        simp only [Except.mapError]
        have hentries : (entries ++ [(StateFile.users, existed)]).map Prod.fst = restoredFiles := by
          rw [List.map_append, hnames]
          rfl
        have hall : BackedUp h u (entries ++ [(.users, existed)]) := by
          constructor
          · intro e he
            rcases List.mem_append.mp he with he | he
            · exact hbacked.existed e he
            · rw [List.mem_singleton.mp he, hexisted]
          · intro e he
            rcases List.mem_append.mp he with he | he
            · exact hbacked.copy e he
            · rw [List.mem_singleton.mp he, hothers .users (by decide), hcopy]
        rw [wp_bind, wp_attempt]
        refine (installAll_wp inv archive users a u).mono (fun _ _ _ => trivial) ?_
        rintro r s ⟨hs, hcontents⟩
        have hfiles : FilesOnly h s (restoreTransactionPaths inv.pid) := by
          refine (hu.mono fun p hp => ?_).trans (hs.mono fun p hp => ?_)
          · simp only [bakPaths] at hp
            simp only [restoreTransactionPaths, List.mem_append]
            exact .inl (.inr hp)
          · rcases List.mem_append.mp hp with hp | hp
            · exact savePaths_subset inv.pid p hp
            · exact installPaths_subset inv.pid p hp
        have hback : BackedUp h s (entries ++ [(.users, existed)]) :=
          ⟨hall.existed, fun e he => by
            rw [hs.files _ (by simp [savePaths, installPaths]), hall.copy e he]⟩
        cases r with
        | error e => exact failRestore_wp .installing hcheck hentries hback (.installing hfiles)
        | ok v =>
          obtain ⟨hstore, habsent, hcontents⟩ := hcontents rfl
          have hlive : ∀ f ∈ restoreTargets, archive f = none →
              s.files (.live f) = h.files (.live f) := by
            intro f hf hnone
            rw [habsent f hf hnone, hu.files _ (by simp [bakPaths])]
          exact loadRestored_wp hcheck hentries hback ⟨hfiles, hstore, hlive, hcontents⟩

end Paths

section Sample

def RestoreAnswers.clear : RestoreAnswers where
  extract := true
  read := fun _ => true
  singbox := .up
  subscription := .up
  createDirs := true
  backup := fun _ => ⟨true, .done, true, true⟩
  dropBackup := fun _ => true
  save := ⟨true, true, .done, true, true⟩
  policy := fun _ => ⟨true, true⟩
  readAgain := fun _ => true
  install := fun _ => ⟨.done, true, true, true⟩
  regenerate := ⟨true, .clear⟩
  live := .up
  liveRestart := .active
  rollback := ⟨fun _ => true, ⟨true, .clear⟩, .up, .active⟩

end Sample

end Vpn1.Admin
