import Vpn1.Deploy.Renewal
import Vpn1.Deploy.Staging
import Vpn1.Deploy.StateLock

/-! `update.sh` and the certificate hook are modelled more than once, each time for a question of its
own. What one model does to the part of the host that it shares with another, the other does, too. -/

namespace Vpn1.Deploy.Refinement

open Compat

section Locks

open Admin.Schema Locking Traced

variable {β : Type}

variable {fmt : Formats β} {Q : Disk β → Prop} {d : Disk β}
  {otherwise next : Script LockFile (Disk β)}

theorem ends_onSuccess (hno : otherwise.Ends Q d) (hyes : next.Ends Q d) :
    (onSuccess otherwise next).Ends Q d := by
  rintro ok t rfl
  cases ok with
  | false => exact hno
  | true => exact hyes

theorem ends_flock {l : LockFile} (hno : otherwise.Ends Q d) (hyes : next.Ends Q d) :
    (flock l otherwise next).Ends Q d :=
  ends_onSuccess hno hyes

theorem ends_vpnAdmin {env : Option LockFile} {cmd : Commands}
    {next : ExitStatus → Script LockFile (Disk β)} (hfailure : (next .failure).Ends Q d)
    (hruns : ∀ cfg r t, fmt.loadDeployment thisRelease (d.live .deploymentToml) true = .ok cfg →
      Runs fmt cfg cmd d r t → (next r).Ends Q t) :
    (vpnAdmin fmt env cmd next).Ends Q d := by
  rintro answer t ⟨rfl, read, rfl⟩
  cases hload : fmt.loadDeployment thisRelease (t.live .deploymentToml) read with
  | error e => exact hfailure
  | ok cfg =>
    obtain rfl : read = true := (Formats.loadDeployment_ok_iff.mp hload).1
    dsimp only
    cases commandMutatesState cmd with
    | true => exact ends_flock hfailure fun r u hrun => hruns cfg r u hload hrun
    | false => exact fun r u hrun => hruns cfg r u hload hrun

/-- The commands that an update runs besides `config` write no versioned file. -/
theorem runs_leaves {cfg : DeploymentConfig} {cmd : Commands} {r : ExitStatus} {t : Disk β}
    (hconfig : ∀ c, cmd ≠ .config c) (hsaves : savesUsers cmd = false) (h : Runs fmt cfg cmd d r t) :
    t = d := by
  cases h with
  | validate hcmd => exact absurd hcmd (hconfig _)
  | migrate hcmd => exact absurd hcmd (hconfig _)
  | saves hcmd =>
    rw [hsaves] at hcmd
    cases hcmd
  | leaves => rfl

theorem ends_rollback (hd : Q d) (backupDir : String) : (rollbackScript fmt backupDir).Ends Q d := by
  rintro - t rfl
  have hend : Script.Ends (L := LockFile) Q (.act attempt fun _ => .exit) t := by
    rintro - u rfl
    exact hd
  refine ends_vpnAdmin hend fun cfg r u _ hrun => ?_
  obtain rfl := runs_leaves (fun _ => by simp) rfl hrun
  exact hend

theorem ends_renderAndVerify (hd : Q d) (path : UpdatePath) (env : Option LockFile)
    (backupDir : String) : (renderAndVerify fmt path env backupDir).Ends Q d := by
  have hrollback : (rollbackScript fmt backupDir).Ends Q d := ends_rollback hd backupDir
  have hcleanup : (onSuccess (β := β) .exit .exit).Ends Q d := ends_onSuccess hd hd
  refine ends_vpnAdmin hrollback fun cfg r t _ hrun => ?_
  obtain rfl := runs_leaves (fun _ => by simp) rfl hrun
  cases r with
  | migrationRequired | failure => exact hrollback
  | success =>
    refine ends_onSuccess hrollback (ends_onSuccess hrollback ?_)
    refine ends_vpnAdmin hrollback fun cfg r u _ hrun => ?_
    obtain rfl := runs_leaves (fun _ => by simp) rfl hrun
    cases r with
    | migrationRequired | failure => exact hrollback
    | success =>
      cases path with
      | production => exact ends_onSuccess hrollback hcleanup
      | devRebuild => exact hcleanup

private theorem migrationRequired_of_runs {cfg : DeploymentConfig} {t : Disk β}
    (hload : fmt.loadDeployment thisRelease (d.live .deploymentToml) true = .ok cfg)
    (h : Runs fmt cfg (.config .validate) d .migrationRequired t) :
    configValidate fmt thisRelease d = .ok .migrationRequired := by
  have hmode : cmdConfigValidate fmt thisRelease cfg d true = .migrationRequired := by
    generalize hstatus : ExitStatus.migrationRequired = r at h
    cases h with
    | validate _ read =>
      have hread : cmdConfigValidate fmt thisRelease cfg d read = .migrationRequired := by
        cases hmode : cmdConfigValidate fmt thisRelease cfg d read with
        | migrationRequired => rfl
        | ok | invalid =>
          rw [hmode] at hstatus
          cases hstatus
      cases read with
      | true => exact hread
      | false =>
        unfold cmdConfigValidate at hread ⊢
        cases hstore : d.live cfg.usersFile with
        | none =>
          rw [hstore] at hread
          exact hread
        | some bytes =>
          rw [hstore] at hread
          cases hread
    | migrate hcmd => cases hcmd
    | saves hcmd => cases hcmd
    | leaves hcmd => exact absurd rfl (hcmd _)
  rw [configValidate, hload, Except.map, hmode]

private theorem runs_validate {cfg : DeploymentConfig} {r : ExitStatus} {t : Disk β}
    (h : Runs fmt cfg (.config .validate) d r t) : t = d := by
  cases h with
  | validate => rfl
  | migrate hcmd => cases hcmd
  | saves hcmd => cases hcmd
  | leaves hcmd => exact absurd rfl (hcmd _)

private theorem runs_migrate {cfg : DeploymentConfig} {r : ExitStatus} {t : Disk β}
    (hload : fmt.loadDeployment thisRelease (d.live .deploymentToml) true = .ok cfg)
    (h : Runs fmt cfg (.config .migrate) d r t) :
    ∃ a, t = (configMigrate fmt thisRelease a d).final := by
  cases h with
  | validate hcmd => cases hcmd
  | migrate _ a =>
    refine ⟨{ a with load := true }, ?_⟩
    simp only [configMigrate, Bind.bind, Prog.bind, Prog.look, hload]
    rfl
  | saves hcmd => cases hcmd
  | leaves hcmd => exact absurd rfl (hcmd _)

theorem ends_activate (hd : Q d)
    (hmigrated : ∀ a, configValidate fmt thisRelease d = .ok .migrationRequired →
      Q (configMigrate fmt thisRelease a d).final)
    (path : UpdatePath) (env : Option LockFile) (backupDir : String) :
    (activateScript fmt path env backupDir).Ends Q d := by
  have hrollback : (rollbackScript fmt backupDir).Ends Q d := ends_rollback hd backupDir
  refine ends_onSuccess hrollback (ends_vpnAdmin hrollback fun cfg r t hload hrun => ?_)
  obtain rfl := runs_validate hrun
  cases r with
  | failure => exact hrollback
  | success =>
    have hrender : (renderAndVerify fmt path env backupDir).Ends Q _ :=
      ends_renderAndVerify hd path env backupDir
    cases path with
    | production => exact ends_onSuccess hrollback hrender
    | devRebuild => exact hrender
  | migrationRequired =>
    have hasked := migrationRequired_of_runs hload hrun
    refine ends_vpnAdmin hrollback fun cfg r u hload hrun => ?_
    obtain ⟨a, rfl⟩ := runs_migrate hload hrun
    have hu := hmigrated a hasked
    have hundo : (rollbackScript fmt backupDir).Ends Q _ := ends_rollback hu backupDir
    have hrender : (renderAndVerify fmt path env backupDir).Ends Q _ :=
      ends_renderAndVerify hu path env backupDir
    cases r with
    | migrationRequired | failure => exact hundo
    | success =>
      cases path with
      | production => exact ends_onSuccess hundo (ends_onSuccess hundo hrender)
      | devRebuild => exact hrender

def Updated (fmt : Formats β) (old : Release) (d t : Disk β) : Prop :=
  ∃ a, (update fmt thisRelease a ⟨d, old⟩).2.disk = t

theorem Updated.refl (old : Release) : Updated fmt old d d :=
  ⟨{ acceptanceFails with switched := false }, rfl⟩

theorem Updated.migrated (old : Release) (a : Answers β)
    (hasked : configValidate fmt thisRelease d = .ok .migrationRequired) :
    Updated fmt old d (configMigrate fmt thisRelease a d).final := by
  refine ⟨{ (acceptanceFails : UpdateAnswers β) with migrate := a }, ?_⟩
  simp [update, activate, hasked, acceptanceFails, UpdateAnswers.verified, rollbackUpdate]

/-- An update that runs alone to its end leaves the versioned files as `update` does. -/
theorem solo_update_disk {path : UpdatePath} {env : Option LockFile} {backupDir : String}
    {p : Proc LockFile (Disk β)} {t : Disk β} (old : Release)
    (h : Proc.Solo ⟨updateScript fmt path env backupDir, []⟩ d p t) (hexit : p.script = .exit) :
    Updated fmt old d t := by
  have hsame : Updated fmt old d d := .refl old
  have hactivate : (activateScript fmt path env backupDir).Ends (Updated fmt old d) d :=
    ends_activate hsame (Updated.migrated old) path env backupDir
  have hlocked : (flock .state .exit <| onSuccess .exit <|
      onSuccess (rollbackScript fmt backupDir) <|
        activateScript fmt path env backupDir).Ends (Updated fmt old d) d :=
    ends_flock hsame (ends_onSuccess hsame (ends_onSuccess (ends_rollback hsame _) hactivate))
  refine h.ends hexit ?_
  rintro found t ⟨rfl, -⟩
  cases found with
  | false => exact hsame
  | true =>
    refine ends_onSuccess hsame (ends_flock hsame ?_)
    cases path with
    | production => exact ends_onSuccess hsame (ends_onSuccess hsame hlocked)
    | devRebuild =>
      exact ends_onSuccess hsame (ends_onSuccess hsame (ends_onSuccess hsame hlocked))

end Locks

section Leftovers

open Turns Interruption

variable {ι R V : Type} [DecidableEq ι]

/-- What the shell of an invocation has to do with on the host. -/
structure Shows (i : ι) (h : Host ι R V) (s : Staging.Shell) : Prop where
  marker : h.marker = s.marker
  staging : h.staging i = s.staging
  prev : (h.prev i).isSome = s.prev
  stale : (∃ j, j ≠ i ∧ (h.staging j = true ∨ (h.prev j).isSome = true)) ↔ s.stale = true

/-- The host with another marker and another staging directory of `i`. -/
def leaving (i : ι) (h : Host ι R V) (marker staging : Bool) : Host ι R V :=
  { h with marker := marker, staging := Function.update h.staging i staging }

variable {i : ι} {h : Host ι R V} {s t : Staging.Shell}

theorem Shows.leaving (hs : Shows i h s) (hprev : t.prev = s.prev) (hstale : t.stale = s.stale) :
    Shows i (leaving i h t.marker t.staging) t where
  marker := rfl
  staging := Function.update_self ..
  prev := hs.prev.trans hprev.symm
  stale := by
    rw [hstale, ← hs.stale]
    refine exists_congr fun j => and_congr_right fun hj => ?_
    simp only [Refinement.leaving, Function.update_of_ne hj]

/-- Both check for the same leftovers. -/
theorem Shows.refused [Fintype ι] (hs : Shows i h s) : (h.marker || h.stale) = s.refused := by
  have hstale : h.stale = (s.stale || s.staging || s.prev) := by
    rw [Bool.eq_iff_iff, Host.stale, decide_eq_true_iff]
    simp only [Bool.or_eq_true, ← hs.stale, ← hs.staging, ← hs.prev]
    constructor
    · rintro ⟨j, hj⟩
      by_cases hji : j = i
      · subst hji
        exact hj.elim (fun h => .inl (.inr h)) .inr
      · exact .inl (.inl ⟨j, hji, hj⟩)
    · rintro ((⟨j, -, hj⟩ | hi) | hi)
      · exact ⟨j, hj⟩
      · exact ⟨i, .inl hi⟩
      · exact ⟨i, .inr hi⟩
  rw [hs.marker, hstale, Staging.Shell.refused]

omit [DecidableEq ι] in
/-- A shell whose files are the same. -/
theorem Shows.congr (hs : Shows i h s) (hmarker : t.marker = s.marker)
    (hstaging : t.staging = s.staging) (hprev : t.prev = s.prev) (hstale : t.stale = s.stale) :
    Shows i h t :=
  ⟨hs.marker.trans hmarker.symm, hs.staging.trans hstaging.symm, hs.prev.trans hprev.symm,
    by rw [hstale]; exact hs.stale⟩

variable [Fintype ι] [DecidableEq V] {pin : R → V} {target : Target R} {backup : Backup R V}

theorem alone_stages (hmarker : h.marker = false) (hstale : h.stale = false) (release : R) :
    ∃ target, Alone (Interruption.updateScript pin) i (h, .checking)
      (leaving i h false true, .staging target) := by
  refine ⟨⟨release, pin release ≠ pin h.manifest⟩, ?_⟩
  refine .head (b := (h, .waiting)) ⟨.done, ?_⟩ ?_
  · simp [Interruption.updateScript, next, hmarker, hstale]
  refine .head (b := (h, .locked)) ⟨.done, rfl⟩ (.single ⟨.resolved release, ?_⟩)
  simp [Interruption.updateScript, next, leaving, ← hmarker]

theorem alone_unstages :
    Alone (Interruption.updateScript pin) i (leaving i h false true, .staging target)
      (leaving i h false false, .exited) := by
  refine .single ⟨.failed, ?_⟩
  simp [Interruption.updateScript, next, leaving]

theorem alone_marks (hcomplete : h.complete = true) :
    ∃ backup, Alone (Interruption.updateScript pin) i (leaving i h false true, .staging target)
      (leaving i h true true, .marked target backup) := by
  let backup := snapshot target (leaving i h false true) true
  refine ⟨backup, ?_⟩
  refine .head (b := (leaving i h false true, .staged target)) ⟨.done, rfl⟩ ?_
  refine .head (b := (leaving i h false true, .prepared target backup)) ⟨.done, ?_⟩
    (.single ⟨.done, rfl⟩)
  have hthere : (leaving i h false true).complete = true := hcomplete
  simp [Interruption.updateScript, next, hthere, backup]

theorem alone_skips (ops rest : List UndoOp) (failed : Bool) :
    ∃ failed', Alone (Interruption.updateScript pin) i (h, .rollback backup (ops ++ rest) failed)
      (h, .rollback backup rest failed') := by
  induction ops generalizing failed with
  | nil => exact ⟨failed, .refl⟩
  | cons op ops ih =>
    obtain ⟨failed', hrest⟩ := ih (failed || op.counts)
    exact ⟨failed', .head ⟨.failed, rfl⟩ hrest⟩

theorem alone_rollsBack :
    Alone (Interruption.updateScript pin) i (leaving i h true true, .marked target backup)
      (leaving i h false false, .exited) := by
  obtain ⟨failed, hskip⟩ : ∃ failed, Alone (Interruption.updateScript pin) i
      (leaving i h true true, .rollback backup undoOps false)
      (leaving i h true true, .rollback backup [.dropMarker, .dropStaging] failed) :=
    alone_skips ((binaries ++ systemdUnits ++ helpers).map .item ++
      [.singBox, .treeAway, .treeBack, .services, .manifest]) _ false
  refine .head (b := (leaving i h true true, .switching target backup switchOps)) ⟨.done, rfl⟩ ?_
  refine .head (b := (leaving i h true true, .rollback backup undoOps false)) ⟨.failed, rfl⟩ ?_
  refine hskip.trans ?_
  refine .head (b := (leaving i h false true, .rollback backup [.dropStaging] failed))
    ⟨.done, rfl⟩ ?_
  refine .head (b := (leaving i h false false, .rollback backup [] failed)) ⟨.done, ?_⟩
    (.single ⟨.done, rfl⟩)
  simp [Interruption.updateScript, next, undo, leaving]

private theorem simulated_of_alone {phase : ι → Phase R V} {t u : Host ι R V} {p : Phase R V}
    {after : Staging.Shell} (hphase : phase i = .checking)
    (hfree : ∀ j, j ≠ i → (phase j).holds = false) (hp : p ≠ .exited)
    (hfirst : Alone (Interruption.updateScript pin) i (h, .checking) (t, p)) (hseen : Shows i t s)
    (hexit : u = t ∨ Alone (Interruption.updateScript pin) i (t, p) (u, .exited))
    (hleft : Shows i u after) :
    ∃ τ υ, Reaches (Interruption.updateScript pin) (fun _ _ => True) ⟨h, phase⟩ τ ∧
      τ.phase i ≠ .exited ∧ Shows i τ.shared s ∧
      Reaches (Interruption.updateScript pin) (fun _ _ => True) τ υ ∧
      υ.phase i = .exited ∧ Shows i υ.shared after := by
  have hreach : Reaches (Interruption.updateScript pin) (fun _ _ => True)
      ⟨h, Function.update phase i .checking⟩ ⟨t, Function.update phase i p⟩ :=
    hfirst.reaches hfree
  rw [← hphase, Function.update_eq_self] at hreach
  refine ⟨⟨t, Function.update phase i p⟩, ⟨u, Function.update phase i .exited⟩, hreach, ?_, hseen,
    ?_, Function.update_self .., hleft⟩
  · simpa using hp
  · rcases hexit with rfl | halone
    · exact reaches_kill (Interruption.updateScript pin) i phase u p
    · exact halone.reaches hfree

/-- Wherever an invocation is before its first live mutation, one of the transaction can be where
the host looks the same; and whatever the exit trap leaves there, the other can leave, too. -/
theorem untilSwitch_simulated (pin : R → V) (release : R) {phase : ι → Phase R V}
    {start : Staging.Shell} {env : Staging.Env} (hphase : phase i = .checking)
    (hfree : ∀ j, j ≠ i → (phase j).holds = false) (hcomplete : h.complete = true)
    (hstart : Staging.Fresh start) (hshows : Shows i h start)
    (hs : s ∈ (Staging.untilSwitch env).states start) {rc : Nat} (hrc : rc ≠ 0) :
    ∃ τ υ, Reaches (Interruption.updateScript pin) (fun _ _ => True) ⟨h, phase⟩ τ ∧
      τ.phase i ≠ .exited ∧ Shows i τ.shared s ∧
      Reaches (Interruption.updateScript pin) (fun _ _ => True) τ υ ∧
      υ.phase i = .exited ∧ Shows i υ.shared (Staging.exitWith rc s) := by
  have htracked := Staging.tracked_of_mem_states hstart hs
  have hprev : s.prev = start.prev := htracked.prev.trans hstart.prev.symm
  have hstale : (Staging.exitWith rc s).stale = start.stale :=
    (Staging.stale_exitWith s rc).trans htracked.stale
  cases hstaging : s.staging with
  | false =>
    -- nothing has been created yet
    have hmarker : s.marker = start.marker := htracked.unmarked (.inl hstaging)
    have hsame : s.staging = start.staging := hstaging.trans hstart.staging.symm
    have hnothing := Staging.leavesNothing_of_covered htracked (.inl hstaging) hrc
    exact simulated_of_alone hphase hfree (by simp) .refl
      (hshows.congr hmarker hsame hprev htracked.stale) (.inl rfl)
      (hshows.congr hnothing.marker (hnothing.staging.trans hstart.staging.symm)
        (hnothing.prev.trans hstart.prev.symm) hstale)
  | true =>
    have hrefused : (h.marker || h.stale) = false := hshows.refused.trans (htracked.clear hstaging)
    obtain ⟨hmarker, hclear⟩ := Bool.or_eq_false_iff.mp hrefused
    obtain ⟨target, hstages⟩ : ∃ target, Alone (Interruption.updateScript pin) i (h, .checking)
        (leaving i h false true, .staging target) := alone_stages hmarker hclear release
    have hseen := hshows.leaving hprev htracked.stale
    rw [hstaging] at hseen
    have hleft : Staging.Covered s → Shows i (leaving i h false false) (Staging.exitWith rc s) := by
      intro hcovered
      have hnothing := Staging.leavesNothing_of_covered htracked hcovered hrc
      have hshown := hshows.leaving (hnothing.prev.trans hstart.prev.symm) hstale
      rwa [hnothing.marker, hnothing.staging, ← hshows.marker, hmarker] at hshown
    have hstays : ¬ Staging.Covered s →
        Shows i (leaving i h s.marker true) (Staging.exitWith rc s) := by
      intro hcovered
      rwa [(Staging.exitWith_of_not_covered hcovered rc).1]
    cases hmark : s.marker with
    | false =>
      rw [hmark] at hseen hstays
      by_cases hcovered : Staging.Covered s
      · exact simulated_of_alone hphase hfree (by simp) hstages hseen (.inr alone_unstages)
          (hleft hcovered)
      · exact simulated_of_alone hphase hfree (by simp) hstages hseen (.inl rfl) (hstays hcovered)
    | true =>
      rw [hmark] at hseen hstays
      obtain ⟨backup, hmarks⟩ : ∃ backup, Alone (Interruption.updateScript pin) i
          (leaving i h false true, .staging target)
          (leaving i h true true, .marked target backup) := alone_marks hcomplete
      have hmarked := hstages.trans hmarks
      by_cases hcovered : Staging.Covered s
      · exact simulated_of_alone hphase hfree (by simp) hmarked hseen (.inr alone_rollsBack)
          (hleft hcovered)
      · exact simulated_of_alone hphase hfree (by simp) hmarked hseen (.inl rfl) (hstays hcovered)

end Leftovers

section Releases

open Turns Interruption

variable {ι R V : Type} [DecidableEq ι] {pin : R → V} {A : R → Prop} {i : ι} {h t : Host ι R V}

/-- What an invocation is to install and what it has saved are among these releases. -/
def Within (A : R → Prop) : Phase R V → Prop
  | .staging target | .staged target => A target.release
  | .prepared target backup | .marked target backup | .switching target backup _ =>
    A target.release ∧ ∀ r, backup.manifest = some r → A r
  | .rollback backup _ _ => ∀ r, backup.manifest = some r → A r
  | .checking | .waiting | .locked | .committed _ | .exited => True

private theorem switch_manifest {target : Target R} {op : SwitchOp} (hmanifest : A h.manifest)
    (htarget : A target.release) (ht : switch pin i target h op = some t) : A t.manifest := by
  cases op with
  | takeTree =>
    simp only [switch] at ht
    split_ifs at ht
    obtain rfl := Option.some.inj ht
    exact hmanifest
  | singBox =>
    obtain rfl := Option.some.inj ht
    split_ifs <;> exact hmanifest
  | putTree | item | activate =>
    obtain rfl := Option.some.inj ht
    exact hmanifest
  | writeManifest =>
    obtain rfl := Option.some.inj ht
    exact htarget

private theorem undo_manifest {backup : Backup R V} (op : UndoOp) (hmanifest : A h.manifest)
    (hbackup : ∀ r, backup.manifest = some r → A r) : A (undo i backup h op).manifest := by
  cases op with
  | manifest =>
    simp only [undo]
    cases hsaved : backup.manifest with
    | none => exact hmanifest
    | some r => exact hbackup r hsaved
  | treeAway =>
    simp only [undo]
    split_ifs <;> exact hmanifest
  | item | singBox | treeBack | services | dropMarker | dropStaging => exact hmanifest

variable [DecidableEq V]

/-- The manifest names none but the releases that were there and those that were resolved. -/
theorem moves_within {p q : Phase R V} {a : Answer R} (hmanifest : A h.manifest) (hp : Within A p)
    (ha : ∀ r, a = .resolved r → A r) (hmove : Moves pin i h p a t q) :
    A t.manifest ∧ Within A q := by
  cases hmove with
  | checked | locked | unstaged | commits | exits => exact ⟨hmanifest, trivial⟩
  | resolved => exact ⟨hmanifest, ha _ rfl⟩
  | staged | marked | starts | skips => exact ⟨hmanifest, hp⟩
  | prepared =>
    refine ⟨hmanifest, hp, fun r hr => ?_⟩
    simp only [snapshot] at hr
    split_ifs at hr
    obtain rfl := Option.some.inj hr
    exact hmanifest
  | switched ht => exact ⟨switch_manifest hmanifest hp.1 ht, hp⟩
  | fails => exact ⟨hmanifest, hp.2⟩
  | @cleans op =>
    refine ⟨?_, trivial⟩
    cases op with
    | dropPrev | dropStaging | dropMarker => exact hmanifest
  | @undoes _ op => exact ⟨undo_manifest op hmanifest hp, hp⟩

variable [Fintype ι]

/-- Careful steps by which nothing is resolved but these releases. -/
def Resolving (A : R → Prop) (σ : System ι (Host ι R V) (Phase R V)) (e : Event ι (Answer R)) :
    Prop :=
  Careful σ e ∧ ∀ i r, e = .run i (.resolved r) → A r

theorem within_protocol (pin : R → V) (A : R → Prop) :
    Protocol (ι := ι) (Interruption.updateScript pin) (Resolving A) (fun h => A h.manifest)
      (fun _ _ => Within A) where
  gone_free := rfl
  gone_relies _ _ := trivial
  idle := (protocol pin).idle
  step hmay hmanifest hphase hnext :=
    moves_within hmanifest hphase (fun r hr => hmay.2 _ r (congrArg _ hr)) (moves_of_next hnext)
  frame _ _ _ _ _ hphase := hphase

end Releases

section Installed

open Turns Interruption

variable {ι β V : Type} [DecidableEq ι] [Fintype ι] [DecidableEq V] {pin : Release → V}
  {fmt : Formats β} {old new : Release} {d : Disk β}

private theorem installed_of_commits {a : UpdateAnswers β}
    (h : (update fmt new a ⟨d, old⟩).1 = true) : (update fmt new a ⟨d, old⟩).2.installed = new := by
  unfold update activate at h ⊢
  dsimp only at h ⊢
  grind [rollbackUpdate]

/-- Once no transaction is open, the host is of the release that an update leaves installed. -/
theorem update_installed (hcommits : ∃ a, (update fmt new a ⟨d, old⟩).1 = true)
    {σ τ : System ι (Host ι Release V) (Phase Release V)} (hσ : Interruption.Fresh pin σ)
    (hold : σ.shared.manifest = old)
    (hreach : Reaches (Interruption.updateScript pin) (Resolving fun r => r = old ∨ r = new) σ τ)
    (hmarker : τ.shared.marker = false) :
    ∃ a, Settled pin τ.shared (update fmt new a ⟨d, old⟩).2.installed := by
  have hcareful : Reaches (Interruption.updateScript pin) Careful σ τ :=
    Relation.ReflTransGen.mono (fun _ _ ⟨e, hmay, hstep⟩ => ⟨e, hmay.1, hstep⟩) σ τ hreach
  have horderly := (protocol pin).orderly hσ.orderly hcareful
  obtain ⟨r, hset⟩ := horderly.safe.resolve_left (by simp [hmarker])
  have hwithin := (within_protocol pin fun r => r = old ∨ r = new).orderly
    ⟨hσ.orderly.alone, .inl hold, fun j => by rw [hσ.phase j]; trivial⟩ hreach
  have hr : r = old ∨ r = new := hset.2 ▸ hwithin.safe
  rcases hr with rfl | rfl
  · exact ⟨{ acceptanceFails with switched := false }, hset⟩
  · obtain ⟨a, ha⟩ := hcommits
    exact ⟨a, by rw [installed_of_commits ha]; exact hset⟩

end Installed

section Hook

open Locking Traced

variable {α β : Type} {isPair : α → α → Bool} {env : Renewal.Env} {lineage : Renewal.Lineage α}

def beforeLock (isPair : α → α → Bool) (env : Renewal.Env) (lineage : Renewal.Lineage α) :
    Renewal.Script α Unit := do
  Renewal.checkLineage env
  Renewal.stagePair isPair lineage

def underLock (env : Renewal.Env) : Renewal.Script α Unit := do
  Renewal.backUpPair
  Renewal.swapPair
  Renewal.validate env
  Renewal.commit env

private theorem deployHook_eq : Renewal.deployHook isPair env lineage =
    beforeLock isPair env lineage >>= fun _ => underLock env := by
  rw [beforeLock, Prog.bind_assoc]
  rfl

theorem wp_beforeLock (s : Renewal.Hook α) :
    Wp (beforeLock isPair env lineage) s (fun _ _ => True)
      fun r t => (t.live = s.live ∧ t.bak = s.bak) ∧ (r = .ok () → env.deployment = true) := by
  have hcheck : Wp (Renewal.checkLineage env) s (fun _ _ => True)
      fun r t => t = s ∧ (r = .ok () → env.deployment = true) := by
    refine wp_ensure_bind (fun _ => ⟨rfl, fun h => by cases h⟩) fun _ => ?_
    refine wp_ensure_bind (fun _ => ⟨rfl, fun h => by cases h⟩) fun hdeployment => ?_
    simp only [wp_bind, wp_ensure]
    split_ifs <;> simp [hdeployment]
  apply hcheck.bind
  · rintro ⟨⟩ t ⟨rfl, hdeployment⟩
    simp [Renewal.stagePair, Renewal.stage, Renewal.step, hdeployment rfl]
  · rintro e t ⟨rfl, -⟩
    exact ⟨⟨rfl, rfl⟩, fun h => by cases h⟩

/-- The hook holds the lock from its first backup on: one that ends without it has left the pair and
its backups alone. -/
theorem hook_locked (isPair : α → α → Bool) (env : Renewal.Env) (lineage : Renewal.Lineage α)
    (s : Renewal.Hook α) {d : Disk β}
    (hdeployed : env.deployment = (d.live .deploymentToml).isSome) :
    ∃ held, Proc.Solo ⟨certbotDeployHook, []⟩ d ⟨.exit, held⟩ d ∧
      (.state ∈ held ↔ (beforeLock isPair env lineage s).result = .ok ()) ∧
      (.state ∉ held → (Renewal.deployHook isPair env lineage s).final.live = s.live ∧
        (Renewal.deployHook isPair env lineage s).final.bak = s.bak) := by
  have hkept : _ ∧ ((beforeLock isPair env lineage s).result = .ok () → env.deployment = true) :=
    (wp_beforeLock s).2
  cases hbefore : (beforeLock isPair env lineage s).result with
  | ok _ =>
    have hthere : (d.live .deploymentToml).isSome = true := hdeployed.symm.trans (hkept.2 hbefore)
    refine ⟨[.state], ?_, by simp, fun hno => absurd (List.mem_singleton.mpr rfl) hno⟩
    refine .act ⟨rfl, rfl⟩ ?_
    rw [hthere, if_pos rfl]
    refine .act (a := true) rfl (.act (a := true) rfl ?_)
    refine .head .acquire (fun _ _ => List.not_mem_nil) ?_
    exact .act (a := true) rfl (.act (a := true) rfl .refl)
  | error e =>
    refine ⟨[], ?_, by simp, fun _ => ?_⟩
    · refine .act ⟨rfl, rfl⟩ ?_
      split_ifs
      · exact .act (a := false) rfl .refl
      · exact .refl
    · have hfinal : (Renewal.deployHook isPair env lineage s).final =
          (beforeLock isPair env lineage s).final := by
        rw [deployHook_eq]
        simp only [Bind.bind, Prog.bind, hbefore]
      rw [hfinal]
      exact hkept.1

end Hook

end Vpn1.Deploy.Refinement
