import Vpn1.Admin.Rotate
import Vpn1.Admin.Users

/-! What is left when a rotation says that it has restored the previous state. -/

namespace Vpn1.Admin

open Compat Traced

/-- Both services run what their files say. -/
structure LoadedFromFiles (h : Host) : Prop where
  loaded : h.loaded = h.json? .config
  cached : h.cached = subscriptionStartup h

/-- The files of the rotation, `config.json` and both services are as they were. -/
structure Unchanged (targets : List StateFile) (h t : Host) : Prop where
  files : ∀ f ∈ targets, t.files (.live f) = h.files (.live f)
  config : t.content? .config = h.content? .config
  loaded : t.loaded = h.loaded
  cached : t.cached = h.cached

/-- A rollback after the swap has a `config.json` of this host to go back to, and the queries of
the rollback find the services that were restarted into the new material. -/
structure RollsBackWhole (plan : RotatePlan) (swap : Bool) (live : LiveAnswers)
    (a : RollbackAnswers) (h : Host) : Prop where
  config : swap = true → h.exists? .config = true
  singbox : swap = true → live.loadsNew = true → a.singbox.controllable = false →
    h.loaded = some plan.doc
  subscription : swap = true → live.servesNew = true → a.subscription.controllable = false →
    h.cached = plan.startup h

section Generic

variable {pid : Nat} {plan : RotatePlan} {swap : Bool} {live : LiveAnswers} {a : RollbackAnswers}
  {h s t : Host} {stage : RotateStage} {report : RollbackReport}
  {entries : List (StateFile × Bool)}

theorem RolledBack.files_of_restored (hentries : entries.map Prod.fst = plan.targets)
    (ht : RolledBack entries stage.configApplied a h s report t)
    (hreport : report.restored = true) :
    ∀ f ∈ plan.targets, t.files (.live f) = h.files (.live f) := by
  simp only [RollbackReport.restored, Bool.and_eq_true] at hreport
  intro f hf
  rw [← hentries] at hf
  obtain ⟨e, he, rfl⟩ := List.mem_map.mp hf
  exact ht.files hreport.1.1 e he

/-- After a reported rollback the material that both services read is that of before. -/
theorem RolledBack.keepsMaterial (hs : Advanced pid plan swap live h (.error stage) s)
    (hentries : entries.map Prod.fst = plan.targets)
    (ht : RolledBack entries stage.configApplied a h s report t)
    (hreport : report.restored = true) : KeepsMaterial h t := by
  have hfiles := ht.files_of_restored hentries hreport
  have hsame : ∀ f, f ≠ .config → f ≠ .configBak → f ≠ .rotateCandidate →
      f ≠ .obfsRotateCandidate → t.text? f = h.text? f := by
    intro f hconfig hbak hcand hobfs
    have hlive : t.files (.live f) = h.files (.live f) := by
      by_cases hf : f ∈ plan.targets
      · exact hfiles f hf
      · rw [ht.same.files _ (by simp [restorePaths, hentries, hf, hconfig]),
          hs.same.files _ (by simp [rotatePaths, transactionPaths, swapPaths, *])]
    simp only [Host.text?, Host.content?, hlive]
  exact ⟨hsame _ (by simp) (by simp) (by simp) (by simp),
    hsame _ (by simp) (by simp) (by simp) (by simp),
    hsame _ (by simp) (by simp) (by simp) (by simp),
    hsame _ (by simp) (by simp) (by simp) (by simp),
    ht.same.masqueradeDir.trans hs.same.masqueradeDir⟩

/-- `config.json` is back exactly when there was one, or it was not swapped. -/
theorem RolledBack.config_iff (hs : Advanced pid plan swap live h (.error stage) s)
    (ht : RolledBack entries stage.configApplied a h s report t)
    (hreport : report.restored = true) :
    t.content? .config = h.content? .config ↔ (swap = true → h.exists? .config = true) := by
  simp only [RollbackReport.restored, Bool.and_eq_true] at hreport
  have hstage := hs.stage stage rfl
  cases swap with
  | false => simpa using (ht.notApplied hstage).trans (hs.notSwapped rfl)
  | true =>
    obtain ⟨hsome, -, hconfig⟩ | ⟨hno, -⟩ := ht.applied hstage
    · obtain ⟨-, hbak, -⟩ := hs.swapped rfl
      rw [hconfig, hbak]
      rw [hbak] at hsome
      unfold Host.keptConfig at hsome ⊢
      cases hex : h.exists? .config with
      | true => simp
      | false =>
        have hnone : h.content? .config = none := by
          simpa [Host.exists?, Host.content?] using hex
        simp only [hex, Bool.false_eq_true, if_false] at hsome ⊢
        rw [hnone]
        simpa using Option.isSome_iff_ne_none.mp hsome
    · simp [hreport.1.1] at hno

/-- A restart that the rollback made of sing-box has taken effect, since it is reported. -/
theorem RolledBack.loaded_of_restored (ht : RolledBack entries stage.configApplied a h s report t)
    (hreport : report.restored = true) :
    t.loaded = if a.singbox.controllable then t.json? .config else s.loaded := by
  have hsingbox := ht.singbox
  simp only [RollbackReport.restored, Bool.and_eq_true] at hreport
  rw [hreport.1.2] at hsingbox
  rw [ht.loaded]
  cases hq : a.singbox.controllable with
  | false => rfl
  | true =>
    simp only [hq, Bool.not_true, Bool.false_or, Bool.true_eq, Bool.and_eq_true, beq_iff_eq]
      at hsingbox
    rw [hsingbox.2, afterRestart_active]

theorem RolledBack.cached_of_restored (ht : RolledBack entries stage.configApplied a h s report t)
    (hreport : report.restored = true) :
    t.cached = if a.subscription.controllable then subscriptionStartup t else s.cached := by
  have hsubscription := ht.subscription
  simp only [RollbackReport.restored, Bool.and_eq_true] at hreport
  rw [hreport.2] at hsubscription
  rw [ht.cached]
  cases hq : a.subscription.controllable with
  | false => rfl
  | true =>
    simp only [hq, Bool.not_true, Bool.false_or, Bool.true_eq, Bool.and_eq_true, beq_iff_eq]
      at hsubscription
    rw [hsubscription.2, afterRestart_active]

/-- A rollback that reports success leaves everything unchanged exactly when it was whole. -/
theorem RolledBack.unchanged_iff (hload : LoadedFromFiles h)
    (hs : Advanced pid plan swap live h (.error stage) s)
    (hentries : entries.map Prod.fst = plan.targets)
    (ht : RolledBack entries stage.configApplied a h s report t)
    (hreport : report.restored = true) :
    Unchanged plan.targets h t ↔ RollsBackWhole plan swap live a h := by
  have hconfig := ht.config_iff hs hreport
  have hloaded := ht.loaded_of_restored hreport
  have hcached := ht.cached_of_restored hreport
  constructor
  · intro hsame
    refine ⟨hconfig.mp hsame.config, fun hswap hnew hq => ?_, fun hswap hnew hq => ?_⟩
    · simpa [hq, hs.loaded, hswap, hnew, hsame.loaded] using hloaded
    · simpa [hq, hs.cached, hswap, hnew, hsame.cached] using hcached
  · intro hwhole
    have hback := hconfig.mpr hwhole.config
    refine ⟨ht.files_of_restored hentries hreport, hback, ?_, ?_⟩
    · rw [hloaded]
      cases hq : a.singbox.controllable with
      | true =>
        simp only [if_true]
        rw [Host.json?, hback, hload.loaded, Host.json?]
      | false =>
        rw [if_neg (by simp), hs.loaded]
        split_ifs with hnew
        · rw [Bool.and_eq_true] at hnew
          exact (hwhole.singbox hnew.1 hnew.2 hq).symm
        · rfl
    · rw [hcached]
      cases hq : a.subscription.controllable with
      | true =>
        simp only [if_true]
        rw [(ht.keepsMaterial hs hentries hreport).subscriptionStartup, hload.cached]
      | false =>
        rw [if_neg (by simp), hs.cached]
        split_ifs with hnew
        · rw [Bool.and_eq_true] at hnew
          exact (hwhole.subscription hnew.1 hnew.2 hq).symm
        · rfl

end Generic

/-- What `unchanged_iff` says of a command that ends along `RotatePath`. -/
theorem RotatePath.unchanged_iff {pid : Nat} {targets : List StateFile} {plan : Option RotatePlan}
    {swap : Bool} {live : LiveAnswers} {a : RollbackAnswers} {h t : Host} {stage : RotateStage}
    {report : RollbackReport} (htargets : ∀ p, plan = some p → p.targets = targets)
    (hload : LoadedFromFiles h)
    (hr : RotatePath pid targets plan swap live a h (.error (.rolledBack stage report)) t)
    (hreport : report.restored = true) :
    ∃ p, plan = some p ∧ (Unchanged targets h t ↔ RollsBackWhole p swap live a h) := by
  cases hr with
  | untouched he => simp [RotateError.report?] at he
  | rolledBack hplan hs hentries ht =>
    obtain rfl := htargets _ hplan
    exact ⟨_, hplan, ht.unchanged_iff hload hs hentries hreport⟩

/-- When a rotation says that the previous state was restored, it was exactly if the rollback was
whole: for `init --rotate` and for `hysteria-obfs-rotate`, from any host whose services run what
their files say. -/
theorem rotation_restored_iff (site : Site) (inv : Invocation) (h : Host)
    (hload : LoadedFromFiles h) (stage : RotateStage) (report : RollbackReport)
    (hreport : report.restored = true) :
    (∀ a : InitAnswers,
      (cmdInit site inv true a h).result = .error (.rolledBack stage report) →
      ∃ plan, realityPlan site h a.rotate = .ok plan ∧
        (Unchanged realityFiles h (cmdInit site inv true a h).final ↔
          RollsBackWhole plan (a.rotate.swaps h) a.rotate.live a.rotate.rollback h)) ∧
    (∀ a : ObfsRotateAnswers,
      (cmdHysteriaObfsRotate site inv a h).result = .error (.rolledBack stage report) →
      ∃ plan, obfsPlan site h a = .ok plan ∧
        (Unchanged [.obfsPassword] h (cmdHysteriaObfsRotate site inv a h).final ↔
          RollsBackWhole plan (a.swaps h) a.live a.rollback h)) := by
  have hplan : ∀ {x : Except RotateError RotatePlan} {p}, x.toOption = some p → x = .ok p := by
    intro x p hx
    cases x <;> simp_all [Except.toOption]
  constructor
  · intro a hresult
    have hpath := (cmdInit_wp site inv true h a).2
    rw [hresult] at hpath
    generalize (cmdInit site inv true a h).final = t at hpath
    cases hpath with
    | generated _ _ herr => simpa [RotateError.report?] using herr _ rfl
    | nothing herr => simpa [RotateError.report?] using herr _ rfl
    | rotated hr =>
      obtain ⟨p, hp, hiff⟩ :=
        hr.unchanged_iff (fun p hp => realityPlan_targets (hplan hp)) hload hreport
      exact ⟨p, hplan hp, hiff⟩
  · intro a hresult
    have hpath := (cmdHysteriaObfsRotate_wp site inv h a).2
    rw [hresult] at hpath
    have htargets : ∀ p, (obfsPlan site h a).toOption = some p → p.targets = [.obfsPassword] := by
      intro p hp
      rw [RotatePlan.targets, obfsPlan_contents (hplan hp)]
      rfl
    obtain ⟨p, hp, hiff⟩ := hpath.unchanged_iff htargets hload hreport
    exact ⟨p, hplan hp, hiff⟩

section Sample

def RollbackAnswers.clear : RollbackAnswers :=
  ⟨fun _ => true, .done, .up, .active, .up, .active⟩

def RotateAnswers.clear : RotateAnswers where
  keypair := some (sampleKey, sampleKey)
  shortId := #v[1, 2, 3, 4]
  readUsers := true
  obfs := true
  now := 100
  stage := ⟨true, .done, true, true⟩
  singbox := .up
  subscription := .up
  backup := fun _ => ⟨true, .done, true, true⟩
  dropBackup := fun _ => true
  install := fun _ => ⟨.done, true, true, true⟩
  apply := .clear
  live := ⟨.up, .active, .up, .active⟩
  selfTestNow := 100
  selfTest := some .pass
  rollback := .clear

/-- A rotation whose sing-box does not stay up on the new keys, and whose rollback succeeds. -/
def rotateReloadFails : InitAnswers where
  createDirs := true
  chmod := fun _ => true
  password := .replicate 24 7
  rotate := { RotateAnswers.clear with live := ⟨.up, .notActive, .up, .active⟩ }

/-- The sample deployment without a `config.json`, but with the backup of an earlier one. -/
def staleBackupHost : Host where
  files
    | .live .configBak => some ⟨.json sampleDoc, 0o640⟩
    | p => sampleKeyFiles p
  umask := 0o022
  binaryInstalled := true
  masqueradeDir := false
  loaded := none
  cached := some ⟨sampleKey, "0a1b2c3d", none⟩

/-- With a `config.json` to go back to, a failed reload leaves nothing behind. -/
theorem rotation_restored_sample :
    Unchanged realityFiles sampleHost
      (cmdInit sampleSite ⟨1, false⟩ true rotateReloadFails sampleHost).final := by
  have hload : LoadedFromFiles sampleHost := ⟨by decide, by decide⟩
  have hresult : (cmdInit sampleSite ⟨1, false⟩ true rotateReloadFails sampleHost).result =
      .error (.rolledBack .singboxReload ⟨true, true, true⟩) := by decide
  obtain ⟨plan, -, hiff⟩ :=
    (rotation_restored_iff sampleSite ⟨1, false⟩ sampleHost hload _ _ rfl).1 _ hresult
  refine hiff.mpr ⟨fun _ => rfl, fun _ _ hq => ?_, fun _ _ hq => ?_⟩
  · exact absurd hq (by decide)
  · exact absurd hq (by decide)

/-- Without one, the rollback installs and loads the stale backup and calls that restored. -/
theorem rotation_restores_stale_backup :
    LoadedFromFiles staleBackupHost ∧
    (cmdInit sampleSite ⟨1, false⟩ true rotateReloadFails staleBackupHost).result =
      .error (.rolledBack .singboxReload ⟨true, true, true⟩) ∧
    ¬ Unchanged realityFiles staleBackupHost
      (cmdInit sampleSite ⟨1, false⟩ true rotateReloadFails staleBackupHost).final := by
  refine ⟨⟨by decide, by decide⟩, by decide, fun hsame => ?_⟩
  exact absurd hsame.config (by decide)

end Sample

end Vpn1.Admin
