import Vpn1.Admin.Render
import Vpn1.Admin.Rollback

/-! `init --rotate` and `hysteria-obfs-rotate`: new key material for both services at once, and
what is left when a rotation says that it has restored the previous state. -/

namespace Vpn1.Admin

open Compat Traced

section Commands

variable (site : Site) (inv : Invocation)

/-- `generate_reality_keypair`: the fields are trimmed as they are extracted. -/
def generateRealityKeypair (a : RotateAnswers) : Except RotateError (String × String × String) :=
  match a.keypair with
  | none => .error .keypair
  | some (priv, pub) =>
    match validateRealityKeypair site.mulBaseClamped (trim priv) (trim pub) with
    | .error e => .error (.incoherentKeypair e)
    | .ok () => .ok (trim priv, trim pub, generateShortId a.shortId)

/-- What `cmd_reality_rotate` sets out to install. -/
def realityPlan (h : Host) (a : RotateAnswers) : Except RotateError RotatePlan :=
  match generateRealityKeypair site a with
  | .error e => .error e
  | .ok (priv, pub, sid) =>
    match loadUsers h a.readUsers with
    | .error e => .error (.load e)
    | .ok users => .ok {
        users := users
        doc := renderSingboxServerConfig users (realityParams site priv pub sid)
          (loadHysteriaParams site h a.obfs) site.cfg.ports a.now
        contents := [(.privateKey, priv), (.publicKey, pub), (.shortId, sid)] }

/-- Write a candidate next to `config.json`, check it and remove it again. -/
def stageCandidate (f : StateFile) (doc : Json) (a : StageAnswers) :
    Prog Host Event RotateError Unit := do
  match ← Prog.attempt (do
      require a.createDir ()
      writeFile (.live f) (.json doc) 0o666 a.write ()) with
  | .error () =>
    discardFile (.live f) a.removeTmp
    Prog.fail .notStaged
  | .ok () =>
    discardFile (.live f) a.removeTmp
    require a.check .checkFailed

/-- Without `VPN1_ALLOW_OFFLINE_MUTATION` both services have to be controllable. -/
def requireServices (singbox subscription : ServiceAnswers) : Prog Host Event RotateError Unit :=
  require (inv.offline || singbox.controllable && subscription.controllable) .unavailable

def installStage : StateFile → RotateStage
  | .privateKey => .installPrivateKey
  | .publicKey => .installPublicKey
  | _ => .installShortId

def installContents (a : StateFile → InstallAnswers) :
    List (StateFile × String) → Prog Host Event RotateStage Unit
  | [] => pure ()
  | (f, text) :: rest => do
    installRotatedKeyFile f text (a f) (installStage f)
    installContents a rest

/-- Install the keyset, take both services to it and try a handshake. -/
def realityForward (plan : RotatePlan) (a : RotateAnswers) : Prog Host Event RotateStage Unit := do
  installContents a.install plan.contents
  let live ← goLive inv.pid plan.doc a.apply a.live
  let verification ← Prog.look
    (verifyRealityHandshakeOrWarn · plan.users a.selfTestNow a.selfTest)
  if live && verification == some .handshakeRejected then Prog.fail .selfTest else pure ()

def cmdRealityRotate (a : RotateAnswers) : Prog Host Event RotateError Unit := do
  Prog.mark (.rotateBegins a)
  require (← Prog.look (·.binaryInstalled)) .binaryMissing
  match ← Prog.look (realityPlan site · a) with
  | .error e => Prog.fail e
  | .ok plan =>
    stageCandidate .rotateCandidate plan.doc a.stage
    requireServices inv a.singbox a.subscription
    let entries ← Prog.mapError .backup (backupAll a.backup a.dropBackup [] plan.targets)
    commitOrRollBack plan.targets entries (realityForward inv plan a) a.dropBackup a.rollback

/-- What `cmd_hysteria_obfs_rotate` sets out to install. -/
def obfsPlan (h : Host) (a : ObfsRotateAnswers) : Except RotateError RotatePlan :=
  match loadRealityParams site h a.keys with
  | .error e => .error (.loadReality e)
  | .ok reality =>
    match loadUsers h a.readUsers with
    | .error e => .error (.load e)
    | .ok users =>
      let password := generateHysteria2ObfsPassword a.password
      -- the password of the host is overwritten, so its read does not matter
      let hysteria := { loadHysteriaParams site h true with obfsPassword := some password }
      .ok {
        users := users
        doc := renderSingboxServerConfig users reality hysteria site.cfg.ports a.now
        contents := [(.obfsPassword, password)] }

/-- `apply_restored_file_policy`. -/
def applyRestoredFilePolicy {ε : Type} (f : StateFile) (a : PolicyAnswers) (e : ε) :
    Prog Host Event ε Unit := do
  setMode (.live f) 0o640 a.chmod e
  require a.chown e

/-- A first password gets its policy; then both services are taken to it, with no handshake. -/
def obfsForward (plan : RotatePlan) (existed : Bool) (a : ObfsRotateAnswers) :
    Prog Host Event RotateStage Unit := do
  if existed then pure () else applyRestoredFilePolicy .obfsPassword a.policy .filePolicy
  let _ ← goLive inv.pid plan.doc a.apply a.live
  pure ()

def cmdHysteriaObfsRotate (a : ObfsRotateAnswers) : Prog Host Event RotateError Unit := do
  Prog.mark (.obfsRotateBegins a)
  require (← Prog.look (·.binaryInstalled)) .binaryMissing
  require a.createDir .createDir
  match ← Prog.look (obfsPlan site · a) with
  | .error e => Prog.fail e
  | .ok plan =>
    stageCandidate .obfsRotateCandidate plan.doc a.stage
    requireServices inv a.singbox a.subscription
    let existed ← Prog.mapError .backup (backupForRotate .obfsPassword a.backup)
    match ← Prog.attempt (installRotatedKeyFile .obfsPassword
        (generateHysteria2ObfsPassword a.password) a.install ()) with
    | .error () =>
      -- this failure is not rolled back: nothing live has changed yet
      if existed then discardFile (.rotateBak .obfsPassword) a.dropBackup else pure ()
      Prog.fail .notInstalled
    | .ok () =>
      commitOrRollBack plan.targets [(.obfsPassword, existed)] (obfsForward inv plan existed a)
        (fun _ => a.dropBackup) a.rollback

/-- The mode `vpn-subscription` needs on files that had none to inherit. -/
def openToSubscription (a : StateFile → Bool) :
    List StateFile → Prog Host Event RotateError Unit
  | [] => pure ()
  | f :: fs => do
    setMode (.live f) 0o640 (a f) .notInstalled
    openToSubscription a fs

/-- The first keyset of a host, with nothing running on an older one. -/
def generateKeyset (a : InitAnswers) : Prog Host Event RotateError Unit := do
  match generateRealityKeypair site a.rotate with
  | .error e => Prog.fail e
  | .ok (priv, pub, sid) =>
    Prog.mapError (fun _ => .notInstalled)
      (installContents a.rotate.install [(.privateKey, priv), (.publicKey, pub), (.shortId, sid)])
    openToSubscription a.chmod [.publicKey, .shortId]
    installRotatedKeyFile .obfsPassword (generateHysteria2ObfsPassword a.password)
      (a.rotate.install .obfsPassword) .notInstalled
    openToSubscription a.chmod [.obfsPassword]

def cmdInit (rotate : Bool) (a : InitAnswers) : Prog Host Event RotateError Unit := do
  require a.createDirs .createDir
  if ← Prog.look (·.exists? .privateKey) then
    if rotate then cmdRealityRotate site inv a.rotate
    else require (← Prog.look fun h => h.exists? .publicKey && h.exists? .shortId) .partialKeyset
  else if ← Prog.look (·.exists? .config) then cmdRealityRotate site inv a.rotate
  else generateKeyset site a

end Commands

section Paths

variable {site : Site} {h : Host}

def StageAnswers.passes (a : StageAnswers) : Bool := a.createDir && a.write == .done && a.check

/-- Staging touches nothing but the candidate file. -/
theorem stageCandidate_wp (f : StateFile) (doc : Json) (a : StageAnswers) (h : Host) :
    Wp (stageCandidate f doc a) h (fun w _ => w = .io) fun r t =>
      FilesOnly h t [.live f] ∧
        (r = .ok () ∨ r = .error .notStaged ∨ r = .error .checkFailed) ∧
        (r = .ok () ↔ a.passes = true) := by
  have hfp : Path.live f ∈ [Path.live f] := by simp
  have h0 : FilesOnly h h [.live f] := .refl _ _
  -- either way the candidate is removed before the command goes on
  have hnotStaged (hno : a.passes = false) : ∀ s : Host, FilesOnly h s [.live f] →
      Wp (do discardFile (.live f) a.removeTmp; Prog.fail .notStaged) s (fun w _ => w = .io)
        fun r t => FilesOnly h t [.live f] ∧
          (r = .ok () ∨ r = .error RotateError.notStaged ∨ r = .error .checkFailed) ∧
          (r = .ok () ↔ a.passes = true) := by
    intro s hs
    rw [wp_bind]
    exact wp_discardFile (fun _ => rfl) fun g _ =>
      wp_fail.mpr ⟨hs.put hfp, .inr (.inl rfl), by simp [hno]⟩
  have hstaged (hcheck : a.passes = a.check) : ∀ s : Host, FilesOnly h s [.live f] →
      Wp (do discardFile (.live f) a.removeTmp; require a.check .checkFailed) s
        (fun w _ => w = .io) fun r t => FilesOnly h t [.live f] ∧
          (r = .ok () ∨ r = .error RotateError.notStaged ∨ r = .error .checkFailed) ∧
          (r = .ok () ↔ a.passes = true) := by
    intro s hs
    rw [wp_bind]
    refine wp_discardFile (fun _ => rfl) fun g _ => wp_require.mpr ?_
    split_ifs with hgood
    · exact ⟨hs.put hfp, .inl rfl, by simp [hcheck, hgood]⟩
    · exact ⟨hs.put hfp, .inr (.inr rfl), by simp [hcheck, hgood]⟩
  unfold stageCandidate
  rw [wp_bind, wp_attempt, wp_bind, wp_require]
  split_ifs with hdir
  · refine wp_writeFile (fun _ => rfl) (fun hdone => hstaged ?_ _ (h0.put hfp))
      fun hnot g => hnotStaged ?_ _ (h0.put hfp)
    · simp [StageAnswers.passes, hdir, hdone]
    · simp [StageAnswers.passes, hnot]
  · exact hnotStaged (by simp [StageAnswers.passes, hdir]) h h0

/-- A rotation that stops before its backups has touched nothing but its candidate. -/
theorem wp_staged (inv : Invocation) {f : StateFile} {doc : Json} {stage : StageAnswers}
    {singbox subscription : ServiceAnswers} {rest : Prog Host Event RotateError Unit}
    {G : Event → Host → Prop} {Q : Except RotateError Unit → Host → Prop} (hG : ∀ t, G .io t)
    (hstop : (stage.passes && (inv.offline || singbox.controllable && subscription.controllable)) =
      false → ∀ e s, e = .notStaged ∨ e = .checkFailed ∨ e = .unavailable →
        FilesOnly h s [.live f] → Q (.error e) s)
    (hgo : (stage.passes && (inv.offline || singbox.controllable && subscription.controllable)) =
      true → ∀ s, FilesOnly h s [.live f] → Wp rest s G Q) :
    Wp (do
      stageCandidate f doc stage
      requireServices inv singbox subscription
      rest) h G Q := by
  have hstage := (stageCandidate_wp f doc stage h).mono (fun _ t hw => hw ▸ hG t) fun _ _ hr => hr
  apply hstage.bind
  · rintro _ s ⟨hs, -, hpasses⟩
    have hpass : stage.passes = true := hpasses.mp rfl
    rw [hpass, Bool.true_and] at hstop hgo
    exact wp_require_bind (fun hno => hstop hno _ s (.inr (.inr rfl)) hs) fun hyes => hgo hyes s hs
  · rintro e s ⟨hs, hr, hpasses⟩
    have hfails : stage.passes = false := by simpa using hpasses
    refine hstop (by rw [hfails, Bool.false_and]) e s ?_ hs
    rcases hr with hr | hr | hr
    · cases hr
    · exact .inl (Except.error.inj hr)
    · exact .inr (.inl (Except.error.inj hr))

/-- The files installed so far say what they should; a failure names the file it is about. -/
theorem installContents_wp (a : StateFile → InstallAnswers) (contents : List (StateFile × String))
    (hnodup : (contents.map Prod.fst).Nodup) (s : Host) :
    Wp (installContents a contents) s (fun w _ => w = .io) fun r t =>
      FilesOnly s t (contents.flatMap fun e => installPaths e.1) ∧
        if (contents.all fun e => (a e.1).succeeds (s.exists? e.1)) then
          r = .ok () ∧ ∀ e ∈ contents, t.content? e.1 = some (.text e.2)
        else ∃ f, r = .error (installStage f) := by
  induction contents generalizing s with
  | nil => simpa [installContents] using FilesOnly.refl s _
  | cons entry rest ih =>
    obtain ⟨f, text⟩ := entry
    obtain ⟨hfnot, hnodup⟩ := List.nodup_cons.mp hnodup
    simp only at hfnot
    have hhead : ∀ p ∈ installPaths f,
        p ∈ ((f, text) :: rest).flatMap fun e => installPaths e.1 := by
      intro p hp
      simp [hp]
    have htail : ∀ p ∈ rest.flatMap fun e => installPaths e.1,
        p ∈ ((f, text) :: rest).flatMap fun e => installPaths e.1 := by
      intro p hp
      rw [List.flatMap_cons, List.mem_append]
      exact .inr hp
    have hne : ∀ e ∈ rest, e.1 ≠ f := fun e he heq => hfnot (heq ▸ List.mem_map_of_mem he)
    simp only [installContents, wp_bind]
    refine (installRotatedKeyFile_wp f text (a f) (installStage f) s).mono (fun _ _ hw => hw.1) ?_
    rintro r t ⟨ht, hr⟩
    split_ifs at hr with hsucc
    · obtain ⟨rfl, hcontent⟩ := hr
      have hexists : ∀ e ∈ rest, t.exists? e.1 = s.exists? e.1 := by
        intro e he
        simp only [Host.exists?, ht.files (.live e.1) (by simp [installPaths, hne e he])]
      have hall : (rest.all fun e => (a e.1).succeeds (t.exists? e.1)) =
          rest.all fun e => (a e.1).succeeds (s.exists? e.1) := by
        rw [Bool.eq_iff_iff, List.all_eq_true, List.all_eq_true]
        exact forall₂_congr fun e he => by rw [hexists e he]
      refine (ih hnodup t).mono (fun _ _ hw => hw) ?_
      rintro r u ⟨hu, hrest⟩
      refine ⟨(ht.mono hhead).trans (hu.mono htail), ?_⟩
      rw [hall] at hrest
      rw [List.all_cons, hsucc, Bool.true_and]
      split_ifs at hrest ⊢ with hall
      · refine ⟨hrest.1, List.forall_mem_cons.mpr ⟨?_, hrest.2⟩⟩
        have hkeep : Path.live f ∉ rest.flatMap fun e => installPaths e.1 := by
          simp only [List.mem_flatMap, installPaths, not_exists, not_and]
          intro e he
          simpa using (hne e he).symm
        rw [hu.content? hkeep]
        exact hcontent
      · exact hrest
    · obtain ⟨rfl, -⟩ := hr
      refine ⟨ht.mono hhead, ?_⟩
      rw [List.all_cons, Bool.eq_false_iff.mpr hsucc]
      exact ⟨f, rfl⟩

/-- The files of a REALITY rotation, in the order they are installed. -/
def realityFiles : List StateFile := [.privateKey, .publicKey, .shortId]

def RotateAnswers.swaps (a : RotateAnswers) (h : Host) : Bool :=
  (realityFiles.all fun f => (a.install f).succeeds (h.exists? f)) &&
    a.apply.succeeds (h.exists? .config)

theorem rotatable_realityFiles : Rotatable realityFiles := by
  constructor <;> decide

private theorem generateRealityKeypair_report? {a : RotateAnswers} {e : RotateError}
    (he : generateRealityKeypair site a = .error e) : e.report? = none := by
  unfold generateRealityKeypair at he
  cases hp : a.keypair with
  | none =>
    simp only [hp] at he
    rw [← Except.error.inj he]
    rfl
  | some pair =>
    cases hv : validateRealityKeypair site.mulBaseClamped (trim pair.1) (trim pair.2) with
    | error c =>
      simp only [hp, hv] at he
      rw [← Except.error.inj he]
      rfl
    | ok u => simp [hp, hv] at he

private theorem realityPlan_report? {a : RotateAnswers} {e : RotateError}
    (he : realityPlan site h a = .error e) : e.report? = none := by
  unfold realityPlan at he
  cases hk : generateRealityKeypair site a with
  | error e' =>
    simp only [hk] at he
    rw [← Except.error.inj he]
    exact generateRealityKeypair_report? hk
  | ok keys =>
    cases hu : loadUsers h a.readUsers with
    | error c =>
      simp only [hk, hu] at he
      rw [← Except.error.inj he]
      rfl
    | ok users => simp [hk, hu] at he

theorem realityPlan_targets {a : RotateAnswers} {plan : RotatePlan}
    (hplan : realityPlan site h a = .ok plan) : plan.targets = realityFiles := by
  unfold realityPlan at hplan
  split at hplan
  · simp at hplan
  · split at hplan
    · simp at hplan
    · simp only [Except.ok.injEq] at hplan
      rw [← hplan]
      rfl

private theorem installStage_configApplied (f : StateFile) :
    (installStage f).configApplied = false := by
  cases f <;> rfl

theorem realityForward_wp (inv : Invocation) (a : RotateAnswers) {plan : RotatePlan} {s : Host}
    (htargets : plan.targets = realityFiles) (hs : Prepared plan.targets h s) :
    Wp (realityForward inv plan a) s (fun w _ => w = .io) fun r t =>
      Advanced inv.pid plan (a.swaps h) a.live h r t ∧
        ∀ f, t.files (.rotateBak f) = s.files (.rotateBak f) := by
  have hrot : Rotatable plan.targets := htargets ▸ rotatable_realityFiles
  have hall : (plan.contents.all fun e => (a.install e.1).succeeds (s.exists? e.1)) =
      realityFiles.all fun f => (a.install f).succeeds (h.exists? f) := by
    rw [← htargets, RotatePlan.targets, List.all_map, Bool.eq_iff_iff, List.all_eq_true,
      List.all_eq_true]
    refine forall₂_congr fun e he => ?_
    simp only [Function.comp, Host.exists?, hs.live e.1 (List.mem_map_of_mem he)]
  have hsub : ∀ p ∈ plan.contents.flatMap fun e => installPaths e.1,
      p ∈ transactionPaths plan.targets := by
    intro p hp
    obtain ⟨e, he, hp⟩ := List.mem_flatMap.mp hp
    have hmem : e.1 ∈ plan.targets := List.mem_map_of_mem he
    simp only [installPaths, List.mem_cons, List.not_mem_nil, or_false] at hp
    rcases hp with rfl | rfl <;> simp [transactionPaths, hmem]
  unfold realityForward
  rw [wp_bind]
  refine (installContents_wp a.install plan.contents hrot.nodup s).mono (fun _ _ hw => hw) ?_
  rintro r t ⟨ht, hr⟩
  have hfiles := hs.toFilesOnly.trans (ht.mono hsub)
  have hbaks : ∀ f, t.files (.rotateBak f) = s.files (.rotateBak f) := fun f =>
    ht.files _ (by simp [installPaths])
  rw [hall] at hr
  split_ifs at hr with hinstalled
  · obtain ⟨rfl, hcontents⟩ := hr
    have hswaps : a.swaps h = a.apply.succeeds (h.exists? .config) := by
      simp [RotateAnswers.swaps, hinstalled]
    simp only [wp_bind]
    refine (goLive_advanced a.apply hrot hfiles hcontents).mono (fun _ _ hw => hw) ?_
    rintro r u ⟨hu, hkept⟩
    rw [← hswaps] at hu
    have hkept' : ∀ f, u.files (.rotateBak f) = s.files (.rotateBak f) :=
      fun f => (hkept f).trans (hbaks f)
    cases r with
    | error stage => exact ⟨hu, hkept'⟩
    | ok both =>
      simp only [wp_look]
      split_ifs
      · exact wp_fail.mpr ⟨hu.selfTest, hkept'⟩
      · exact wp_pure.mpr ⟨hu, hkept'⟩
  · obtain ⟨f, rfl⟩ := hr
    have hswaps : a.swaps h = false := by simp [RotateAnswers.swaps, hinstalled]
    rw [hswaps]
    exact ⟨advanced_of_transaction hrot (installStage_configApplied f) hfiles, hbaks⟩

theorem cmdRealityRotate_wp (site : Site) (inv : Invocation) (h : Host) (a : RotateAnswers) :
    Wp (cmdRealityRotate site inv a) h (fun w t => w = .io ∨ w = .rotateBegins a ∧ t = h)
      (RotatePath inv.pid realityFiles (realityPlan site h a).toOption (a.swaps h) a.live
        a.rollback h) := by
  have huntouched : ∀ {e : RotateError} {t : Host}, e.report? = none → Prepared realityFiles h t →
      RotatePath inv.pid realityFiles (realityPlan site h a).toOption (a.swaps h) a.live
        a.rollback h (.error e) t := fun he ht => .untouched he ht
  have hself : Prepared realityFiles h h := ⟨.refl _ _, fun _ _ => rfl⟩
  unfold cmdRealityRotate
  rw [wp_bind, wp_mark]
  refine ⟨.inr ⟨rfl, rfl⟩, ?_⟩
  rw [wp_bind, wp_look]
  dsimp only
  refine wp_require_bind (fun _ => huntouched rfl hself) fun _ => ?_
  rw [wp_bind, wp_look]
  cases hplan : realityPlan site h a with
  | error e => exact wp_fail.mpr (hplan ▸ huntouched (realityPlan_report? hplan) hself)
  | ok plan =>
    have htargets := realityPlan_targets hplan
    rw [hplan] at huntouched
    refine wp_staged inv (fun _ => .inl rfl) (fun _ e s he hs => ?_) fun _ s hs => ?_
    · exact huntouched (by rcases he with rfl | rfl | rfl <;> rfl)
        (prepared_of_backups rotatable_realityFiles (.inl rfl) hs (.refl _ _))
    have hprep : ∀ {t : Host}, FilesOnly s t (bakPaths realityFiles) → Prepared realityFiles h t :=
      prepared_of_backups rotatable_realityFiles (.inl rfl) hs
    have hbackup := backupAll_wp a.backup a.dropBackup plan.targets [] plan.targets
      (fun _ hf => hf) (by simp) (htargets ▸ rotatable_realityFiles.nodup) (FilesOnly.refl s _)
    rw [wp_bind, wp_mapError]
    refine hbackup.mono (fun _ _ hw => .inl hw.1) ?_
    rintro r t ⟨ht, hr⟩
    have hprepared := hprep (htargets ▸ ht)
    cases r with
    | error e => exact huntouched rfl hprepared
    | ok entries =>
      obtain ⟨hentries, hbacked, -⟩ := hr
      have hbackedUp : BackedUp h t entries := hbacked.of_live fun e he =>
        (hprep (.refl _ _)).live e.1 (htargets ▸ hentries ▸ List.mem_map_of_mem he)
      have hforward := realityForward_wp inv a htargets (htargets ▸ hprepared)
      have hend := commitOrRollBack_wp a.dropBackup a.rollback
        (htargets ▸ rotatable_realityFiles) hentries hbackedUp hforward
      rw [htargets] at hend
      simp only [Except.mapError, htargets]
      exact hend.mono (fun _ _ hw => .inl hw) fun _ _ hr => hr

/-- The install, the policy of a first password and every step of the swap succeed. -/
def ObfsRotateAnswers.swaps (a : ObfsRotateAnswers) (h : Host) : Bool :=
  a.install.succeeds (h.exists? .obfsPassword) &&
    (h.exists? .obfsPassword || a.policy.chmod && a.policy.chown) &&
    a.apply.succeeds (h.exists? .config)

theorem rotatable_obfsPassword : Rotatable [.obfsPassword] := by
  constructor <;> decide

private theorem obfsPlan_report? {a : ObfsRotateAnswers} {e : RotateError}
    (he : obfsPlan site h a = .error e) : e.report? = none := by
  unfold obfsPlan at he
  cases hr : loadRealityParams site h a.keys with
  | error c =>
    simp only [hr] at he
    rw [← Except.error.inj he]
    rfl
  | ok reality =>
    cases hu : loadUsers h a.readUsers with
    | error c =>
      simp only [hr, hu] at he
      rw [← Except.error.inj he]
      rfl
    | ok users => simp [hr, hu] at he

theorem obfsPlan_contents {a : ObfsRotateAnswers} {plan : RotatePlan}
    (hplan : obfsPlan site h a = .ok plan) :
    plan.contents = [(.obfsPassword, generateHysteria2ObfsPassword a.password)] := by
  unfold obfsPlan at hplan
  split at hplan
  · simp at hplan
  · split at hplan
    · simp at hplan
    · simp only [Except.ok.injEq] at hplan
      rw [← hplan]

/-- The policy changes the mode of the file and nothing else. -/
theorem applyRestoredFilePolicy_wp {ε : Type} (f : StateFile) (a : PolicyAnswers) (e : ε) (s : Host)
    (hs : s.exists? f = true) :
    Wp (applyRestoredFilePolicy f a e) s (fun w _ => w = .io) fun r t =>
      FilesOnly s t [.live f] ∧ t.content? f = s.content? f ∧
        r = if a.chmod && a.chown then .ok () else .error e := by
  have hfp : Path.live f ∈ [Path.live f] := by simp
  have h0 : FilesOnly s s [.live f] := .refl _ _
  unfold applyRestoredFilePolicy
  rw [wp_bind]
  apply wp_setMode
  · exact fun _ _ => rfl
  · intro g hg hchmod
    have hcontent : (s.put (.live f) (some { g with mode := 0o640 })).content? f = s.content? f := by
      simp [Host.content?, hg]
    simp only [wp_require, hchmod, Bool.true_and]
    split_ifs
    · exact ⟨h0.put hfp, hcontent, rfl⟩
    · exact ⟨h0.put hfp, hcontent, rfl⟩
  · rintro (hnone | hchmod)
    · simp [Host.exists?, hnone] at hs
    · exact ⟨h0, rfl, by simp [hchmod]⟩

theorem obfsForward_wp (inv : Invocation) (a : ObfsRotateAnswers) {plan : RotatePlan} {s : Host}
    (hplan : plan.contents = [(.obfsPassword, generateHysteria2ObfsPassword a.password)])
    (hinstall : a.install.succeeds (h.exists? .obfsPassword) = true)
    (hs : FilesOnly h s (transactionPaths plan.targets))
    (hcontents : ∀ e ∈ plan.contents, s.content? e.1 = some (.text e.2)) :
    Wp (obfsForward inv plan (h.exists? .obfsPassword) a) s (fun w _ => w = .io) fun r t =>
      Advanced inv.pid plan (a.swaps h) a.live h r t ∧
        ∀ f, t.files (.rotateBak f) = s.files (.rotateBak f) := by
  have htargets : plan.targets = [.obfsPassword] := by rw [RotatePlan.targets, hplan]; rfl
  have hrot : Rotatable plan.targets := htargets ▸ rotatable_obfsPassword
  -- the part after the policy
  have hrest : ∀ u : Host, FilesOnly h u (transactionPaths plan.targets) →
      (∀ e ∈ plan.contents, u.content? e.1 = some (.text e.2)) →
      (∀ f, u.files (.rotateBak f) = s.files (.rotateBak f)) →
      a.swaps h = a.apply.succeeds (h.exists? .config) →
      Wp (do let _ ← goLive inv.pid plan.doc a.apply a.live; pure ()) u (fun w _ => w = .io)
        fun r t => Advanced inv.pid plan (a.swaps h) a.live h r t ∧
          ∀ f, t.files (.rotateBak f) = s.files (.rotateBak f) := by
    intro u hu hucontents hbaks hswaps
    rw [wp_bind]
    refine (goLive_advanced a.apply hrot hu hucontents).mono (fun _ _ hw => hw) ?_
    rintro r t ⟨ht, hkept⟩
    rw [← hswaps] at ht
    have hkept' : ∀ f, t.files (.rotateBak f) = s.files (.rotateBak f) :=
      fun f => (hkept f).trans (hbaks f)
    cases r with
    | error stage => exact ⟨ht, hkept'⟩
    | ok both => exact wp_pure.mpr ⟨ht, hkept'⟩
  unfold obfsForward
  cases hex : h.exists? .obfsPassword with
  | true =>
    have hswaps : a.swaps h = a.apply.succeeds (h.exists? .config) := by
      rw [ObfsRotateAnswers.swaps, hinstall, hex]
      simp
    simpa using hrest s hs hcontents (fun _ => rfl) hswaps
  | false =>
    have hpresent : s.exists? .obfsPassword = true := by
      have := hcontents _ (hplan ▸ List.mem_singleton_self _)
      simp only [Host.content?, Option.map_eq_some_iff] at this
      obtain ⟨g, hg, -⟩ := this
      simp [Host.exists?, hg]
    have hsub : ∀ p ∈ [Path.live .obfsPassword], p ∈ transactionPaths plan.targets := by
      simp [transactionPaths, htargets]
    simp only [Bool.false_eq_true, if_false]
    rw [wp_bind]
    refine (applyRestoredFilePolicy_wp .obfsPassword a.policy _ s hpresent).mono
      (fun _ _ hw => hw) ?_
    rintro r t ⟨ht, hcontent, rfl⟩
    have hfiles := hs.trans (ht.mono hsub)
    have hbaks : ∀ f, t.files (.rotateBak f) = s.files (.rotateBak f) := fun f =>
      ht.files _ (by simp)
    split_ifs with hpolicy
    · have hswaps : a.swaps h = a.apply.succeeds (h.exists? .config) := by
        simp [ObfsRotateAnswers.swaps, hinstall, hpolicy]
      refine hrest t hfiles (fun e he => ?_) hbaks hswaps
      obtain rfl : e = _ := by simpa [hplan] using he
      rw [hcontent]
      exact hcontents _ he
    · have hswaps : a.swaps h = false := by simp [ObfsRotateAnswers.swaps, hex, hpolicy]
      rw [hswaps]
      exact ⟨advanced_of_transaction hrot rfl hfiles, hbaks⟩

/-- The password is backed up: it is installed and the rotation goes on, or the backup is dropped
again, the live file being what it was. -/
private theorem installObfs_wp (inv : Invocation) {a : ObfsRotateAnswers} {plan : RotatePlan}
    {t : Host} {next : Except Unit Unit → Prog Host Event RotateError Unit}
    (herror : next (.error ()) = do
      if h.exists? .obfsPassword then discardFile (.rotateBak .obfsPassword) a.dropBackup
      else pure ()
      Prog.fail .notInstalled)
    (hok : next (.ok ()) = commitOrRollBack plan.targets [(.obfsPassword, h.exists? .obfsPassword)]
      (obfsForward inv plan (h.exists? .obfsPassword) a) (fun _ => a.dropBackup) a.rollback)
    (hcontents : plan.contents = [(.obfsPassword, generateHysteria2ObfsPassword a.password)])
    (ht : Prepared [.obfsPassword] h t)
    (hcopy : BackedUp h t [(.obfsPassword, h.exists? .obfsPassword)]) :
    Wp (Prog.attempt (installRotatedKeyFile .obfsPassword
        (generateHysteria2ObfsPassword a.password) a.install ()) >>= next) t (fun w _ => w = .io)
      (RotatePath inv.pid [.obfsPassword] (some plan) (a.swaps h) a.live a.rollback h) := by
  have htargets : plan.targets = [.obfsPassword] := by rw [RotatePlan.targets, hcontents]; rfl
  have hexists : t.exists? .obfsPassword = h.exists? .obfsPassword := by
    rw [Host.exists?, Host.exists?, ht.live _ (by simp)]
  have hsub : ∀ p ∈ installPaths .obfsPassword, p ∈ transactionPaths [.obfsPassword] := by
    simp [installPaths, transactionPaths]
  rw [wp_bind, wp_attempt]
  refine (installRotatedKeyFile_wp .obfsPassword _ a.install () t).mono (fun _ _ hw => hw.1) ?_
  rintro r u ⟨hu, hr⟩
  have hfiles := ht.toFilesOnly.trans (hu.mono hsub)
  rw [hexists] at hr
  split_ifs at hr with hinstall
  · obtain ⟨rfl, hcontent⟩ := hr
    have hbacked : BackedUp h u [(.obfsPassword, h.exists? .obfsPassword)] :=
      ⟨hcopy.existed, fun e he => by
        rw [hu.files _ (by simp [installPaths]), hcopy.copy e he]⟩
    have hnew : ∀ e ∈ plan.contents, u.content? e.1 = some (.text e.2) := by
      rw [hcontents]
      simpa using hcontent
    have hforward := obfsForward_wp inv a hcontents hinstall (htargets ▸ hfiles) hnew
    have hentries : [(StateFile.obfsPassword, h.exists? .obfsPassword)].map Prod.fst =
        plan.targets := htargets.symm
    have hend := commitOrRollBack_wp (fun _ => a.dropBackup) a.rollback
      (htargets ▸ rotatable_obfsPassword) hentries hbacked hforward
    dsimp only
    rw [hok]
    rwa [htargets] at hend ⊢
  · obtain ⟨rfl, hsame⟩ := hr
    have hdropped : ∀ g, Prepared [.obfsPassword] h (u.put (.rotateBak .obfsPassword) g) := by
      intro g
      refine ⟨hfiles.put (by simp [transactionPaths]), ?_⟩
      simp only [List.mem_singleton, forall_eq]
      rw [Host.put_files_of_ne _ _ _ (by simp), hsame]
      exact ht.live _ (by simp)
    have hkept : Prepared [.obfsPassword] h u := by
      have := hdropped (u.files (.rotateBak .obfsPassword))
      rwa [Host.put, Function.update_eq_self] at this
    dsimp only
    rw [herror]
    split_ifs
    · rw [wp_bind]
      exact wp_discardFile (fun _ => rfl) fun g _ => wp_fail.mpr (.untouched rfl (hdropped g))
    · exact wp_fail.mpr (.untouched rfl hkept)

/-- Every rotation of the obfuscation password ends in one of the ways a rotation can. -/
theorem cmdHysteriaObfsRotate_wp (site : Site) (inv : Invocation) (h : Host)
    (a : ObfsRotateAnswers) :
    Wp (cmdHysteriaObfsRotate site inv a) h
      (fun w t => w = .io ∨ w = .obfsRotateBegins a ∧ t = h)
      (RotatePath inv.pid [.obfsPassword] (obfsPlan site h a).toOption (a.swaps h) a.live
        a.rollback h) := by
  have huntouched : ∀ {e : RotateError} {t : Host}, e.report? = none →
      Prepared [.obfsPassword] h t →
      RotatePath inv.pid [.obfsPassword] (obfsPlan site h a).toOption (a.swaps h) a.live
        a.rollback h (.error e) t := fun he ht => .untouched he ht
  have hself : Prepared [.obfsPassword] h h := ⟨.refl _ _, fun _ _ => rfl⟩
  unfold cmdHysteriaObfsRotate
  rw [wp_bind, wp_mark]
  refine ⟨.inr ⟨rfl, rfl⟩, ?_⟩
  rw [wp_bind, wp_look]
  dsimp only
  refine wp_require_bind (fun _ => huntouched rfl hself) fun _ => ?_
  refine wp_require_bind (fun _ => huntouched rfl hself) fun _ => ?_
  rw [wp_bind, wp_look]
  cases hplan : obfsPlan site h a with
  | error e => exact wp_fail.mpr (hplan ▸ huntouched (obfsPlan_report? hplan) hself)
  | ok plan =>
    rw [hplan] at huntouched
    refine wp_staged inv (fun _ => .inl rfl) (fun _ e s he hs => ?_) fun _ s hs => ?_
    · exact huntouched (by rcases he with rfl | rfl | rfl <;> rfl)
        (prepared_of_backups rotatable_obfsPassword (.inr rfl) hs (.refl _ _))
    have hprep : ∀ {t : Host}, FilesOnly s t (bakPaths [.obfsPassword]) →
        Prepared [.obfsPassword] h t :=
      prepared_of_backups rotatable_obfsPassword (.inr rfl) hs
    rw [wp_bind, wp_mapError]
    refine (backupForRotate_wp .obfsPassword a.backup s).mono (fun _ _ hw => .inl hw.1) ?_
    rintro r t ⟨ht, hr⟩
    cases r with
    | error e => exact huntouched rfl (hprep ht)
    | ok existed =>
      obtain ⟨hexisted, -, hcopy⟩ := hr
      have hlive : s.files (.live .obfsPassword) = h.files (.live .obfsPassword) :=
        (hprep (.refl _ _)).live _ (by simp)
      obtain rfl : existed = h.exists? .obfsPassword := by
        rw [hexisted, Host.exists?, Host.exists?, hlive]
      have hbacked : BackedUp h t [(.obfsPassword, h.exists? .obfsPassword)] :=
        ⟨by simp, by simpa using hcopy.trans hlive⟩
      simp only [Except.mapError]
      exact (installObfs_wp inv rfl rfl (obfsPlan_contents hplan) (hprep ht) hbacked).mono
        (fun _ _ hw => .inl hw) fun _ _ hr => hr

def keysetPaths : List Path :=
  [StateFile.privateKey, .publicKey, .shortId, .obfsPassword].flatMap installPaths

theorem openToSubscription_wp (a : StateFile → Bool) (fs : List StateFile)
    (hfs : ∀ f ∈ fs, Path.live f ∈ keysetPaths) {s : Host} (hs : FilesOnly h s keysetPaths) :
    Wp (openToSubscription a fs) s (fun w _ => w = .io) fun r t =>
      FilesOnly h t keysetPaths ∧ ∀ e, r = .error e → e.report? = none := by
  induction fs generalizing s with
  | nil => simpa [openToSubscription] using hs
  | cons f fs ih =>
    obtain ⟨hf, hfs⟩ := List.forall_mem_cons.mp hfs
    unfold openToSubscription
    rw [wp_bind]
    apply wp_setMode
    · exact fun _ _ => rfl
    · exact fun g _ _ => ih hfs (hs.put hf)
    · refine fun _ => ⟨hs, fun e he => ?_⟩
      rw [← Except.error.inj he]
      rfl

theorem generateKeyset_wp (site : Site) (a : InitAnswers) (h : Host) :
    Wp (generateKeyset site a) h (fun w _ => w = .io) fun r t =>
      FilesOnly h t keysetPaths ∧ ∀ e, r = .error e → e.report? = none := by
  have hnone : ∀ {t : Host}, FilesOnly h t keysetPaths →
      FilesOnly h t keysetPaths ∧ ∀ e, (Except.error RotateError.notInstalled :
        Except RotateError Unit) = .error e → e.report? = none := by
    refine fun ht => ⟨ht, fun e he => ?_⟩
    rw [← Except.error.inj he]
    rfl
  unfold generateKeyset
  cases hk : generateRealityKeypair site a.rotate with
  | error e =>
    refine wp_fail.mpr ⟨.refl _ _, fun e' he => ?_⟩
    rw [← Except.error.inj he]
    exact generateRealityKeypair_report? hk
  | ok keys =>
    obtain ⟨priv, pub, sid⟩ := keys
    dsimp only
    rw [wp_bind, wp_mapError]
    refine (installContents_wp a.rotate.install
      [(.privateKey, priv), (.publicKey, pub), (.shortId, sid)]
      rotatable_realityFiles.nodup h).mono (fun _ _ hw => hw) ?_
    rintro r t ⟨ht, hr⟩
    have hfiles : FilesOnly h t keysetPaths := ht.mono (by simp [keysetPaths, installPaths])
    cases r with
    | error stage => exact hnone hfiles
    | ok u =>
      simp only [Except.mapError]
      rw [wp_bind]
      refine (openToSubscription_wp a.chmod _ (by simp [keysetPaths, installPaths]) hfiles).mono
        (fun _ _ hw => hw) ?_
      rintro r v ⟨hv, herr⟩
      cases r with
      | error e => exact ⟨hv, herr⟩
      | ok u =>
        dsimp only
        rw [wp_bind]
        refine (installRotatedKeyFile_wp .obfsPassword _ _ RotateError.notInstalled v).mono
          (fun _ _ hw => hw.1) ?_
        rintro r w ⟨hw, hr⟩
        have hinstalled : FilesOnly h w keysetPaths :=
          hv.trans (hw.mono (by simp [keysetPaths, installPaths]))
        split_ifs at hr
        · obtain ⟨rfl, -⟩ := hr
          exact openToSubscription_wp a.chmod _ (by simp [keysetPaths, installPaths]) hinstalled
        · obtain ⟨rfl, -⟩ := hr
          exact hnone hinstalled

/-- Every way `init` ends: as a rotation, as a first generation, or with nothing done. -/
inductive InitPath (site : Site) (inv : Invocation) (h : Host) (a : InitAnswers) :
    Except RotateError Unit → Host → Prop
  | rotated {r : Except RotateError Unit} {t : Host}
      (hr : RotatePath inv.pid realityFiles (realityPlan site h a.rotate).toOption
        (a.rotate.swaps h) a.rotate.live a.rotate.rollback h r t) : InitPath site inv h a r t
  | generated {r : Except RotateError Unit} {t : Host} (hpriv : h.exists? .privateKey = false)
      (ht : FilesOnly h t keysetPaths) (herr : ∀ e, r = .error e → e.report? = none) :
      InitPath site inv h a r t
  | nothing {r : Except RotateError Unit} (herr : ∀ e, r = .error e → e.report? = none) :
      InitPath site inv h a r h

theorem cmdInit_wp (site : Site) (inv : Invocation) (rotate : Bool) (h : Host) (a : InitAnswers) :
    Wp (cmdInit site inv rotate a) h (fun w t => w = .io ∨ w = .rotateBegins a.rotate ∧ t = h)
      (InitPath site inv h a) := by
  have hrotate := (cmdRealityRotate_wp site inv h a.rotate).mono (fun _ _ hw => hw)
    (fun r t hr => InitPath.rotated hr)
  have hfailed : ∀ {e : RotateError}, e.report? = none → InitPath site inv h a (.error e) h := by
    refine fun hnone => .nothing fun e he => ?_
    rwa [← Except.error.inj he]
  unfold cmdInit
  rw [wp_bind, wp_require]
  cases hdirs : a.createDirs with
  | false => exact hfailed rfl
  | true =>
    simp only [if_true, wp_bind, wp_look]
    cases hpriv : h.exists? .privateKey with
    | true =>
      cases rotate with
      | true => simpa using hrotate
      | false =>
        simp only [Bool.false_eq_true, if_false, if_true, wp_bind, wp_look, wp_require]
        split_ifs
        · exact .nothing (by simp)
        · exact hfailed rfl
    | false =>
      simp only [Bool.false_eq_true, if_false, wp_bind, wp_look]
      split_ifs
      · exact hrotate
      · refine (generateKeyset_wp site a h).mono (fun _ _ hw => .inl hw) ?_
        exact fun r t ht => .generated hpriv ht.1 ht.2

end Paths

end Vpn1.Admin
