import Vpn1.Admin.Apply
import Vpn1.Admin.FileTransaction

/-! What the two rotations share: putting a candidate document live on both services, and the
rollback of key files, `config.json` and services. -/

namespace Vpn1.Admin

open Compat Traced

/-- The step at which a rotation gave up, once it had begun to touch live files. -/
inductive RotateStage
  | installPrivateKey
  | installPublicKey
  | installShortId
  | filePolicy
  | applyConfig
  | singboxReload
  | subscriptionRestart
  | selfTest
  deriving DecidableEq, Repr

/-- `config_applied` as the rollback of that stage finds it. -/
def RotateStage.configApplied : RotateStage → Bool
  | .singboxReload | .subscriptionRestart | .selfTest => true
  | _ => false

structure RollbackReport where
  filesRestored : Bool
  singboxRecovered : Bool
  subscriptionRecovered : Bool
  deriving DecidableEq, Repr

def RollbackReport.restored (r : RollbackReport) : Bool :=
  r.filesRestored && r.singboxRecovered && r.subscriptionRecovered

section Programs

variable {ε : Type}

/-- Restart a service if systemd answers for it; the result is whether it was. -/
def reloadLive (q : ServiceAnswers) (restart : Prog Host Event RotateStage Bool)
    (stage : RotateStage) : Prog Host Event RotateStage Bool := do
  if q.controllable then
    if ← restart then pure true else Prog.fail stage
  else pure false

/-- Swap the candidate in and take both services to it; the result is whether both are live. -/
def goLive (pid : Nat) (doc : Json) (apply : ApplyAnswers) (a : LiveAnswers) :
    Prog Host Event RotateStage Bool := do
  Prog.mapError (fun _ => .applyConfig) (applyConfigAtomically pid doc apply)
  let singbox ← reloadLive a.singbox (restartSingbox a.singboxRestart) .singboxReload
  let subscription ← reloadLive a.subscription (restartSubscription a.subscriptionRestart)
    .subscriptionRestart
  pure (singbox && subscription)

/-- A service that systemd does not answer for counts as recovered. -/
def recoverService (q : ServiceAnswers) (restart : Prog Host Event ε Bool) :
    Prog Host Event ε Bool :=
  if q.controllable then restart else pure true

def rollback (entries : List (StateFile × Bool)) (configApplied : Bool) (a : RollbackAnswers) :
    Prog Host Event ε RollbackReport := do
  let restored ← restoreAll a.restore entries
  let copied ← if configApplied then copyBack a.copy else pure true
  let singbox ← recoverService a.singbox (restartSingbox a.singboxRestart)
  let subscription ← recoverService a.subscription (restartSubscription a.subscriptionRestart)
  pure ⟨restored && copied, singbox, subscription⟩

end Programs

section GoLive

def LiveAnswers.loadsNew (a : LiveAnswers) : Bool :=
  a.singbox.controllable && a.singboxRestart.restarts

def LiveAnswers.singboxFails (a : LiveAnswers) : Bool :=
  a.singbox.controllable && a.singboxRestart != .active

/-- `vpn-subscription` is restarted over the new files. -/
def LiveAnswers.servesNew (a : LiveAnswers) : Bool :=
  !a.singboxFails && a.subscription.controllable && a.subscriptionRestart.restarts

/-- `t` is `h` with its configuration swapped for `doc` and the services taken along as far as
the answers go. -/
structure WentLive (pid : Nat) (doc : Json) (a : LiveAnswers) (h : Host)
    (r : Except RotateStage Bool) (t : Host) : Prop where
  same : SameExcept h t (swapPaths pid)
  config : t.content? .config = some (.json doc)
  bak : t.content? .configBak = h.keptConfig
  loaded : t.loaded = if a.loadsNew then some doc else h.loaded
  cached : t.cached = if a.servesNew then subscriptionStartup h else h.cached
  stage : ∀ stage, r = .error stage → stage.configApplied = true
  ok : ∀ live, r = .ok live → a.singboxFails = false ∧
    live = (a.singbox.controllable && a.subscription.controllable) ∧
    (a.subscription.controllable = true → a.servesNew = true ∧ (subscriptionStartup h).isSome = true)

theorem Swapped.keepsMaterial {pid : Nat} {h t : Host} {doc : Json} (ht : Swapped pid h doc t) :
    KeepsMaterial h t :=
  ht.toSameExcept.keepsMaterial (by simp [swapPaths]) (by simp [swapPaths]) (by simp [swapPaths])
    (by simp [swapPaths])

/-- The second half of `goLive`, once sing-box has been dealt with. -/
theorem reloadSubscription_wp {pid : Nat} {doc : Json} {a : LiveAnswers} {h s : Host}
    {singbox : Bool} (hs : Swapped pid h doc s) (hfails : a.singboxFails = false)
    (hsingbox : singbox = a.singbox.controllable) {l : Option Json}
    (hl : l = if a.loadsNew then some doc else h.loaded) :
    Wp (do
        let subscription ← reloadLive a.subscription (restartSubscription a.subscriptionRestart)
          .subscriptionRestart
        pure (singbox && subscription)) { s with loaded := l }
      (fun w t => w = .io ∧ SameExcept h t (swapPaths pid)) (WentLive pid doc a h) := by
  have hstart : subscriptionStartup { s with loaded := l } = subscriptionStartup h :=
    hs.keepsMaterial.subscriptionStartup
  have hsame : ∀ m, SameExcept h { s with loaded := l, cached := m } (swapPaths pid) :=
    fun _ => ⟨hs.files, hs.umask, hs.binaryInstalled, hs.masqueradeDir⟩
  simp only [reloadLive, wp_bind]
  cases hq : a.subscription.controllable with
  | false =>
    have hserves : a.servesNew = false := by simp [LiveAnswers.servesNew, hq]
    have hpath : WentLive pid doc a h (.ok (singbox && false)) { s with loaded := l } :=
      ⟨hsame s.cached, hs.config, hs.bak, hl, by simp [hserves, hs.cached], by simp, by
        rintro live hlive
        simp only [Except.ok.injEq] at hlive
        exact ⟨hfails, by simp [← hlive, hq], by simp [hq]⟩⟩
    simpa using hpath
  | true =>
    simp only [if_true, wp_bind]
    have hcached : afterRestart a.subscriptionRestart (subscriptionStartup h) s.cached =
        if a.servesNew then subscriptionStartup h else h.cached := by
      simp only [afterRestart, LiveAnswers.servesNew, hfails, hq, hs.cached, Bool.not_false,
        Bool.and_self, Bool.true_and]
    apply wp_restartSubscription
    · exact fun m => ⟨rfl, hsame m⟩
    · rw [hstart]
      cases hup : (subscriptionStartup h).isSome && a.subscriptionRestart == .active with
      | false =>
        simp only [Bool.false_eq_true, if_false, wp_fail]
        exact ⟨hsame _, hs.config, hs.bak, hl, hcached, by simp [RotateStage.configApplied], by simp⟩
      | true =>
        simp only [Bool.and_eq_true, beq_iff_eq] at hup
        have hserves : a.servesNew = true := by
          simp [LiveAnswers.servesNew, hfails, hq, hup.2, RestartAnswer.restarts]
        simp only [if_true, wp_pure]
        refine ⟨hsame _, hs.config, hs.bak, hl, hcached, by simp, ?_⟩
        intro live hlive
        simp only [Except.ok.injEq] at hlive
        exact ⟨hfails, by simp [← hlive, hq, hsingbox], fun _ => ⟨hserves, hup.1⟩⟩

/-- Going live swaps the configuration and restarts what it can, or leaves `config.json` alone. -/
theorem goLive_wp (pid : Nat) (doc : Json) (apply : ApplyAnswers) (a : LiveAnswers) (h : Host) :
    Wp (goLive pid doc apply a) h (fun w t => w = .io ∧ SameExcept h t (swapPaths pid)) fun r t =>
      if apply.succeeds (h.exists? .config) then WentLive pid doc a h r t
      else r = .error .applyConfig ∧ FilesOnly h t (swapPaths pid) ∧
        t.files (.live .config) = h.files (.live .config) := by
  unfold goLive
  rw [wp_bind, wp_mapError]
  refine (applyConfigAtomically_wp pid doc apply h).mono ?_ ?_
  · exact fun w t ht => ⟨ht.1, ht.2.toSameExcept⟩
  · intro r s hr
    split_ifs at hr with happly
    · obtain ⟨rfl, hs⟩ := hr
      have hjson : s.json? .config = some doc := by simp [Host.json?, hs.config, Content.json?]
      have hsame : ∀ d, SameExcept h { s with loaded := d } (swapPaths pid) :=
        fun _ => ⟨hs.files, hs.umask, hs.binaryInstalled, hs.masqueradeDir⟩
      simp only [Except.mapError, happly, if_true]
      rw [wp_bind, reloadLive]
      cases hq : a.singbox.controllable with
      | false =>
        have hloads : a.loadsNew = false := by simp [LiveAnswers.loadsNew, hq]
        have hfails : a.singboxFails = false := by simp [LiveAnswers.singboxFails, hq]
        simpa using reloadSubscription_wp hs hfails hq.symm (by simp [hloads, hs.loaded])
      | true =>
        simp only [if_true]
        rw [wp_bind]
        have hloaded : afterRestart a.singboxRestart (some doc) h.loaded =
            if a.loadsNew then some doc else h.loaded := by
          simp [afterRestart, LiveAnswers.loadsNew, hq]
        apply wp_restartSingbox
        · exact fun d => ⟨rfl, hsame d⟩
        · rw [hjson, hs.loaded, Option.isSome_some, Bool.true_and]
          by_cases hr : a.singboxRestart = .active
          · have hfails : a.singboxFails = false := by simp [LiveAnswers.singboxFails, hr]
            rw [beq_iff_eq.mpr hr]
            simp only [if_true, wp_pure]
            exact reloadSubscription_wp hs hfails hq.symm hloaded
          · have hserves : a.servesNew = false := by
              simp [LiveAnswers.servesNew, LiveAnswers.singboxFails, hq, hr]
            rw [beq_false_of_ne hr]
            simp only [Bool.false_eq_true, if_false, wp_fail]
            exact ⟨hsame _, hs.config, hs.bak, hloaded, by simp [hserves, hs.cached],
              by simp [RotateStage.configApplied], by simp⟩
    · obtain ⟨⟨e, rfl⟩, ht, hconfig⟩ := hr
      simp [Except.mapError, happly, ht, hconfig]

end GoLive

section RollingBack

/-- What a rollback from `s` leaves, `h` being the host the backups were taken of. -/
structure RolledBack (entries : List (StateFile × Bool)) (configApplied : Bool)
    (a : RollbackAnswers) (h s : Host) (report : RollbackReport) (t : Host) : Prop where
  same : SameExcept s t (.live .config :: restorePaths (entries.map Prod.fst))
  files : report.filesRestored = true → ∀ e ∈ entries, t.files (.live e.1) = h.files (.live e.1)
  notApplied : configApplied = false → t.content? .config = s.content? .config
  applied : configApplied = true →
    ((s.content? .configBak).isSome = true ∧ a.copy = .done ∧
      t.content? .config = s.content? .configBak) ∨
    (report.filesRestored = false ∧ ((s.content? .configBak).isSome = false ∨ a.copy ≠ .done) ∧
      (t.content? .config = s.content? .config ∨ t.content? .config = some .torn))
  loaded : t.loaded =
    if a.singbox.controllable then afterRestart a.singboxRestart (t.json? .config) s.loaded
    else s.loaded
  cached : t.cached =
    if a.subscription.controllable then
      afterRestart a.subscriptionRestart (subscriptionStartup t) s.cached
    else s.cached
  singbox : report.singboxRecovered =
    (!a.singbox.controllable || (t.json? .config).isSome && a.singboxRestart == .active)
  subscription : report.subscriptionRecovered =
    (!a.subscription.controllable ||
      (subscriptionStartup t).isSome && a.subscriptionRestart == .active)

section ServiceRecovery

variable {ε : Type} {h : Host} {G : Event → Host → Prop} {q : ServiceAnswers} {a : RestartAnswer}
  {Q : Except ε Bool → Host → Prop}

theorem wp_recoverSingbox (hG : ∀ d, G .io { h with loaded := d })
    (hQ : Q (.ok (!q.controllable || (h.json? .config).isSome && a == .active))
      { h with loaded :=
        if q.controllable then afterRestart a (h.json? .config) h.loaded else h.loaded }) :
    Wp (recoverService q (restartSingbox a)) h G Q := by
  unfold recoverService
  cases hq : q.controllable with
  | false => simpa [hq] using hQ
  | true =>
    simp only [hq, Bool.not_true, Bool.false_or, if_true] at hQ
    exact wp_restartSingbox hG hQ

theorem wp_recoverSubscription (hG : ∀ m, G .io { h with cached := m })
    (hQ : Q (.ok (!q.controllable || (subscriptionStartup h).isSome && a == .active))
      { h with cached :=
        if q.controllable then afterRestart a (subscriptionStartup h) h.cached else h.cached }) :
    Wp (recoverService q (restartSubscription a)) h G Q := by
  unfold recoverService
  cases hq : q.controllable with
  | false => simpa [hq] using hQ
  | true =>
    simp only [hq, Bool.not_true, Bool.false_or, if_true] at hQ
    exact wp_restartSubscription hG hQ

end ServiceRecovery

theorem rollback_wp {ε : Type} {entries : List (StateFile × Bool)} (configApplied : Bool)
    (a : RollbackAnswers) {h s : Host} (hnodup : (entries.map Prod.fst).Nodup)
    (hconfig : StateFile.config ∉ entries.map Prod.fst)
    (hbak : StateFile.configBak ∉ entries.map Prod.fst) (hs : BackedUp h s entries) :
    Wp (rollback entries configApplied a : Prog Host Event ε RollbackReport) s
      (fun w t => w = .io ∧ SameExcept s t (.live .config :: restorePaths (entries.map Prod.fst)))
      fun r t => ∃ report, r = .ok report ∧ RolledBack entries configApplied a h s report t := by
  have hrestore : ∀ p ∈ restorePaths (entries.map Prod.fst),
      p ∈ Path.live .config :: restorePaths (entries.map Prod.fst) := fun _ => List.mem_cons_of_mem _
  have hcopy : ∀ p ∈ [Path.live .config],
      p ∈ Path.live .config :: restorePaths (entries.map Prod.fst) := by simp
  have houtside : ∀ f ∉ entries.map Prod.fst, Path.live f ∉ restorePaths (entries.map Prod.fst) := by
    intro f hf
    simpa [restorePaths] using hf
  unfold rollback
  rw [wp_bind]
  refine (restoreAll_wp a.restore entries hnodup hs).mono ?_ ?_
  · exact fun w t ht => ⟨ht.1, ht.2.toSameExcept.mono hrestore⟩
  rintro r t ⟨ht, restored, rfl, hfiles⟩
  have htconfig : t.content? .config = s.content? .config := ht.content? (houtside _ hconfig)
  have htbak : t.content? .configBak = s.content? .configBak := ht.content? (houtside _ hbak)
  -- the configuration is copied back or left alone; then come the two restarts
  have hservices : ∀ (u : Host) (copied : Bool),
      FilesOnly t u [.live .config] →
      (configApplied = false → copied = true ∧ u.content? .config = s.content? .config) →
      (configApplied = true →
        ((s.content? .configBak).isSome = true ∧ a.copy = .done ∧
          u.content? .config = s.content? .configBak) ∨
        (copied = false ∧ ((s.content? .configBak).isSome = false ∨ a.copy ≠ .done) ∧
          (u.content? .config = s.content? .config ∨ u.content? .config = some .torn))) →
      Wp (do
          let singbox ← recoverService a.singbox (restartSingbox a.singboxRestart)
          let subscription ← recoverService a.subscription
            (restartSubscription a.subscriptionRestart)
          pure ⟨restored && copied, singbox, subscription⟩ : Prog Host Event ε RollbackReport) u
        (fun w t => w = .io ∧
          SameExcept s t (.live .config :: restorePaths (entries.map Prod.fst)))
        fun r t => ∃ report, r = .ok report ∧
          RolledBack entries configApplied a h s report t := by
    intro u copied hu hnot happlied
    have hsame := (ht.toSameExcept.mono hrestore).trans (hu.toSameExcept.mono hcopy)
    have hwith : ∀ d m, SameExcept s { u with loaded := d, cached := m }
        (.live .config :: restorePaths (entries.map Prod.fst)) :=
      fun _ _ => ⟨hsame.files, hsame.umask, hsame.binaryInstalled, hsame.masqueradeDir⟩
    rw [wp_bind]
    apply wp_recoverSingbox
    · exact fun d => ⟨rfl, hwith d u.cached⟩
    simp only [wp_bind]
    apply wp_recoverSubscription
    · exact fun m => ⟨rfl, hwith _ m⟩
    refine wp_pure.mpr ⟨_, rfl, hwith _ _, ?_, fun hno => (hnot hno).2, ?_, ?_, ?_, rfl, rfl⟩
    · intro hrestored e he
      simp only [Bool.and_eq_true] at hrestored
      have hne : e.1 ≠ .config := fun heq => hconfig (heq ▸ List.mem_map_of_mem he)
      rw [← hfiles hrestored.1 e he]
      exact hu.files _ (by simpa using hne)
    · intro hyes
      refine (happlied hyes).imp id fun hfail => ⟨by simp [hfail.1], hfail.2⟩
    · simp only [hu.loaded, ht.loaded]
      rfl
    · simp only [hu.cached, ht.cached]
      rfl
  cases configApplied with
  | false => simpa using hservices t true (.refl _ _) (fun _ => ⟨rfl, htconfig⟩) (by simp)
  | true =>
    simp only [if_true]
    rw [wp_bind]
    refine (copyBack_wp a.copy t).mono ?_ ?_
    · exact fun w u hu =>
        ⟨hu.1, (ht.toSameExcept.mono hrestore).trans (hu.2.toSameExcept.mono hcopy)⟩
    rintro r u ⟨copied, rfl, hu⟩
    refine hservices u copied hu.toFilesOnly (by simp) fun _ => ?_
    have hout := hu.outcome
    rw [htbak, htconfig] at hout
    rcases hout with ⟨-, hback⟩ | hfail
    · exact .inl hback
    · exact .inr hfail

end RollingBack

section Rotation

/-- What a rotation is about to put in place: a document for sing-box and the texts of its files. -/
structure RotatePlan where
  users : List CompatUser
  doc : Json
  contents : List (StateFile × String)

namespace RotatePlan

def targets (plan : RotatePlan) : List StateFile := plan.contents.map Prod.fst

/-- What a file will say once the plan is installed over `h`. -/
def text? (plan : RotatePlan) (h : Host) (f : StateFile) : Option String :=
  (plan.contents.lookup f).or (h.text? f)

/-- What `vpn-subscription` would start with. -/
def startup (plan : RotatePlan) (h : Host) : Option PublicMaterial :=
  startupMaterial (plan.text? h .publicKey) (plan.text? h .shortId)
    (((plan.text? h .obfsPassword).map trim).filter (· ≠ ""))

end RotatePlan

/-- Every file a rotation may write, apart from the configuration and its siblings. -/
def transactionPaths (targets : List StateFile) : List Path :=
  targets.map .live ++ targets.map .rotateTmp ++ targets.map .rotateBak ++
    [.live .rotateCandidate, .live .obfsRotateCandidate]

def rotatePaths (pid : Nat) (targets : List StateFile) : List Path :=
  transactionPaths targets ++ swapPaths pid

/-- `t` is `h` but for the siblings that a rotation prepares. -/
structure Prepared (targets : List StateFile) (h t : Host) : Prop
    extends FilesOnly h t (transactionPaths targets) where
  live : ∀ f ∈ targets, t.files (.live f) = h.files (.live f)

/-- What has become of `h` when the forward part of a rotation ends, `swap` telling whether it got
past the swap of `config.json`. -/
structure Advanced (pid : Nat) (plan : RotatePlan) (swap : Bool) (a : LiveAnswers) (h : Host)
    (r : Except RotateStage Unit) (t : Host) : Prop where
  same : SameExcept h t (rotatePaths pid plan.targets)
  swapped : swap = true → t.content? .config = some (.json plan.doc) ∧
    t.content? .configBak = h.keptConfig ∧ ∀ e ∈ plan.contents, t.content? e.1 = some (.text e.2)
  notSwapped : swap = false → t.content? .config = h.content? .config
  loaded : t.loaded = if swap && a.loadsNew then some plan.doc else h.loaded
  cached : t.cached = if swap && a.servesNew then plan.startup h else h.cached
  stage : ∀ stage, r = .error stage → stage.configApplied = swap
  ok : r = .ok () → swap = true ∧ a.singboxFails = false ∧
    (a.subscription.controllable = true → a.servesNew = true ∧ (plan.startup h).isSome = true)

inductive RotateError
  | createDir
  | partialKeyset
  | binaryMissing
  | keypair
  | incoherentKeypair (cause : CredentialError)
  | loadReality (cause : LoadRealityError)
  | load (cause : CompatError)
  | notStaged
  | checkFailed
  | unavailable
  | backup (cause : BackupError)
  | notInstalled
  | rolledBack (stage : RotateStage) (report : RollbackReport)
  deriving DecidableEq, Repr

/-- What the error of a rotation says about its rollback, if it had one. -/
def RotateError.report? : RotateError → Option RollbackReport
  | .rolledBack _ report => some report
  | _ => none

/-- Run the forward part; discard the backups if it succeeds and roll back if it fails. -/
def commitOrRollBack (targets : List StateFile) (entries : List (StateFile × Bool))
    (forward : Prog Host Event RotateStage Unit) (drop : StateFile → Bool) (a : RollbackAnswers) :
    Prog Host Event RotateError Unit := do
  match ← Prog.attempt forward with
  | .ok () => discardBackups drop targets
  | .error stage =>
    let report ← rollback entries stage.configApplied a
    Prog.fail (.rolledBack stage report)

/-- Every way a rotation ends. `plan` is what it set out to install, if it got that far. -/
inductive RotatePath (pid : Nat) (targets : List StateFile) (plan : Option RotatePlan) (swap : Bool)
    (live : LiveAnswers) (a : RollbackAnswers) (h : Host) : Except RotateError Unit → Host → Prop
  | untouched {e : RotateError} {t : Host} (he : e.report? = none)
      (ht : Prepared targets h t) : RotatePath pid targets plan swap live a h (.error e) t
  | rolledBack {p : RotatePlan} {stage : RotateStage} {report : RollbackReport}
      {entries : List (StateFile × Bool)} {s t : Host} (hplan : plan = some p)
      (hs : Advanced pid p swap live h (.error stage) s) (hentries : entries.map Prod.fst = targets)
      (ht : RolledBack entries stage.configApplied a h s report t) :
      RotatePath pid targets plan swap live a h (.error (.rolledBack stage report)) t
  | committed {p : RotatePlan} {s t : Host} (hplan : plan = some p)
      (hs : Advanced pid p swap live h (.ok ()) s) (ht : FilesOnly s t (bakPaths targets)) :
      RotatePath pid targets plan swap live a h (.ok ()) t

/-- The files of a rotation are key material: no configuration, stamp or candidate. -/
structure Rotatable (targets : List StateFile) : Prop where
  nodup : targets.Nodup
  config : StateFile.config ∉ targets
  configBak : StateFile.configBak ∉ targets
  appliedStamp : StateFile.appliedStamp ∉ targets
  staged : ∀ f ∈ targets, f ≠ .rotateCandidate ∧ f ≠ .obfsRotateCandidate

theorem commitOrRollBack_wp {pid : Nat} {plan : RotatePlan} {swap : Bool} {live : LiveAnswers}
    {h s : Host} {entries : List (StateFile × Bool)} {forward : Prog Host Event RotateStage Unit}
    (drop : StateFile → Bool) (a : RollbackAnswers) (hrot : Rotatable plan.targets)
    (hentries : entries.map Prod.fst = plan.targets) (hs : BackedUp h s entries)
    (hforward : Wp forward s (fun w _ => w = .io) fun r t =>
      Advanced pid plan swap live h r t ∧
        ∀ f, t.files (.rotateBak f) = s.files (.rotateBak f)) :
    Wp (commitOrRollBack plan.targets entries forward drop a) s (fun w _ => w = .io)
      (RotatePath pid plan.targets (some plan) swap live a h) := by
  simp only [commitOrRollBack, wp_bind, wp_attempt]
  refine hforward.mono (fun _ _ hw => hw) ?_
  rintro r t ⟨ht, hkept⟩
  cases r with
  | ok u =>
    refine (discardBackups_wp drop plan.targets plan.targets (fun _ hg => hg)
      (FilesOnly.refl t _)).mono (fun _ _ hw => hw.1) ?_
    rintro r v ⟨rfl, hv⟩
    exact .committed rfl ht hv
  | error stage =>
    have hbacked : BackedUp h t entries := ⟨hs.existed, fun e he => by rw [hkept, hs.copy e he]⟩
    simp only [wp_bind]
    refine (rollback_wp stage.configApplied a (hentries ▸ hrot.nodup) (hentries ▸ hrot.config)
      (hentries ▸ hrot.configBak) hbacked).mono (fun _ _ hw => hw.1) ?_
    rintro r v ⟨report, rfl, hv⟩
    exact wp_fail.mpr (.rolledBack rfl ht hentries hv)

section Advancing

variable {pid : Nat} {plan : RotatePlan} {live : LiveAnswers} {h s : Host}

theorem live_not_mem_transactionPaths {f : StateFile} {targets : List StateFile} (hf : f ∉ targets)
    (hstaged : f ≠ .rotateCandidate ∧ f ≠ .obfsRotateCandidate) :
    Path.live f ∉ transactionPaths targets := by
  simp [transactionPaths, hf, hstaged]

/-- Staging a candidate and taking backups is all that comes before the forward part. -/
theorem prepared_of_backups {targets : List StateFile} {f : StateFile} {t : Host}
    (hrot : Rotatable targets) (hf : f = .rotateCandidate ∨ f = .obfsRotateCandidate)
    (hs : FilesOnly h s [.live f]) (ht : FilesOnly s t (bakPaths targets)) :
    Prepared targets h t := by
  have hsub : ∀ p ∈ [Path.live f], p ∈ transactionPaths targets := by
    rcases hf with rfl | rfl <;> simp [transactionPaths]
  have hsub' : ∀ p ∈ bakPaths targets, p ∈ transactionPaths targets := by
    intro p hp
    simp only [bakPaths] at hp
    simp only [transactionPaths, List.mem_append]
    exact .inl (.inr hp)
  refine ⟨(hs.mono hsub).trans (ht.mono hsub'), fun g hg => ?_⟩
  have hne : g ≠ f := by
    rcases hf with rfl | rfl
    · exact (hrot.staged g hg).1
    · exact (hrot.staged g hg).2
  rw [ht.files _ (by simp [bakPaths]), hs.files _ (by simpa using hne)]

/-- Once the files of a plan are in place, each says what the plan says or what it said before. -/
theorem RotatePlan.text?_eq
    (hcontents : ∀ e ∈ plan.contents, s.content? e.1 = some (.text e.2)) {f : StateFile}
    (hother : f ∉ plan.targets → s.text? f = h.text? f) : s.text? f = plan.text? h f := by
  unfold RotatePlan.text?
  cases hf : plan.contents.lookup f with
  | some text =>
    obtain ⟨l₁, l₂, hsplit, -⟩ := List.lookup_eq_some_iff.mp hf
    have hcontent := hcontents (f, text) (by simp [hsplit])
    simp only at hcontent
    simp [Host.text?, hcontent, Content.text?]
  | none =>
    have hnot : f ∉ plan.targets := by
      intro hmem
      obtain ⟨e, he, rfl⟩ := List.mem_map.mp hmem
      simpa using List.lookup_eq_none_iff.mp hf e he
    simpa using hother hnot

/-- So `vpn-subscription` starts with what the plan makes of it. -/
theorem RotatePlan.startup_eq_of_text?
    (hpub : s.text? .publicKey = plan.text? h .publicKey)
    (hsid : s.text? .shortId = plan.text? h .shortId)
    (hobfs : s.text? .obfsPassword = plan.text? h .obfsPassword) :
    subscriptionStartup s = plan.startup h := by
  simp only [subscriptionStartup, RotatePlan.startup, Host.obfsPassword, Host.read, if_true, hpub,
    hsid, hobfs]

theorem RotatePlan.startup_eq (hs : FilesOnly h s (transactionPaths plan.targets))
    (hcontents : ∀ e ∈ plan.contents, s.content? e.1 = some (.text e.2)) :
    subscriptionStartup s = plan.startup h := by
  have htext : ∀ f, f ≠ .rotateCandidate ∧ f ≠ .obfsRotateCandidate →
      s.text? f = plan.text? h f := fun f hf => RotatePlan.text?_eq hcontents fun hnot =>
    hs.text? (live_not_mem_transactionPaths hnot hf)
  exact RotatePlan.startup_eq_of_text? (htext .publicKey (by simp)) (htext .shortId (by simp))
    (htext .obfsPassword (by simp))

/-- A forward part that stops before the swap has touched the files of its plan only. -/
theorem advanced_of_transaction {stage : RotateStage} (hrot : Rotatable plan.targets)
    (hstage : stage.configApplied = false) (hs : FilesOnly h s (transactionPaths plan.targets)) :
    Advanced pid plan false live h (.error stage) s where
  same := hs.toSameExcept.mono fun p hp => by simp [rotatePaths, hp]
  swapped := by simp
  notSwapped _ := hs.content? (live_not_mem_transactionPaths hrot.config (by simp))
  loaded := by simpa using hs.loaded
  cached := by simpa using hs.cached
  stage := by
    intro stage' heq
    rw [← Except.error.inj heq, hstage]
  ok := by simp

/-- Rejecting the handshake is a failure after the swap. -/
theorem Advanced.selfTest {swap : Bool} (hs : Advanced pid plan swap live h (.ok ()) s) :
    Advanced pid plan swap live h (.error .selfTest) s where
  same := hs.same
  swapped := hs.swapped
  notSwapped := hs.notSwapped
  loaded := hs.loaded
  cached := hs.cached
  stage := by
    intro stage heq
    rw [← Except.error.inj heq, (hs.ok rfl).1]
    rfl
  ok := by simp

/-- With the files of the plan in place, going live is the rest of the forward part. -/
theorem goLive_advanced (apply : ApplyAnswers) (hrot : Rotatable plan.targets)
    (hs : FilesOnly h s (transactionPaths plan.targets))
    (hcontents : ∀ e ∈ plan.contents, s.content? e.1 = some (.text e.2)) :
    Wp (goLive pid plan.doc apply live) s (fun w _ => w = .io) fun r t =>
      Advanced pid plan (apply.succeeds (h.exists? .config)) live h (r.map fun _ => ()) t ∧
        ∀ f, t.files (.rotateBak f) = s.files (.rotateBak f) := by
  have hconfigNot : Path.live .config ∉ transactionPaths plan.targets :=
    live_not_mem_transactionPaths hrot.config (by simp)
  have hbakNot : Path.live .configBak ∉ transactionPaths plan.targets :=
    live_not_mem_transactionPaths hrot.configBak (by simp)
  have hexists : s.exists? .config = h.exists? .config := by
    simp only [Host.exists?, hs.files _ hconfigNot]
  have hkept : s.keptConfig = h.keptConfig := by
    simp only [Host.keptConfig, hexists, hs.content? hconfigNot, hs.content? hbakNot]
  have hbaks : ∀ {t : Host}, SameExcept s t (swapPaths pid) →
      ∀ f, t.files (.rotateBak f) = s.files (.rotateBak f) :=
    fun ht f => ht.files _ (by simp [swapPaths])
  have hsame : ∀ {t : Host}, SameExcept s t (swapPaths pid) →
      SameExcept h t (rotatePaths pid plan.targets) := fun ht =>
    (hs.toSameExcept.mono fun p hp => by simp [rotatePaths, hp]).trans
      (ht.mono fun p hp => by simp [rotatePaths, hp])
  refine (goLive_wp pid plan.doc apply live s).mono (fun _ _ hw => hw.1) ?_
  intro r t ht
  rw [hexists] at ht
  split_ifs at ht with happly
  · rw [happly]
    refine ⟨⟨hsame ht.same, fun _ => ⟨ht.config, ht.bak.trans hkept, fun e he => ?_⟩, by simp, ?_,
      ?_, fun stage heq => ?_, fun hok => ⟨rfl, ?_⟩⟩, hbaks ht.same⟩
    · have hmem : e.1 ∈ plan.targets := List.mem_map_of_mem he
      have hne : Path.live e.1 ∉ swapPaths pid := by
        have hconfig : e.1 ≠ .config := fun heq => hrot.config (heq ▸ hmem)
        have hbak : e.1 ≠ .configBak := fun heq => hrot.configBak (heq ▸ hmem)
        simp [swapPaths, hconfig, hbak]
      rw [ht.same.content? hne]
      exact hcontents e he
    · simpa [hs.loaded] using ht.loaded
    · simpa [hs.cached, RotatePlan.startup_eq hs hcontents] using ht.cached
    · cases r with
      | ok b => simp [Except.map] at heq
      | error stage' => exact ht.stage stage (by simpa [Except.map] using heq)
    · cases r with
      | error stage => simp [Except.map] at hok
      | ok b =>
        obtain ⟨hfails, -, hserves⟩ := ht.ok b rfl
        rw [RotatePlan.startup_eq hs hcontents] at hserves
        exact ⟨hfails, hserves⟩
  · obtain ⟨rfl, hfiles, hconfig⟩ := ht
    simp only [Bool.not_eq_true] at happly
    rw [happly]
    refine ⟨⟨hsame hfiles.toSameExcept, by simp, fun _ => ?_, ?_, ?_, ?_, by simp [Except.map]⟩,
      hbaks hfiles.toSameExcept⟩
    · rw [Host.content?, hconfig]
      exact hs.content? hconfigNot
    · simpa using hfiles.loaded.trans hs.loaded
    · simpa using hfiles.cached.trans hs.cached
    · simp [Except.map, RotateStage.configApplied]

end Advancing

end Rotation

end Vpn1.Admin
