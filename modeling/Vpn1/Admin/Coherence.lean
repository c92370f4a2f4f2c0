import Vpn1.Admin.Histories

/-! The key material of a host in its three places: the files, `config.json` with what sing-box has
loaded of it, and what `vpn-subscription` serves; and the commands that keep them together. -/

namespace Vpn1.Admin

open Compat Traced

structure Keyset where
  privateKey : String
  publicKey : String
  shortId : String
  obfsPassword : Option String

def Keyset.secrets (k : Keyset) : ServerSecrets :=
  ⟨some (.str k.privateKey), some (.arr [.str k.shortId]), k.obfsPassword.map .str⟩

/-- What `vpn-subscription` hands out of it. -/
def Keyset.published (k : Keyset) : PublicMaterial := ⟨k.publicKey, k.shortId, k.obfsPassword⟩

/-- The key files hold `k`; reading them checks that the public key belongs to the private one. -/
structure OnDisk (site : Site) (k : Keyset) (h : Host) : Prop where
  reality : loadRealityParams site h ⟨true, true, true⟩ =
    .ok (realityParams site k.privateKey k.publicKey k.shortId)
  obfs : h.obfsPassword true = k.obfsPassword

/-- `config.json` and sing-box have what the key files hold. -/
structure Enforced (site : Site) (k : Keyset) (h : Host) : Prop where
  disk : OnDisk site k h
  config : (h.json? .config).map secretsOf = some k.secrets
  loaded : h.loaded.map secretsOf = some k.secrets

/-- Everything belongs to one set of key material. -/
structure Coherent (site : Site) (k : Keyset) (h : Host) : Prop extends Enforced site k h where
  cached : h.cached = some k.published

section Reading

variable {site : Site} {h t : Host} {k : Keyset}

theorem Host.read_eq_some {f : StateFile} {ok : Bool} {text : String}
    (hread : h.read f ok = some text) : h.text? f = some text := by
  cases ok with
  | true => simpa [Host.read] using hread
  | false => simp [Host.read] at hread

theorem loadRealityParams_eq_ok {a : KeyReads} {reality : RealityServerParams}
    (hload : loadRealityParams site h a = .ok reality) :
    ∃ priv pub sid, h.text? .privateKey = some priv ∧ h.text? .publicKey = some pub ∧
      h.text? .shortId = some sid ∧
      validateRealityKeypair site.mulBaseClamped (trim priv) (trim pub) = .ok () ∧
      reality = realityParams site (trim priv) (trim pub) (trim sid) := by
  unfold loadRealityParams at hload
  cases hpriv : h.read .privateKey a.privateKey with
  | none => simp [hpriv] at hload
  | some priv =>
    cases hpub : h.read .publicKey a.publicKey with
    | none => simp [hpriv, hpub] at hload
    | some pub =>
      cases hvalid : validateRealityKeypair site.mulBaseClamped (trim priv) (trim pub) with
      | error e => simp [hpriv, hpub, hvalid] at hload
      | ok u =>
        cases hsid : h.read .shortId a.shortId with
        | none => simp [hpriv, hpub, hvalid, hsid] at hload
        | some sid =>
          simp only [hpriv, hpub, hvalid, hsid, Except.ok.injEq] at hload
          exact ⟨priv, pub, sid, Host.read_eq_some hpriv, Host.read_eq_some hpub,
            Host.read_eq_some hsid, hvalid, hload.symm⟩

theorem loadRealityParams_of_texts {priv pub sid : String} (hpriv : h.text? .privateKey = some priv)
    (hpub : h.text? .publicKey = some pub) (hsid : h.text? .shortId = some sid)
    (hvalid : validateRealityKeypair site.mulBaseClamped (trim priv) (trim pub) = .ok ()) :
    loadRealityParams site h ⟨true, true, true⟩ =
      .ok (realityParams site (trim priv) (trim pub) (trim sid)) := by
  simp [loadRealityParams, Host.read, hpriv, hpub, hsid, hvalid]

private theorem loadRealityParams_all {a : KeyReads} {reality : RealityServerParams}
    (hload : loadRealityParams site h a = .ok reality) :
    loadRealityParams site h ⟨true, true, true⟩ = .ok reality := by
  obtain ⟨priv, pub, sid, hpriv, hpub, hsid, hvalid, rfl⟩ := loadRealityParams_eq_ok hload
  exact loadRealityParams_of_texts hpriv hpub hsid hvalid

def materialFiles : List StateFile := [.privateKey, .publicKey, .shortId, .obfsPassword]

theorem OnDisk.of_texts (hk : OnDisk site k h)
    (ht : ∀ f ∈ materialFiles, t.text? f = h.text? f) : OnDisk site k t := by
  have hpriv := ht .privateKey (by simp [materialFiles])
  have hpub := ht .publicKey (by simp [materialFiles])
  have hsid := ht .shortId (by simp [materialFiles])
  have hobfs := ht .obfsPassword (by simp [materialFiles])
  refine ⟨?_, ?_⟩
  · rw [← hk.reality]
    simp only [loadRealityParams, Host.read, hpriv, hpub, hsid]
  · rw [← hk.obfs]
    simp only [Host.obfsPassword, Host.read, hobfs]

theorem OnDisk.of_keepsMaterial (hk : OnDisk site k h) (ht : KeepsMaterial h t) :
    OnDisk site k t :=
  ⟨(ht.loadRealityParams _).trans hk.reality, (ht.host_obfsPassword _).trans hk.obfs⟩

theorem OnDisk.secretsOf_candidate (hk : OnDisk site k h) {users : List CompatUser}
    {a : RenderAnswers} {doc : Json} (hobfs : a.obfs = true)
    (hdoc : candidateDoc site h users a = .ok doc) : secretsOf doc = k.secrets := by
  unfold candidateDoc at hdoc
  cases hload : loadRealityParams site h a.keys with
  | error e => simp [hload, Except.map] at hdoc
  | ok reality =>
    have hsame : reality = realityParams site k.privateKey k.publicKey k.shortId := by
      simpa [hk.reality] using (loadRealityParams_all hload).symm
    simp only [hload, Except.map, Except.ok.injEq] at hdoc
    rw [← hdoc, secretsOf_render, hsame]
    simp [realityParams, loadHysteriaParams, hobfs, hk.obfs, Keyset.secrets]

theorem exists_onDisk {users : List CompatUser} {a : RenderAnswers} {doc : Json}
    (hdoc : candidateDoc site h users a = .ok doc) : ∃ k, OnDisk site k h := by
  unfold candidateDoc at hdoc
  cases hload : loadRealityParams site h a.keys with
  | error e => simp [hload, Except.map] at hdoc
  | ok reality =>
    have hall := loadRealityParams_all hload
    obtain ⟨priv, pub, sid, -, -, -, -, rfl⟩ := loadRealityParams_eq_ok hload
    exact ⟨⟨trim priv, trim pub, trim sid, h.obfsPassword true⟩, hall, rfl⟩

theorem OnDisk.texts (hk : OnDisk site k h) :
    ∃ pub sid, h.text? .publicKey = some pub ∧ h.text? .shortId = some sid ∧
      trim pub = k.publicKey ∧ trim sid = k.shortId := by
  obtain ⟨priv, pub, sid, -, hpub, hsid, -, heq⟩ := loadRealityParams_eq_ok hk.reality
  simp only [realityParams, RealityServerParams.mk.injEq, List.cons.injEq, and_true] at heq
  exact ⟨pub, sid, hpub, hsid, heq.2.1.symm, heq.2.2.symm⟩

theorem OnDisk.exists_privateKey (hk : OnDisk site k h) : h.exists? .privateKey = true := by
  obtain ⟨priv, _, _, hpriv, -⟩ := loadRealityParams_eq_ok hk.reality
  cases hf : h.files (.live .privateKey) with
  | none => simp [Host.text?, Host.content?, hf] at hpriv
  | some f => simp [Host.exists?, hf]

/-- `vpn-subscription`, if it comes up, serves what is on disk. -/
theorem OnDisk.startup (hk : OnDisk site k h) (hup : (subscriptionStartup h).isSome = true) :
    subscriptionStartup h = some k.published := by
  obtain ⟨pub, sid, hpub, hsid, hpub', hsid'⟩ := hk.texts
  simp only [subscriptionStartup, startupMaterial, hpub, hsid] at hup ⊢
  split_ifs at hup ⊢
  · simp [Keyset.published, hpub', hsid', hk.obfs]
  · simp at hup

end Reading

section Calls

variable {site : Site} {inv : Invocation} {h t : Host} {users : List CompatUser} {live : Bool}
  {a : RenderAnswers} {r : Except RenderError Bool} {k : Keyset}

/-- If `config.json` carries the secrets of `k`, then so does sing-box. -/
def ConfigTells (k : Keyset) (h : Host) : Prop :=
  (h.json? .config).map secretsOf = some k.secrets → h.loaded.map secretsOf = some k.secrets

theorem Enforced.configTells (hk : Enforced site k h) (k' : Keyset) : ConfigTells k' h := by
  intro htells
  rw [hk.loaded, ← hk.config, htells]

theorem ConfigTells.of_sameExcept {ps : List Path} (hh : ConfigTells k h)
    (ht : SameExcept h t ps) (hconfig : Path.live .config ∉ ps) (hl : t.loaded = h.loaded) :
    ConfigTells k t := by
  intro htells
  rw [ht.json? hconfig] at htells
  rw [hl]
  exact hh htells

theorem Enforced.of_frame (hk : Enforced site k h) {ps : List Path} (ht : FilesOnly h t ps)
    (hmaterial : KeepsMaterial h t) (hconfig : Path.live .config ∉ ps) : Enforced site k t :=
  ⟨hk.disk.of_keepsMaterial hmaterial, by rw [ht.json? hconfig, hk.config],
    by rw [ht.loaded, hk.loaded]⟩

theorem Enforced.withCached (hk : Enforced site k h) (m : Option PublicMaterial) :
    Enforced site k { h with cached := m } :=
  ⟨hk.disk.of_texts fun _ _ => rfl, hk.config, hk.loaded⟩

private theorem exists_config_of_secrets
    (hconfig : (h.json? .config).map secretsOf = some k.secrets) : h.exists? .config = true := by
  cases hf : h.files (.live .config) with
  | none => simp [Host.json?, Host.content?, hf] at hconfig
  | some f => simp [Host.exists?, hf]

theorem Swapped.bak_json {pid : Nat} {doc : Json} (ht : Swapped pid h doc t)
    (hconfig : (h.json? .config).map secretsOf = some k.secrets) :
    t.json? .configBak = h.json? .config := by
  simp only [Host.json?, ht.bak, Host.keptConfig, exists_config_of_secrets hconfig, if_true]

theorem RenderPath.enforced_of_wentLive {pid : Nat} {s : Host} {doc : Json} {ps : List Path}
    (hk : OnDisk site k h) (hsecrets : secretsOf doc = k.secrets) (hs : Swapped pid h doc s)
    (ht : FilesOnly { s with loaded := some doc } t ps) (hmaterial : KeepsMaterial h t)
    (hconfig : Path.live .config ∉ ps) : Enforced site k t := by
  refine ⟨hk.of_keepsMaterial hmaterial, ?_, ?_⟩
  · rw [ht.json? hconfig, show Host.json? { s with loaded := some doc } .config = some doc from
      hs.config_json, Option.map_some, hsecrets]
  · rw [ht.loaded, Option.map_some, hsecrets]

/-- A call that has to go live and returns `Ok` found the key material in order. -/
theorem RenderPath.exists_onDisk {b : Bool} (honline : inv.offline = false)
    (hr : RenderPath site inv h users true a (.ok b) t) : ∃ k, OnDisk site k h := by
  cases hr with
  | degraded _ hlive => simp [honline] at hlive
  | current hdoc => exact Admin.exists_onDisk hdoc
  | notReloaded hp => exact Admin.exists_onDisk hp.candidate
  | wentLive hp => exact Admin.exists_onDisk hp.candidate

/-- A call that has to go live and returns `Ok` leaves sing-box on what is on disk; the shortcut
relies on `config.json` to tell. -/
theorem RenderPath.enforced_of_ok {b : Bool} (hk : OnDisk site k h) (htells : ConfigTells k h)
    (hobfs : a.obfs = true) (hquery : a.second.controllable = true) (honline : inv.offline = false)
    (hr : RenderPath site inv h users true a (.ok b) t) : Enforced site k t := by
  have hmaterial := hr.frame.keepsMaterial
  cases hr with
  | degraded _ hlive => simp [honline] at hlive
  | current hdoc _ hcur =>
    have hconfig : (h.json? .config).map secretsOf = some k.secrets := by
      rw [alreadyCurrent_config hcur, Option.map_some, hk.secretsOf_candidate hobfs hdoc]
    exact ⟨hk, hconfig, htells hconfig⟩
  | notReloaded _ _ _ hno => simp [hquery] at hno
  | wentLive hp _ hs _ _ _ _ ht =>
    exact enforced_of_wentLive hk (hk.secretsOf_candidate hobfs hp.candidate) hs ht hmaterial
      (by simp [stampPaths])

theorem Recovery.enforced {pid : Nat} {s : Host} {doc : Json} {b : RecoveryAnswers}
    {l : Option Json} (hk : Enforced site k h) (hs : Swapped pid h doc s)
    (ht : Recovery b { s with loaded := l } true t) (hmaterial : KeepsMaterial h t) :
    Enforced site k t := by
  rcases ht.outcome with ⟨-, -, hconfig, hloaded, hdone⟩ | ⟨-, hno, -⟩
  · have hback : t.json? .config = h.json? .config := by
      rw [← hs.bak_json hk.config]
      simp only [Host.json?, hconfig]
      rfl
    have hactive : b.restart = .active := by
      simp only [Bool.true_eq, Bool.and_eq_true, beq_iff_eq] at hdone
      exact hdone.2
    refine ⟨hk.disk.of_keepsMaterial hmaterial, by rw [hback, hk.config], ?_⟩
    rw [hloaded, hactive, afterRestart_active]
    rw [show Host.json? { s with loaded := l } .configBak = h.json? .config from
      hs.bak_json hk.config, hk.config]
  · cases hno

/-- A call that returns `Ok` or reports that it went back keeps sing-box on what is on disk. -/
theorem RenderPath.enforced (hk : Enforced site k h) (hobfs : a.obfs = true)
    (hquery : a.second.controllable = true) (hr : RenderPath site inv h users live a r t)
    (hends : Outcome.of RenderError.rolledBack r ≠ .failed) : Enforced site k t := by
  have hmaterial := hr.frame.keepsMaterial
  cases hr with
  | degraded => exact hk
  | refused => exact hk
  | current => exact hk
  | notSwapped => simp [Outcome.of_error_ne_failed, RenderError.rolledBack] at hends
  | notReloaded _ _ _ hno => simp [hquery] at hno
  | @reloadFailed doc s _ recovered _ _ hs _ _ ht =>
    obtain rfl : recovered = true := Outcome.of_error_ne_failed.mp hends
    exact ht.enforced hk hs hmaterial
  | @rejected doc s _ recovered _ _ hs _ _ _ ht =>
    obtain rfl : recovered = true := Outcome.of_error_ne_failed.mp hends
    exact ht.enforced hk hs hmaterial
  | stampFailed => simp [Outcome.of_error_ne_failed, RenderError.rolledBack] at hends
  | wentLive hp _ hs _ _ _ _ ht =>
    exact enforced_of_wentLive hk.disk (hk.disk.secretsOf_candidate hobfs hp.candidate) hs ht
      hmaterial (by simp [stampPaths])

theorem configTells_of_eq {d : Option Json} (hconfig : t.json? .config = d ∨ t.json? .config = none)
    (hloaded : t.loaded = d ∨ t.loaded.map secretsOf = some k.secrets) : ConfigTells k t := by
  intro htells
  rcases hconfig with hconfig | hconfig
  · rcases hloaded with hloaded | hloaded
    · rw [hloaded, ← hconfig, htells]
    · exact hloaded
  · simp [hconfig] at htells

/-- The way back of a call leaves `config.json` telling what sing-box has loaded, unless the backup
is put back and not restarted into. -/
theorem Recovery.configTells {pid : Nat} {s : Host} {doc : Json} {b : RecoveryAnswers}
    {recovered : Bool} {l : Option Json}
    (hconfig : (h.json? .config).map secretsOf = some k.secrets)
    (hl : l = some doc ∨ l.map secretsOf = some k.secrets)
    (hrestart : b.restart.restarts = true ∨ l.map secretsOf = some k.secrets)
    (hs : Swapped pid h doc s) (ht : Recovery b { s with loaded := l } recovered t) :
    ConfigTells k t := by
  rcases ht.outcome with ⟨-, -, hback, hloaded, -⟩ | ⟨-, -, hloaded, hleft⟩
  · intro _
    rw [hloaded, show Host.json? { s with loaded := l } .configBak = h.json? .config from
      hs.bak_json hconfig, afterRestart]
    split_ifs with hre
    · exact hconfig
    · rcases hrestart with hyes | hyes
      · exact absurd hyes hre
      · exact hyes
  · have hdoc : t.json? .config = some doc ∨ t.json? .config = none := by
      refine hleft.imp (fun hsame => ?_) fun htorn => by simp [Host.json?, htorn, Content.json?]
      rw [Host.json?, hsame]
      exact hs.config_json
    exact configTells_of_eq hdoc (hl.imp (hloaded.trans ·) fun hyes => by rw [hloaded]; exact hyes)

/-- However a call returns, `config.json` tells what sing-box has loaded, if a backup put back is
restarted into or sing-box was never taken off the old document. -/
theorem RenderPath.configTells (hconfig : (h.json? .config).map secretsOf = some k.secrets)
    (hloaded : h.loaded.map secretsOf = some k.secrets) (hquery : a.second.controllable = true)
    (hback : (∃ e, r = .error e) →
      a.restart = .notRestarted ∨ a.recovery.restart.restarts = true)
    (hr : RenderPath site inv h users live a r t) : ConfigTells k t := by
  cases hr with
  | degraded => exact fun _ => hloaded
  | refused => exact fun _ => hloaded
  | current => exact fun _ => hloaded
  | notSwapped _ _ ht => exact fun _ => by rw [ht.loaded, hloaded]
  | notReloaded _ _ _ hno => simp [hquery] at hno
  | @reloadFailed doc s _ recovered _ _ hs _ _ ht =>
    refine ht.configTells hconfig ?_ ?_ hs
    · cases a.restart with
      | active => exact .inl rfl
      | notActive => exact .inl rfl
      | notRestarted => exact .inr hloaded
    · rcases hback ⟨_, rfl⟩ with hold | hre
      · rw [hold]
        exact .inr hloaded
      · exact .inl hre
  | @rejected doc s _ recovered _ _ hs _ hactive _ ht =>
    refine ht.configTells hconfig (.inl rfl) (.inl ?_) hs
    rcases hback ⟨_, rfl⟩ with hold | hre
    · simp [hactive] at hold
    · exact hre
  | @stampFailed doc s _ _ _ hs _ _ _ _ ht =>
    refine configTells_of_eq (.inl ?_) (.inl ht.loaded)
    rw [ht.json? (by simp [stampPaths])]
    exact hs.config_json
  | @wentLive doc s _ _ _ hs _ _ _ _ ht =>
    refine configTells_of_eq (.inl ?_) (.inl ht.loaded)
    rw [ht.json? (by simp [stampPaths])]
    exact hs.config_json

end Calls

section Rotations

variable {site : Site} {pid : Nat} {targets : List StateFile} {plan : RotatePlan} {swap : Bool}
  {live : LiveAnswers} {a : RollbackAnswers} {h s t : Host} {k : Keyset}

/-- A plan that leaves the key material `k`: its document enforces `k`, and its files hold `k`. -/
structure RotatePlan.Installs (site : Site) (plan : RotatePlan) (h : Host) (k : Keyset) : Prop where
  secrets : secretsOf plan.doc = k.secrets
  disk : ∀ t : Host, (∀ f ∈ materialFiles, t.text? f = plan.text? h f) → OnDisk site k t

/-- What the key files say once a plan went live. -/
theorem Advanced.text?_eq {r : Except RotateStage Unit} (hs : Advanced pid plan true live h r s)
    (ht : FilesOnly s t (bakPaths targets)) :
    ∀ f ∈ materialFiles, t.text? f = plan.text? h f := by
  intro f hf
  have hplain : f ≠ .config ∧ f ≠ .configBak ∧ f ≠ .rotateCandidate ∧ f ≠ .obfsRotateCandidate := by
    refine ⟨?_, ?_, ?_, ?_⟩ <;> rintro rfl <;> simp [materialFiles] at hf
  rw [ht.text? (by simp [bakPaths])]
  refine RotatePlan.text?_eq (hs.swapped rfl).2.2 fun hnot => hs.same.text? ?_
  simp [rotatePaths, transactionPaths, swapPaths, hnot, hplain]

/-- A rotation that went through leaves the key material of its plan everywhere. -/
theorem Advanced.coherent (hplan : plan.Installs site h k) (hsingbox : live.singbox.controllable = true)
    (hsubscription : live.subscription.controllable = true)
    (hs : Advanced pid plan swap live h (.ok ()) s) (ht : FilesOnly s t (bakPaths targets)) :
    Coherent site k t := by
  obtain ⟨rfl, hfails, hserves⟩ := hs.ok rfl
  obtain ⟨hserved, hup⟩ := hserves hsubscription
  have hactive : live.singboxRestart = .active := by
    simpa [LiveAnswers.singboxFails, hsingbox] using hfails
  have hloads : live.loadsNew = true := by
    simp [LiveAnswers.loadsNew, hsingbox, hactive, RestartAnswer.restarts]
  have htexts := hs.text?_eq ht
  have hdisk := hplan.disk t htexts
  have hstart : subscriptionStartup t = plan.startup h :=
    RotatePlan.startup_eq_of_text? (htexts _ (by simp [materialFiles]))
      (htexts _ (by simp [materialFiles])) (htexts _ (by simp [materialFiles]))
  refine ⟨⟨hdisk, ?_, ?_⟩, ?_⟩
  · rw [ht.json? (by simp [bakPaths]), Host.json?, (hs.swapped rfl).1]
    simp [Content.json?, hplan.secrets]
  · rw [ht.loaded, hs.loaded, hloads]
    simp [hplan.secrets]
  · rw [ht.cached, hs.cached, hserved, ← hstart]
    exact hdisk.startup (by rwa [hstart])

/-- A rollback that is reported as whole leaves the key material of before everywhere. -/
theorem RolledBack.coherent {stage : RotateStage} {report : RollbackReport}
    {entries : List (StateFile × Bool)} (hk : Coherent site k h)
    (hsingbox : a.singbox.controllable = true) (hsubscription : a.subscription.controllable = true)
    (hs : Advanced pid plan swap live h (.error stage) s)
    (hentries : entries.map Prod.fst = plan.targets)
    (ht : RolledBack entries stage.configApplied a h s report t)
    (hreport : report.restored = true) : Coherent site k t := by
  have hdisk := hk.disk.of_keepsMaterial (ht.keepsMaterial hs hentries hreport)
  have hconfig : t.json? .config = h.json? .config := by
    simp only [Host.json?,
      (ht.config_iff hs hreport).mpr fun _ => exists_config_of_secrets hk.config]
  have hloaded := ht.loaded_of_restored hreport
  have hcached := ht.cached_of_restored hreport
  rw [if_pos hsingbox] at hloaded
  rw [if_pos hsubscription] at hcached
  have hup : (subscriptionStartup t).isSome = true := by
    have hrecovered := ht.subscription
    simp only [RollbackReport.restored, Bool.and_eq_true] at hreport
    rw [hreport.2, hsubscription] at hrecovered
    simp only [Bool.not_true, Bool.false_or, Bool.true_eq, Bool.and_eq_true] at hrecovered
    exact hrecovered.1
  exact ⟨⟨hdisk, by rw [hconfig, hk.config], by rw [hloaded, hconfig, hk.config]⟩,
    hcached.trans (hdisk.startup hup)⟩

/-- A rotation that ends well, or reports a whole rollback, leaves the host coherent. -/
theorem RotatePath.coherent {plan : Option RotatePlan} {r : Except RotateError Unit}
    (hk : Coherent site k h) (htargets : ∀ p, plan = some p → p.targets = targets)
    (hplan : ∀ p, plan = some p → ∃ k', p.Installs site h k')
    (hlive : live.singbox.controllable = true ∧ live.subscription.controllable = true)
    (hback : a.singbox.controllable = true ∧ a.subscription.controllable = true)
    (hr : RotatePath pid targets plan swap live a h r t)
    (hends : Outcome.of RotateError.rolledBackWhole r ≠ .failed) : ∃ k', Coherent site k' t := by
  cases hr with
  | untouched he =>
    have hreport := Outcome.of_error_ne_failed.mp hends
    simp [RotateError.rolledBackWhole, he] at hreport
  | rolledBack hp hs hentries ht =>
    have hreport := Outcome.of_error_ne_failed.mp hends
    simp only [RotateError.rolledBackWhole, RotateError.report?, Option.any_some] at hreport
    obtain rfl := htargets _ hp
    exact ⟨k, ht.coherent hk hback.1 hback.2 hs hentries hreport⟩
  | committed hp hs ht =>
    obtain ⟨k', hinstalls⟩ := hplan _ hp
    exact ⟨k', hs.coherent hinstalls hlive.1 hlive.2 ht⟩

private theorem realityPlan_installs {b : RotateAnswers} (hobfs : b.obfs = true)
    (hplan : realityPlan site h b = .ok plan) : ∃ k, plan.Installs site h k := by
  unfold realityPlan generateRealityKeypair at hplan
  cases hpair : b.keypair with
  | none => simp [hpair] at hplan
  | some pair =>
    obtain ⟨priv, pub⟩ := pair
    cases hvalid : validateRealityKeypair site.mulBaseClamped (trim priv) (trim pub) with
    | error e => simp [hpair, hvalid] at hplan
    | ok u =>
      cases hload : loadUsers h b.readUsers with
      | error e => simp [hpair, hvalid, hload] at hplan
      | ok users =>
        simp only [hpair, hvalid, hload, Except.ok.injEq] at hplan
        subst hplan
        refine ⟨⟨trim priv, trim pub, generateShortId b.shortId, h.obfsPassword true⟩, ?_, ?_⟩
        · rw [secretsOf_render]
          simp [realityParams, loadHysteriaParams, hobfs, Keyset.secrets]
        · intro t htexts
          have hpriv : t.text? .privateKey = some (trim priv) := htexts _ (by simp [materialFiles])
          have hpub : t.text? .publicKey = some (trim pub) := htexts _ (by simp [materialFiles])
          have hsid : t.text? .shortId = some (generateShortId b.shortId) :=
            htexts _ (by simp [materialFiles])
          have hpw : t.text? .obfsPassword = h.text? .obfsPassword :=
            htexts _ (by simp [materialFiles])
          refine ⟨?_, by simp only [Host.obfsPassword, Host.read, hpw]⟩
          have hsame := loadRealityParams_of_texts hpriv hpub hsid
            (by simpa using hvalid)
          simpa [generateShortId] using hsame

private theorem obfsPlan_installs {b : ObfsRotateAnswers} (hplan : obfsPlan site h b = .ok plan) :
    ∃ k, plan.Installs site h k := by
  unfold obfsPlan at hplan
  cases hload : loadRealityParams site h b.keys with
  | error e => simp [hload] at hplan
  | ok reality =>
    cases husers : loadUsers h b.readUsers with
    | error e => simp [hload, husers] at hplan
    | ok users =>
      simp only [hload, husers, Except.ok.injEq] at hplan
      subst hplan
      obtain ⟨priv, pub, sid, hpriv, hpub, hsid, hvalid, rfl⟩ := loadRealityParams_eq_ok hload
      refine ⟨⟨trim priv, trim pub, trim sid, some (generateHysteria2ObfsPassword b.password)⟩,
        ?_, ?_⟩
      · rw [secretsOf_render]
        simp [realityParams, Keyset.secrets]
      · intro t htexts
        have hother : ∀ f ∈ materialFiles, f ≠ .obfsPassword → t.text? f = h.text? f := by
          intro f hf hne
          rw [htexts f hf]
          simp [RotatePlan.text?, List.lookup_cons, beq_false_of_ne hne]
        have hkeep : t.text? .privateKey = h.text? .privateKey ∧
            t.text? .publicKey = h.text? .publicKey ∧ t.text? .shortId = h.text? .shortId :=
          ⟨hother _ (by simp [materialFiles]) (by simp), hother _ (by simp [materialFiles]) (by simp),
            hother _ (by simp [materialFiles]) (by simp)⟩
        have hpw : t.text? .obfsPassword = some (generateHysteria2ObfsPassword b.password) := by
          rw [htexts _ (by simp [materialFiles])]
          simp [RotatePlan.text?]
        refine ⟨loadRealityParams_of_texts (hkeep.1.trans hpriv) (hkeep.2.1.trans hpub)
          (hkeep.2.2.trans hsid) hvalid, ?_⟩
        have htrim : trim (generateHysteria2ObfsPassword b.password) =
            generateHysteria2ObfsPassword b.password := by simp [generateHysteria2ObfsPassword]
        simp [Host.obfsPassword, Host.read, hpw, htrim, generateHysteria2ObfsPassword_ne_empty]

end Rotations

section Restores

variable {site : Site} {inv : Invocation} {archive : Archive} {h s t : Host} {k : Keyset}

theorem RegeneratePath.of_ok {live b : Bool} {a : RegenerateAnswers}
    (hr : RegeneratePath site inv h live a (.ok b) t) :
    ∃ users, RenderPath site inv h users live a.render (.ok b) t := by
  generalize hres : (Except.ok b : Except UserError Bool) = res at hr
  cases hr with
  | notLoaded => cases hres
  | @rendered users r _ _ hr =>
    cases r with
    | error e => simp [Except.mapError] at hres
    | ok b' =>
      obtain rfl : b = b' := by simpa [Except.mapError] using hres
      exact ⟨users, hr⟩

/-- However a rendering ends, `config.json` tells what sing-box has loaded, under the condition of
`RenderPath.configTells`. -/
theorem RegeneratePath.configTells {live : Bool} {a : RegenerateAnswers}
    {r : Except UserError Bool} (hconfig : (h.json? .config).map secretsOf = some k.secrets)
    (hloaded : h.loaded.map secretsOf = some k.secrets)
    (hquery : a.render.second.controllable = true)
    (hback : (∃ e, r = .error e) →
      a.render.restart = .notRestarted ∨ a.render.recovery.restart.restarts = true)
    (hr : RegeneratePath site inv h live a r t) : ConfigTells k t := by
  cases hr with
  | notLoaded => exact fun _ => hloaded
  | rendered _ hr =>
    refine hr.configTells hconfig hloaded hquery ?_
    rintro ⟨e, rfl⟩
    exact hback ⟨_, rfl⟩

theorem config_not_mem_restore (pid : Nat) :
    Path.live .config ∉ restoreTransactionPaths pid := by
  simp [restoreTransactionPaths, restoredFiles, restoreTargets]

theorem RestoreReached.configTells {a : RestoreAnswers} {stage : RestoreStage}
    (hk : Enforced site k h) (hquery : a.regenerate.render.second.controllable = true)
    (hback : stage = .applying → a.regenerate.render.restart = .notRestarted ∨
      a.regenerate.render.recovery.restart.restarts = true)
    (hs : RestoreReached site inv archive a h stage s) : ConfigTells k s := by
  have hinstalled : ∀ {users i}, Installed inv.pid archive users h i →
      (i.json? .config).map secretsOf = some k.secrets ∧
        i.loaded.map secretsOf = some k.secrets := by
    intro users i hi
    rw [hi.json? (config_not_mem_restore _), hi.loaded]
    exact ⟨hk.config, hk.loaded⟩
  cases hs with
  | installing hs =>
    exact (hk.configTells k).of_sameExcept hs.toSameExcept (config_not_mem_restore _) hs.loaded
  | applying hi hr =>
    obtain ⟨hconfig, hloaded⟩ := hinstalled hi
    exact hr.configTells hconfig hloaded hquery fun _ => hback rfl
  | restarting hi hr =>
    obtain ⟨hconfig, hloaded⟩ := hinstalled hi
    have htells := hr.configTells hconfig hloaded hquery (by simp)
    exact htells.of_sameExcept ⟨fun _ _ => rfl, rfl, rfl, rfl⟩ List.not_mem_nil rfl

/-- A rollback of a restore that collected no error leaves the key material of before everywhere,
if `config.json` tells what sing-box has loaded when it begins. -/
theorem Undone.coherent {a : RestoreRollbackAnswers} (hk : OnDisk site k h)
    (htells : ConfigTells k s) (honline : inv.offline = false) (hobfs : a.regenerate.render.obfs = true)
    (hquery : a.regenerate.render.second.controllable = true)
    (hsubscription : a.subscription.controllable = true)
    {recovered : Bool} (hrecovered : recovered = true) (ht : Undone site inv a h s recovered t) :
    Coherent site k t := by
  cases ht with
  | @mk files w v r hw hfiles hr =>
    simp only [hsubscription, if_true, Bool.and_eq_true, beq_iff_eq] at hrecovered ⊢
    obtain ⟨⟨hback, hok⟩, hup, hactive⟩ := hrecovered
    have hdisk : OnDisk site k w := by
      refine hk.of_texts fun f hf => ?_
      have hmem : f ∈ restoredFiles := by
        simp only [materialFiles, List.mem_cons, List.not_mem_nil, or_false] at hf
        rcases hf with rfl | rfl | rfl | rfl <;> decide
      simp only [Host.text?, Host.content?, hfiles hback f hmem]
    have htells' : ConfigTells k w :=
      htells.of_sameExcept hw.toSameExcept (by decide) hw.loaded
    cases r with
    | error e => cases hok
    | ok b =>
      obtain ⟨users, hrender⟩ := hr.of_ok
      have henforced := hrender.enforced_of_ok hdisk htells' hobfs hquery honline
      refine ⟨henforced.withCached _, ?_⟩
      simp only [hactive, afterRestart_active]
      exact henforced.disk.startup hup

/-- A restore that ends well, or reports that it recovered, leaves the host coherent. -/
theorem RestorePath.coherent {a : RestoreAnswers} {r : Except RestoreError Unit}
    (hk : Coherent site k h) (honline : inv.offline = false)
    (hobfs : a.regenerate.render.obfs = true ∧ a.rollback.regenerate.render.obfs = true)
    (hquery : a.regenerate.render.second.controllable = true ∧
      a.rollback.regenerate.render.second.controllable = true)
    (hserving : a.live.controllable = true ∧ a.rollback.subscription.controllable = true)
    (hback : r = .error (.failed .applying true) → a.regenerate.render.restart = .notRestarted ∨
      a.regenerate.render.recovery.restart.restarts = true)
    (hr : RestorePath site inv archive a h r t)
    (hends : Outcome.of RestoreError.rolledBackWhole r ≠ .failed) : ∃ k', Coherent site k' t := by
  cases hr with
  | untouched he =>
    have hreport := Outcome.of_error_ne_failed.mp hends
    simp [RestoreError.rolledBackWhole, he] at hreport
  | @undone users stage recovered s _ hcheck hs ht =>
    obtain rfl : recovered = true := by
      simpa [RestoreError.rolledBackWhole, RestoreError.recovered?] using
        Outcome.of_error_ne_failed.mp hends
    have htells := hs.configTells hk.toEnforced hquery.1 fun hstage => hback (by rw [hstage])
    exact ⟨k, ht.coherent hk.disk htells honline hobfs.2 hquery.2 hserving.2 rfl⟩
  | restored hcheck hi hr hserved ht =>
    obtain ⟨users, hrender⟩ := hr.of_ok
    obtain ⟨k', hdisk⟩ := hrender.exists_onDisk honline
    have htells : ConfigTells k' _ := (hk.toEnforced.configTells k').of_sameExcept
      hi.toSameExcept (config_not_mem_restore _) hi.loaded
    have henforced := hrender.enforced_of_ok hdisk htells hobfs.1 hquery.1 honline
    obtain ⟨hup, -⟩ := hserved hserving.1
    refine ⟨k', ⟨henforced.disk.of_texts fun f _ => ?_, ?_, ?_⟩, ?_⟩
    · exact ht.text? (by simp [bakPaths])
    · rw [ht.json? (by simp [bakPaths])]
      exact henforced.config
    · rw [ht.loaded]
      exact henforced.loaded
    · rw [ht.cached, if_pos hserving.1]
      exact henforced.disk.startup hup

end Restores

section Renderings

variable {site : Site} {inv : Invocation} {h t : Host} {k : Keyset}

theorem Coherent.of_frame {pid : Nat} (hk : Coherent site k h) (hframe : RenderFrame pid h t)
    (ht : Enforced site k t) : Coherent site k t :=
  ⟨ht, hframe.cached.trans hk.cached⟩

theorem Coherent.of_filesOnly {ps : List Path} (hk : Coherent site k h) (ht : FilesOnly h t ps)
    (hps : ∀ f, f = .config ∨ f ∈ materialFiles → Path.live f ∉ ps) : Coherent site k t := by
  have hdisk := hk.disk.of_texts fun f hf => ht.text? (hps f (.inr hf))
  exact ⟨⟨hdisk, by rw [ht.json? (hps _ (.inl rfl)), hk.config], by rw [ht.loaded, hk.loaded]⟩,
    ht.cached.trans hk.cached⟩

theorem not_mem_savePaths (pid : Nat) (f : StateFile) (hf : f = .config ∨ f ∈ materialFiles) :
    Path.live f ∉ savePaths pid := by
  have hne : f ≠ .users := by
    rintro rfl
    simp [materialFiles] at hf
  simpa [savePaths] using hne

theorem RenderPath.coherent {users : List CompatUser} {live : Bool} {a : RenderAnswers}
    {r : Except RenderError Bool} (hk : Coherent site k h) (hobfs : a.obfs = true)
    (hquery : a.second.controllable = true) (hr : RenderPath site inv h users live a r t)
    (hends : Outcome.of RenderError.rolledBack r ≠ .failed) : Coherent site k t :=
  hk.of_frame hr.frame (hr.enforced hk.toEnforced hobfs hquery hends)

/-- A user command that ends well, or reports that the previous configuration is back, leaves the
host coherent. -/
theorem UserPath.coherent {previous users : List CompatUser} {a : UserAnswers}
    {r : Except UserError Bool} (hk : Coherent site k h)
    (hobfs : a.forward.obfs = true ∧ a.compensate.obfs = true)
    (hquery : a.forward.second.controllable = true ∧ a.compensate.second.controllable = true)
    (hr : UserPath site inv h previous users a r t)
    (hends : Outcome.of UserError.rolledBack r ≠ .failed) : Coherent site k t := by
  cases hr with
  | notRendered hr =>
    exact hr.coherent hk hobfs.1 hquery.1 hends
  | saved hr _ ht =>
    exact (hr.coherent hk hobfs.1 hquery.1 (by simp [Outcome.of])).of_filesOnly ht
      (not_mem_savePaths _)
  | @compensated live s u _ e r hr _ hu _ hc =>
    have hsaved := (hr.coherent hk hobfs.1 hquery.1 (by simp [Outcome.of])).of_filesOnly hu
      (not_mem_savePaths _)
    have hreported := Outcome.of_error_ne_failed.mp hends
    have hok : r.isOk = true := hreported
    refine hc.coherent hsaved hobfs.2 hquery.2 ?_
    cases r with
    | ok b => simp [Outcome.of]
    | error e => cases hok

theorem RegeneratePath.coherent {live : Bool} {a : RegenerateAnswers} {r : Except UserError Bool}
    (hk : Coherent site k h) (hobfs : a.render.obfs = true)
    (hquery : a.render.second.controllable = true) (hr : RegeneratePath site inv h live a r t)
    (hends : Outcome.of UserError.rolledBack r ≠ .failed) : Coherent site k t := by
  cases hr with
  | notLoaded => exact hk
  | @rendered users r _ _ hr =>
    refine hr.coherent hk hobfs hquery ?_
    cases r with
    | ok b => simp [Outcome.of]
    | error e => exact hends

end Renderings

section Commands

def LiveAnswers.servicesUp (a : LiveAnswers) : Bool :=
  a.singbox.controllable && a.subscription.controllable

def RollbackAnswers.servicesUp (a : RollbackAnswers) : Bool :=
  a.singbox.controllable && a.subscription.controllable

def RenderAnswers.servicesUp (a : RenderAnswers) : Bool :=
  a.first.controllable && a.second.controllable

def Command.servicesUp : Command → Bool
  | .init _ a => a.rotate.singbox.controllable && a.rotate.subscription.controllable &&
    a.rotate.live.servicesUp && a.rotate.rollback.servicesUp
  | .hysteriaObfsRotate a => a.singbox.controllable && a.subscription.controllable &&
    a.live.servicesUp && a.rollback.servicesUp
  | .restore _ a => a.singbox.controllable && a.subscription.controllable &&
    a.regenerate.render.servicesUp && a.live.controllable &&
    a.rollback.regenerate.render.servicesUp && a.rollback.subscription.controllable
  | .renderConfig _ a => a.render.servicesUp
  | .configMigrate a => a.regenerate.render.servicesUp
  | .user _ a => a.forward.servicesUp && a.compensate.servicesUp
  | .userRotateToken .. => true

/-- The command returned `Ok`, or an error that reports a completed rollback. -/
def Command.concludes (site : Site) (inv : Invocation) (h : Host) (cmd : Command) : Prop :=
  (cmd.run site inv h).result ≠ .ok .failed

/-- What a command needs so as not to leave the services on different keys: the obfuscation password
is read where it is rendered; a restore is not allowed to skip sing-box, and if it fell back while
applying, the restart of that recovery took effect or sing-box had never left the old document; a
migration whose rendering is only warned about did not lose it. -/
def Command.Careful (site : Site) (inv : Invocation) (h : Host) : Command → Prop
  | .init _ a => a.rotate.obfs = true
  | .hysteriaObfsRotate _ => True
  | .restore archive a => inv.offline = false ∧
    (a.regenerate.render.obfs = true ∧ a.rollback.regenerate.render.obfs = true) ∧
    ((cmdRestore site inv archive a h).result = .error (.failed .applying true) →
      a.regenerate.render.restart = .notRestarted ∨
        a.regenerate.render.recovery.restart.restarts = true)
  | .renderConfig _ a => a.render.obfs = true
  | .configMigrate a => a.regenerate.render.obfs = true ∧
    Outcome.of UserError.rolledBack (regenerateSingboxConfig site inv false a.regenerate
      (migrateUsers inv a h).final).result ≠ .failed
  | .user _ a => a.forward.obfs = true ∧ a.compensate.obfs = true
  | .userRotateToken .. => True

variable {site : Site} {inv : Invocation} {h : Host} {k : Keyset}

theorem concludes_outcome {ε α : Type} {reports : ε → Bool} {p : Prog Host Event ε α}
    (hends : (outcome reports p h).result ≠ .ok .failed) :
    Outcome.of reports (p h).result ≠ .failed := by
  intro hfailed
  refine hends ?_
  have hwp : Wp (outcome reports p) h (fun _ _ => True)
      (fun r _ => r = .ok (.of reports (p h).result)) :=
    wp_outcome.mpr ⟨fun _ _ => trivial, rfl⟩
  rw [hwp.2, hfailed]

theorem final_outcome {ε α : Type} {reports : ε → Bool} {p : Prog Host Event ε α} :
    (outcome reports p h).final = (p h).final := by
  have hwp : Wp (outcome reports p) h (fun _ _ => True) (fun _ t => t = (p h).final) :=
    wp_outcome.mpr ⟨fun _ _ => trivial, rfl⟩
  exact hwp.2

private theorem cmdRenderConfig_coherent (hk : Coherent site k h) {requireApplied : Bool}
    {a : RegenerateAnswers} (hobfs : a.render.obfs = true)
    (hquery : a.render.second.controllable = true) :
    Wp (cmdRenderConfig site inv requireApplied a) h (fun _ _ => True) fun r t =>
      Outcome.of UserError.rolledBack r ≠ .failed → Coherent site k t := by
  unfold cmdRenderConfig
  rw [wp_bind]
  refine (regenerate_wp site inv false a h).mono (fun _ _ _ => trivial) fun r t hr => ?_
  cases r with
  | error e =>
    exact fun hends => hr.coherent hk hobfs hquery hends
  | ok applied =>
    have hcoherent := hr.coherent hk hobfs hquery (by simp [Outcome.of])
    dsimp only
    split_ifs
    · exact wp_fail.mpr fun _ => hcoherent
    · exact wp_pure.mpr fun _ => hcoherent

private theorem cmdConfigMigrate_coherent (hk : Coherent site k h) {a : MigrateAnswers}
    (hobfs : a.regenerate.render.obfs = true)
    (hquery : a.regenerate.render.second.controllable = true)
    (hrendered : Outcome.of UserError.rolledBack (regenerateSingboxConfig site inv false
      a.regenerate (migrateUsers inv a h).final).result ≠ .failed) :
    Wp (cmdConfigMigrate site inv a) h (fun _ _ => True) fun _ t => Coherent site k t := by
  have hmigrated : Coherent site k (migrateUsers inv a h).final := by
    refine hk.of_filesOnly (migrateUsers_wp inv a h).2 fun f hf => ?_
    simpa using not_mem_savePaths inv.pid f hf
  have hregenerated := (regenerate_wp site inv false a.regenerate (migrateUsers inv a h).final).2
    |>.coherent hmigrated hobfs hquery hrendered
  unfold cmdConfigMigrate
  refine wp_require_bind (fun _ => hk) fun _ => ?_
  rw [wp_bind, wp_mapError]
  refine ⟨fun _ _ => trivial, ?_⟩
  cases (migrateUsers inv a h).result with
  | error e => exact hmigrated
  | ok u =>
    simp only [Except.mapError]
    refine wp_require_bind (fun _ => hmigrated) fun _ => ?_
    rw [wp_bind, wp_attempt]
    exact ⟨fun _ _ => trivial, wp_pure.mpr hregenerated⟩

private theorem userCommand_coherent (hk : Coherent site k h) {cmd : UserCommand} {a : UserAnswers}
    (hobfs : a.forward.obfs = true ∧ a.compensate.obfs = true)
    (hquery : a.forward.second.controllable = true ∧ a.compensate.second.controllable = true) :
    Wp (userCommand site inv cmd a) h (fun _ _ => True) fun r t =>
      Outcome.of UserError.rolledBack r ≠ .failed → Coherent site k t := by
  unfold userCommand
  rw [wp_bind, wp_look]
  cases loadUsers h a.readUsers with
  | error e => exact wp_fail.mpr fun _ => hk
  | ok previous =>
    dsimp only
    cases cmd.mutate previous with
    | error e => exact wp_fail.mpr fun _ => hk
    | ok users =>
      exact (applyUsersAndSave_wp site inv h previous users a).mono (fun _ _ _ => trivial)
        fun r t hr hends => hr.coherent hk hobfs hquery hends

private theorem cmdUserRotateToken_coherent (hk : Coherent site k h) (id tokenHash : String)
    (readUsers : Bool) (a : SaveAnswers) :
    Wp (cmdUserRotateToken inv id tokenHash readUsers a) h (fun _ _ => True)
      fun _ t => Coherent site k t := by
  unfold cmdUserRotateToken
  rw [wp_bind, wp_look]
  cases loadUsers h readUsers with
  | error e => exact wp_fail.mpr hk
  | ok users =>
    dsimp only
    cases modifyUser id (fun u => { u with subscriptionTokenHashHex := tokenHash }) users with
    | error e => exact wp_fail.mpr hk
    | ok users =>
      rw [wp_mapError]
      exact (saveUsersAtomic_wp inv.pid users a h).mono (fun _ _ _ => trivial)
        fun r t ht => hk.of_filesOnly ht.1 (not_mem_savePaths _)

/-- One command: from a coherent host to a coherent host. -/
theorem Command.run_coherent {cmd : Command} (hk : Coherent site k h) (hup : cmd.servicesUp = true)
    (hends : cmd.concludes site inv h) (hcareful : cmd.Careful site inv h) :
    ∃ k', Coherent site k' (cmd.run site inv h).final := by
  have hrender : ∀ {a : RenderAnswers}, a.servicesUp = true → a.second.controllable = true := by
    intro a ha
    simp only [RenderAnswers.servicesUp, Bool.and_eq_true] at ha
    exact ha.2
  unfold Command.concludes at hends
  cases cmd with
  | init rotate a =>
    simp only [Command.servicesUp, LiveAnswers.servicesUp, RollbackAnswers.servicesUp,
      Bool.and_eq_true] at hup
    rw [Command.run] at hends ⊢
    have hends := concludes_outcome hends
    rw [final_outcome]
    have hpath := (cmdInit_wp site inv rotate h a).2
    generalize (cmdInit site inv rotate a h).result = r at hpath hends
    generalize (cmdInit site inv rotate a h).final = t at hpath
    cases hpath with
    | rotated hr =>
      refine hr.coherent hk (fun p hp => realityPlan_targets (eq_ok_of_toOption hp)) ?_ hup.1.2
        hup.2 hends
      exact fun p hp => realityPlan_installs hcareful (eq_ok_of_toOption hp)
    | generated hpriv => simp [hk.disk.exists_privateKey] at hpriv
    | nothing => exact ⟨k, hk⟩
  | hysteriaObfsRotate a =>
    simp only [Command.servicesUp, LiveAnswers.servicesUp, RollbackAnswers.servicesUp,
      Bool.and_eq_true] at hup
    rw [Command.run] at hends ⊢
    have hends := concludes_outcome hends
    rw [final_outcome]
    refine (cmdHysteriaObfsRotate_wp site inv h a).2.coherent hk (fun p hp => ?_) ?_ hup.1.2 hup.2
      hends
    · rw [RotatePlan.targets, obfsPlan_contents (eq_ok_of_toOption hp)]
      rfl
    · exact fun p hp => obfsPlan_installs (eq_ok_of_toOption hp)
  | restore archive a =>
    simp only [Command.servicesUp, Bool.and_eq_true] at hup
    obtain ⟨honline, hobfs, hback⟩ := hcareful
    rw [Command.run] at hends ⊢
    have hends := concludes_outcome hends
    rw [final_outcome]
    exact (cmdRestore_wp site inv archive a h).2.coherent hk honline hobfs
      ⟨hrender hup.1.1.1.2, hrender hup.1.2⟩ ⟨hup.1.1.2, hup.2⟩ hback hends
  | renderConfig requireApplied a =>
    rw [Command.run] at hends ⊢
    rw [final_outcome]
    exact ⟨k, (cmdRenderConfig_coherent hk hcareful (hrender hup)).2 (concludes_outcome hends)⟩
  | configMigrate a =>
    rw [Command.run, final_outcome]
    exact ⟨k, (cmdConfigMigrate_coherent hk hcareful.1 (hrender hup) hcareful.2).2⟩
  | user cmd a =>
    simp only [Command.servicesUp, Bool.and_eq_true] at hup
    rw [Command.run] at hends ⊢
    rw [final_outcome]
    exact ⟨k, (userCommand_coherent hk hcareful ⟨hrender hup.1, hrender hup.2⟩).2
      (concludes_outcome hends)⟩
  | userRotateToken id tokenHash readUsers a =>
    rw [Command.run, final_outcome]
    exact ⟨k, (cmdUserRotateToken_coherent hk id tokenHash readUsers a).2⟩

/-- No split brain: with both services available, commands that all conclude and are all careful lead
from a coherent host to coherent hosts only. -/
theorem coherent_of_reached (site : Site) {first h : Host} (hfirst : ∃ k, Coherent site k first)
    (hrun : Reached site (fun inv h cmd => cmd.servicesUp = true ∧ cmd.concludes site inv h ∧
      cmd.Careful site inv h) first h) : ∃ k, Coherent site k h := by
  refine hrun.invariant (I := fun h => ∃ k, Coherent site k h) hfirst fun inv h cmd hk hmay => ?_
  obtain ⟨k, hk⟩ := hk
  exact Command.run_coherent hk hmay.1 hmay.2.1 hmay.2.2

end Commands

section Sample

def sampleKeyset : Keyset := ⟨sampleKey, sampleKey, "0a1b2c3d", none⟩

theorem sampleHost_coherent : Coherent sampleSite sampleKeyset sampleHost :=
  ⟨⟨⟨by decide +kernel, by decide +kernel⟩, by decide +kernel, by decide +kernel⟩, by decide +kernel⟩

/-- A rotation that is rolled back leaves the sample deployment coherent. -/
theorem rotateReloadFails_coherent :
    ∃ k, Coherent sampleSite k
      ((Command.init true rotateReloadFails).run sampleSite ⟨1, false⟩ sampleHost).final := by
  refine coherent_of_reached sampleSite ⟨_, sampleHost_coherent⟩ (.ran .start ⟨1, false⟩ _ ?_)
  refine ⟨by decide, ?_, rfl⟩
  show (outcome _ (cmdInit _ _ _ _) _).result ≠ _
  decide +kernel

def otherArchive : Archive
  | .users => some (.json (savedUsers [sampleUser]))
  | .privateKey => some (.text sampleKey)
  | .publicKey => some (.text sampleKey)
  | .shortId => some (.text "0f0e0d0c")
  | _ => none

/-- A restore whose reload fails with the new configuration loaded; the backup is copied back, and
the restart into it does not happen. The rollback of the restore succeeds. -/
def lostRestore : Command :=
  .restore otherArchive { RestoreAnswers.clear with
    regenerate := ⟨true, { RenderAnswers.clear with
      restart := .notActive
      recovery := ⟨.done, .notRestarted⟩ }⟩ }

/-- The rollback finds the stamp of the old configuration, renders nothing, and reports that it
recovered: sing-box runs the short id of the archive, the files and `vpn-subscription` have theirs. -/
theorem lostRestore_splits :
    (∃ k, Coherent sampleSite k sampleHost) ∧ lostRestore.servicesUp = true ∧
      (lostRestore.run sampleSite ⟨1, false⟩ sampleHost).result = .ok .rolledBack ∧
      ¬ ∃ k, Coherent sampleSite k (lostRestore.run sampleSite ⟨1, false⟩ sampleHost).final := by
  refine ⟨⟨_, sampleHost_coherent⟩, by decide, by decide +kernel, ?_⟩
  rintro ⟨k, hk⟩
  -- the short id of the files, and the one that sing-box has loaded
  have hfile : (lostRestore.run sampleSite ⟨1, false⟩ sampleHost).final.text? .shortId =
      some "0a1b2c3d" := by decide +kernel
  have hsingbox : ((lostRestore.run sampleSite ⟨1, false⟩ sampleHost).final.loaded.map
      secretsOf).map ServerSecrets.shortIds = some (some (.arr [.str "0f0e0d0c"])) := by
    decide +kernel
  obtain ⟨_, sid, -, hsid, -, htrim⟩ := hk.disk.texts
  rw [hfile] at hsid
  rw [hk.loaded] at hsingbox
  simp only [Option.map_some, Keyset.secrets, Option.some.injEq, Json.arr.injEq, List.cons.injEq,
    Json.str.injEq, and_true] at hsingbox
  rw [← Option.some.inj hsid, hsingbox] at htrim
  exact absurd htrim (by decide)

end Sample

end Vpn1.Admin
