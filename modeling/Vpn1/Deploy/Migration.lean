import Vpn1.Admin.Schema

/-! `update.sh` and the versioned state: a new release may migrate it, and a rollback restores the
old release without it. -/

namespace Vpn1.Deploy

open Compat Admin.Schema

variable {β : Type}

/-- The state files, and the release that `vpn-admin` and `vpn-subscription-svc` are of. -/
structure Server (β : Type) where
  disk : Disk β
  installed : Release

/-- What the steps of an update answer; those that write neither state file only succeed or fail. -/
structure UpdateAnswers (β : Type) where
  switched : Bool
  daemonReload : Bool
  migrate : Answers β
  renderConfig : Bool
  restartSubscription : Bool
  restartSingbox : Bool
  healthCheck : Bool
  doctor : Bool
  manifest : Bool

/-- The steps after `config validate` and a migration. -/
def UpdateAnswers.verified (a : UpdateAnswers β) : Bool :=
  a.renderConfig && a.restartSubscription && a.restartSingbox && a.healthCheck && a.doctor &&
    a.manifest

section Update

variable (fmt : Formats β) (new : Release)

/-- ACTIVATE and what follows it, with the new binaries in place; whether it commits. -/
def activate (a : UpdateAnswers β) (s : Server β) : Bool × Server β :=
  match configValidate fmt s.installed s.disk with
  | .ok .ok => (a.verified, s)
  | .ok .migrationRequired =>
    let run := configMigrate fmt s.installed a.migrate s.disk
    (run.result.isOk && a.verified, { s with disk := run.final })
  | _ => (false, s)

/-- The old binaries go back in place. `deployment.toml` and `users.json` are never rewound. -/
def rollbackUpdate (old s : Server β) : Server β :=
  { s with installed := old.installed }

/-- An update to `new`, rolled back if it does not commit, and whether it did. -/
def update (a : UpdateAnswers β) (s : Server β) : Bool × Server β :=
  let switched : Server β := ⟨s.disk, new⟩
  if a.switched && a.daemonReload then
    let r := activate fmt a switched
    if r.1 then (true, r.2) else (false, rollbackUpdate s r.2)
  else (false, rollbackUpdate s switched)

end Update

section Rollback

variable (fmt : Formats β)

/-- The installed services find these settings, at any schema version, and these users. -/
structure Loads (s : Server β) (cfg : DeploymentConfig) (users : List CompatUser) : Prop where
  settings : ∃ version, fmt.loadDeployment s.installed (s.disk.live .deploymentToml) true =
    .ok { cfg with schemaVersion := version }
  users : fmt.loadUsers s.installed (s.disk.live cfg.usersFile) true = .ok users

/-- The new release migrates a file to a version that the old one refuses. -/
structure Stranded (old new : Release) (d : Disk β) (cfg : DeploymentConfig) : Prop where
  required : configValidate fmt new d = .ok .migrationRequired
  refused : ∃ text out, (d.live .deploymentToml).bind fmt.text = some text ∧
    fmt.migratedText new text = .ok out ∧
      (out.isSome = true ∧ old.deployment < new.deployment ∨
        fmt.detectUsersSchema new (d.live cfg.usersFile) true = .legacy ∧ old.users < new.users)

end Rollback

section Releases

variable {fmt : Formats β} {old new : Release} {cfg : DeploymentConfig}

theorem validate_ok_iff {rel : Release} :
    Formats.validate rel cfg = .ok () ↔ cfg.schemaVersion ≤ rel.deployment ∧
      cfg.hysteria2.upMbps.isSome = cfg.hysteria2.downMbps.isSome := by
  unfold Formats.validate
  by_cases hversion : rel.deployment < cfg.schemaVersion
  · simp [hversion, UInt32.not_le.mpr hversion]
  · simp [hversion, UInt32.not_lt.mp hversion]

theorem validate_version_iff {rel : Release} (hcfg : Formats.validate rel cfg = .ok ())
    (version : UInt32) :
    Formats.validate rel { cfg with schemaVersion := version } = .ok () ↔
      version ≤ rel.deployment := by
  rw [validate_ok_iff] at hcfg ⊢
  exact and_iff_left hcfg.2

private theorem loadDeployment_mono {file : Option β} (hle : old.deployment ≤ new.deployment)
    (h : fmt.loadDeployment old file true = .ok cfg) :
    fmt.loadDeployment new file true = .ok cfg := by
  obtain ⟨-, bytes, text, hf, htext, hload⟩ := Formats.loadDeployment_ok_iff.mp h
  obtain ⟨htoml, hvalid⟩ := Formats.loadText_ok_iff.mp hload
  obtain ⟨hversion, hbandwidth⟩ := validate_ok_iff.mp hvalid
  exact Formats.loadDeployment_ok_iff.mpr ⟨rfl, bytes, text, hf, htext, Formats.loadText_ok_iff.mpr
    ⟨htoml, validate_ok_iff.mpr ⟨UInt32.le_trans hversion hle, hbandwidth⟩⟩⟩

private theorem loadUsers_mono {file : Option β} {users : List CompatUser}
    (hle : old.users ≤ new.users)
    (h : fmt.loadUsers old file true = .ok users) : fmt.loadUsers new file true = .ok users := by
  unfold UserFormats.loadUsers UserFormats.parseUsersBytes at h ⊢
  cases file with
  | none => exact h
  | some bytes =>
    simp only [if_true] at h ⊢
    cases hfile : fmt.usersFile bytes with
    | none => simpa [hfile] using h
    | some versioned =>
      simp only [hfile] at h ⊢
      by_cases hfuture : old.users < versioned.schemaVersion
      · simp [hfuture] at h
      · have hnew : ¬ new.users < versioned.schemaVersion := fun hlt =>
          hfuture (UInt32.lt_of_le_of_lt hle hlt)
        rw [if_neg hfuture] at h
        rw [if_neg hnew]
        exact h

theorem parse_encodeUsers_iff (users : List CompatUser) :
    fmt.parseUsersBytes old (fmt.encodeUsers ⟨new.users, users⟩) = .ok users ↔
      ¬ old.users < new.users := by
  simp only [UserFormats.parseUsersBytes, UserFormats.usersFile_encodeUsers]
  split_ifs with h
  · simp [h]
  · simp [h]

end Releases

section Rollback

variable {fmt : Formats β} {old new : Release} {cfg : DeploymentConfig} {users : List CompatUser}
  {d t : Disk β}

private theorem deployment_loads {r : Except CompatError MigrationOutcome}
    (hcfg : fmt.loadDeployment old (d.live .deploymentToml) true = .ok cfg)
    (ht : Formats.DeploymentMigration fmt new d r t)
    (hversion : ∀ text out, (d.live .deploymentToml).bind fmt.text = some text →
      fmt.migratedText new text = .ok (some out) → new.deployment ≤ old.deployment) :
    ∃ version, fmt.loadDeployment old (t.live .deploymentToml) true =
      .ok { cfg with schemaVersion := version } := by
  cases ht with
  | missing | alreadyCurrent => exact ⟨cfg.schemaVersion, hcfg⟩
  | failed ht =>
    rw [ht]
    exact ⟨cfg.schemaVersion, hcfg⟩
  | @migrated bytes text found _ _ hf htext hload hplan hpatched ht =>
    obtain ⟨-, bytes', text', hf', htext', hold⟩ := Formats.loadDeployment_ok_iff.mp hcfg
    obtain rfl : bytes = bytes' := Option.some.inj (hf.symm.trans hf')
    obtain rfl : text = text' := Option.some.inj (htext.symm.trans htext')
    obtain ⟨htoml, hvalid⟩ := Formats.loadText_ok_iff.mp hold
    obtain rfl : found = cfg := Option.some.inj ((Formats.loadText_ok_iff.mp hload).1.symm.trans htoml)
    have hsupported := hversion text _ (by rw [hf, Option.bind_some, htext]) hplan
    have hpatched := (Formats.loadText_ok_iff.mp hpatched).1
    refine ⟨new.deployment, Formats.loadDeployment_ok_iff.mpr ⟨rfl, _, _, ?_, fmt.text_ofText _,
      Formats.loadText_ok_iff.mpr ⟨hpatched, (validate_version_iff hvalid _).mpr hsupported⟩⟩⟩
    rw [ht, Function.update_self]

private theorem users_load {f : Location} {r : Except CompatError MigrationOutcome}
    (hle : old.users ≤ new.users) (hlist : fmt.loadUsers old (d.live f) true = .ok users)
    (ht : Formats.UsersMigration fmt new f d r t)
    (hversion : fmt.detectUsersSchema new (d.live f) true = .legacy → new.users ≤ old.users) :
    fmt.loadUsers old (t.live f) true = .ok users := by
  have hnew := loadUsers_mono hle hlist
  cases ht with
  | missing | alreadyCurrent => exact hlist
  | failed ht =>
    rw [ht]
    exact hlist
  | @migrated bytes legacy _ _ hf hlegacy hparse ht =>
    rw [hf] at hnew hversion
    obtain rfl : users = legacy := Except.ok.inj (hnew.symm.trans hparse)
    rw [ht, Function.update_self]
    exact (parse_encodeUsers_iff users).mpr (UInt32.not_lt.mpr (hversion hlegacy))

private theorem configMigrate_migrates
    (hcfg : fmt.loadDeployment new (d.live .deploymentToml) true = .ok cfg)
    (hlist : fmt.loadUsers new (d.live cfg.usersFile) true = .ok users) {text : String}
    {out : Option String} (htext : (d.live .deploymentToml).bind fmt.text = some text)
    (hplan : fmt.migratedText new text = .ok out)
    (ht : (configMigrate fmt new ⟨true, .allDone, .allDone, true⟩ d).final = t) :
    (∀ patched, out = some patched → t.live .deploymentToml = some (fmt.ofText patched)) ∧
      (fmt.detectUsersSchema new (d.live cfg.usersFile) true = .legacy →
        t.live cfg.usersFile = some (fmt.encodeUsers ⟨new.users, users⟩)) := by
  obtain ⟨-, bytes, text', hf, htext', -⟩ := Formats.loadDeployment_ok_iff.mp hcfg
  obtain rfl : text = text' := by
    rw [hf, Option.bind_some, htext'] at htext
    exact (Option.some.inj htext).symm
  have hdir : cfg.usersFile ≠ .deploymentToml := by simp [DeploymentConfig.usersFile]
  obtain ⟨outcome, hdepOk⟩ := Formats.migrateDeploymentToml_allDone hf htext' hplan
  have hdep : Formats.DeploymentMigration fmt new d _ _ :=
    (Formats.migrateDeploymentToml_wp .allDone d).2
  rw [hdepOk] at hdep
  generalize hm : (fmt.migrateDeploymentToml new .allDone d).final = m at hdep
  have hstore : m.live cfg.usersFile = d.live cfg.usersFile := hdep.live_of_ne hdir
  have hloads : fmt.loadUsers new (m.live cfg.usersFile) true = .ok users := by rw [hstore, hlist]
  obtain ⟨outcome', husersOk⟩ :
      ∃ outcome, (fmt.migrateUsers new cfg.usersFile .allDone m).result = .ok outcome :=
    Formats.migrateUsers_ok MigrateAnswers.clear_allDone (by rw [hloads]; rfl)
  have husers : Formats.UsersMigration fmt new cfg.usersFile m _ _ :=
    (Formats.migrateUsers_wp cfg.usersFile .allDone m).2
  rw [husersOk] at husers
  have hfinal := (configMigrate_allDone hcfg hdepOk (by rw [hm]; exact husersOk)).2
  rw [hm] at hfinal
  rw [← hfinal, ht] at husers
  constructor
  · rintro patched rfl
    rw [husers.live_of_ne hdir.symm]
    cases hdep with
    | missing hnone =>
      rw [hf] at hnone
      cases hnone
    | @alreadyCurrent bytes' text' found hf' htext'' hload hscan =>
      obtain rfl : bytes = bytes' := Option.some.inj (hf.symm.trans hf')
      obtain rfl : text = text' := Option.some.inj (htext'.symm.trans htext'')
      rw [Formats.migratedText_of_scans hload hscan] at hplan
      cases hplan
    | @migrated bytes' text' found _ _ hf' htext'' _ hplan' _ hlive =>
      obtain rfl : bytes = bytes' := Option.some.inj (hf.symm.trans hf')
      obtain rfl : text = text' := Option.some.inj (htext'.symm.trans htext'')
      obtain rfl := Option.some.inj (Except.ok.inj (hplan.symm.trans hplan'))
      rw [hlive, Function.update_self]
  · intro hlegacy
    rw [← hstore] at hlegacy
    cases husers with
    | missing hnone => simp [UserFormats.detectUsersSchema, hnone] at hlegacy
    | alreadyCurrent hf' hcurrent => simp [UserFormats.detectUsersSchema, hf', hcurrent] at hlegacy
    | @migrated bytes' legacy _ _ hf' _ hparse hlive =>
      obtain rfl : users = legacy := by
        rw [hf'] at hloads
        exact Except.ok.inj (hloads.symm.trans hparse)
      rw [hlive, Function.update_self]

private theorem supported_of_patched {text patched : String} {found : DeploymentConfig}
    (hplan : fmt.migratedText new text = .ok (some patched))
    (hload : fmt.loadDeployment old (some (fmt.ofText patched)) true = .ok found) :
    new.deployment ≤ old.deployment := by
  obtain ⟨-, bytes, text', hbytes, htext, hold⟩ := Formats.loadDeployment_ok_iff.mp hload
  obtain rfl := Option.some.inj hbytes
  obtain rfl : patched = text' := Option.some.inj ((fmt.text_ofText patched).symm.trans htext)
  obtain ⟨htoml, hvalid⟩ := Formats.loadText_ok_iff.mp hold
  obtain ⟨cfg, -, ⟨-, hnone⟩ | ⟨-, hsome, hnew⟩⟩ := Formats.migratedText_ok hplan
  · cases hnone
  · rw [← Option.some.inj hsome] at hnew
    -- both read the text as the same settings
    obtain rfl := Option.some.inj ((Formats.loadText_ok_iff.mp hnew).1.symm.trans htoml)
    exact (validate_ok_iff.mp hvalid).1

private theorem plan_of_migration {outcome : MigrationOutcome}
    (hcfg : fmt.loadDeployment old (d.live .deploymentToml) true = .ok cfg)
    (ht : Formats.DeploymentMigration fmt new d (.ok outcome) t) :
    ∃ text out, (d.live .deploymentToml).bind fmt.text = some text ∧
      fmt.migratedText new text = .ok out := by
  cases ht with
  | missing hnone =>
    obtain ⟨-, bytes, -, hf, -⟩ := Formats.loadDeployment_ok_iff.mp hcfg
    rw [hf] at hnone
    cases hnone
  | alreadyCurrent hf htext hload hscan =>
    exact ⟨_, none, by rw [hf, Option.bind_some, htext], Formats.migratedText_of_scans hload hscan⟩
  | migrated hf htext hload hplan => exact ⟨_, _, by rw [hf, Option.bind_some, htext], hplan⟩

private theorem update_failed {a : UpdateAnswers β}
    (hfailed : (update fmt new a ⟨d, old⟩).1 = false) :
    (update fmt new a ⟨d, old⟩).2 = ⟨d, old⟩ ∨
      configValidate fmt new d = .ok .migrationRequired ∧
        (update fmt new a ⟨d, old⟩).2 = ⟨(configMigrate fmt new a.migrate d).final, old⟩ := by
  unfold update at hfailed ⊢
  cases hswitched : a.switched && a.daemonReload with
  | false => exact .inl rfl
  | true =>
    simp only [hswitched, if_true] at hfailed ⊢
    cases hcommits : (activate fmt a ⟨d, new⟩).1 with
    | true => simp [hcommits] at hfailed
    | false =>
      simp only [Bool.false_eq_true, if_false, rollbackUpdate]
      unfold activate
      split
      · exact .inl rfl
      · next hrequired => exact .inr ⟨hrequired, rfl⟩
      · exact .inl rfl

def acceptanceFails : UpdateAnswers β :=
  ⟨true, true, ⟨true, .allDone, .allDone, true⟩, true, true, true, true, false, true⟩

private theorem not_loads_of_stranded
    (hcfg : fmt.loadDeployment new (d.live .deploymentToml) true = .ok cfg)
    (hlist : fmt.loadUsers new (d.live cfg.usersFile) true = .ok users)
    (h : Stranded fmt old new d cfg) :
    (update fmt new acceptanceFails ⟨d, old⟩).1 = false ∧
      ¬ Loads fmt (update fmt new acceptanceFails ⟨d, old⟩).2 cfg users := by
  obtain ⟨hrequired, text, out, htext, hplan, hrefused⟩ := h
  obtain ⟨htoml, hstore⟩ := configMigrate_migrates hcfg hlist htext hplan rfl
  simp only [update, activate, hrequired, acceptanceFails, UpdateAnswers.verified, rollbackUpdate,
    Bool.and_true, Bool.and_false, Bool.false_eq_true, if_false, if_true, true_and]
  intro hloads
  rcases hrefused with ⟨hsome, hlt⟩ | ⟨hlegacy, hlt⟩
  · obtain ⟨patched, rfl⟩ := Option.isSome_iff_exists.mp hsome
    obtain ⟨version, hload⟩ := hloads.settings
    rw [htoml patched rfl] at hload
    exact UInt32.not_lt.mpr (supported_of_patched hplan hload) hlt
  · have hread := hloads.users
    rw [hstore hlegacy] at hread
    exact (parse_encodeUsers_iff users).mp hread hlt

/-- A rolled-back update leaves what the old release can load exactly if the new one did not migrate
it out of reach. -/
theorem rollback_loads_iff (hdep : old.deployment ≤ new.deployment) (husers : old.users ≤ new.users)
    (hcfg : fmt.loadDeployment old (d.live .deploymentToml) true = .ok cfg)
    (hlist : fmt.loadUsers old (d.live cfg.usersFile) true = .ok users) :
    (∀ a, (update fmt new a ⟨d, old⟩).1 = false →
        Loads fmt (update fmt new a ⟨d, old⟩).2 cfg users) ↔
      ¬ Stranded fmt old new d cfg := by
  have hcfg' := loadDeployment_mono hdep hcfg
  constructor
  · intro hall hstranded
    obtain ⟨hfailed, hnot⟩ :=
      not_loads_of_stranded hcfg' (loadUsers_mono husers hlist) hstranded
    exact hnot (hall _ hfailed)
  · intro hkept a hfailed
    rcases update_failed hfailed with hsame | ⟨hrequired, hmigrated⟩
    · rw [hsame]
      exact ⟨⟨cfg.schemaVersion, hcfg⟩, hlist⟩
    · rw [hmigrated]
      have hversion : ∀ text out, (d.live .deploymentToml).bind fmt.text = some text →
          fmt.migratedText new text = .ok (some out) → new.deployment ≤ old.deployment :=
        fun text out htext hplan => UInt32.not_lt.mp fun hlt =>
          hkept ⟨hrequired, text, some out, htext, hplan, .inl ⟨rfl, hlt⟩⟩
      have hdm : Formats.DeploymentMigration fmt new d _ _ :=
        (Formats.migrateDeploymentToml_wp a.migrate.deployment d).2
      have hsettings := deployment_loads hcfg hdm hversion
      have hdir : cfg.usersFile ≠ .deploymentToml := by simp [DeploymentConfig.usersFile]
      have hrun := configMigrate_run hcfg' a.migrate
      have hstored {m t : Disk β} {outcome : MigrationOutcome}
          {r : Except CompatError MigrationOutcome}
          (hm : Formats.DeploymentMigration fmt new d (.ok outcome) m)
          (ht : Formats.UsersMigration fmt new cfg.usersFile m r t) :
          fmt.loadUsers old (t.live cfg.usersFile) true = .ok users := by
        obtain ⟨text, out, htext, hplan⟩ := plan_of_migration hcfg hm
        have hstore : m.live cfg.usersFile = d.live cfg.usersFile := hm.live_of_ne hdir
        refine users_load husers (by rw [hstore, hlist]) ht fun hlegacy => ?_
        rw [hstore] at hlegacy
        exact UInt32.not_lt.mp fun hlt =>
          hkept ⟨hrequired, text, out, htext, hplan, .inr ⟨hlegacy, hlt⟩⟩
      generalize (configMigrate fmt new a.migrate d).result = r at hrun
      generalize (configMigrate fmt new a.migrate d).final = t at hrun ⊢
      cases hrun with
      | notLoaded => exact ⟨⟨cfg.schemaVersion, hcfg⟩, hlist⟩
      | deploymentFailed =>
        refine ⟨hsettings, ?_⟩
        rw [hdm.live_of_ne hdir]
        exact hlist
      | usersFailed hm hok =>
        rw [hok, hm] at hdm
        rw [hm] at hsettings
        refine ⟨?_, hstored hdm (Formats.migrateUsers_wp _ _ _).2⟩
        simpa only [migrateUsers_deployment] using hsettings
      | migrated hm hok =>
        rw [hok, hm] at hdm
        rw [hm] at hsettings
        refine ⟨?_, hstored hdm (Formats.migrateUsers_wp _ _ _).2⟩
        simpa only [migrateUsers_deployment] using hsettings

end Rollback

section Sample

def unmarked : String := "public_host = \"vpn.example.com\""

def markedToml (text : String) : Option DeploymentConfig :=
  if text = unmarked then some (markedConfig 0)
  else if text = Formats.schemaMarker ⟨1, 1⟩ ++ "\n" ++ unmarked then some (markedConfig 1)
  else if text = Formats.schemaMarker ⟨2, 1⟩ ++ "\n" ++ unmarked then some (markedConfig 2)
  else none

def markedFormats : Formats Admin.Content := Admin.contentFormats markedToml

theorem load_unmarked (rel : Release) :
    markedFormats.loadDeployment rel ((sampleDisk unmarked).live .deploymentToml) true =
      .ok (markedConfig 0) := by
  have hreader : markedFormats.toml = markedToml := rfl
  have htoml : markedFormats.toml unmarked = some (markedConfig 0) := by
    rw [hreader, markedToml, if_pos rfl]
  exact Formats.loadDeployment_ok_iff.mpr ⟨rfl, _, unmarked, rfl, rfl,
    Formats.loadText_ok_iff.mpr ⟨htoml, validate_ok_iff.mpr ⟨UInt32.zero_le, rfl⟩⟩⟩

/-- Between releases of one schema the files of a server without a version survive. -/
theorem rollback_loads_sample :
    (1 : UInt32) ≤ 1 ∧ ∀ a, (update markedFormats ⟨1, 1⟩ a ⟨sampleDisk unmarked, ⟨1, 1⟩⟩).1 = false →
      Loads markedFormats (update markedFormats ⟨1, 1⟩ a ⟨sampleDisk unmarked, ⟨1, 1⟩⟩).2
        (markedConfig 0) [] := by
  refine ⟨by decide, (rollback_loads_iff (by decide) (by decide) (load_unmarked _) rfl).mpr ?_⟩
  rintro ⟨-, -, -, -, -, ⟨-, hlt⟩ | ⟨-, hlt⟩⟩
  · exact absurd hlt (by decide)
  · exact absurd hlt (by decide)

/-- The settings are stamped with version 2, which the release that was restored does not know. -/
theorem rollback_strands_settings :
    markedFormats.loadDeployment ⟨1, 1⟩ ((sampleDisk unmarked).live .deploymentToml) true =
        .ok (markedConfig 0) ∧
      (update markedFormats ⟨2, 1⟩ acceptanceFails ⟨sampleDisk unmarked, ⟨1, 1⟩⟩).1 = false ∧
      ¬ Loads markedFormats
        (update markedFormats ⟨2, 1⟩ acceptanceFails ⟨sampleDisk unmarked, ⟨1, 1⟩⟩).2
        (markedConfig 0) [] := by
  have hplan : markedFormats.migratedText ⟨2, 1⟩ unmarked =
      .ok (some (Formats.schemaMarker ⟨2, 1⟩ ++ "\n" ++ unmarked)) := by decide +kernel
  have hstranded : Stranded markedFormats ⟨1, 1⟩ ⟨2, 1⟩ (sampleDisk unmarked) (markedConfig 0) := by
    refine ⟨?_, unmarked, _, rfl, hplan, .inl ⟨rfl, by decide⟩⟩
    rw [configValidate, load_unmarked]
    rfl
  exact ⟨load_unmarked _, not_loads_of_stranded (load_unmarked _) rfl hstranded⟩

end Sample

end Vpn1.Deploy
