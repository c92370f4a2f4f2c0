import Vpn1.Admin.Store
import Vpn1.Compat.Deployment

/-! `config validate` and `config migrate` on the two versioned files: what one asks for and what
the other brings about. -/

namespace Vpn1.Admin.Schema

open Compat Traced

variable {β : Type}

/-- The verdict of `config validate`: exit codes 0, 2 and 3. -/
inductive Mode
  | ok
  | migrationRequired
  | invalid
  deriving DecidableEq, Repr

/-- One run of `config migrate`: the first load, both migrations and the load after them. -/
structure Answers (β : Type) where
  load : Bool
  deployment : Compat.MigrateAnswers β
  users : Compat.MigrateAnswers β
  reload : Bool

section Commands

variable (fmt : Formats β) (rel : Release)

def cmdConfigValidate (cfg : DeploymentConfig) (d : Disk β) (read : Bool) : Mode :=
  match fmt.detectUsersSchema rel (d.live cfg.usersFile) read with
  | .future _ | .corrupted => .invalid
  | .legacy => .migrationRequired
  | .missing | .current => if cfg.schemaVersion = 0 then .migrationRequired else .ok

def configValidate (d : Disk β) : Except CompatError Mode :=
  (fmt.loadDeployment rel (d.live .deploymentToml) true).map fun cfg =>
    cmdConfigValidate fmt rel cfg d true

/-- sing-box is rendered afterwards: that writes neither file, and its failure is only warned
about. -/
def cmdConfigMigrate (cfg : DeploymentConfig) (a : Answers β) :
    Prog (Disk β) Unit CompatError Unit := do
  let _ ← fmt.migrateDeploymentToml rel a.deployment
  let _ ← fmt.migrateUsers rel cfg.usersFile a.users
  match ← Prog.look (fun d => fmt.loadDeployment rel (d.live .deploymentToml) a.reload) with
  | .error e => Prog.fail e
  | .ok _ => return ()

def configMigrate (a : Answers β) : Prog (Disk β) Unit CompatError Unit := do
  match ← Prog.look (fun d => fmt.loadDeployment rel (d.live .deploymentToml) a.load) with
  | .error e => Prog.fail e
  | .ok cfg => cmdConfigMigrate fmt rel cfg a

end Commands

section Convergence

variable (fmt : Formats β)

/-- What a successful migration from `d` has to leave behind. -/
structure Converged (d : Disk β) (cfg : DeploymentConfig) (t : Disk β) : Prop where
  validates : configValidate fmt thisRelease t = .ok .ok
  settings : ∃ version, fmt.loadDeployment thisRelease (t.live .deploymentToml) true =
    .ok { cfg with schemaVersion := version }
  users : fmt.loadUsers thisRelease (t.live cfg.usersFile) true =
    fmt.loadUsers thisRelease (d.live cfg.usersFile) true
  text : t.live .deploymentToml = d.live .deploymentToml ∨
    ∃ text, (d.live .deploymentToml).bind fmt.text = some text ∧
      t.live .deploymentToml = some (fmt.ofText (Formats.schemaMarker thisRelease ++ "\n" ++ text))
  again : ∀ a, (configMigrate fmt thisRelease a t).final = t

/-- One run converges if it succeeds, and a file whose own migration fails is left as it was. -/
structure Converges (d : Disk β) (cfg : DeploymentConfig) (a : Answers β) : Prop where
  converged : (configMigrate fmt thisRelease a d).result = .ok () →
    Converged fmt d cfg (configMigrate fmt thisRelease a d).final
  deployment : (fmt.migrateDeploymentToml thisRelease a.deployment d).result.isOk = false →
    (configMigrate fmt thisRelease a d).final.live .deploymentToml = d.live .deploymentToml
  users :
    let middle := (fmt.migrateDeploymentToml thisRelease a.deployment d).final
    (fmt.migrateUsers thisRelease cfg.usersFile a.users middle).result.isOk = false →
      (configMigrate fmt thisRelease a d).final.live cfg.usersFile = d.live cfg.usersFile

/-- A line that starts with `schema_version` hides that the version is 0, over a store that loads. -/
structure Hidden (d : Disk β) (cfg : DeploymentConfig) : Prop where
  version : cfg.schemaVersion = 0
  scans : ∃ text, (d.live .deploymentToml).bind fmt.text = some text ∧
    Formats.scansVersioned text = true
  users : (fmt.loadUsers thisRelease (d.live cfg.usersFile) true).isOk = true

end Convergence

section Runs

variable {fmt : Formats β} {rel : Release} {d m t : Disk β} {cfg : DeploymentConfig}

variable (fmt rel d cfg) in
/-- How `config migrate` can end on settings that load as `cfg`: stopped by the first load, by one
of the two migrations, or past both of them. -/
inductive MigrateRun (a : Answers β) : Except CompatError Unit → Disk β → Prop
  | notLoaded {e : CompatError} : MigrateRun a (.error e) d
  | deploymentFailed {e : CompatError}
      (hdep : (fmt.migrateDeploymentToml rel a.deployment d).result = .error e) :
      MigrateRun a (.error e) (fmt.migrateDeploymentToml rel a.deployment d).final
  | usersFailed {outcome : MigrationOutcome} {e : CompatError} {m : Disk β}
      (hm : (fmt.migrateDeploymentToml rel a.deployment d).final = m)
      (hdep : (fmt.migrateDeploymentToml rel a.deployment d).result = .ok outcome)
      (husers : (fmt.migrateUsers rel cfg.usersFile a.users m).result = .error e) :
      MigrateRun a (.error e) (fmt.migrateUsers rel cfg.usersFile a.users m).final
  | migrated {outcome outcome' : MigrationOutcome} {m : Disk β} {r : Except CompatError Unit}
      (hm : (fmt.migrateDeploymentToml rel a.deployment d).final = m)
      (hdep : (fmt.migrateDeploymentToml rel a.deployment d).result = .ok outcome)
      (husers : (fmt.migrateUsers rel cfg.usersFile a.users m).result = .ok outcome') :
      MigrateRun a r (fmt.migrateUsers rel cfg.usersFile a.users m).final

theorem configMigrate_run
    (hload : fmt.loadDeployment rel (d.live .deploymentToml) true = .ok cfg) (a : Answers β) :
    MigrateRun fmt rel d cfg a (configMigrate fmt rel a d).result
      (configMigrate fmt rel a d).final := by
  have hrun : Wp (configMigrate fmt rel a) d (fun _ _ => True) (MigrateRun fmt rel d cfg a) := by
    unfold configMigrate
    rw [wp_bind, wp_look]
    cases hfirst : fmt.loadDeployment rel (d.live .deploymentToml) a.load with
    | error e => exact wp_fail.mpr .notLoaded
    | ok first =>
      have hread : a.load = true := (Formats.loadDeployment_ok_iff.mp hfirst).1
      obtain rfl : cfg = first := by
        rw [hread, hload] at hfirst
        exact Except.ok.inj hfirst
      dsimp only [cmdConfigMigrate]
      rw [wp_bind]
      refine ⟨fun _ _ => trivial, ?_⟩
      cases hdep : (fmt.migrateDeploymentToml rel a.deployment d).result with
      | error e => exact .deploymentFailed hdep
      | ok outcome =>
        dsimp only
        rw [wp_bind]
        refine ⟨fun _ _ => trivial, ?_⟩
        cases husers : (fmt.migrateUsers rel cfg.usersFile a.users
            (fmt.migrateDeploymentToml rel a.deployment d).final).result with
        | error e => exact .usersFailed rfl hdep husers
        | ok outcome' =>
          dsimp only
          rw [wp_bind, wp_look]
          dsimp only
          split
          · exact wp_fail.mpr (.migrated rfl hdep husers)
          · exact wp_pure.mpr (.migrated rfl hdep husers)
  exact hrun.2

/-- Versioned settings over a settled store are what `config validate` asks for, and a further
`config migrate` leaves them alone. -/
theorem settled_of_versioned {bytes : β} {text : String} (hf : t.live .deploymentToml = some bytes)
    (htext : fmt.text bytes = some text) (hload : fmt.loadText rel text = .ok cfg)
    (hscan : Formats.scansVersioned text = true) (hversion : cfg.schemaVersion ≠ 0)
    (hstore : ∀ bytes, t.live cfg.usersFile = some bytes →
      fmt.detectUsersBytes rel bytes = .current) :
    configValidate fmt rel t = .ok .ok ∧ ∀ a, (configMigrate fmt rel a t).final = t := by
  have hcfg : fmt.loadDeployment rel (t.live .deploymentToml) true = .ok cfg :=
    Formats.loadDeployment_ok_iff.mpr ⟨rfl, bytes, text, hf, htext, hload⟩
  constructor
  · have hmode : cmdConfigValidate fmt rel cfg t true = .ok := by
      unfold cmdConfigValidate
      cases hu : t.live cfg.usersFile with
      | none => simp [UserFormats.detectUsersSchema, hversion]
      | some store => simp [UserFormats.detectUsersSchema, hstore store hu, hversion]
    simp [configValidate, hcfg, hmode, Except.map]
  · intro a
    have hdep : (fmt.migrateDeploymentToml rel a.deployment t).final = t :=
      Formats.migrateDeploymentToml_settled hf htext hscan a.deployment
    have husers := Formats.migrateUsers_settled hstore a.users
    have hrun := configMigrate_run hcfg a
    generalize (configMigrate fmt rel a t).result = r at hrun
    generalize (configMigrate fmt rel a t).final = u at hrun ⊢
    cases hrun with
    | notLoaded => rfl
    | deploymentFailed => exact hdep
    | usersFailed hm =>
      rw [← hm, hdep]
      exact husers
    | migrated hm =>
      rw [← hm, hdep]
      exact husers

/-- Whatever a run did to `deployment.toml`, the settings are those of `cfg` at a version that is
not 0, unless a version line hid that it is. -/
theorem converged_of_migrated (hload : fmt.loadDeployment thisRelease (d.live .deploymentToml) true =
    .ok cfg) (hhidden : ¬ Hidden fmt d cfg) {outcome outcome' : MigrationOutcome}
    (hdep : Formats.DeploymentMigration fmt thisRelease d (.ok outcome) m)
    (husers : Formats.UsersMigration fmt thisRelease cfg.usersFile m (.ok outcome') t) :
    Converged fmt d cfg t := by
  obtain ⟨-, bytes, text, hf, htext, htoml⟩ := Formats.loadDeployment_ok_iff.mp hload
  have hdir : Location.deploymentToml ≠ cfg.usersFile := by simp [DeploymentConfig.usersFile]
  have hstore : m.live cfg.usersFile = d.live cfg.usersFile := hdep.live_of_ne hdir.symm
  have hsame : t.live .deploymentToml = m.live .deploymentToml := husers.live_of_ne hdir
  have hlist := husers.loadUsers_eq
  rw [hstore] at hlist
  cases hdep with
  | missing hnone =>
    rw [hf] at hnone
    cases hnone
  | @alreadyCurrent bytes' text' cfg' hf' htext' hload' hscan =>
    obtain rfl : bytes = bytes' := Option.some.inj (hf.symm.trans hf')
    obtain rfl : text = text' := Option.some.inj (htext.symm.trans htext')
    have hversion : cfg.schemaVersion ≠ 0 := fun hzero =>
      hhidden ⟨hzero, ⟨text, by simp [hf, htext], hscan⟩, husers.isOk_loadUsers⟩
    have ht : t.live .deploymentToml = some bytes := hsame.trans hf
    obtain ⟨hvalid, hagain⟩ := settled_of_versioned ht htext htoml hscan hversion
      fun _ hb => husers.settled hb
    exact ⟨hvalid, ⟨cfg.schemaVersion,
      Formats.loadDeployment_ok_iff.mpr ⟨rfl, bytes, text, ht, htext, htoml⟩⟩, hlist, .inl hsame,
      hagain⟩
  | @migrated bytes' text' cfg' _ _ hf' htext' hload' hplan hpatched hm =>
    obtain rfl : bytes = bytes' := Option.some.inj (hf.symm.trans hf')
    obtain rfl : text = text' := Option.some.inj (htext.symm.trans htext')
    obtain rfl : cfg = cfg' := by
      rw [htoml] at hload'
      exact Except.ok.inj hload'
    have ht : t.live .deploymentToml =
        some (fmt.ofText (Formats.schemaMarker thisRelease ++ "\n" ++ text)) := by
      rw [hsame, hm, Function.update_self]
    have hread := fmt.text_ofText (Formats.schemaMarker thisRelease ++ "\n" ++ text)
    obtain ⟨hvalid, hagain⟩ := settled_of_versioned ht hread hpatched
      (Formats.scansVersioned_marker text) (show thisRelease.deployment ≠ 0 by decide)
      fun _ hb => husers.settled hb
    exact ⟨hvalid, ⟨_, Formats.loadDeployment_ok_iff.mpr ⟨rfl, _, _, ht, hread, hpatched⟩⟩, hlist,
      .inr ⟨text, by simp [hf, htext], ht⟩, hagain⟩

theorem migrateUsers_deployment (a : Compat.MigrateAnswers β) :
    (fmt.migrateUsers rel cfg.usersFile a d).final.live .deploymentToml =
      d.live .deploymentToml :=
  (Formats.migrateUsers_wp cfg.usersFile a d).2.live_of_ne (by simp [DeploymentConfig.usersFile])

/-- If no step fails, the two migrations are all there is to `config migrate`. -/
theorem configMigrate_allDone (hload : fmt.loadDeployment rel (d.live .deploymentToml) true =
    .ok cfg) {outcome outcome' : MigrationOutcome}
    (hdep : (fmt.migrateDeploymentToml rel .allDone d).result = .ok outcome)
    (husers : (fmt.migrateUsers rel cfg.usersFile .allDone
      (fmt.migrateDeploymentToml rel .allDone d).final).result = .ok outcome') :
    let t := (fmt.migrateUsers rel cfg.usersFile .allDone
      (fmt.migrateDeploymentToml rel .allDone d).final).final
    (configMigrate fmt rel ⟨true, .allDone, .allDone, true⟩ d).result =
        (fmt.loadDeployment rel (t.live .deploymentToml) true).map (fun _ => ()) ∧
      (configMigrate fmt rel ⟨true, .allDone, .allDone, true⟩ d).final = t := by
  intro t
  have hrun : Wp (configMigrate fmt rel ⟨true, .allDone, .allDone, true⟩) d (fun _ _ => True)
      fun r u => r = (fmt.loadDeployment rel (t.live .deploymentToml) true).map (fun _ => ()) ∧
        u = t := by
    unfold configMigrate cmdConfigMigrate
    rw [wp_bind, wp_look, hload]
    dsimp only
    rw [wp_bind]
    refine ⟨fun _ _ => trivial, ?_⟩
    rw [hdep]
    dsimp only
    rw [wp_bind]
    refine ⟨fun _ _ => trivial, ?_⟩
    rw [husers]
    dsimp only
    rw [wp_bind, wp_look]
    cases fmt.loadDeployment rel (t.live .deploymentToml) true with
    | error e => exact wp_fail.mpr ⟨rfl, rfl⟩
    | ok _ => exact wp_pure.mpr ⟨rfl, rfl⟩
  exact hrun.2

private theorem configMigrate_of_scans
    (hload : fmt.loadDeployment rel (d.live .deploymentToml) true =
    .ok cfg) {text : String} (htext : (d.live .deploymentToml).bind fmt.text = some text)
    (hscan : Formats.scansVersioned text = true)
    (husers : (fmt.loadUsers rel (d.live cfg.usersFile) true).isOk = true) :
    (configMigrate fmt rel ⟨true, .allDone, .allDone, true⟩ d).result = .ok () ∧
      (configMigrate fmt rel ⟨true, .allDone, .allDone, true⟩ d).final =
        (fmt.migrateUsers rel cfg.usersFile .allDone d).final := by
  obtain ⟨-, bytes, text', hf, htext', htoml⟩ := Formats.loadDeployment_ok_iff.mp hload
  obtain rfl : text = text' := by
    rw [hf, Option.bind_some, htext'] at htext
    exact (Option.some.inj htext).symm
  obtain ⟨outcome, hdepOk⟩ := Formats.migrateDeploymentToml_allDone hf htext'
    (Formats.migratedText_of_scans htoml hscan)
  have hdepFinal : (fmt.migrateDeploymentToml rel .allDone d).final = d :=
    Formats.migrateDeploymentToml_settled hf htext' hscan .allDone
  obtain ⟨outcome', husersOk⟩ := Formats.migrateUsers_ok MigrateAnswers.clear_allDone husers
  obtain ⟨hresult, hfinal⟩ := configMigrate_allDone hload hdepOk (by rw [hdepFinal]; exact husersOk)
  rw [hdepFinal] at hresult hfinal
  rw [hresult, migrateUsers_deployment, hload]
  exact ⟨rfl, hfinal⟩

/-- Without a version line every step can work too, if the marker leaves the settings readable. -/
theorem configMigrate_of_patched (hload : fmt.loadDeployment rel (d.live .deploymentToml) true =
    .ok cfg) {text : String} (htext : (d.live .deploymentToml).bind fmt.text = some text)
    (hscan : Formats.scansVersioned text = false)
    (hpatched : fmt.loadText rel (Formats.schemaMarker rel ++ "\n" ++ text) =
      .ok { cfg with schemaVersion := rel.deployment })
    (husers : (fmt.loadUsers rel (d.live cfg.usersFile) true).isOk = true) :
    (configMigrate fmt rel ⟨true, .allDone, .allDone, true⟩ d).result = .ok () := by
  obtain ⟨-, bytes, text', hf, htext', htoml⟩ := Formats.loadDeployment_ok_iff.mp hload
  obtain rfl : text = text' := by
    rw [hf, Option.bind_some, htext'] at htext
    exact (Option.some.inj htext).symm
  have hplan := Formats.migratedText_of_patched htoml hscan hpatched
  obtain ⟨outcome, hdepOk⟩ := Formats.migrateDeploymentToml_allDone hf htext' hplan
  have hdep : Formats.DeploymentMigration fmt rel d
      (fmt.migrateDeploymentToml rel .allDone d).result
      (fmt.migrateDeploymentToml rel .allDone d).final :=
    (Formats.migrateDeploymentToml_wp .allDone d).2
  have hdir : cfg.usersFile ≠ .deploymentToml := by simp [DeploymentConfig.usersFile]
  have hstore := hdep.live_of_ne hdir
  obtain ⟨outcome', husersOk⟩ := Formats.migrateUsers_ok MigrateAnswers.clear_allDone
    (by rw [hstore]; exact husers)
  have hnew : fmt.loadDeployment rel
      ((fmt.migrateDeploymentToml rel .allDone d).final.live .deploymentToml) true =
        .ok { cfg with schemaVersion := rel.deployment } := by
    rw [Formats.migrateDeploymentToml_patched hf htext' hplan]
    exact Formats.loadDeployment_ok_iff.mpr ⟨rfl, _, _, rfl, fmt.text_ofText _, hpatched⟩
  rw [(configMigrate_allDone hload hdepOk husersOk).1, migrateUsers_deployment, hnew]
  rfl

private theorem configMigrate_failed
    (hload : fmt.loadDeployment rel (d.live .deploymentToml) true = .ok cfg) (a : Answers β) :
    ((fmt.migrateDeploymentToml rel a.deployment d).result.isOk = false →
        (configMigrate fmt rel a d).final.live .deploymentToml = d.live .deploymentToml) ∧
      ((fmt.migrateUsers rel cfg.usersFile a.users
          (fmt.migrateDeploymentToml rel a.deployment d).final).result.isOk = false →
        (configMigrate fmt rel a d).final.live cfg.usersFile = d.live cfg.usersFile) := by
  have hdep : Formats.DeploymentMigration fmt rel d
      (fmt.migrateDeploymentToml rel a.deployment d).result
      (fmt.migrateDeploymentToml rel a.deployment d).final :=
    (Formats.migrateDeploymentToml_wp a.deployment d).2
  have hdir : cfg.usersFile ≠ .deploymentToml := by simp [DeploymentConfig.usersFile]
  have hstore := hdep.live_of_ne hdir
  have hrun := configMigrate_run hload a
  generalize (configMigrate fmt rel a d).result = r at hrun
  generalize (configMigrate fmt rel a d).final = t at hrun ⊢
  cases hrun with
  | notLoaded => exact ⟨fun _ => rfl, fun _ => rfl⟩
  | deploymentFailed hfail =>
    constructor
    · intro _
      rw [hfail] at hdep
      cases hdep with
      | failed ht => rw [ht]
    · exact fun _ => hstore
  | @usersFailed _ _ m hm hok hfail =>
    rw [hok]
    constructor
    · intro h
      simp at h
    · intro _
      have husers : Formats.UsersMigration fmt rel cfg.usersFile m
          (fmt.migrateUsers rel cfg.usersFile a.users m).result
          (fmt.migrateUsers rel cfg.usersFile a.users m).final :=
        (Formats.migrateUsers_wp cfg.usersFile a.users m).2
      rw [hfail] at husers
      cases husers with
      | failed ht => rw [ht, ← hm, hstore]
  | migrated hm hok husers =>
    rw [hok, hm, husers]
    constructor <;>
    · intro h
      simp at h

private theorem cmdConfigValidate_ne_ok (hzero : cfg.schemaVersion = 0) (read : Bool) :
    cmdConfigValidate fmt rel cfg d read ≠ .ok := by
  unfold cmdConfigValidate
  split <;> simp [hzero]

/-- Migration converges to what validation asks for unless a version line hides version 0. -/
theorem configMigrate_converges_iff
    (hload : fmt.loadDeployment thisRelease (d.live .deploymentToml) true = .ok cfg) :
    (∀ a, Converges fmt d cfg a) ↔ ¬ Hidden fmt d cfg := by
  constructor
  · intro hconv hhidden
    obtain ⟨text, htext, hscan⟩ := hhidden.scans
    obtain ⟨hok, hfinal⟩ := configMigrate_of_scans hload htext hscan hhidden.users
    -- the settings on disk are the old ones, so validation still sees version 0
    have hvalid := ((hconv _).converged hok).validates
    rw [configValidate, hfinal, migrateUsers_deployment, hload] at hvalid
    exact cmdConfigValidate_ne_ok hhidden.version true (Except.ok.inj hvalid)
  · intro hhidden a
    obtain ⟨hdep, husers⟩ := configMigrate_failed hload a
    refine ⟨fun hok => ?_, hdep, husers⟩
    have hrun := configMigrate_run hload a
    rw [hok] at hrun
    generalize (configMigrate fmt thisRelease a d).final = t at hrun ⊢
    cases hrun with
    | @migrated _ _ m _ hm hd hu =>
      have hdm : Formats.DeploymentMigration fmt thisRelease d
          (fmt.migrateDeploymentToml thisRelease a.deployment d).result
          (fmt.migrateDeploymentToml thisRelease a.deployment d).final :=
        (Formats.migrateDeploymentToml_wp a.deployment d).2
      have hum : Formats.UsersMigration fmt thisRelease cfg.usersFile m
          (fmt.migrateUsers thisRelease cfg.usersFile a.users m).result
          (fmt.migrateUsers thisRelease cfg.usersFile a.users m).final :=
        (Formats.migrateUsers_wp cfg.usersFile a.users m).2
      rw [hd, hm] at hdm
      rw [hu] at hum
      exact converged_of_migrated hload hhidden hdm hum

end Runs

section Sample

def sampleToml : String :=
  "public_host = \"vpn.example.com\"\nsubscription_host = \"vpn.example.com\"\n" ++
  "[reality]\nlisten_port = 443\nhandshake_server = \"www.example.com\"\n" ++
  "[hysteria2]\nlisten_port = 443\n[subscription]\nlisten_port = 9443\n"

def readOnly (text : String) (cfg : DeploymentConfig) (t : String) : Option DeploymentConfig :=
  if t = text then some cfg else none

def sampleDisk (text : String) : Disk Content
  | .live .deploymentToml => some (.text text)
  | _ => none

/-- The settings of a text with a marker in front that says `version`. -/
def markedConfig (version : UInt32) : DeploymentConfig :=
  { sampleSite.cfg with schemaVersion := version }

private theorem load_sample {text : String} {cfg : DeploymentConfig} {rel : Release}
    (hvalid : Formats.validate rel cfg = .ok ()) :
    (contentFormats (readOnly text cfg)).loadDeployment rel
      ((sampleDisk text).live .deploymentToml) true = .ok cfg := by
  have htoml : (contentFormats (readOnly text cfg)).toml text = some cfg := by
    simp only [contentFormats, readOnly, if_true]
  exact Formats.loadDeployment_ok_iff.mpr
    ⟨rfl, _, text, rfl, rfl, Formats.loadText_ok_iff.mpr ⟨htoml, hvalid⟩⟩

def migratedToml : String := Formats.schemaMarker thisRelease ++ "\n" ++ sampleToml

/-- What TOML makes of the settings before and after they are migrated. -/
def readBoth (t : String) : Option DeploymentConfig :=
  if t = sampleToml then some (markedConfig 0) else readOnly migratedToml (markedConfig 1) t

/-- A host from before the versions: settings without a marker and a bare array of users. -/
def legacyDisk : Disk Content
  | .live .deploymentToml => some (.text sampleToml)
  | .live (.usersJson _) => some (.json (.arr [sampleUser.toJson]))
  | _ => none

theorem scansVersioned_sample : Formats.scansVersioned sampleToml = false := by
  decide +kernel

private theorem scansVersioned_migrated : Formats.scansVersioned migratedToml = true :=
  Formats.scansVersioned_marker sampleToml

private theorem loadText_legacy :
    (contentFormats readBoth).loadText thisRelease sampleToml = .ok (markedConfig 0) := by
  have hread : (contentFormats readBoth).toml sampleToml = some (markedConfig 0) := by
    simp only [contentFormats, readBoth, if_true]
  exact Formats.loadText_ok_iff.mpr ⟨hread, by decide⟩

private theorem loadText_migrated :
    (contentFormats readBoth).loadText thisRelease migratedToml = .ok (markedConfig 1) := by
  have hne : migratedToml ≠ sampleToml := by
    intro h
    have hscan := scansVersioned_migrated
    rw [h, scansVersioned_sample] at hscan
    cases hscan
  have hread : (contentFormats readBoth).toml migratedToml = some (markedConfig 1) := by
    simp only [contentFormats, readBoth, readOnly, hne, if_false, if_true]
  exact Formats.loadText_ok_iff.mpr ⟨hread, by decide⟩

theorem load_legacy :
    (contentFormats readBoth).loadDeployment thisRelease (legacyDisk.live .deploymentToml) true =
      .ok (markedConfig 0) :=
  Formats.loadDeployment_ok_iff.mpr ⟨rfl, _, sampleToml, rfl, rfl, loadText_legacy⟩

private theorem configMigrate_legacy :
    (configMigrate (contentFormats readBoth) thisRelease ⟨true, .allDone, .allDone, true⟩
      legacyDisk).result = .ok () :=
  configMigrate_of_patched load_legacy rfl scansVersioned_sample loadText_migrated rfl

theorem configMigrate_converges_legacy :
    let fmt := contentFormats readBoth
    let run := configMigrate fmt thisRelease ⟨true, .allDone, .allDone, true⟩ legacyDisk
    configValidate fmt thisRelease legacyDisk = .ok .migrationRequired ∧ run.result = .ok () ∧
      configValidate fmt thisRelease run.final = .ok .ok := by
  intro fmt run
  have hvisible : ¬ Hidden fmt legacyDisk (markedConfig 0) := by
    rintro ⟨-, ⟨text, htext, hscan⟩, -⟩
    obtain rfl : sampleToml = text := Option.some.inj htext
    rw [scansVersioned_sample] at hscan
    cases hscan
  have hconverges := (configMigrate_converges_iff load_legacy).mpr hvisible
  refine ⟨?_, configMigrate_legacy, ((hconverges _).converged configMigrate_legacy).validates⟩
  rw [configValidate, load_legacy]
  rfl

/-- An explicit version 0 is never migrated, although validation keeps asking for it. -/
theorem explicit_zero_stays_legacy :
    let text := "schema_version = 0\n" ++ sampleToml
    let fmt := contentFormats (readOnly text (markedConfig 0))
    let run := configMigrate fmt thisRelease ⟨true, .allDone, .allDone, true⟩ (sampleDisk text)
    run.result = .ok () ∧ configValidate fmt thisRelease run.final = .ok .migrationRequired := by
  intro text fmt run
  have hload : fmt.loadDeployment thisRelease ((sampleDisk text).live .deploymentToml) true =
      .ok (markedConfig 0) := load_sample (by decide)
  have hmarker : "schema_version = 0\n" = Formats.schemaMarker ⟨0, 0⟩ ++ "\n" := by decide
  have hscan : Formats.scansVersioned text = true := by
    rw [show text = Formats.schemaMarker ⟨0, 0⟩ ++ "\n" ++ sampleToml from
      congrArg (· ++ sampleToml) hmarker]
    exact Formats.scansVersioned_marker sampleToml
  obtain ⟨hok, hfinal⟩ := configMigrate_of_scans hload rfl hscan rfl
  have hnone : (sampleDisk text).live (markedConfig 0).usersFile = none := rfl
  have hstore : (fmt.migrateUsers thisRelease (markedConfig 0).usersFile .allDone
      (sampleDisk text)).final = sampleDisk text :=
    Formats.migrateUsers_settled (fun _ hb => absurd hb (by simp [hnone])) _
  refine ⟨hok, ?_⟩
  rw [show run.final = sampleDisk text from hfinal.trans hstore, configValidate, hload]
  rfl

end Sample

end Vpn1.Admin.Schema
