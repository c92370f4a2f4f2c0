import Vpn1.Lib.Locking
import Vpn1.Deploy.Migration

/-! `update.sh`, `vpn-admin` and the certificate hook as programs that take locks. A shell that
waits for a child is one program with it: what the shell holds, the child finds taken. -/

namespace Vpn1.Deploy

open Compat Admin.Schema Locking Traced

variable {β : Type}

inductive LockFile
  /-- `/run/lock/vpn1-installer.lock` -/
  | installer
  /-- `/run/lock/vpn1.lock` -/
  | state
  /-- `update-inner.lock` or `rollback-inner.lock` in the backup directory of an update. -/
  | inner (backupDir : String) (rollback : Bool)
  | other (path : String)
  deriving DecidableEq, Repr

/-- By the value of `VPN1_LOCK_PATH`. -/
def lockPath (env : Option LockFile) : LockFile := env.getD .state

inductive UserCommands
  | create
  | list
  | qr
  | links
  | enable
  | disable
  | rotateToken
  | rotateVless
  | rotateHysteria
  | rotateCredentials
  | remove
  | subscription
  deriving DecidableEq, Repr

inductive ConfigCommands
  | validate
  | migrate
  deriving DecidableEq, Repr

inductive Commands
  | init
  | renderConfig
  | version
  | status
  | doctor
  | backup
  | restore
  | hysteriaObfsRotate
  | user (cmd : UserCommands)
  | config (cmd : ConfigCommands)
  deriving DecidableEq, Repr

def commandMutatesState : Commands → Bool
  | .version | .status | .doctor | .user .list | .user .subscription | .config .validate => false
  | _ => true

def savesUsers : Commands → Bool
  | .restore => true
  | .user .list | .user .links | .user .subscription => false
  | .user _ => true
  | _ => false

/-- An exit status as `update.sh` tells them apart: 0, 2 and the others. -/
inductive ExitStatus
  | success
  | migrationRequired
  | failure
  deriving DecidableEq, Repr

def exitStatus : Mode → ExitStatus
  | .ok => .success
  | .migrationRequired => .migrationRequired
  | .invalid => .failure

section Programs

variable (fmt : Formats β)

/-- What a command does to the versioned files once it has loaded the settings, and its status. -/
inductive Runs (cfg : DeploymentConfig) (cmd : Commands) (d : Disk β) : ExitStatus → Disk β → Prop
  | validate (hcmd : cmd = .config .validate) (read : Bool) :
      Runs cfg cmd d (exitStatus (cmdConfigValidate fmt thisRelease cfg d read)) d
  | migrate (hcmd : cmd = .config .migrate) (a : Answers β) :
      Runs cfg cmd d
        (if (cmdConfigMigrate fmt thisRelease cfg a d).result.isOk then .success else .failure)
        (cmdConfigMigrate fmt thisRelease cfg a d).final
  | saves (hcmd : savesUsers cmd = true) (users : List CompatUser) (chmodDir : Bool)
      (a : ReplaceAnswers β) {r : ExitStatus} (hr : r ≠ .migrationRequired) :
      Runs cfg cmd d r (fmt.saveUsersAtomic thisRelease cfg.usersFile users chmodDir a d).final
  | leaves (hcmd : ∀ c, cmd ≠ .config c) {r : ExitStatus} (hr : r ≠ .migrationRequired) :
      Runs cfg cmd d r d

/-- Commands that touch no versioned file, and whether they succeed. -/
def attempt (d : Disk β) (_ : Bool) (t : Disk β) : Prop := t = d

/-- `set -e`: go on if the commands succeed. -/
def onSuccess (otherwise next : Script LockFile (Disk β)) : Script LockFile (Disk β) :=
  .act attempt fun ok => if ok then next else otherwise

/-- Open the lock file and `flock` it. -/
def flock (l : LockFile) (otherwise next : Script LockFile (Disk β)) :
    Script LockFile (Disk β) :=
  onSuccess otherwise (.acquire l next)

/-- The settings are loaded before the lock is taken, which is held until the process ends. -/
def vpnAdmin (env : Option LockFile) (cmd : Commands)
    (next : ExitStatus → Script LockFile (Disk β)) : Script LockFile (Disk β) :=
  .act (fun d answer t =>
      t = d ∧ ∃ read, answer = fmt.loadDeployment thisRelease (d.live .deploymentToml) read)
    fun
    | .error _ => next .failure
    | .ok cfg =>
      if commandMutatesState cmd then
        flock (lockPath env) (next .failure)
          (.act (Runs fmt cfg cmd) fun r => .release (lockPath env) (next r))
      else .act (Runs fmt cfg cmd) next

/-- Go on if `deployment.toml` is there. -/
def ifDeployed (next : Script LockFile (Disk β)) : Script LockFile (Disk β) :=
  .act (fun d found t => t = d ∧ found = (d.live .deploymentToml).isSome)
    fun found => if found then next else .exit

inductive UpdatePath
  | production
  | devRebuild
  deriving DecidableEq, Repr

/-- `rollback_update` runs with `set +e`. -/
def rollbackScript (backupDir : String) : Script LockFile (Disk β) :=
  .act attempt fun _ =>
    vpnAdmin fmt (some (.inner backupDir true)) .renderConfig fun _ => .act attempt fun _ => .exit

/-- From the render to the end. The doctor runs with the environment of the update. -/
def renderAndVerify (path : UpdatePath) (env : Option LockFile) (backupDir : String) :
    Script LockFile (Disk β) :=
  vpnAdmin fmt (some (.inner backupDir false)) .renderConfig fun
    | .success =>
      -- restarts, then the health check
      onSuccess (rollbackScript fmt backupDir) <|
      onSuccess (rollbackScript fmt backupDir) <|
      vpnAdmin fmt env .doctor fun
        | .success =>
          match path with
          | .production =>
            -- the manifest commits, and only then the backups go
            onSuccess (rollbackScript fmt backupDir) (onSuccess .exit .exit)
          | .devRebuild => onSuccess .exit .exit
        | _ => rollbackScript fmt backupDir
    | _ => rollbackScript fmt backupDir

/-- The `case` on the status of `config validate`; the production path can abort after each part. -/
def activateScript (path : UpdatePath) (env : Option LockFile) (backupDir : String) :
    Script LockFile (Disk β) :=
  let abortHook (next : Script LockFile (Disk β)) :=
    match path with
    | .production => onSuccess (rollbackScript fmt backupDir) next
    | .devRebuild => next
  -- systemctl daemon-reload
  onSuccess (rollbackScript fmt backupDir) <|
  vpnAdmin fmt env (.config .validate) fun
    | .success => abortHook (renderAndVerify fmt path env backupDir)
    | .migrationRequired =>
      -- no `VPN1_LOCK_PATH` is given to this child
      vpnAdmin fmt env (.config .migrate) fun
        | .success => abortHook (abortHook (renderAndVerify fmt path env backupDir))
        | _ => rollbackScript fmt backupDir
    | .failure => rollbackScript fmt backupDir

def updateScript (path : UpdatePath) (env : Option LockFile) (backupDir : String) :
    Script LockFile (Disk β) :=
  ifDeployed <|
  -- no transaction marker, no stale directory
  onSuccess .exit <|
  flock .installer .exit <|
  match path with
  | .production =>
    -- STAGE, PREPARE, the lock, the snapshot of config.json, SWITCH
    onSuccess .exit <|
    onSuccess .exit <|
    flock .state .exit <|
    onSuccess .exit <|
    onSuccess (rollbackScript fmt backupDir) <|
    activateScript fmt path env backupDir
  | .devRebuild =>
    -- cargo test, cargo build, the backups, the lock, the snapshot of config.json, the renames
    onSuccess .exit <|
    onSuccess .exit <|
    onSuccess .exit <|
    flock .state .exit <|
    onSuccess .exit <|
    onSuccess (rollbackScript fmt backupDir) <|
    activateScript fmt path env backupDir

/-- `certbot-deploy-hook.sh`: checks, then the swap under the lock. It runs no `vpn-admin`. -/
def certbotDeployHook : Script LockFile (Disk β) :=
  ifDeployed <|
  onSuccess .exit <|
  flock .state .exit <|
  onSuccess .exit <|
  -- a failure after the swap restores the certificate and exits, like a success
  .act attempt fun _ => .exit

inductive Job
  | update (path : UpdatePath) (env : Option LockFile) (backupDir : String)
  | admin (env : Option LockFile) (cmd : Commands)
  | renewal
  deriving DecidableEq, Repr

def Job.script : Job → Script LockFile (Disk β)
  | .update path env backupDir => updateScript fmt path env backupDir
  | .admin env cmd => vpnAdmin fmt env cmd fun _ => .exit
  | .renewal => certbotDeployHook

def startAll {ι : Type} (jobs : ι → Job) (d : Disk β) : System ι LockFile (Disk β) :=
  ⟨fun i => ⟨(jobs i).script fmt, []⟩, d⟩

def KnownSchemas (d : Disk β) : Prop :=
  d.live .deploymentToml = none ∨
    ∃ cfg, fmt.loadDeployment thisRelease (d.live .deploymentToml) true = .ok cfg ∧
      fmt.detectUsersSchema thisRelease (d.live cfg.usersFile) true ∈
        [UsersSchemaState.missing, .legacy, .current]

/-- No update waits for a child of its own, and every run ends with all programs gone. -/
structure DeadlockFree {ι : Type} [DecidableEq ι] (σ : System ι LockFile (Disk β)) : Prop where
  child : ∀ τ, σ.Reaches τ → ∀ i, ¬ τ.SelfBlocked i .state
  completes : σ.Completes

end Programs

section Order

variable {fmt : Formats β}

/-- The order in which locks are taken. -/
def LockFile.rank : LockFile → ℕ
  | .installer => 0
  | .state => 1
  | .inner .. | .other _ => 2

/-- Commands that start in `I` stay there, and exit with a status in `answers`. -/
def KeepsSchemas (fmt : Formats β) (I : Disk β → Prop) (answers : ExitStatus → Prop) : Prop :=
  ∀ d cfg, I d → fmt.loadDeployment thisRelease (d.live .deploymentToml) true = .ok cfg →
    ∀ cmd s r t, I s → Runs fmt cfg cmd s r t → I t ∧ answers r

private theorem exists_runs (cfg : DeploymentConfig) (cmd : Commands) (d : Disk β) :
    ∃ r t, Runs fmt cfg cmd d r t := by
  by_cases hconfig : ∃ c, cmd = .config c
  · obtain ⟨c, rfl⟩ := hconfig
    cases c with
    | validate => exact ⟨_, _, .validate rfl true⟩
    | migrate => exact ⟨_, _, .migrate rfl ⟨true, .allDone, .allDone, true⟩⟩
  · exact ⟨.success, d, .leaves (fun c hc => hconfig ⟨c, hc⟩) (by decide)⟩

variable {I : Disk β → Prop} {answers : ExitStatus → Prop} {held : List LockFile}
  {otherwise next : Script LockFile (Disk β)}

theorem ordered_attempt {next : Bool → Script LockFile (Disk β)}
    (h : ∀ ok, System.Ordered LockFile.rank I held (next ok)) :
    System.Ordered LockFile.rank I held (.act attempt next) := by
  intro s hs
  refine ⟨⟨true, s, rfl⟩, ?_⟩
  rintro ok t rfl
  exact ⟨hs, h ok⟩

theorem ordered_onSuccess (hno : System.Ordered LockFile.rank I held otherwise)
    (hyes : System.Ordered LockFile.rank I held next) :
    System.Ordered LockFile.rank I held (onSuccess otherwise next) := by
  refine ordered_attempt fun ok => ?_
  cases ok with
  | true => exact hyes
  | false => exact hno

theorem ordered_flock {l : LockFile} (hl : ∀ m ∈ held, m.rank < l.rank)
    (hno : System.Ordered LockFile.rank I held otherwise)
    (hyes : System.Ordered LockFile.rank I (l :: held) next) :
    System.Ordered LockFile.rank I held (flock l otherwise next) :=
  ordered_onSuccess hno ⟨hl, hyes⟩

theorem ordered_ifDeployed (h : System.Ordered LockFile.rank I held next) :
    System.Ordered LockFile.rank I held (ifDeployed next) := by
  intro s hs
  refine ⟨⟨_, s, rfl, rfl⟩, ?_⟩
  rintro found t ⟨rfl, -⟩
  refine ⟨hs, ?_⟩
  cases found with
  | true => exact h
  | false => trivial

theorem ordered_vpnAdmin (hkeeps : KeepsSchemas fmt I answers) {env : Option LockFile}
    {cmd : Commands} {next : ExitStatus → Script LockFile (Disk β)}
    (hlock : commandMutatesState cmd = true → ∀ m ∈ held, m.rank < (lockPath env).rank)
    (hfailure : System.Ordered LockFile.rank I held (next .failure))
    (hnext : ∀ r, answers r → System.Ordered LockFile.rank I held (next r)) :
    System.Ordered LockFile.rank I held (vpnAdmin fmt env cmd next) := by
  intro d hd
  refine ⟨⟨_, d, rfl, true, rfl⟩, ?_⟩
  rintro answer t ⟨rfl, read, rfl⟩
  refine ⟨hd, ?_⟩
  cases hload : fmt.loadDeployment thisRelease (t.live .deploymentToml) read with
  | error e => exact hfailure
  | ok cfg =>
    obtain rfl : read = true := (Formats.loadDeployment_ok_iff.mp hload).1
    have hruns := hkeeps t cfg hd hload cmd
    dsimp only
    cases hmutates : commandMutatesState cmd with
    | true =>
      refine ordered_flock (hlock hmutates) hfailure fun s hs => ⟨exists_runs cfg cmd s, ?_⟩
      intro r u hrun
      obtain ⟨hu, hr⟩ := hruns s r u hs hrun
      refine ⟨hu, ?_⟩
      show System.Ordered LockFile.rank I ((lockPath env :: held).erase (lockPath env)) (next r)
      rw [List.erase_cons_head]
      exact hnext r hr
    | false =>
      intro s hs
      refine ⟨exists_runs cfg cmd s, fun r u hrun => ?_⟩
      obtain ⟨hu, hr⟩ := hruns s r u hs hrun
      exact ⟨hu, hnext r hr⟩

theorem ordered_rollback (hkeeps : KeepsSchemas fmt I answers)
    (hheld : ∀ m ∈ held, m.rank < 2) (backupDir : String) :
    System.Ordered LockFile.rank I held (rollbackScript fmt backupDir) :=
  ordered_attempt fun _ =>
    have hend : System.Ordered LockFile.rank I held (.act attempt fun _ => .exit) :=
      ordered_attempt fun _ => trivial
    ordered_vpnAdmin hkeeps (fun _ => hheld) hend fun _ _ => hend

theorem ordered_renderAndVerify (hkeeps : KeepsSchemas fmt I answers)
    (hheld : ∀ m ∈ held, m.rank < 2) (path : UpdatePath) (env : Option LockFile)
    (backupDir : String) :
    System.Ordered LockFile.rank I held (renderAndVerify fmt path env backupDir) := by
  have hrollback := ordered_rollback hkeeps hheld backupDir
  have hcleanup : System.Ordered LockFile.rank I held (onSuccess .exit .exit) :=
    ordered_onSuccess trivial trivial
  refine ordered_vpnAdmin hkeeps (fun _ => hheld) hrollback fun r _ => ?_
  cases r with
  | migrationRequired | failure => exact hrollback
  | success =>
    refine ordered_onSuccess hrollback (ordered_onSuccess hrollback ?_)
    -- the doctor takes no lock
    refine ordered_vpnAdmin hkeeps nofun hrollback fun r _ => ?_
    cases r with
    | migrationRequired | failure => exact hrollback
    | success =>
      cases path with
      | production => exact ordered_onSuccess hrollback hcleanup
      | devRebuild => exact hcleanup

theorem ordered_activate (hkeeps : KeepsSchemas fmt I answers) (hheld : ∀ m ∈ held, m.rank < 2)
    (path : UpdatePath) {env : Option LockFile} (backupDir : String)
    (hmigrate : answers .migrationRequired → ∀ m ∈ held, m.rank < (lockPath env).rank) :
    System.Ordered LockFile.rank I held (activateScript fmt path env backupDir) := by
  have hrollback := ordered_rollback hkeeps hheld backupDir
  have hrender := ordered_renderAndVerify hkeeps hheld path env backupDir
  refine ordered_onSuccess hrollback (ordered_vpnAdmin hkeeps nofun hrollback fun r hr => ?_)
  cases r with
  | failure => exact hrollback
  | success =>
    cases path with
    | production => exact ordered_onSuccess hrollback hrender
    | devRebuild => exact hrender
  | migrationRequired =>
    refine ordered_vpnAdmin hkeeps (fun _ => hmigrate hr) hrollback fun r _ => ?_
    cases r with
    | migrationRequired | failure => exact hrollback
    | success =>
      cases path with
      | production => exact ordered_onSuccess hrollback (ordered_onSuccess hrollback hrender)
      | devRebuild => exact hrender

theorem ordered_update (hkeeps : KeepsSchemas fmt I answers) (path : UpdatePath)
    {env : Option LockFile} (backupDir : String)
    (hmigrate : answers .migrationRequired → 2 ≤ (lockPath env).rank) :
    System.Ordered LockFile.rank I [] (updateScript fmt path env backupDir) := by
  have hheld : ∀ m ∈ [LockFile.state, .installer], m.rank < 2 := by decide
  have hrollback := ordered_rollback hkeeps hheld backupDir
  have hactivate := ordered_activate hkeeps hheld path backupDir fun h m hm =>
    lt_of_lt_of_le (hheld m hm) (hmigrate h)
  refine ordered_ifDeployed (ordered_onSuccess trivial (ordered_flock nofun trivial ?_))
  have hlocked : System.Ordered LockFile.rank I [.installer] (flock .state .exit <|
      onSuccess .exit <| onSuccess (rollbackScript fmt backupDir) <|
        activateScript fmt path env backupDir) :=
    ordered_flock (by decide) trivial
      (ordered_onSuccess trivial (ordered_onSuccess hrollback hactivate))
  cases path with
  | production => exact ordered_onSuccess trivial (ordered_onSuccess trivial hlocked)
  | devRebuild =>
    exact ordered_onSuccess trivial (ordered_onSuccess trivial (ordered_onSuccess trivial hlocked))

/-- If no update can come to migrate under a lock that it holds, all programs take their locks in
order. -/
theorem deadlockFree_of_keeps {ι : Type} [Fintype ι] [DecidableEq ι]
    (hkeeps : KeepsSchemas fmt I answers) {d : Disk β} (hd : I d) {jobs : ι → Job}
    (hmigrate : answers .migrationRequired → ∀ i path env backupDir,
      jobs i = .update path env backupDir → 2 ≤ (lockPath env).rank) :
    DeadlockFree (startAll fmt jobs d) := by
  have horderly : System.Orderly LockFile.rank I (startAll fmt jobs d) := by
    refine ⟨hd, fun i => ?_⟩
    show System.Ordered LockFile.rank I [] ((jobs i).script fmt)
    cases hjob : jobs i with
    | update path env backupDir =>
      exact ordered_update hkeeps path backupDir fun h => hmigrate h i path env backupDir hjob
    | admin env cmd =>
      have hexit : System.Ordered LockFile.rank I [] (Script.exit (L := LockFile)) := trivial
      exact ordered_vpnAdmin hkeeps (fun _ m hm => absurd hm List.not_mem_nil) hexit
        fun _ _ => hexit
    | renewal =>
      exact ordered_ifDeployed (ordered_onSuccess trivial (ordered_flock nofun trivial
        (ordered_onSuccess trivial (ordered_attempt fun _ => trivial))))
  exact ⟨fun τ hreach i => (horderly.reaches hreach).not_selfBlocked i .state,
    horderly.completes⟩

end Order

section Schemas

variable {fmt : Formats β} {f : Location} {d s t : Disk β} {cfg : DeploymentConfig}

variable (fmt f) in
/-- Nothing calls for a migration of the settings or of the store at `f`. -/
structure Migrated (d : Disk β) : Prop where
  settings : ∀ cfg, fmt.loadDeployment thisRelease (d.live .deploymentToml) true = .ok cfg →
    cfg.schemaVersion ≠ 0 ∧ cfg.usersFile = f
  users : fmt.detectUsersSchema thisRelease (d.live f) true ≠ .legacy

theorem Migrated.of_live (h : Migrated fmt f d) (ht : t.live = d.live) : Migrated fmt f t := by
  constructor
  · rw [ht]
    exact h.settings
  · rw [ht]
    exact h.users

theorem Migrated.of_saved (h : Migrated fmt f d) {users : List CompatUser} {g : Location}
    (hg : g ≠ .deploymentToml)
    (ht : t.live = Function.update d.live g (some (fmt.encodeUsers ⟨thisRelease.users, users⟩))) :
    Migrated fmt f t := by
  constructor
  · rw [ht, Function.update_of_ne hg.symm]
    exact h.settings
  · rw [ht]
    by_cases hfg : f = g
    · subst hfg
      simp [UserFormats.detectUsersSchema, UserFormats.detect_encodeUsers]
    · rw [Function.update_of_ne hfg]
      exact h.users

theorem Migrated.of_deployment (h : Migrated fmt f d) (hf : f ≠ .deploymentToml)
    {r : Except CompatError MigrationOutcome}
    (ht : Formats.DeploymentMigration fmt thisRelease d r t) : Migrated fmt f t := by
  cases ht with
  | missing | alreadyCurrent => exact h
  | failed ht => exact h.of_live ht
  | @migrated bytes text cfg _ _ hbytes htext hload hplan hpatched ht =>
    have hcfg : fmt.loadDeployment thisRelease (d.live .deploymentToml) true = .ok cfg :=
      Formats.loadDeployment_ok_iff.mpr ⟨rfl, bytes, text, hbytes, htext, hload⟩
    have hnew := Formats.loadDeployment_ok_iff.mpr
      ⟨rfl, _, _, rfl, fmt.text_ofText (Formats.schemaMarker thisRelease ++ "\n" ++ text), hpatched⟩
    constructor
    · intro found hfound
      rw [ht, Function.update_self, hnew] at hfound
      obtain rfl := Except.ok.inj hfound
      exact ⟨show thisRelease.deployment ≠ 0 by decide, (h.settings cfg hcfg).2⟩
    · rw [ht, Function.update_of_ne hf]
      exact h.users

theorem Migrated.of_users (h : Migrated fmt f d) {g : Location} (hg : g ≠ .deploymentToml)
    {r : Except CompatError MigrationOutcome}
    (ht : Formats.UsersMigration fmt thisRelease g d r t) : Migrated fmt f t := by
  cases ht with
  | missing | alreadyCurrent => exact h
  | failed ht => exact h.of_live ht
  | migrated _ _ _ ht => exact h.of_saved hg ht

theorem Migrated.of_cmdConfigMigrate (h : Migrated fmt f d) (hf : f ≠ .deploymentToml)
    (cfg : DeploymentConfig) (a : Answers β) :
    Migrated fmt f (cmdConfigMigrate fmt thisRelease cfg a d).final := by
  have hrun : Wp (cmdConfigMigrate fmt thisRelease cfg a) d (fun _ _ => True)
      fun _ t => Migrated fmt f t := by
    unfold cmdConfigMigrate
    rw [wp_bind]
    refine (Formats.migrateDeploymentToml_wp a.deployment d).mono (fun _ _ _ => trivial) ?_
    intro r m hdep
    have hm := h.of_deployment hf hdep
    cases r with
    | error e => exact hm
    | ok outcome =>
      dsimp only
      rw [wp_bind]
      refine (Formats.migrateUsers_wp cfg.usersFile a.users m).mono (fun _ _ _ => trivial) ?_
      intro r t husers
      have ht := hm.of_users (by simp [DeploymentConfig.usersFile]) husers
      cases r with
      | error e => exact ht
      | ok outcome' =>
        dsimp only
        rw [wp_bind, wp_look]
        dsimp only
        split
        · exact wp_fail.mpr ht
        · exact wp_pure.mpr ht
  exact hrun.2

private theorem cmdConfigValidate_ne (hversion : cfg.schemaVersion ≠ 0)
    (husers : fmt.detectUsersSchema thisRelease (d.live cfg.usersFile) true ≠ .legacy)
    (read : Bool) : cmdConfigValidate fmt thisRelease cfg d read ≠ .migrationRequired := by
  have hread : fmt.detectUsersSchema thisRelease (d.live cfg.usersFile) read ≠ .legacy := by
    cases read with
    | true => exact husers
    | false =>
      unfold UserFormats.detectUsersSchema
      cases d.live cfg.usersFile <;> simp
  unfold cmdConfigValidate
  cases hstate : fmt.detectUsersSchema thisRelease (d.live cfg.usersFile) read with
  | legacy => exact absurd hstate hread
  | missing | current | future | corrupted => simp [hversion]

theorem keepsSchemas_migrated (hf : f ≠ .deploymentToml) :
    KeepsSchemas fmt (Migrated fmt f) (· ≠ .migrationRequired) := by
  intro d cfg hd hload cmd s r t hs hrun
  obtain ⟨hversion, husersFile⟩ := hd.settings cfg hload
  cases hrun with
  | validate _ read =>
    refine ⟨hs, ?_⟩
    have hmode := cmdConfigValidate_ne hversion (husersFile ▸ hs.users) read
    cases hvalidate : cmdConfigValidate fmt thisRelease cfg s read with
    | migrationRequired => exact absurd hvalidate hmode
    | ok | invalid => simp [exitStatus]
  | migrate _ a =>
    refine ⟨hs.of_cmdConfigMigrate hf cfg a, ?_⟩
    split <;> simp
  | saves _ users chmodDir a hr =>
    refine ⟨?_, hr⟩
    have hrun : Wp (fmt.saveUsersAtomic thisRelease cfg.usersFile users chmodDir a) s
        (fun _ _ => True) _ := Formats.saveUsersAtomic_wp cfg.usersFile users chmodDir a s
    have hsave := hrun.2
    cases hresult : (fmt.saveUsersAtomic thisRelease cfg.usersFile users chmodDir a s).result with
    | ok _ =>
      rw [hresult] at hsave
      exact hs.of_saved (by simp [DeploymentConfig.usersFile]) hsave
    | error e =>
      rw [hresult] at hsave
      exact hs.of_live hsave
  | leaves _ hr => exact ⟨hs, hr⟩

theorem keepsSchemas_true : KeepsSchemas fmt (fun _ => True) fun _ => True :=
  fun _ _ _ _ _ _ _ _ _ _ => ⟨trivial, trivial⟩

theorem keepsSchemas_missing :
    KeepsSchemas fmt (fun d => d.live .deploymentToml = none) (· ≠ .migrationRequired) := by
  intro d cfg hd hload
  obtain ⟨-, bytes, -, hbytes, -⟩ := Formats.loadDeployment_ok_iff.mp hload
  rw [hd] at hbytes
  cases hbytes

private theorem configValidate_eq
    (hload : fmt.loadDeployment thisRelease (d.live .deploymentToml) true = .ok cfg) :
    configValidate fmt thisRelease d = .ok (cmdConfigValidate fmt thisRelease cfg d true) := by
  simp [configValidate, hload, Except.map]

/-- Files of a known schema that `config validate` does not object to. -/
theorem migrated_of_validate
    (hload : fmt.loadDeployment thisRelease (d.live .deploymentToml) true = .ok cfg)
    (husers : fmt.detectUsersSchema thisRelease (d.live cfg.usersFile) true ∈
      [UsersSchemaState.missing, .legacy, .current])
    (hvalid : configValidate fmt thisRelease d ≠ .ok .migrationRequired) :
    Migrated fmt cfg.usersFile d := by
  have hmode : cmdConfigValidate fmt thisRelease cfg d true ≠ .migrationRequired := fun hmode =>
    hvalid (by rw [configValidate_eq hload, hmode])
  have hlegacy : fmt.detectUsersSchema thisRelease (d.live cfg.usersFile) true ≠ .legacy :=
    fun hlegacy => hmode (by simp [cmdConfigValidate, hlegacy])
  have hversion : cfg.schemaVersion ≠ 0 := by
    intro hzero
    have hknown : fmt.detectUsersSchema thisRelease (d.live cfg.usersFile) true = .missing ∨
        fmt.detectUsersSchema thisRelease (d.live cfg.usersFile) true = .current := by
      simpa [hlegacy] using husers
    rcases hknown with hknown | hknown
    · exact hmode (by simp [cmdConfigValidate, hknown, hzero])
    · exact hmode (by simp [cmdConfigValidate, hknown, hzero])
  refine ⟨fun found hfound => ?_, hlegacy⟩
  obtain rfl : cfg = found := Except.ok.inj (hload.symm.trans hfound)
  exact ⟨hversion, rfl⟩

end Schemas

section Deadlock

variable {fmt : Formats β} {d : Disk β} {cfg : DeploymentConfig} {held : List LockFile}
  {otherwise next : Script LockFile (Disk β)} {p : Proc LockFile (Disk β)} {t : Disk β}

theorem solo_onSuccess (h : Proc.Solo ⟨next, held⟩ d p t) :
    Proc.Solo ⟨onSuccess otherwise next, held⟩ d p t :=
  .head (.act (a := true) rfl) nofun h

theorem solo_flock {l : LockFile} (hl : l ∉ held) (h : Proc.Solo ⟨next, l :: held⟩ d p t) :
    Proc.Solo ⟨flock l otherwise next, held⟩ d p t := by
  refine solo_onSuccess (.head .acquire (fun m hm => ?_) h)
  obtain rfl : l = m := Option.some.inj hm
  exact hl

theorem solo_ifDeployed (hd : (d.live .deploymentToml).isSome = true)
    (h : Proc.Solo ⟨next, held⟩ d p t) : Proc.Solo ⟨ifDeployed next, held⟩ d p t :=
  .head (.act (a := true) ⟨rfl, hd.symm⟩) nofun h

theorem solo_vpnAdmin_waits (hload : fmt.loadDeployment thisRelease (d.live .deploymentToml) true =
    .ok cfg) (env : Option LockFile) {cmd : Commands} (hmutates : commandMutatesState cmd = true)
    (next : ExitStatus → Script LockFile (Disk β)) :
    ∃ rest, Proc.Solo ⟨vpnAdmin fmt env cmd next, held⟩ d ⟨.acquire (lockPath env) rest, held⟩ d := by
  refine ⟨.act (Runs fmt cfg cmd) fun r => .release (lockPath env) (next r),
    .head (.act (a := .ok cfg) ⟨rfl, true, hload.symm⟩) nofun ?_⟩
  simp only [hmutates, if_true]
  exact solo_onSuccess .refl

/-- With nobody in the way an update that has something to migrate comes to wait for the lock that
its environment names, with both locks held. -/
theorem solo_update_waits (hrequired : configValidate fmt thisRelease d = .ok .migrationRequired)
    (path : UpdatePath) (env : Option LockFile) (backupDir : String) :
    ∃ rest, Proc.Solo ⟨updateScript fmt path env backupDir, []⟩ d
      ⟨.acquire (lockPath env) rest, [.state, .installer]⟩ d := by
  have hloads : ∃ cfg, fmt.loadDeployment thisRelease (d.live .deploymentToml) true = .ok cfg := by
    unfold configValidate at hrequired
    cases hload : fmt.loadDeployment thisRelease (d.live .deploymentToml) true with
    | error e => simp [hload, Except.map] at hrequired
    | ok cfg => exact ⟨cfg, rfl⟩
  obtain ⟨cfg, hload⟩ := hloads
  have hdeployed : (d.live .deploymentToml).isSome = true := by
    obtain ⟨-, bytes, -, hbytes, -⟩ := Formats.loadDeployment_ok_iff.mp hload
    simp [hbytes]
  have hmode : cmdConfigValidate fmt thisRelease cfg d true = .migrationRequired := by
    rw [configValidate_eq hload] at hrequired
    exact Except.ok.inj hrequired
  have hactivate : ∃ rest, Proc.Solo ⟨activateScript fmt path env backupDir, [.state, .installer]⟩ d
      ⟨.acquire (lockPath env) rest, [.state, .installer]⟩ d := by
    have hmigrates : commandMutatesState (.config .migrate) = true := rfl
    obtain ⟨rest, hwaits⟩ := solo_vpnAdmin_waits hload env hmigrates _
    have hrun : Runs fmt cfg (.config .validate) d .migrationRequired d := by
      have hvalidate : Runs fmt cfg (.config .validate) d _ d := .validate rfl true
      rwa [hmode] at hvalidate
    exact ⟨rest, solo_onSuccess (.head (.act (a := .ok cfg) ⟨rfl, true, hload.symm⟩) nofun
      (.head (.act hrun) nofun hwaits))⟩
  obtain ⟨rest, hactivate⟩ := hactivate
  refine ⟨rest, solo_ifDeployed hdeployed (solo_onSuccess (solo_flock (by simp) ?_))⟩
  have hlocked : Proc.Solo ⟨flock .state .exit <| onSuccess .exit <|
      onSuccess (rollbackScript fmt backupDir) <| activateScript fmt path env backupDir,
        [.installer]⟩ d ⟨.acquire (lockPath env) rest, [.state, .installer]⟩ d :=
    solo_flock (by simp) (solo_onSuccess (solo_onSuccess hactivate))
  cases path with
  | production => exact solo_onSuccess (solo_onSuccess hlocked)
  | devRebuild => exact solo_onSuccess (solo_onSuccess (solo_onSuccess hlocked))

private theorem selfBlocked_reachable {ι : Type} [DecidableEq ι] (jobs : ι → Job) (i : ι)
    {path : UpdatePath} {env : Option LockFile} {backupDir : String}
    (hrequired : configValidate fmt thisRelease d = .ok .migrationRequired)
    (hjob : jobs i = .update path env backupDir) (henv : lockPath env ∈ [LockFile.state, .installer]) :
    ∃ τ, (startAll fmt jobs d).Reaches τ ∧ τ.SelfBlocked i (lockPath env) := by
  obtain ⟨rest, hwaits⟩ := solo_update_waits hrequired path env backupDir
  let others : ι → Proc LockFile (Disk β) := fun j => ⟨(jobs j).script fmt, []⟩
  have hnothing : ∀ j, j ≠ i → (others j).locks = [] := by
    intro j _
    unfold Proc.locks
    cases (others j).script <;> rfl
  have hstart : Function.update others i ⟨updateScript fmt path env backupDir, []⟩ = others := by
    have hi : others i = ⟨updateScript fmt path env backupDir, []⟩ := by
      simp only [others, hjob, Job.script]
    rw [← hi, Function.update_eq_self]
  have hreach := System.reaches_of_solo hwaits hnothing
  rw [hstart] at hreach
  refine ⟨_, hreach, ?_⟩
  unfold System.SelfBlocked
  simp only [Function.update_self]
  exact ⟨rfl, henv⟩

/-- However it is interleaved with other programs, an update is free of deadlocks exactly if there
is nothing to migrate or its environment keeps the migration away from the locks it holds. -/
theorem update_deadlockFree_iff {ι : Type} [Fintype ι] [DecidableEq ι] (jobs : ι → Job)
    (hd : KnownSchemas fmt d) :
    DeadlockFree (startAll fmt jobs d) ↔
      (configValidate fmt thisRelease d = .ok .migrationRequired →
        ∀ i path env backupDir, jobs i = .update path env backupDir →
          lockPath env ∉ [LockFile.state, .installer]) := by
  constructor
  · intro hfree hrequired i path env backupDir hjob henv
    obtain ⟨τ, hreach, hblocked⟩ := selfBlocked_reachable jobs i hrequired hjob henv
    exact hblocked.not_completes hreach hfree.completes
  · intro hoverride
    by_cases hrequired : configValidate fmt thisRelease d = .ok .migrationRequired
    · refine deadlockFree_of_keeps keepsSchemas_true trivial fun _ i path env backupDir hjob => ?_
      have henv := hoverride hrequired i path env backupDir hjob
      cases hlock : lockPath env with
      | installer | state => simp [hlock] at henv
      | inner | other => exact le_rfl
    · rcases hd with hnone | ⟨cfg, hload, husers⟩
      · exact deadlockFree_of_keeps keepsSchemas_missing hnone fun h => absurd rfl h
      · have hdir : cfg.usersFile ≠ .deploymentToml := by simp [DeploymentConfig.usersFile]
        exact deadlockFree_of_keeps (keepsSchemas_migrated hdir)
          (migrated_of_validate hload husers hrequired) fun h => absurd rfl h

end Deadlock

section Sample

private theorem unmarked_required :
    configValidate markedFormats thisRelease (sampleDisk unmarked) = .ok .migrationRequired := by
  rw [configValidate, load_unmarked]
  rfl

/-- Two updates with a lock of their own for what they migrate, a renewal and a new user. -/
def sampleJobs : Fin 4 → Job
  | 0 => .update .production (some (.other "migrate.lock")) "backup-1"
  | 1 => .update .devRebuild (some (.other "migrate.lock")) "backup-2"
  | 2 => .renewal
  | 3 => .admin none (.user .create)

theorem update_deadlockFree_sample :
    KnownSchemas markedFormats (sampleDisk unmarked) ∧
      DeadlockFree (startAll markedFormats sampleJobs (sampleDisk unmarked)) := by
  have hknown : KnownSchemas markedFormats (sampleDisk unmarked) :=
    .inr ⟨markedConfig 0, load_unmarked _, by decide⟩
  refine ⟨hknown, (update_deadlockFree_iff sampleJobs hknown).mpr fun _ i path env dir hjob => ?_⟩
  match i, hjob with
  | 0, hjob | 1, hjob =>
    obtain ⟨-, rfl, -⟩ := Job.update.inj hjob
    decide
  | 2, hjob | 3, hjob => simp [sampleJobs] at hjob

/-- The update holds the state lock, and waits for a migration that waits for it. -/
theorem update_waits_for_itself :
    ∃ τ, (startAll markedFormats (fun _ : Unit => .update .production none "backup")
        (sampleDisk unmarked)).Reaches τ ∧ τ.SelfBlocked () .state := by
  have henv : lockPath none ∈ [LockFile.state, .installer] := by decide
  exact selfBlocked_reachable _ () unmarked_required rfl henv

end Sample

end Vpn1.Deploy
