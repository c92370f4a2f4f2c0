import Vpn1.Admin.Users

/-! The commands that bring sing-box in line with the store as it is: `render-config` and
`config migrate`; and `user rotate-token`, which leaves sing-box alone. -/

namespace Vpn1.Admin

open Compat Traced

section Commands

variable (site : Site) (inv : Invocation)

def regenerateSingboxConfig (requireLiveApply : Bool) (a : RegenerateAnswers) :
    Prog Host Event UserError Bool := do
  match ← Prog.look (loadUsers · a.readUsers) with
  | .error e => Prog.fail (.load e)
  | .ok users =>
    Prog.mapError .render (renderAndApplySingboxConfig site inv users requireLiveApply a.render)

def cmdRenderConfig (requireApplied : Bool) (a : RegenerateAnswers) :
    Prog Host Event UserError Unit := do
  let applied ← regenerateSingboxConfig site inv false a
  if !applied && requireApplied then Prog.fail .notApplied else pure ()

/-- `migrate_users`: a legacy store is backed up and rewritten in the versioned shape. -/
def migrateUsers (a : MigrateAnswers) : Prog Host Event CompatError Unit := do
  match ← Prog.look (fun h => h.files (.live .users)) with
  | none => pure ()
  | some file =>
    match if a.detect then detectUsersBytes file.content.json? else .corrupted with
    | .missing | .current => pure ()
    | .future found => Prog.fail (.unsupportedSchema .usersJson found usersSchemaVersion)
    | .corrupted => Prog.fail .parse
    | .legacy =>
      require a.read .io
      match file.content.json?.bind usersOfJson with
      | none => Prog.fail .parse
      | some legacy =>
        require a.readBackup .io
        writeFile (.preMigration .users a.time) file.content 0o600 a.backup .io
        require a.createDir .io
        writeFile (.tmp .users inv.pid) (.json (savedUsers legacy)) 0o640 a.write .io
        require a.ownership .io
        renameFile (.tmp .users inv.pid) (.live .users) a.rename .io

/-- The settings that rendering uses survive the migration of `deployment.toml`, so one `site`
serves before and after it. A failed rendering is only warned about. -/
def cmdConfigMigrate (a : MigrateAnswers) : Prog Host Event UserError Unit := do
  require a.deployment (.load .parse)
  Prog.mapError .load (migrateUsers inv a)
  require a.reload (.load .parse)
  let _ ← Prog.attempt (regenerateSingboxConfig site inv false a.regenerate)
  pure ()

/-- `user rotate-token`: a new hash in the store; no rendered credential changes. -/
def cmdUserRotateToken (id tokenHash : String) (readUsers : Bool) (a : SaveAnswers) :
    Prog Host Event UserError Unit := do
  match ← Prog.look (loadUsers · readUsers) with
  | .error e => Prog.fail (.load e)
  | .ok users =>
    match modifyUser id (fun u => { u with subscriptionTokenHashHex := tokenHash }) users with
    | .error e => Prog.fail e
    | .ok users => Prog.mapError .notSaved (saveUsersAtomic inv.pid users a)

end Commands

/-- Migrating the store touches the store and its siblings only. -/
theorem migrateUsers_wp (inv : Invocation) (a : MigrateAnswers) (h : Host) :
    Wp (migrateUsers inv a) h (fun w _ => w = .io) fun _ t =>
      FilesOnly h t (.preMigration .users a.time :: savePaths inv.pid) := by
  have hbp : Path.preMigration .users a.time ∈
      Path.preMigration .users a.time :: savePaths inv.pid := by simp
  have htp : Path.tmp .users inv.pid ∈
      Path.preMigration .users a.time :: savePaths inv.pid := by simp [savePaths]
  have hup : Path.live .users ∈
      Path.preMigration .users a.time :: savePaths inv.pid := by simp [savePaths]
  have h0 : FilesOnly h h (.preMigration .users a.time :: savePaths inv.pid) := .refl _ _
  unfold migrateUsers
  rw [wp_bind, wp_look]
  cases h.files (.live .users) with
  | none => exact wp_pure.mpr h0
  | some file =>
    dsimp only
    cases (if a.detect then detectUsersBytes file.content.json? else .corrupted) with
    | missing => exact wp_pure.mpr h0
    | current => exact wp_pure.mpr h0
    | future v => exact wp_fail.mpr h0
    | corrupted => exact wp_fail.mpr h0
    | legacy =>
      dsimp only
      refine wp_require_bind (fun _ => h0) fun _ => ?_
      cases file.content.json?.bind usersOfJson with
      | none => exact wp_fail.mpr h0
      | some legacy =>
        dsimp only
        refine wp_require_bind (fun _ => h0) fun _ => ?_
        rw [wp_bind]
        refine wp_writeFile (fun _ => rfl) (fun _ => ?_) fun _ _ => h0.put hbp
        refine wp_require_bind (fun _ => h0.put hbp) fun _ => ?_
        rw [wp_bind]
        refine wp_writeFile (fun _ => rfl) (fun _ => ?_) fun _ _ => (h0.put hbp).put htp
        refine wp_require_bind (fun _ => (h0.put hbp).put htp) fun _ => ?_
        exact wp_renameFile (fun _ _ _ => rfl)
          (fun _ _ _ => (((h0.put hbp).put htp).put htp).put hup) fun _ => (h0.put hbp).put htp

end Vpn1.Admin
