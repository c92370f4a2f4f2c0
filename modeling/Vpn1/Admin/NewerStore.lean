import Vpn1.Admin.Restore
import Vpn1.Admin.Schema

/-! A `users.json` of a newer release: which of its shapes the readers of this one recognise by its
version. -/

namespace Vpn1.Admin.Schema

open Compat Traced

section Report

/-- What `config validate` prints about the settings. -/
def deploymentLine (path : String) (cfg : DeploymentConfig) : String :=
  if cfg.schemaVersion = 0 then s!"deployment.toml ({path}): LEGACY (no schema_version marker)"
  else s!"deployment.toml ({path}): CURRENT (schema_version {deploymentSchemaVersion})"

/-- And about the store. Both paths are given as they are printed. -/
def usersLine (path reason : String) : UsersSchemaState → String
  | .missing => s!"users.json ({path}): MISSING (fresh install, no users yet)"
  | .current => s!"users.json ({path}): CURRENT"
  | .legacy => s!"users.json ({path}): LEGACY (pre-versioning bare-array format)"
  | .future found =>
    s!"users.json ({path}): INVALID (schema_version {found} is newer than this vpn-admin supports)"
  | .corrupted => s!"users.json ({path}): INVALID (corrupted: {reason})"

/-- Why a store that was read is corrupted; for one that was not, it is the error of the read. -/
def noFormat : String :=
  "neither the current versioned format nor the legacy bare-array format parses"

def modeLines : Mode → List String
  | .invalid => ["MODE: INVALID",
    "Needs manual intervention: restore from a backup (see `vpn-admin restore`), or install " ++
    "a vpn-admin new enough to understand this state. `config migrate` cannot fix this — it " ++
    "only moves forward."]
  | .migrationRequired => ["MODE: MIGRATION_REQUIRED",
    "Run `vpn-admin config migrate` to normalize the state above."]
  | .ok => ["MODE: OK"]

/-- Everything that `config validate` prints on a store it can read. -/
def validateReport (fmt : Formats Content) (cfg : DeploymentConfig) (configPath usersPath : String)
    (d : Disk Content) : List String :=
  [deploymentLine configPath cfg,
    usersLine usersPath noFormat (fmt.detectUsersSchema thisRelease (d.live cfg.usersFile) true)] ++
  modeLines (cmdConfigValidate fmt thisRelease cfg d true)

end Report

section Newer

structure RecognisedAs (version : UInt32) (bytes : Content) : Prop where
  detect : ∀ toml, (contentFormats toml).detectUsersSchema thisRelease (some bytes) true =
    .future version
  load : ∀ h : Host, h.content? .users = some bytes →
    loadUsers h true = .error (.unsupportedSchema .usersJson version usersSchemaVersion)
  restore : ∀ site inv (archive : Archive) a h, archive .users = some bytes → a.extract = true →
    a.read .users = true →
    cmdRestore site inv archive a h =
      ⟨.error (.users (.unsupportedSchema .usersJson version usersSchemaVersion)), h, []⟩
  migrate : ∀ toml f a (d : Disk Content), d.live f = some bytes → a.detect = true →
    (contentFormats toml).migrateUsers thisRelease f a d =
      ⟨.error (.unsupportedSchema .usersJson version usersSchemaVersion), d, []⟩
  validate : ∀ toml cfg configPath usersPath (d : Disk Content),
    d.live cfg.usersFile = some bytes →
    validateReport (contentFormats toml) cfg configPath usersPath d =
      [deploymentLine configPath cfg, usersLine usersPath noFormat (.future version)] ++
        modeLines .invalid

/-- The users of an object, if it has them in the shape of this release. -/
def usersField (fields : List (String × Json)) : Option (List CompatUser) :=
  (requiredField "users" fields).bind usersOfJson

variable {fields : List (String × Json)} {v : Int}

private theorem asU32_of_lt (hlo : 0 ≤ v) (hhi : v < 2 ^ 32) :
    asU32 (.num v) = some (UInt32.ofNat v.toNat) := by
  rw [asU32, if_pos ⟨hlo, hhi⟩]

private theorem usersSchemaVersion_lt (hlo : usersSchemaVersion.toNat < v) (hhi : v < 2 ^ 32) :
    usersSchemaVersion < UInt32.ofNat v.toNat := by
  have hsize : v.toNat < UInt32.size := by
    rw [UInt32.size]
    omega
  rw [UInt32.lt_iff_toNat_lt, UInt32.toNat_ofNat_of_lt' hsize]
  omega

private theorem ofJson_obj_of_version
    (hversion : requiredField "schema_version" fields = some (.num v))
    (hlo : 0 ≤ v) (hhi : v < 2 ^ 32) :
    UsersFile.ofJson (.obj fields) =
      (usersField fields).map fun users => ⟨UInt32.ofNat v.toNat, users⟩ := by
  rw [UsersFile.ofJson, hversion, usersField]
  cases requiredField "users" fields with
  | none => rfl
  | some users =>
    simp only [Option.bind_eq_bind, Option.bind_some, UsersFile.ofParts, asU32_of_lt hlo hhi]
    cases usersOfJson users <;> rfl

private theorem usersFile_of_version
    (hversion : requiredField "schema_version" fields = some (.num v))
    (hlo : usersSchemaVersion.toNat < v) (hhi : v < 2 ^ 32) :
    (Content.json (.obj fields)).json?.bind UsersFile.ofJson =
      (usersField fields).map fun users => ⟨UInt32.ofNat v.toNat, users⟩ := by
  rw [Content.json?, Option.bind_some]
  exact ofJson_obj_of_version hversion (by omega) hhi

private theorem detect_of_version (hversion : requiredField "schema_version" fields = some (.num v))
    (hlo : usersSchemaVersion.toNat < v) (hhi : v < 2 ^ 32)
    (toml : String → Option DeploymentConfig) :
    (contentFormats toml).detectUsersSchema thisRelease (some (.json (.obj fields))) true =
      if (usersField fields).isSome then .future (UInt32.ofNat v.toNat) else .corrupted := by
  have hnewer : thisRelease.users < UInt32.ofNat v.toNat := usersSchemaVersion_lt hlo hhi
  have hfile : (contentFormats toml).usersFile (.json (.obj fields)) =
      (usersField fields).map fun users => ⟨UInt32.ofNat v.toNat, users⟩ :=
    usersFile_of_version hversion hlo hhi
  have hlegacy : (contentFormats toml).legacyUsers (.json (.obj fields)) = none := rfl
  rw [UserFormats.detectUsersSchema, if_pos rfl, UserFormats.detectUsersBytes, hfile, hlegacy]
  cases usersField fields with
  | none => rfl
  | some users => exact if_pos hnewer

private theorem parse_of_version (hversion : requiredField "schema_version" fields = some (.num v))
    (hlo : usersSchemaVersion.toNat < v) (hhi : v < 2 ^ 32) (husers : (usersField fields).isSome) :
    parseUsersBytes (Content.json (.obj fields)).json? =
      .error (.unsupportedSchema .usersJson (UInt32.ofNat v.toNat) usersSchemaVersion) := by
  obtain ⟨users, husers⟩ := Option.isSome_iff_exists.mp husers
  have hfile : jsonUsers.usersFile (Content.json (.obj fields)).json? =
      some ⟨UInt32.ofNat v.toNat, users⟩ := by
    rw [← Option.map_some, ← husers]
    exact usersFile_of_version hversion hlo hhi
  rw [parseUsersBytes, UserFormats.parseUsersBytes, hfile]
  exact if_pos (usersSchemaVersion_lt hlo hhi)

private theorem recognisedAs_of_users
    (hversion : requiredField "schema_version" fields = some (.num v))
    (hlo : usersSchemaVersion.toNat < v) (hhi : v < 2 ^ 32) (husers : (usersField fields).isSome) :
    RecognisedAs (UInt32.ofNat v.toNat) (.json (.obj fields)) := by
  have hparse := parse_of_version hversion hlo hhi husers
  have hdetect : ∀ toml, (contentFormats toml).detectUsersSchema thisRelease
      (some (.json (.obj fields))) true = .future (UInt32.ofNat v.toNat) := by
    intro toml
    rw [detect_of_version hversion hlo hhi, if_pos husers]
  refine ⟨hdetect, ?_, ?_, ?_, ?_⟩
  · intro h hcontent
    rw [loadUsers_of_some hcontent, hparse]
  · intro site inv archive a h husersEntry hextract hread
    have hcheck : checkArchive site archive a =
        .error (.users
          (.unsupportedSchema .usersJson (UInt32.ofNat v.toNat) usersSchemaVersion)) := by
      simp [checkArchive, husersEntry, hextract, hread, hparse]
    rw [cmdRestore, hcheck]
    rfl
  · intro toml f a d hfile hread
    have hfuture : (contentFormats toml).detectUsersSchema thisRelease (d.live f) a.detect =
        .future (UInt32.ofNat v.toNat) := by
      rw [hfile, hread]
      exact hdetect toml
    simp only [Formats.migrateUsers, Bind.bind, Prog.bind, Prog.look, hfuture, Prog.fail,
      List.append_nil]
    rfl
  · intro toml cfg configPath usersPath d hfile
    rw [validateReport, cmdConfigValidate, hfile, hdetect]

/-- A store with a newer version is recognised as such exactly if its users are still in the shape
of this release. -/
theorem newer_recognised_iff (fields : List (String × Json)) (v : Int)
    (hversion : requiredField "schema_version" fields = some (.num v))
    (hlo : usersSchemaVersion.toNat < v) (hhi : v < 2 ^ 32) :
    RecognisedAs (UInt32.ofNat v.toNat) (.json (.obj fields)) ↔ (usersField fields).isSome := by
  constructor
  · intro h
    have hdetect := h.detect fun _ => none
    rw [detect_of_version hversion hlo hhi] at hdetect
    by_contra hnone
    rw [if_neg hnone] at hdetect
    cases hdetect
  · exact recognisedAs_of_users hversion hlo hhi

/-- A newer release may keep its users elsewhere. -/
def movedUsers : List (String × Json) := [("schema_version", .num 2), ("accounts", .obj [])]

/-- Or add fields beside them. -/
def extendedUsers : List (String × Json) :=
  [("groups", .arr []), ("schema_version", .num 2), ("users", .arr [])]

theorem extended_users_recognised :
    requiredField "schema_version" extendedUsers = some (.num 2) ∧
    RecognisedAs (UInt32.ofNat (2 : Int).toNat) (.json (.obj extendedUsers)) :=
  ⟨rfl, (newer_recognised_iff extendedUsers 2 rfl (by decide) (by decide)).mpr rfl⟩

/-- Such a store counts as corrupted. -/
theorem moved_users_corrupted :
    requiredField "schema_version" movedUsers = some (.num 2) ∧
    detectUsersBytes (some (.obj movedUsers)) = .corrupted ∧
    parseUsersBytes (some (.obj movedUsers)) = .error .parse ∧
    ∀ toml, (contentFormats toml).detectUsersSchema thisRelease
      (some (.json (.obj movedUsers))) true = .corrupted :=
  ⟨rfl, rfl, rfl, fun _ => rfl⟩

end Newer

end Vpn1.Admin.Schema
