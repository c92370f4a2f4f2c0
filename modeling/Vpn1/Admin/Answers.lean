import Vpn1.Compat.Model

/-! What the operating system and systemd answer to one call: every file operation, query, check
and restart of a command has its own answer, independent of the others. -/

namespace Vpn1.Admin

open Compat

/-- The files of a deployment that `vpn-admin` reads and writes. -/
inductive StateFile
  | users
  | privateKey
  | publicKey
  | shortId
  | hysteriaCert
  | hysteriaKey
  | obfsPassword
  | config
  | configBak
  | appliedStamp
  | rotateCandidate
  | obfsRotateCandidate
  deriving DecidableEq, Repr

/-- Opening, filling and syncing a file. A cut write leaves it truncated. -/
inductive WriteAnswer
  | done
  | notOpened
  | cut
  | notSynced
  deriving DecidableEq, Repr

/-- `std::fs::copy`. -/
inductive CopyAnswer
  | done
  | notOpened
  | cut
  deriving DecidableEq, Repr

/-- `reload_and_verify`: a failed call may leave the old process or the restarted one. -/
inductive RestartAnswer
  | active
  | notRestarted
  | notActive
  deriving DecidableEq, Repr

/-- Whether the unit runs what its files hold once the call returns. -/
def RestartAnswer.restarts : RestartAnswer → Bool
  | .notRestarted => false
  | _ => true

inductive RealitySelfTestOutcome
  | pass
  | handshakeRejected
  | inconclusive
  deriving DecidableEq, Repr

/-- One `is_available` and one `is_unit_installed` query. -/
structure ServiceAnswers where
  available : Bool
  installed : Bool
  deriving DecidableEq, Repr

def ServiceAnswers.controllable (q : ServiceAnswers) : Bool := q.available && q.installed

structure KeyReads where
  privateKey : Bool
  publicKey : Bool
  shortId : Bool
  deriving DecidableEq, Repr

/-- The steps of `apply_config_atomically`. -/
structure ApplyAnswers where
  createDir : Bool
  write : WriteAnswer
  check : Bool
  removeTmp : Bool
  copyBak : CopyAnswer
  chmodBak : Bool
  ownership : Bool
  rename : Bool
  deriving DecidableEq, Repr

/-- Copying `config.json.bak` back and restarting sing-box on it. -/
structure RecoveryAnswers where
  copy : CopyAnswer
  restart : RestartAnswer
  deriving DecidableEq, Repr

structure StampAnswers where
  write : WriteAnswer
  rename : Bool
  deriving DecidableEq, Repr

/-- One call of `render_and_apply_singbox_config`; `second` are the queries made after the swap. -/
structure RenderAnswers where
  keys : KeyReads
  obfs : Bool
  now : Int64
  first : ServiceAnswers
  readTarget : Bool
  readStamp : Bool
  isActive : Bool
  apply : ApplyAnswers
  second : ServiceAnswers
  restart : RestartAnswer
  selfTestNow : Int64
  selfTest : Option RealitySelfTestOutcome
  recovery : RecoveryAnswers
  stamp : StampAnswers
  deriving DecidableEq, Repr

/-- The steps of `save_users_atomic`. -/
structure SaveAnswers where
  createDir : Bool
  chmodDir : Bool
  write : WriteAnswer
  ownership : Bool
  rename : Bool
  deriving DecidableEq, Repr

/-- One call of `apply_users_and_save`, with the compensating render of its error path. -/
structure UserAnswers where
  readUsers : Bool
  forward : RenderAnswers
  save : SaveAnswers
  compensate : RenderAnswers
  deriving DecidableEq, Repr

/-- The steps of `backup_for_rotate`. -/
structure BackupAnswers where
  openSource : Bool
  write : WriteAnswer
  metadata : Bool
  chmod : Bool
  deriving DecidableEq, Repr

/-- The steps of `install_rotated_key_file`. -/
structure InstallAnswers where
  write : WriteAnswer
  chmod : Bool
  ownership : Bool
  rename : Bool
  deriving DecidableEq, Repr

/-- Staging a candidate document and checking it before anything live is touched. -/
structure StageAnswers where
  createDir : Bool
  write : WriteAnswer
  check : Bool
  removeTmp : Bool
  deriving DecidableEq, Repr

/-- `apply_restored_file_policy`: the mode, then the owner. -/
structure PolicyAnswers where
  chmod : Bool
  chown : Bool
  deriving DecidableEq, Repr

structure RollbackAnswers where
  restore : StateFile → Bool
  copy : CopyAnswer
  singbox : ServiceAnswers
  singboxRestart : RestartAnswer
  subscription : ServiceAnswers
  subscriptionRestart : RestartAnswer

/-- Both services as a rotation finds them once the new material is in place. -/
structure LiveAnswers where
  singbox : ServiceAnswers
  singboxRestart : RestartAnswer
  subscription : ServiceAnswers
  subscriptionRestart : RestartAnswer
  deriving DecidableEq, Repr

/-- One run of `cmd_reality_rotate`. `keypair` is what sing-box printed after the names of the two
keys, if both were found in its output. -/
structure RotateAnswers where
  keypair : Option (String × String)
  shortId : Vector UInt8 4
  readUsers : Bool
  obfs : Bool
  now : Int64
  stage : StageAnswers
  singbox : ServiceAnswers
  subscription : ServiceAnswers
  backup : StateFile → BackupAnswers
  dropBackup : StateFile → Bool
  install : StateFile → InstallAnswers
  apply : ApplyAnswers
  live : LiveAnswers
  selfTestNow : Int64
  selfTest : Option RealitySelfTestOutcome
  rollback : RollbackAnswers

/-- One run of `cmd_hysteria_obfs_rotate`. -/
structure ObfsRotateAnswers where
  createDir : Bool
  password : Vector UInt8 24
  keys : KeyReads
  readUsers : Bool
  now : Int64
  stage : StageAnswers
  singbox : ServiceAnswers
  subscription : ServiceAnswers
  backup : BackupAnswers
  dropBackup : Bool
  install : InstallAnswers
  policy : PolicyAnswers
  apply : ApplyAnswers
  live : LiveAnswers
  rollback : RollbackAnswers

/-- One run of `cmd_init`; a first generation uses the answers of the rotation it is not. -/
structure InitAnswers where
  createDirs : Bool
  chmod : StateFile → Bool
  password : Vector UInt8 24
  rotate : RotateAnswers

/-- One call of `regenerate_singbox_config`. -/
structure RegenerateAnswers where
  readUsers : Bool
  render : RenderAnswers
  deriving DecidableEq, Repr

/-- One run of `cmd_config_migrate`. `deployment` and `reload` tell whether `deployment.toml` could
be migrated and read again, `time` names the backup of the store. -/
structure MigrateAnswers where
  deployment : Bool
  detect : Bool
  read : Bool
  time : Nat
  readBackup : Bool
  backup : WriteAnswer
  createDir : Bool
  write : WriteAnswer
  ownership : Bool
  rename : Bool
  reload : Bool
  regenerate : RegenerateAnswers
  deriving DecidableEq, Repr

/-- The rollback closure of `cmd_restore`. -/
structure RestoreRollbackAnswers where
  restore : StateFile → Bool
  regenerate : RegenerateAnswers
  subscription : ServiceAnswers
  subscriptionRestart : RestartAnswer

/-- One run of `cmd_restore`. `extract` tells whether the archive passes the checks on its entries,
`read` and `readAgain` are the reads of the staged files before and during the installation. -/
structure RestoreAnswers where
  extract : Bool
  read : StateFile → Bool
  singbox : ServiceAnswers
  subscription : ServiceAnswers
  createDirs : Bool
  backup : StateFile → BackupAnswers
  dropBackup : StateFile → Bool
  save : SaveAnswers
  policy : StateFile → PolicyAnswers
  readAgain : StateFile → Bool
  install : StateFile → InstallAnswers
  regenerate : RegenerateAnswers
  live : ServiceAnswers
  liveRestart : RestartAnswer
  rollback : RestoreRollbackAnswers

end Vpn1.Admin
