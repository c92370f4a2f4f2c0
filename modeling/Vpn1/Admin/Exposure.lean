import Vpn1.Admin.Extraction
import Vpn1.Admin.RotateAtomicity

/-! The permissions of files that hold secrets, at every point of every command. -/

namespace Vpn1.Admin

open Compat Traced

/-- The files with the REALITY private key, or UUIDs and passwords of users. -/
def StateFile.holdsSecrets : StateFile → Bool
  | .users | .privateKey | .config | .configBak | .rotateCandidate | .obfsRotateCandidate => true
  | _ => false

def Path.stateFile : Path → StateFile
  | .live f | .tmp f _ | .rotateTmp f | .rotateBak f | .preMigration f _ => f

def Closed (mode : Mode) : Prop := mode &&& 0o007 = 0

instance decidableClosed (mode : Mode) : Decidable (Closed mode) := inferInstanceAs (Decidable (_ = _))

/-- No file with secrets is open to others. -/
def Guarded (h : Host) : Prop := ∀ p file, p.stateFile.holdsSecrets = true →
  h.files p = some file → Closed file.mode

/-- The run of `p` from a host that is guarded keeps it so at every point. -/
def KeepsGuarded {ε α : Type} (p : Prog Host Event ε α) : Prop :=
  Keeps (fun _ _ => True) Guarded (fun _ => Guarded) p

section Hosts

variable {h : Host} {p : Path} {mode : Mode}

theorem Closed.and (hmode : Closed mode) (m : Mode) : Closed (mode &&& m) := by
  unfold Closed at hmode ⊢
  rw [BitVec.and_assoc, BitVec.and_comm m, ← BitVec.and_assoc, hmode]
  exact BitVec.zero_and

theorem Guarded.openMode (hh : Guarded h) (hmode : Closed mode)
    (hp : p.stateFile.holdsSecrets = true) : Closed (h.openMode p mode) := by
  unfold Host.openMode
  cases hfile : h.files p with
  | none => exact hmode.and _
  | some file => exact hh p file hp hfile

theorem Guarded.put (hh : Guarded h) {f : Option File}
    (hf : p.stateFile.holdsSecrets = true → ∀ file, f = some file → Closed file.mode) :
    Guarded (h.put p f) := by
  intro q file hq hfile
  by_cases hqp : q = p
  · subst hqp
    rw [Host.put_files_same] at hfile
    exact hf hq file hfile
  · rw [Host.put_files_of_ne _ _ _ hqp] at hfile
    exact hh q file hq hfile

theorem Guarded.put_some (hh : Guarded h) {content : Content}
    (hmode : p.stateFile.holdsSecrets = true → Closed mode) :
    Guarded (h.put p (some ⟨content, mode⟩)) :=
  hh.put fun hp _ heq => Option.some.inj heq ▸ hmode hp

theorem Guarded.put_none (hh : Guarded h) : Guarded (h.put p none) := hh.put fun _ _ => nofun

end Hosts

section Steps

variable {ε : Type} {e : ε} {p src dst : Path} {mode : Mode}

theorem KeepsGuarded.wp {α : Type} {q : Prog Host Event ε α} (hq : KeepsGuarded q) {h : Host}
    (hh : Guarded h) : Wp q h (fun _ => Guarded) (fun _ => Guarded) :=
  hq h hh fun _ _ => trivial

end Steps

section Transactions

variable {ε : Type} {e : ε}

end Transactions

section Commands

variable (site : Site) (inv : Invocation)

end Commands

section Rotation

variable (site : Site) (inv : Invocation)

variable {h : Host} {f : StateFile} {doc : Json} {a : StageAnswers}

end Rotation

section Candidates

variable (site : Site) (inv : Invocation) {h : Host}

end Candidates

section Staging

/-- An entry that `unpack_in` makes a regular file with secrets of. -/
def TarEntry.holdsSecrets (entry : TarEntry) : Bool :=
  entry.type != .dir &&
    backupManifest.any fun item => entry.stagedPath? == some item.1 && item.2.holdsSecrets

/-- `unpack_in` with a list of the entries it was handed. -/
def unpackLogged (done : RelPath → Bool) (path : RelPath) (entry : TarEntry)
    (s : Tree × List TarEntry) : Except Unit Bool × Tree × List TarEntry :=
  let r := unpackStaged done path entry s.1
  (r.1, r.2, s.2 ++ [entry])

/-- The entries that `extract_validated_backup` hands to `unpack_in`. -/
def unpackedBackup (archive : List TarEntry) (a : ExtractAnswers) : List TarEntry :=
  if a.openArchive then
    (extractLoop a.header (unpackLogged a.unpack) 0 0 [] archive (fun _ => none, [])).2.2
  else []

end Staging

section Exposure

inductive SecretCommand
  | init (rotate : Bool) (a : InitAnswers)
  | hysteriaObfsRotate (a : ObfsRotateAnswers)
  | restore (archive : List TarEntry) (io : ExtractAnswers) (a : RestoreAnswers)
  | renderConfig (requireApplied : Bool) (a : RegenerateAnswers)
  | user (cmd : UserCommand) (a : UserAnswers)
  | userRotateToken (id tokenHash : String) (readUsers : Bool) (a : SaveAnswers)

variable (site : Site) (inv : Invocation) (h : Host)

/-- Every state in which the command can be interrupted, with the first and the last. -/
def SecretCommand.states : SecretCommand → List Host
  | .init rotate a => (cmdInit site inv rotate a).states h
  | .hysteriaObfsRotate a => (cmdHysteriaObfsRotate site inv a).states h
  | .restore archive io a => (restoreArchive site inv archive io a).states h
  | .renderConfig requireApplied a => (cmdRenderConfig site inv requireApplied a).states h
  | .user cmd a => (userCommand site inv cmd a).states h
  | .userRotateToken id tokenHash readUsers a =>
    (cmdUserRotateToken inv id tokenHash readUsers a).states h

/-- The entries that the command unpacks into its own temporary directory. -/
def SecretCommand.unpacked : SecretCommand → List TarEntry
  | .restore archive io _ => unpackedBackup archive io
  | _ => []

end Exposure

section Sample

end Sample

end Vpn1.Admin
