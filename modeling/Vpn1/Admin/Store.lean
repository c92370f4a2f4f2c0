import Vpn1.Admin.Reconcile
import Vpn1.Compat.Migration

/-! The store of a host as the versioned file it is: what the commands do to the one when they load,
save and migrate is what `vpn-compat` does to the other. -/

namespace Vpn1.Admin

open Compat Traced

/-- The files of a host as the commands see them, with a reader for its TOML. -/
def contentFormats (toml : String → Option DeploymentConfig) : Formats Content where
  usersFile c := jsonUsers.usersFile c.json?
  legacyUsers c := jsonUsers.legacyUsers c.json?
  encodeUsers file := .json file.toJson
  usersFile_encodeUsers file := jsonUsers.usersFile_encodeUsers file
  text := Content.text?
  ofText := .text
  text_ofText _ := rfl
  toml := toml

section Answers

def WriteAnswer.outcome : WriteAnswer → WriteOutcome Content
  | .done => .done
  | .notOpened => .notOpened
  | .cut => .cut .torn
  | .notSynced => .notSynced

def SaveAnswers.replace (pid : Nat) (a : SaveAnswers) : ReplaceAnswers Content :=
  ⟨pid, a.createDir, a.write.outcome, a.ownership, a.rename⟩

def MigrateAnswers.ofStore (pid : Nat) (a : MigrateAnswers) : Compat.MigrateAnswers Content where
  detect := a.detect
  read := a.read
  backup := ⟨a.time, a.readBackup, a.backup.outcome⟩
  replace := ⟨pid, a.createDir, a.write.outcome, a.ownership, a.rename⟩

end Answers

section Projection

variable (stateDir : String) (rest : Disk Content)

def storePath : StatePath → Option Path
  | .live (.usersJson dir) => if dir = stateDir then some (.live .users) else none
  | .tmp (.usersJson dir) pid => if dir = stateDir then some (.tmp .users pid) else none
  | .preMigration (.usersJson dir) time =>
    if dir = stateDir then some (.preMigration .users time) else none
  | _ => none

/-- The store of a host and its siblings, next to files that are not its own. -/
def storeDisk (h : Host) : Disk Content := fun p =>
  match storePath stateDir p with
  | some q => (h.files q).map File.content
  | none => rest p

variable {stateDir rest} {h : Host} {toml : String → Option DeploymentConfig}

private theorem storePath_inj {p p' : StatePath} {q : Path} (hp : storePath stateDir p = some q)
    (hp' : storePath stateDir p' = some q) : p = p' := by
  unfold storePath at hp hp'
  grind

theorem storeDisk_of_path {p : StatePath} {q : Path} (hp : storePath stateDir p = some q) :
    storeDisk stateDir rest h p = (h.files q).map File.content := by
  simp [storeDisk, hp]

theorem storeDisk_put {p : StatePath} {q : Path} (hp : storePath stateDir p = some q)
    (f : Option File) :
    storeDisk stateDir rest (h.put q f) = (storeDisk stateDir rest h).put p (f.map File.content) := by
  funext p'
  by_cases heq : p' = p
  · rw [heq, Disk.put_same, storeDisk_of_path hp, Host.put_files_same]
  · simp only [storeDisk, Disk.put, if_neg heq]
    cases hp' : storePath stateDir p' with
    | none => rfl
    | some q' =>
      have hne : q' ≠ q := fun h => heq (storePath_inj hp' (h ▸ hp))
      simp only [Host.put_files_of_ne _ _ _ hne]

private theorem storePath_live :
    storePath stateDir (.live (.usersJson stateDir)) = some (.live .users) :=
  if_pos rfl

private theorem storePath_tmp (pid : Nat) :
    storePath stateDir (.tmp (.usersJson stateDir) pid) = some (.tmp .users pid) :=
  if_pos rfl

private theorem storePath_preMigration (time : Nat) :
    storePath stateDir (.preMigration (.usersJson stateDir) time) =
      some (.preMigration .users time) :=
  if_pos rfl

theorem storeDisk_live : (storeDisk stateDir rest h).live (.usersJson stateDir) = h.content? .users :=
  storeDisk_of_path storePath_live

/-- Loading the store of a host is loading the file. -/
theorem loadUsers_storeDisk (ok : Bool) : loadUsers h ok =
    (contentFormats toml).loadUsers thisRelease
      ((storeDisk stateDir rest h).live (.usersJson stateDir)) ok := by
  rw [storeDisk_live]
  cases hc : h.content? .users with
  | none => exact loadUsers_of_none hc ok
  | some c =>
    rw [loadUsers, hc]
    rfl

theorem require_projects {α β : Type} {v : β → α} {ok : Bool} {e : CompatError}
    {f : Unit → Prog Host Event CompatError α} {g : Unit → Prog (Disk Content) Unit CompatError β}
    (hok : ok = true → Projects (storeDisk stateDir rest) v (f ()) (g ()) h) :
    Projects (storeDisk stateDir rest) v (require ok e >>= f) (Prog.ensure ok e >>= g) h := by
  cases ok with
  | false => exact ⟨rfl, rfl⟩
  | true => exact ⟨(hok rfl).result, (hok rfl).final⟩

theorem readFile_projects {α β : Type} {v : β → α} {ok : Bool} {c : Content}
    {f : Unit → Prog Host Event CompatError α} {g : Content → Prog (Disk Content) Unit CompatError β}
    (hc : h.content? .users = some c)
    (hok : ok = true → Projects (storeDisk stateDir rest) v (f ()) (g c) h) :
    Projects (storeDisk stateDir rest) v (require ok .io >>= f)
      (readFile (.usersJson stateDir) ok >>= g) h := by
  unfold readFile
  rw [Prog.bind_assoc]
  refine .look_right ?_
  rw [storeDisk_live, hc]
  dsimp only
  rw [Prog.bind_assoc]
  exact require_projects hok

theorem writeFile_projects {p : StatePath} {q : Path} (hp : storePath stateDir p = some q)
    (c : Content) (mode : Mode) (a : WriteAnswer) :
    Projects (storeDisk stateDir rest) id (writeFile q c mode a CompatError.io)
      (writeFileMode p c a.outcome) h := by
  have hput (f g : Option File) : (h.put q f).put q g = h.put q g := by simp [Host.put]
  constructor
  · cases a <;> rfl
  · cases a with
    | notOpened => rfl
    | cut => exact storeDisk_put hp _
    | notSynced => exact (congrArg _ (hput _ _)).trans (storeDisk_put hp _)
    | done => exact (congrArg _ (hput _ _)).trans (storeDisk_put hp _)

theorem replace_projects (pid : Nat) (c : Content) (createDir : Bool) (write : WriteAnswer)
    (ownership rename : Bool) :
    Projects (storeDisk stateDir rest) id
      (do
        writeFile (.tmp .users pid) c 0o640 write CompatError.io
        require ownership .io
        renameFile (.tmp .users pid) (.live .users) rename .io)
      (replaceFile (.usersJson stateDir) c ⟨pid, createDir, write.outcome, ownership, rename⟩) h := by
  have hwrite : Projects (storeDisk stateDir rest) id
      (writeFile (.tmp .users pid) c 0o640 write CompatError.io)
      (writeFileMode (.tmp (.usersJson stateDir) pid) c write.outcome) h :=
    writeFile_projects (storePath_tmp pid) c 0o640 write
  refine hwrite.bind fun _ hdone => ?_
  have hwritten : ∃ f, (writeFile (.tmp .users pid) c 0o640 write CompatError.io h).final.files
      (.tmp .users pid) = some f := by
    have hok := hwrite.result
    rw [hdone] at hok
    have hrun : Wp (writeFile (.tmp .users pid) c 0o640 write CompatError.io) h (fun _ _ => True)
        fun r t => r = .ok () → ∃ f, t.files (.tmp .users pid) = some f :=
      wp_writeFile (fun _ => trivial) (fun _ _ => ⟨_, Host.put_files_same _ _ _⟩) fun _ _ h => by
        cases h
    exact hrun.2 hok
  obtain ⟨f, hf⟩ := hwritten
  generalize (writeFile (.tmp .users pid) c 0o640 write CompatError.io h).final = t at hf
  refine require_projects fun _ => ?_
  refine .look_left ?_
  rw [hf]
  cases rename with
  | false => exact .fail CompatError.io
  | true =>
    constructor
    · rfl
    · have htmp : storeDisk stateDir rest t (.tmp (.usersJson stateDir) pid) = some f.content := by
        rw [storeDisk_of_path (storePath_tmp pid), hf, Option.map_some]
      have hcomm : ((t.put (.tmp .users pid) none).put (.live .users) (some f)) =
          (t.put (.live .users) (some f)).put (.tmp .users pid) none := by
        simp [Host.put, Function.update_comm]
      show storeDisk stateDir rest ((t.put (.tmp .users pid) none).put (.live .users) (some f)) =
        ((storeDisk stateDir rest t).put _ (storeDisk stateDir rest t _)).put _ none
      rw [hcomm, storeDisk_put (storePath_tmp pid), storeDisk_put storePath_live, htmp]
      rfl

/-- A save of the store is the save of the file, whatever the steps answer. -/
theorem saveUsersAtomic_projects (pid : Nat) (users : List CompatUser) (a : SaveAnswers) :
    Projects (storeDisk stateDir rest) id (saveUsersAtomic pid users a)
      ((contentFormats toml).saveUsersAtomic thisRelease (.usersJson stateDir) users a.chmodDir
        (a.replace pid)) h :=
  require_projects fun _ => require_projects fun _ => replace_projects pid _ _ _ _ _

/-- So is a migration, which tells the file's caller more than the host's. -/
theorem migrateUsers_projects (inv : Invocation) (a : MigrateAnswers) :
    Projects (storeDisk stateDir rest) (fun _ => ()) (migrateUsers inv a)
      ((contentFormats toml).migrateUsers thisRelease (.usersJson stateDir) (a.ofStore inv.pid))
      h := by
  refine .look_left (.look_right ?_)
  rw [storeDisk_live]
  cases hfile : h.files (.live .users) with
  | none =>
    have hc : h.content? .users = none := by rw [Host.content?, hfile, Option.map_none]
    rw [hc]
    exact .pure MigrationOutcome.missing
  | some file =>
    have hc : h.content? .users = some file.content := by rw [Host.content?, hfile, Option.map_some]
    have hdetect : (contentFormats toml).detectUsersSchema thisRelease (some file.content)
        (a.ofStore inv.pid).detect =
          if a.detect then detectUsersBytes file.content.json? else .corrupted := rfl
    rw [hc, hdetect]
    dsimp only
    cases (if a.detect then detectUsersBytes file.content.json? else .corrupted) with
    | missing => exact .pure MigrationOutcome.missing
    | current => exact .pure MigrationOutcome.alreadyCurrent
    | future found => exact .fail _
    | corrupted => exact .fail _
    | legacy =>
      refine readFile_projects hc fun _ => ?_
      have hread : (contentFormats toml).legacyUsers file.content =
        file.content.json?.bind usersOfJson := rfl
      cases hlegacy : file.content.json?.bind usersOfJson with
      | none =>
        rw [hlegacy] at hread
        have hfail : (contentFormats toml).migratedUsers thisRelease file.content = .error .parse := by
          simp [Formats.migratedUsers, hread, throw, throwThe, MonadExceptOf.throw]
        rw [hfail]
        exact ⟨rfl, rfl⟩
      | some legacy =>
        rw [hlegacy] at hread
        rw [Formats.migratedUsers_ok hread, backupBeforeMutate]
        refine .lift_right ?_
        rw [Prog.bind_assoc]
        refine readFile_projects hc fun _ => ?_
        rw [Prog.bind_assoc]
        refine (writeFile_projects (storePath_preMigration _) _ _ _).bind fun _ _ => ?_
        refine .pure_right ?_
        rw [atomicWrite, Prog.bind_assoc]
        exact require_projects fun _ => (replace_projects _ _ _ _ _ _).then_pure fun _ => rfl

end Projection

end Vpn1.Admin
