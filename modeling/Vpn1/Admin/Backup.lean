import Mathlib.Algebra.BigOperators.Group.List.Basic
import Mathlib.Data.List.Dedup
import Vpn1.Admin.Restore

/-! `backup` and the extraction of its archives: what is staged, what is written, which archives are
accepted, and what a restore brings back. The tar format is taken to return the entries written. -/

namespace Vpn1.Admin

open Compat Traced

abbrev RelPath := List String

/-- `BACKUP_MANIFEST`. -/
def backupManifest : List (RelPath × StateFile) := [
  (["users", "users.json"], .users),
  (["reality", "private.key"], .privateKey),
  (["reality", "public.key"], .publicKey),
  (["reality", "short_id.txt"], .shortId),
  (["hysteria", "cert.pem"], .hysteriaCert),
  (["hysteria", "key.pem"], .hysteriaKey),
  (["reality", "hysteria_obfs_password.txt"], .obfsPassword)]

def deploymentToml : RelPath := ["deployment.toml"]

section Archives

inductive Component
  | curDir
  | normal (name : String)
  | parentDir
  | rootDir
  deriving DecidableEq, Repr

/-- `special` is every link, device and FIFO. -/
inductive EntryType
  | file
  | dir
  | special
  deriving DecidableEq, Repr

structure TarEntry where
  path : List Component
  type : EntryType
  size : Nat
  content : Content
  deriving DecidableEq

def normalizedArchivePath : List Component → Option RelPath
  | [] => some []
  | .curDir :: rest => normalizedArchivePath rest
  | .normal name :: rest => (normalizedArchivePath rest).map (name :: ·)
  | .parentDir :: _ | .rootDir :: _ => none

/-- `deployment.toml`, the paths of the manifest and their parents. -/
def isAllowedBackupPath (path : RelPath) : Bool :=
  path == deploymentToml || backupManifest.any fun entry =>
    path == entry.1 || (entry.1.dropLast != [] && path == entry.1.dropLast)

inductive Node
  | file (content : Content)
  | dir
  deriving DecidableEq

abbrev Tree := RelPath → Option Node

inductive ExtractError
  | notOpened
  | header
  | tooManyEntries
  | unsafePath
  | rootNotDirectory
  | duplicate (path : RelPath)
  | unexpected (path : RelPath)
  | notRegular (path : RelPath)
  | tooLarge (path : RelPath) (size : Nat)
  | sizeOverflow
  | expandsBeyond
  | unpack (path : RelPath)
  deriving DecidableEq, Repr

structure ExtractAnswers where
  openArchive : Bool
  header : Nat → Bool
  unpack : RelPath → Bool

def parents (path : RelPath) : List RelPath := path.inits.dropLast

def Tree.place (tree : Tree) (path : RelPath) (node : Node) : Tree := fun p =>
  if p = path then some node else if p ∈ parents path then some .dir else tree p

def Tree.isFile (tree : Tree) (path : RelPath) : Bool :=
  match tree path with
  | some (.file _) => true
  | _ => false

/-- `unpack_in`: the parents of an entry are created, and a file and a directory do not replace
each other. -/
def unpackIn (tree : Tree) (path : RelPath) (entry : TarEntry) : Option Tree :=
  if (parents path).any tree.isFile then none
  else match entry.type with
  | .dir => if tree.isFile path then none else some (tree.place path .dir)
  | _ => if tree path = some .dir then none else some (tree.place path (.file entry.content))

def maxEntries : Nat := 32

def maxEntryBytes : Nat := 32 * 1024 * 1024

def maxTotalBytes : Nat := 64 * 1024 * 1024

def checkEntry (total : Nat) (seen : List RelPath) (entry : TarEntry) :
    Except ExtractError (Option RelPath) :=
  match normalizedArchivePath entry.path with
  | none => .error .unsafePath
  | some [] => if entry.type = .dir then .ok none else .error .rootNotDirectory
  | some path =>
    if path ∈ seen then .error (.duplicate path)
    else if !isAllowedBackupPath path then .error (.unexpected path)
    else if entry.type = .special then .error (.notRegular path)
    else if maxEntryBytes < entry.size then .error (.tooLarge path entry.size)
    else if 2 ^ 64 ≤ total + entry.size then .error .sizeOverflow
    else if maxTotalBytes < total + entry.size then .error .expandsBeyond
    else .ok (some path)

/-- The loop of `extract_validated_backup`, over what `unpack_in` changes. -/
def extractLoop {σ : Type} (header : Nat → Bool)
    (unpack : RelPath → TarEntry → σ → Except Unit Bool × σ) (count total : Nat)
    (seen : List RelPath) : List TarEntry → σ → Except ExtractError Unit × σ
  | [], s => (.ok (), s)
  | entry :: rest, s =>
    if !header count then (.error .header, s)
    else if maxEntries < count + 1 then (.error .tooManyEntries, s)
    else match checkEntry total seen entry with
    | .error e => (.error e, s)
    | .ok none => extractLoop header unpack (count + 1) total seen rest s
    | .ok (some path) =>
      match unpack path entry s with
      | (.ok true, next) =>
        extractLoop header unpack (count + 1) (total + entry.size) (path :: seen) rest next
      | (_, next) => (.error (.unpack path), next)

def unpackStaged (done : RelPath → Bool) (path : RelPath) (entry : TarEntry) (tree : Tree) :
    Except Unit Bool × Tree :=
  match if done path then unpackIn tree path entry else none with
  | none => (.error (), tree)
  | some next => (.ok true, next)

/-- The loop on a staging directory of its own. -/
def extractEntries (a : ExtractAnswers) (count total : Nat) (seen : List RelPath) (tree : Tree)
    (entries : List TarEntry) : Except ExtractError Tree :=
  let r := extractLoop a.header (unpackStaged a.unpack) count total seen entries tree
  r.1.map fun _ => r.2

def extractValidatedBackup (archive : List TarEntry) (a : ExtractAnswers) :
    Except ExtractError Tree :=
  if a.openArchive then extractEntries a 0 0 [] (fun _ => none) archive else .error .notOpened

end Archives

section Commands

-- `size` is the length of a file in bytes
variable (size : Content → Nat)

/-- The files `stage_backup_contents` copies: those of the manifest that exist. -/
def stagedContents (toml : Option Content) (h : Host) : List (RelPath × Content) :=
  (toml.map fun bytes => (deploymentToml, bytes)).toList ++
    backupManifest.filterMap fun entry => (h.content? entry.2).map fun bytes => (entry.1, bytes)

def dirEntry (path : RelPath) : TarEntry := ⟨.curDir :: path.map .normal, .dir, 0, .torn⟩

def fileEntry (staged : RelPath × Content) : TarEntry :=
  ⟨.curDir :: staged.1.map .normal, .file, size staged.2, staged.2⟩

def stagedDirs (staged : List (RelPath × Content)) : List RelPath :=
  ((staged.map fun entry => entry.1.dropLast).filter (· ≠ [])).dedup

/-- What `append_dir_all` has to write: the root, and every directory and file below it. -/
def treeEntries (staged : List (RelPath × Content)) : List TarEntry :=
  dirEntry [] :: (stagedDirs staged).map dirEntry ++ staged.map (fileEntry size)

structure Walk where
  run : List TarEntry → List TarEntry
  perm : ∀ entries, (run entries).Perm entries

inductive BackupCommandError
  | stage
  | create
  | write
  deriving DecidableEq, Repr

structure BackupCommandAnswers where
  tempdir : Bool
  copy : RelPath → Bool
  create : Bool
  walk : Walk
  write : Bool

/-- `cmd_backup`: the entries of the archive it leaves. -/
def cmdBackup (toml : Option Content) (h : Host) (a : BackupCommandAnswers) :
    Except BackupCommandError (List TarEntry) :=
  let staged := stagedContents toml h
  if !(a.tempdir && staged.all fun entry => a.copy entry.1) then .error .stage
  else if !a.create then .error .create
  else if !a.write then .error .write
  else .ok (a.walk.run (treeEntries size staged))

/-- A staged directory in the place of a file exists and cannot be read. -/
def Node.read : Node → Content
  | .file content => content
  | .dir => .torn

def stagedArchive (tree : Tree) : Archive := fun f =>
  (backupManifest.find? (·.2 = f)).bind fun entry => (tree entry.1).map Node.read

/-- `cmd_restore` of an archive file. -/
def restoreArchive (site : Site) (inv : Invocation) (archive : List TarEntry) (io : ExtractAnswers)
    (a : RestoreAnswers) : Prog Host Event RestoreError Unit :=
  match extractValidatedBackup archive io with
  | .error _ => Prog.fail .archive
  | .ok tree => cmdRestore site inv (stagedArchive tree) { a with extract := true }

end Commands

section Extraction

def backupDirs : List RelPath := [["users"], ["reality"], ["hysteria"]]

def backupFiles : List RelPath := deploymentToml :: backupManifest.map Prod.fst

theorem parents_mem {path : RelPath} (hpath : path ∈ backupDirs ++ backupFiles) :
    ∀ p ∈ parents path, p ∈ [] :: backupDirs := by
  revert path
  decide

theorem dir_not_file {path : RelPath} (hpath : path ∈ [] :: backupDirs) : path ∉ backupFiles := by
  revert path
  decide

private theorem allowed_of_mem {path : RelPath} (hpath : path ∈ backupDirs ++ backupFiles) :
    isAllowedBackupPath path = true := by
  revert path
  decide

@[simp] theorem normalizedArchivePath_normal (path : RelPath) :
    normalizedArchivePath (.curDir :: path.map .normal) = some path := by
  have hrest : normalizedArchivePath (path.map .normal) = some path := by
    induction path with
    | nil => rfl
    | cons name rest ih => simp [normalizedArchivePath, ih]
  simp [normalizedArchivePath, hrest]

/-- A staging directory whose files and directories are where a backup has them. -/
structure Staging (tree : Tree) : Prop where
  dirs : ∀ p, tree p = some .dir → p ∈ [] :: backupDirs
  files : ∀ p c, tree p = some (.file c) → p ∈ backupFiles

namespace Staging

variable {tree : Tree} {path : RelPath}

private theorem isFile_eq_false (ht : Staging tree) (hpath : path ∈ [] :: backupDirs) :
    tree.isFile path = false := by
  unfold Tree.isFile
  split
  · next c hc => exact absurd (ht.files path c hc) (dir_not_file hpath)
  · rfl

private theorem any_parents (ht : Staging tree) (hpath : path ∈ backupDirs ++ backupFiles) :
    (parents path).any tree.isFile = false := by
  rw [List.any_eq_false]
  intro p hp
  simp [ht.isFile_eq_false (parents_mem hpath p hp)]

theorem place (ht : Staging tree) {node : Node} (hpath : path ∈ backupDirs ++ backupFiles)
    (hdir : node = .dir → path ∈ backupDirs) (hfile : ∀ c, node = .file c → path ∈ backupFiles) :
    Staging (tree.place path node) := by
  constructor
  · intro p hp
    unfold Tree.place at hp
    split_ifs at hp with hself hparent
    · rw [hself]
      exact List.mem_cons_of_mem _ (hdir (Option.some.inj hp))
    · exact parents_mem hpath p hparent
    · exact ht.dirs p hp
  · intro p c hp
    unfold Tree.place at hp
    split_ifs at hp with hself hparent
    · rw [hself]
      exact hfile c (Option.some.inj hp)
    · cases hp
    · exact ht.files p c hp

private theorem place_dir (ht : Staging tree) (hpath : path ∈ backupDirs) :
    Staging (tree.place path .dir) :=
  ht.place (List.mem_append_left _ hpath) (fun _ => hpath) fun _ h => by cases h

private theorem place_file (ht : Staging tree) (hpath : path ∈ backupFiles) (content : Content) :
    Staging (tree.place path (.file content)) :=
  ht.place (List.mem_append_right _ hpath) (fun h => by cases h) fun _ _ => hpath

private theorem unpack_dir (ht : Staging tree) (entry : TarEntry) (hpath : path ∈ backupDirs)
    (htype : entry.type = .dir) :
    ∃ next, unpackIn tree path entry = some next ∧ Staging next ∧
      ∀ p c, next p = some (.file c) ↔ tree p = some (.file c) := by
  have hall : path ∈ backupDirs ++ backupFiles := List.mem_append_left _ hpath
  have hself := ht.isFile_eq_false (List.mem_cons_of_mem _ hpath)
  have hnotFile {p : RelPath} (hp : p ∈ [] :: backupDirs) (c : Content) :
      tree p ≠ some (.file c) := fun h => dir_not_file hp (ht.files p c h)
  refine ⟨tree.place path .dir, ?_, ht.place_dir hpath, fun p c => ?_⟩
  · unfold unpackIn
    rw [ht.any_parents hall, htype, hself]
    rfl
  · unfold Tree.place
    split_ifs with hp hparent
    · simp [hp, hnotFile (List.mem_cons_of_mem _ hpath) c]
    · simp [hnotFile (parents_mem hall p hparent) c]
    · rfl

private theorem unpack_file (ht : Staging tree) (entry : TarEntry) (hpath : path ∈ backupFiles)
    (hnew : ∀ c, tree path ≠ some (.file c)) (htype : entry.type = .file) :
    ∃ next, unpackIn tree path entry = some next ∧ Staging next ∧
      ∀ p c, next p = some (.file c) ↔
        p = path ∧ c = entry.content ∨ tree p = some (.file c) := by
  have hall : path ∈ backupDirs ++ backupFiles := List.mem_append_right _ hpath
  have hself : tree path ≠ some .dir := fun h => dir_not_file (ht.dirs path h) hpath
  refine ⟨tree.place path (.file entry.content), ?_, ht.place_file hpath _, fun p c => ?_⟩
  · unfold unpackIn
    rw [ht.any_parents hall, htype]
    simp [hself]
  · unfold Tree.place
    split_ifs with hp hparent
    · simp [hp, hnew c, eq_comm]
    · have hnot : tree p ≠ some (.file c) :=
        fun h => dir_not_file (parents_mem hall p hparent) (ht.files p c h)
      simp [hp, hnot]
    · simp [hp]

end Staging

variable (size : Content → Nat)

inductive Expected : TarEntry → Prop
  | root : Expected (dirEntry [])
  | dir {path : RelPath} (hpath : path ∈ backupDirs) : Expected (dirEntry path)
  | file {staged : RelPath × Content} (hpath : staged.1 ∈ backupFiles) :
      Expected (fileEntry size staged)

def ExtractAnswers.allDone : ExtractAnswers := ⟨true, fun _ => true, fun _ => true⟩

theorem extractEntries_step (a : ExtractAnswers) (count total : Nat) (seen : List RelPath)
    (tree : Tree) (entry : TarEntry) (rest : List TarEntry) :
    extractEntries a count total seen tree (entry :: rest) =
      if !a.header count then .error .header
      else if maxEntries < count + 1 then .error .tooManyEntries
      else match checkEntry total seen entry with
      | .error e => .error e
      | .ok none => extractEntries a (count + 1) total seen tree rest
      | .ok (some path) =>
        match if a.unpack path then unpackIn tree path entry else none with
        | none => .error (.unpack path)
        | some next =>
          extractEntries a (count + 1) (total + entry.size) (path :: seen) next rest := by
  rw [extractEntries, extractLoop]
  split_ifs
  · rfl
  · rfl
  · cases checkEntry total seen entry with
    | error e => rfl
    | ok path? =>
      cases path? with
      | none => rfl
      | some path =>
        dsimp only [unpackStaged]
        cases if a.unpack path = true then unpackIn tree path entry else none with
        | none => rfl
        | some next => rfl

private theorem checkEntry_eq_some {entry : TarEntry} {path : RelPath} {total : Nat}
    {seen : List RelPath} (hpath : normalizedArchivePath entry.path = some path) (hne : path ≠ [])
    (hallowed : isAllowedBackupPath path = true) (htype : entry.type ≠ .special)
    (hseen : path ∉ seen) (hsize : entry.size ≤ maxEntryBytes)
    (htotal : total + entry.size ≤ maxTotalBytes) :
    checkEntry total seen entry = .ok (some path) := by
  have hword : ¬ 2 ^ 64 ≤ total + entry.size := by
    unfold maxTotalBytes at htotal
    omega
  rw [checkEntry, hpath]
  cases path with
  | nil => exact absurd rfl hne
  | cons name names =>
    simp only [hseen, hallowed, htype, Nat.not_lt.mpr hsize, hword, Nat.not_lt.mpr htotal,
      Bool.not_true, Bool.false_eq_true, if_false]

private theorem extractEntries_cons {entry : TarEntry} {rest : List TarEntry} {path : RelPath}
    {count total : Nat} {seen : List RelPath} {tree next : Tree}
    (hcheck : checkEntry total seen entry = .ok (some path)) (hcount : count + 1 ≤ maxEntries)
    (hunpack : unpackIn tree path entry = some next) :
    extractEntries .allDone count total seen tree (entry :: rest) =
      extractEntries .allDone (count + 1) (total + entry.size) (path :: seen) next rest := by
  rw [extractEntries_step, hcheck]
  simp [ExtractAnswers.allDone, Nat.not_lt.mpr hcount, hunpack]

theorem normal_injective : Function.Injective fun path : RelPath =>
    Component.curDir :: path.map .normal := by
  intro p q h
  have hmap := (List.cons.inj h).2
  exact List.map_injective_iff.mpr (fun _ _ h => Component.normal.inj h) hmap

theorem fileEntry_inj {size : Content → Nat} {x y : RelPath × Content} :
    fileEntry size x = fileEntry size y ↔ x = y := by
  constructor
  · intro h
    simp only [fileEntry, TarEntry.mk.injEq] at h
    exact Prod.ext (normal_injective h.1) h.2.2.2
  · rintro rfl
    rfl

private theorem extractEntries_expected (entries : List TarEntry) (count total : Nat)
    (seen : List RelPath) (tree : Tree) (hexpected : ∀ e ∈ entries, Expected size e)
    (hnodup : (entries.map TarEntry.path).Nodup)
    (hseen : ∀ p ∈ seen, ∀ e ∈ entries, e.path ≠ .curDir :: p.map .normal)
    (hcount : count + entries.length ≤ maxEntries)
    (hsize : ∀ e ∈ entries, e.size ≤ maxEntryBytes)
    (htotal : total + (entries.map TarEntry.size).sum ≤ maxTotalBytes) (ht : Staging tree)
    (hfiles : ∀ p c, tree p = some (.file c) → p ∈ seen) :
    ∃ next, extractEntries .allDone count total seen tree entries = .ok next ∧ Staging next ∧
      ∀ p c, next p = some (.file c) ↔
        tree p = some (.file c) ∨ fileEntry size (p, c) ∈ entries := by
  induction entries generalizing count total seen tree with
  | nil => exact ⟨tree, rfl, ht, by simp⟩
  | cons entry rest ih =>
    rw [List.map_cons, List.nodup_cons] at hnodup
    rw [List.length_cons] at hcount
    rw [List.map_cons, List.sum_cons] at htotal
    have hsize' : ∀ e ∈ rest, e.size ≤ maxEntryBytes := fun e he =>
      hsize e (List.mem_cons_of_mem _ he)
    have hexpected' : ∀ e ∈ rest, Expected size e := fun e he =>
      hexpected e (List.mem_cons_of_mem _ he)
    have hseen' : ∀ p ∈ seen, ∀ e ∈ rest, e.path ≠ .curDir :: p.map .normal := fun p hp e he =>
      hseen p hp e (List.mem_cons_of_mem _ he)
    -- the paths seen next are not those of the rest either
    have hseenPath {path : RelPath} (hentry : entry.path = .curDir :: path.map .normal) :
        ∀ p ∈ path :: seen, ∀ e ∈ rest, e.path ≠ .curDir :: p.map .normal := by
      intro p hp e he
      rcases List.mem_cons.mp hp with rfl | hp
      · intro heq
        exact hnodup.1 (hentry ▸ heq ▸ List.mem_map_of_mem he)
      · exact hseen' p hp e he
    cases hexpected entry List.mem_cons_self with
    | root =>
      obtain ⟨next, hnext, hstaging, hcontents⟩ := ih (count + 1) total seen tree hexpected'
        hnodup.2 hseen' (by omega) hsize' (by omega) ht hfiles
      refine ⟨next, ?_, hstaging, fun p c => ?_⟩
      · rw [← hnext, extractEntries_step]
        have hroom : ¬ maxEntries < count + 1 := by omega
        simp [ExtractAnswers.allDone, hroom, checkEntry, dirEntry, normalizedArchivePath]
      · rw [hcontents, List.mem_cons]
        simp [fileEntry, dirEntry]
    | @dir path hpath =>
      have hnotSeen : path ∉ seen := fun h => hseen path h _ List.mem_cons_self rfl
      have hne : path ≠ [] := fun h => absurd (h ▸ hpath) (by decide)
      obtain ⟨placed, hunpack, hplaced, hsame⟩ := ht.unpack_dir (dirEntry path) hpath rfl
      obtain ⟨next, hnext, hstaging, hcontents⟩ := ih (count + 1) (total + (dirEntry path).size)
        (path :: seen) placed hexpected' hnodup.2 (hseenPath rfl) (by omega) hsize' (by omega)
        hplaced fun p c h => List.mem_cons_of_mem _ (hfiles p c ((hsame p c).mp h))
      refine ⟨next, ?_, hstaging, fun p c => ?_⟩
      · rw [← hnext]
        have hcheck := checkEntry_eq_some (normalizedArchivePath_normal path) hne
          (allowed_of_mem (List.mem_append_left _ hpath)) (by simp [dirEntry]) hnotSeen
          (hsize _ List.mem_cons_self) (show total + _ ≤ _ by omega)
        exact extractEntries_cons hcheck (by omega) hunpack
      · rw [hcontents, hsame, List.mem_cons]
        simp [fileEntry, dirEntry]
    | @file staged hpath =>
      have hnotSeen : staged.1 ∉ seen := fun h => hseen staged.1 h _ List.mem_cons_self rfl
      have hne : staged.1 ≠ [] := fun h => absurd (h ▸ hpath) (by decide)
      obtain ⟨placed, hunpack, hplaced, hadded⟩ := ht.unpack_file
        (fileEntry size staged) hpath (fun c h => hnotSeen (hfiles _ c h)) rfl
      obtain ⟨next, hnext, hstaging, hcontents⟩ := ih (count + 1)
        (total + (fileEntry size staged).size) (staged.1 :: seen) placed hexpected' hnodup.2
        (hseenPath rfl) (by omega) hsize' (by omega) hplaced (by
          intro p c h
          rcases (hadded p c).mp h with ⟨rfl, -⟩ | h
          · exact List.mem_cons_self
          · exact List.mem_cons_of_mem _ (hfiles p c h))
      refine ⟨next, ?_, hstaging, fun p c => ?_⟩
      · rw [← hnext]
        have hcheck := checkEntry_eq_some (normalizedArchivePath_normal staged.1) hne
          (allowed_of_mem (List.mem_append_right _ hpath)) (by simp [fileEntry]) hnotSeen
          (hsize _ List.mem_cons_self) (show total + _ ≤ _ by omega)
        exact extractEntries_cons hcheck (by omega) hunpack
      · rw [hcontents, hadded, List.mem_cons, fileEntry_inj, Prod.ext_iff]
        simp only [fileEntry]
        tauto

private theorem extractEntries_allDone {a : ExtractAnswers} {entries : List TarEntry}
    {count total : Nat} {seen : List RelPath} {tree next : Tree}
    (h : extractEntries a count total seen tree entries = .ok next) :
    extractEntries .allDone count total seen tree entries = .ok next := by
  induction entries generalizing count total seen tree with
  | nil => exact h
  | cons entry rest ih =>
    rw [extractEntries_step] at h ⊢
    split_ifs at h with hheader hcount
    rw [if_neg (by simp [ExtractAnswers.allDone]), if_neg hcount]
    cases hcheck : checkEntry total seen entry with
    | error e => simp [hcheck] at h
    | ok path? =>
      rw [hcheck] at h
      cases path? with
      | none => exact ih h
      | some path =>
        have hdone : ExtractAnswers.allDone.unpack path = true := rfl
        dsimp only at h ⊢
        split_ifs at h
        rw [if_pos hdone]
        cases hnext : unpackIn tree path entry with
        | none => simp [hnext] at h
        | some placed =>
          rw [hnext] at h
          exact ih h

private theorem extractValidatedBackup_allDone {archive : List TarEntry} {a : ExtractAnswers}
    {tree : Tree} (h : extractValidatedBackup archive a = .ok tree) :
    extractValidatedBackup archive .allDone = .ok tree := by
  unfold extractValidatedBackup at h ⊢
  split_ifs at h
  exact extractEntries_allDone h

end Extraction

section Staged

variable {toml : Option Content} {h : Host}

theorem mem_stagedContents {path : RelPath} {bytes : Content} :
    (path, bytes) ∈ stagedContents toml h ↔
      path = deploymentToml ∧ toml = some bytes ∨
        ∃ entry ∈ backupManifest, h.content? entry.2 = some bytes ∧ entry.1 = path := by
  simp only [stagedContents, List.mem_append, Option.mem_toList,
    Option.map_eq_some_iff, Prod.mk.injEq, List.mem_filterMap]
  constructor
  · rintro (⟨c, rfl, rfl, rfl⟩ | ⟨entry, hentry, c, hc, rfl, rfl⟩)
    · exact .inl ⟨rfl, rfl⟩
    · exact .inr ⟨entry, hentry, hc, rfl⟩
  · rintro (⟨rfl, rfl⟩ | ⟨entry, hentry, hc, rfl⟩)
    · exact .inl ⟨bytes, rfl, rfl, rfl⟩
    · exact .inr ⟨entry, hentry, bytes, hc, rfl, rfl⟩

theorem stagedContents_sublist :
    ((stagedContents toml h).map Prod.fst).Sublist backupFiles := by
  have hmanifest (l : List (RelPath × StateFile)) :
      ((l.filterMap fun entry => (h.content? entry.2).map fun bytes => (entry.1, bytes)).map
        Prod.fst).Sublist (l.map Prod.fst) := by
    induction l with
    | nil => exact .slnil
    | cons entry l ih =>
      cases hc : h.content? entry.2 with
      | none => simpa [hc] using ih.cons _
      | some bytes => simpa [hc] using ih
  unfold stagedContents backupFiles
  rw [List.map_append]
  cases toml with
  | none => simpa using (hmanifest backupManifest).cons _
  | some bytes => simpa using hmanifest backupManifest

private theorem staged_mem {staged : RelPath × Content} (hstaged : staged ∈ stagedContents toml h) :
    staged.1 ∈ backupFiles :=
  stagedContents_sublist.subset (List.mem_map_of_mem hstaged)

theorem stagedDirs_mem {path : RelPath} (hpath : path ∈ stagedDirs (stagedContents toml h)) :
    path ∈ backupDirs := by
  have hdirs : ∀ p ∈ backupFiles, p.dropLast ≠ [] → p.dropLast ∈ backupDirs := by decide
  simp only [stagedDirs, List.mem_dedup, List.mem_filter, List.mem_map, decide_eq_true_eq] at hpath
  obtain ⟨⟨staged, hstaged, rfl⟩, hne⟩ := hpath
  exact hdirs _ (staged_mem hstaged) hne

private theorem treeEntries_expected (size : Content → Nat) :
    ∀ e ∈ treeEntries size (stagedContents toml h), Expected size e := by
  intro e he
  simp only [treeEntries, List.cons_append, List.mem_cons, List.mem_append, List.mem_map] at he
  rcases he with rfl | ⟨path, hpath, rfl⟩ | ⟨staged, hstaged, rfl⟩
  · exact .root
  · exact .dir (stagedDirs_mem hpath)
  · exact .file (staged_mem hstaged)

private theorem treeEntries_nodup (size : Content → Nat) :
    ((treeEntries size (stagedContents toml h)).map TarEntry.path).Nodup := by
  have hpaths : (treeEntries size (stagedContents toml h)).map TarEntry.path =
      ([] :: (stagedDirs (stagedContents toml h) ++ (stagedContents toml h).map Prod.fst)).map
        fun path => Component.curDir :: path.map .normal := by
    simp [treeEntries, dirEntry, fileEntry, Function.comp_def]
  have hfiles : ((stagedContents toml h).map Prod.fst).Nodup :=
    stagedContents_sublist.nodup (by decide)
  have hdisjoint : (stagedDirs (stagedContents toml h)).Disjoint
      ((stagedContents toml h).map Prod.fst) := by
    intro p hdir hfile
    exact dir_not_file (List.mem_cons_of_mem _ (stagedDirs_mem hdir))
      (stagedContents_sublist.subset hfile)
  rw [hpaths]
  refine List.Nodup.map normal_injective (List.nodup_cons.mpr ⟨?_, ?_⟩)
  · intro hroot
    rcases List.mem_append.mp hroot with hroot | hroot
    · exact absurd (stagedDirs_mem hroot) (by decide)
    · exact absurd (stagedContents_sublist.subset hroot) (by decide)
  · exact (List.nodup_dedup _).append hfiles hdisjoint

private theorem treeEntries_length (size : Content → Nat) :
    (treeEntries size (stagedContents toml h)).length ≤ maxEntries := by
  have hdirs : (stagedDirs (stagedContents toml h)).length ≤ backupDirs.length :=
    (List.subperm_of_subset (List.nodup_dedup _) fun _ hp => stagedDirs_mem hp).length_le
  have hfiles : ((stagedContents toml h).map Prod.fst).length ≤ backupFiles.length :=
    stagedContents_sublist.length_le
  have hbound : 1 + backupDirs.length + backupFiles.length ≤ maxEntries := by decide
  rw [List.length_map] at hfiles
  simp only [treeEntries, List.length_cons, List.length_append, List.length_map]
  omega

private theorem fileEntry_mem_treeEntries {size : Content → Nat} {staged : List (RelPath × Content)}
    {x : RelPath × Content} : fileEntry size x ∈ treeEntries size staged ↔ x ∈ staged := by
  have hdir (path : RelPath) : fileEntry size x ≠ dirEntry path := by simp [fileEntry, dirEntry]
  simp only [treeEntries, List.cons_append, List.mem_cons, List.mem_append, List.mem_map, hdir,
    (hdir _).symm, and_false, exists_false, false_or, fileEntry_inj, exists_eq_right]

private theorem manifest_mem {entry : RelPath × StateFile} (hentry : entry ∈ backupManifest) :
    entry.1 ∈ backupFiles :=
  List.mem_cons_of_mem _ (List.mem_map_of_mem hentry)

private theorem staged_manifest {entry : RelPath × StateFile} (hentry : entry ∈ backupManifest)
    {c : Content} : (entry.1, c) ∈ stagedContents toml h ↔ h.content? entry.2 = some c := by
  have hother : ∀ entry ∈ backupManifest, entry.1 ≠ deploymentToml := by decide
  have hsame : ∀ x ∈ backupManifest, ∀ y ∈ backupManifest, x.1 = y.1 → x.2 = y.2 := by decide
  rw [mem_stagedContents]
  constructor
  · rintro (⟨heq, -⟩ | ⟨other, hmem, hc, heq⟩)
    · exact absurd heq (hother entry hentry)
    · rwa [← hsame other hmem entry hentry heq]
  · intro hc
    exact .inr ⟨entry, hentry, hc, rfl⟩

structure WithinLimits (size : Content → Nat) (staged : List (RelPath × Content)) : Prop where
  each : ∀ entry ∈ staged, size entry.2 ≤ maxEntryBytes
  all : (staged.map fun entry => size entry.2).sum ≤ maxTotalBytes

private theorem extract_cmdBackup {size : Content → Nat} {a : BackupCommandAnswers}
    {archive : List TarEntry} (hbackup : cmdBackup size toml h a = .ok archive)
    (hlimits : WithinLimits size (stagedContents toml h)) :
    ∃ tree, extractValidatedBackup archive .allDone = .ok tree ∧
      ∀ entry ∈ backupManifest, stagedArchive tree entry.2 = h.content? entry.2 := by
  obtain rfl : a.walk.run (treeEntries size (stagedContents toml h)) = archive := by
    simp only [cmdBackup] at hbackup
    split_ifs at hbackup
    exact Except.ok.inj hbackup
  have hperm := a.walk.perm (treeEntries size (stagedContents toml h))
  have hsizes : ∀ e ∈ treeEntries size (stagedContents toml h), e.size ≤ maxEntryBytes := by
    intro e he
    simp only [treeEntries, List.cons_append, List.mem_cons, List.mem_append, List.mem_map] at he
    rcases he with rfl | ⟨path, -, rfl⟩ | ⟨staged, hstaged, rfl⟩
    · exact Nat.zero_le _
    · exact Nat.zero_le _
    · exact hlimits.each staged hstaged
  have hsum : ((treeEntries size (stagedContents toml h)).map TarEntry.size).sum =
      ((stagedContents toml h).map fun entry => size entry.2).sum := by
    simp [treeEntries, dirEntry, fileEntry, Function.comp_def]
  obtain ⟨tree, htree, hstaging, hfiles⟩ := extractEntries_expected size
    (a.walk.run (treeEntries size (stagedContents toml h))) 0 0 [] (fun _ => none)
    (fun e he => treeEntries_expected size e (hperm.mem_iff.mp he))
    ((hperm.map _).nodup_iff.mpr (treeEntries_nodup size)) (by simp)
    (by simpa [hperm.length_eq] using treeEntries_length size)
    (fun e he => hsizes e (hperm.mem_iff.mp he))
    (by simpa [(hperm.map TarEntry.size).sum_eq, hsum] using hlimits.all)
    ⟨by simp, by simp⟩ (by simp)
  refine ⟨tree, htree, fun entry hentry => ?_⟩
  have hfound : ∀ entry ∈ backupManifest, backupManifest.find? (·.2 = entry.2) = some entry := by
    decide
  have hfile (c : Content) : tree entry.1 = some (.file c) ↔ h.content? entry.2 = some c := by
    rw [hfiles, hperm.mem_iff, fileEntry_mem_treeEntries, staged_manifest hentry]
    simp
  unfold stagedArchive
  rw [hfound entry hentry, Option.bind_some]
  cases hnode : tree entry.1 with
  | none =>
    rw [Option.map_none, eq_comm, Option.eq_none_iff_forall_ne_some]
    intro c hc
    exact absurd ((hfile c).mpr hc) (by simp [hnode])
  | some node =>
    cases node with
    | file c => exact ((hfile c).mp hnode).symm
    | dir => exact absurd (manifest_mem hentry) (dir_not_file (hstaging.dirs _ hnode))

end Staged

section RoundTrip

variable {site : Site} {inv : Invocation}

/-- The files of the manifest are on `t` as they were on `h`, the store up to its encoding. -/
structure RestoredFrom (h t : Host) : Prop where
  contents : ∀ f ∈ restoreTargets, t.content? f = h.content? f
  exists_users : t.exists? .users = h.exists? .users
  users : loadUsers t true = loadUsers h true

theorem checkArchive_users {archive : Archive} {a : RestoreAnswers} {users : List CompatUser}
    (h : checkArchive site archive a = .ok users) :
    ∃ bytes, archive .users = some bytes ∧ parseUsersBytes bytes.json? = .ok users := by
  simp only [checkArchive] at h
  cases hextract : a.extract with
  | false => simp [hextract] at h
  | true =>
    cases hbytes : archive .users with
    | none => simp [hextract, hbytes] at h
    | some bytes =>
      refine ⟨bytes, rfl, ?_⟩
      simp only [hextract, hbytes, Bool.not_true, Bool.false_eq_true, if_false] at h
      cases hread : a.read .users with
      | false => simp [hread] at h
      | true =>
        simp only [hread, if_true] at h
        cases hparse : parseUsersBytes bytes.json? with
        | error e => simp [hparse] at h
        | ok users' =>
          simp only [hparse] at h
          split at h
          · cases h
          split at h
          · cases h
          split at h
          · cases h
          · cases h
          split at h
          · cases h
          split at h
          · cases h
          · rw [Except.ok.inj h]

/-- What a restore that succeeds leaves of the manifest. -/
theorem RestorePath.manifest {archive : Archive} {a : RestoreAnswers} {h t : Host}
    (hpath : RestorePath site inv archive a h (.ok ()) t) :
    ∃ users, checkArchive site archive a = .ok users ∧
      t.content? .users = some (.json (savedUsers users)) ∧
      ∀ f ∈ restoreTargets,
        (archive f = none → t.content? f = h.content? f) ∧
        ∀ bytes, archive f = some bytes → t.content? f = some bytes := by
  cases hpath with
  | @restored users live i u t hcheck hi hr hserved ht =>
    have hkeep : ∀ f ∈ restoredFiles, t.content? f = i.content? f := by
      intro f hf
      have hlive : Path.live f ∉ renderPaths inv.pid := by
        revert f
        simp [restoredFiles, restoreTargets, renderPaths, swapPaths, stampPaths]
      have hu := hr.frame.same.files _ hlive
      have ht := ht.files (.live f) (by simp [bakPaths])
      simp only [Host.content?, ht, hu]
    refine ⟨users, hcheck, ?_, fun f hf => ?_⟩
    · rw [hkeep .users (by decide), hi.store]
    · rw [hkeep f (List.mem_append_left _ hf)]
      refine ⟨fun hnone => ?_, hi.contents f hf⟩
      simp only [Host.content?, hi.absent f hf hnone]

/-- A backup is accepted by the extraction. A restore of it that succeeds brings the manifest back
exactly if it meets no file that the backup does not have. -/
theorem restore_backup_iff {size : Content → Nat} {toml : Option Content} {old now : Host}
    {b : BackupCommandAnswers} {archive : List TarEntry}
    (hbackup : cmdBackup size toml old b = .ok archive)
    (hlimits : WithinLimits size (stagedContents toml old)) :
    (∃ tree, extractValidatedBackup archive .allDone = .ok tree) ∧
      ∀ (io : ExtractAnswers) (a : RestoreAnswers),
        (restoreArchive site inv archive io a now).result = .ok () →
        (RestoredFrom old (restoreArchive site inv archive io a now).final ↔
          ∀ f ∈ restoreTargets, old.exists? f = false → now.exists? f = false) := by
  obtain ⟨tree, htree, hstaged⟩ := extract_cmdBackup hbackup hlimits
  refine ⟨⟨tree, htree⟩, fun io a hok => ?_⟩
  have hmanifest : ∀ f ∈ restoredFiles, stagedArchive tree f = old.content? f := by
    have hmem : ∀ f ∈ restoredFiles, ∃ entry ∈ backupManifest, entry.2 = f := by decide
    intro f hf
    obtain ⟨entry, hentry, rfl⟩ := hmem f hf
    exact hstaged entry hentry
  have hrun : restoreArchive site inv archive io a =
      cmdRestore site inv (stagedArchive tree) { a with extract := true } := by
    unfold restoreArchive at hok ⊢
    cases hextract : extractValidatedBackup archive io with
    | error e => simp [hextract, Prog.fail] at hok
    | ok tree' =>
      have := extractValidatedBackup_allDone hextract
      rw [htree] at this
      rw [Except.ok.inj this]
  rw [hrun] at hok ⊢
  have hpath := (cmdRestore_wp site inv (stagedArchive tree) { a with extract := true } now).2
  rw [hok] at hpath
  obtain ⟨users, hcheck, hstore, hfiles⟩ := hpath.manifest
  generalize (cmdRestore site inv (stagedArchive tree) { a with extract := true } now).final = t
    at hstore hfiles ⊢
  obtain ⟨bytes, hbytes, hparse⟩ := checkArchive_users hcheck
  rw [hmanifest .users (by decide)] at hbytes
  have hexists (h : Host) (f : StateFile) : h.exists? f = (h.content? f).isSome := by
    simp [Host.exists?, Host.content?]
  constructor
  · intro hrestored f hf habsent
    have hnone : old.content? f = none := by simpa [hexists] using habsent
    have harchive : stagedArchive tree f = none := by
      rw [hmanifest f (List.mem_append_left _ hf), hnone]
    rw [hexists, ← (hfiles f hf).1 harchive, hrestored.contents f hf, hnone]
    rfl
  · intro hnothing
    refine ⟨fun f hf => ?_, ?_, ?_⟩
    · have harchive := hmanifest f (List.mem_append_left _ hf)
      cases hold : old.content? f with
      | some c => exact (hfiles f hf).2 c (harchive.trans hold)
      | none =>
        rw [(hfiles f hf).1 (harchive.trans hold)]
        have := hnothing f hf (by simp [hexists, hold])
        simpa [hexists] using this
    · simp [hexists, hstore, hbytes]
    · rw [loadUsers_of_some hstore, loadUsers_of_some hbytes, hparse]
      exact parseUsersBytes_savedUsers users

end RoundTrip

section Sample

/-- A backup that meets no failure, on a file system that lists in the order of creation. -/
def BackupCommandAnswers.clear : BackupCommandAnswers :=
  ⟨true, fun _ => true, true, ⟨id, fun entries => .refl entries⟩, true⟩

/-- The backup of the sample deployment, with files of ten bytes. -/
def sampleArchive : List TarEntry :=
  treeEntries (fun _ => 10) (stagedContents (some (.text "")) sampleHost)

private theorem sampleArchive_withinLimits :
    WithinLimits (fun _ => 10) (stagedContents (some (.text "")) sampleHost) :=
  ⟨by decide, by decide⟩

def obfuscatedHost : Host where
  files
    | .live .obfsPassword => some ⟨.text "secret", 0o640⟩
    | p => sampleHost.files p
  umask := 0o022
  binaryInstalled := true
  masqueradeDir := false
  loaded := sampleHost.loaded
  cached := sampleHost.cached

theorem restore_backup_sample :
    RestoredFrom sampleHost
      (restoreArchive sampleSite ⟨1, false⟩ sampleArchive .allDone .clear sampleHost).final := by
  have hbackup : cmdBackup (fun _ => 10) (some (.text "")) sampleHost .clear =
      .ok sampleArchive := rfl
  have hok : (restoreArchive sampleSite ⟨1, false⟩ sampleArchive .allDone .clear
      sampleHost).result = .ok () := by decide +kernel
  exact ((restore_backup_iff hbackup sampleArchive_withinLimits).2 _ _ hok).mpr fun _ _ h => h

/-- The password of the newer state survives the restore of a state without one. -/
theorem restore_keeps_obfuscation :
    cmdBackup (fun _ => 10) (some (.text "")) sampleHost .clear = .ok sampleArchive ∧
      WithinLimits (fun _ => 10) (stagedContents (some (.text "")) sampleHost) ∧
      (restoreArchive sampleSite ⟨1, false⟩ sampleArchive .allDone .clear obfuscatedHost).result =
        .ok () ∧
      ¬ RestoredFrom sampleHost
        (restoreArchive sampleSite ⟨1, false⟩ sampleArchive .allDone .clear obfuscatedHost).final := by
  refine ⟨rfl, sampleArchive_withinLimits, by decide +kernel, fun h => ?_⟩
  exact absurd (h.contents .obfsPassword (by decide)) (by decide +kernel)

end Sample

end Vpn1.Admin
