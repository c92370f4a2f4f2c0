import Mathlib.Logic.Function.Basic
import Vpn1.Lib.Traced
import Vpn1.Compat.Store

/-! The files whose shape is versioned, how they are replaced, and the user store: detecting,
parsing, saving and migrating it, for any contents and any reader of them. -/

namespace Vpn1.Compat

open Traced

inductive Location
  | deploymentToml
  | usersJson (stateDir : String)
  deriving DecidableEq, Repr

def DeploymentConfig.usersFile (cfg : DeploymentConfig) : Location := .usersJson cfg.stateDir

inductive StatePath
  | live (f : Location)
  | tmp (f : Location) (pid : Nat)
  | preMigration (f : Location) (time : Nat)
  deriving DecidableEq, Repr

/-- The contents of every file, over a type `β` of byte strings. -/
def Disk (β : Type) : Type := StatePath → Option β

/-- UTF-8 and TOML as given functions, next to serde_json. -/
structure Formats (β : Type) extends UserFormats β where
  text : β → Option String
  ofText : String → β
  text_ofText : ∀ s, text (ofText s) = some s
  toml : String → Option DeploymentConfig

attribute [simp] Formats.text_ofText

/-- Opening, filling and syncing a file; a cut write leaves other bytes behind. -/
inductive WriteOutcome (β : Type)
  | done
  | notOpened
  | cut (left : β)
  | notSynced

variable {β : Type}

namespace Disk

def live (d : Disk β) : Location → Option β := fun f => d (.live f)

def put (d : Disk β) (p : StatePath) (c : Option β) : Disk β := fun q => if q = p then c else d q

private theorem put_self (d : Disk β) (p : StatePath) : d.put p (d p) = d := by
  funext q
  by_cases hq : q = p
  · simp [put, hq]
  · simp [put, hq]

@[simp] theorem put_same (d : Disk β) (p : StatePath) (c : Option β) : (d.put p c) p = c := by
  simp [put]

@[simp] theorem live_put_live (d : Disk β) (f : Location) (c : Option β) :
    (d.put (.live f) c).live = Function.update d.live f c := by
  funext g
  by_cases hg : g = f
  · simp [put, live, hg]
  · simp [put, live, hg]

@[simp] theorem live_put_tmp (d : Disk β) (f : Location) (pid : Nat) (c : Option β) :
    (d.put (.tmp f pid) c).live = d.live := by
  funext g
  simp [put, live]

@[simp] theorem live_put_preMigration (d : Disk β) (f : Location) (time : Nat) (c : Option β) :
    (d.put (.preMigration f time) c).live = d.live := by
  funext g
  simp [put, live]

end Disk

section Writing

def readFile (f : Location) (ok : Bool) : Prog (Disk β) Unit CompatError β := do
  match ← Prog.look (fun d => d.live f) with
  | none => Prog.fail .io
  | some bytes =>
    Prog.ensure ok .io
    return bytes

def writeFileMode (p : StatePath) (bytes : β) :
    WriteOutcome β → Prog (Disk β) Unit CompatError Unit
  | .notOpened => Prog.fail .io
  | .cut left => do
    Prog.move () (Disk.put · p (some left))
    Prog.fail .io
  | .notSynced => do
    Prog.move () (Disk.put · p (some bytes))
    Prog.fail .io
  | .done => Prog.move () (Disk.put · p (some bytes))

/-- Filling the temporary sibling of a file and renaming it over the file. -/
structure ReplaceAnswers (β : Type) where
  pid : Nat
  createDir : Bool
  write : WriteOutcome β
  ownership : Bool
  rename : Bool

structure ReplaceAnswers.Clear (a : ReplaceAnswers β) : Prop where
  createDir : a.createDir = true
  write : a.write = .done
  ownership : a.ownership = true
  rename : a.rename = true

/-- Write the temporary sibling, give it the owner of the file, rename it over the file. -/
def replaceFile (f : Location) (bytes : β) (a : ReplaceAnswers β) :
    Prog (Disk β) Unit CompatError Unit := do
  writeFileMode (.tmp f a.pid) bytes a.write
  Prog.ensure a.ownership .io
  Prog.ensure a.rename .io
  Prog.move () fun d => (d.put (.live f) (d (.tmp f a.pid))).put (.tmp f a.pid) none

def atomicWrite (f : Location) (bytes : β) (a : ReplaceAnswers β) :
    Prog (Disk β) Unit CompatError Unit := do
  Prog.ensure a.createDir .io
  replaceFile f bytes a

structure BackupOutcome (β : Type) where
  time : Nat
  read : Bool
  write : WriteOutcome β

def backupBeforeMutate (f : Location) (a : BackupOutcome β) :
    Prog (Disk β) Unit CompatError StatePath := do
  let bytes ← readFile f a.read
  writeFileMode (.preMigration f a.time) bytes a.write
  return .preMigration f a.time

variable {d : Disk β} {G : Unit → Disk β → Prop}

theorem wp_readFile {f : Location} {ok : Bool} {Q : Except CompatError β → Disk β → Prop}
    (hok : ∀ bytes, d.live f = some bytes → ok = true → Q (.ok bytes) d)
    (herr : Q (.error .io) d) : Wp (readFile f ok) d G Q := by
  unfold readFile
  rw [wp_bind, wp_look]
  cases hf : d.live f with
  | none => exact wp_fail.mpr herr
  | some bytes =>
    cases ok with
    | false => simpa using herr
    | true => simpa using hok bytes hf rfl

/-- A write to a sibling leaves the live files alone, and succeeds with its bytes in place. -/
theorem wp_writeFileMode {p : StatePath} {bytes : β} {a : WriteOutcome β}
    {Q : Except CompatError Unit → Disk β → Prop} (hG : ∀ c, G () (d.put p c))
    (hok : Q (.ok ()) (d.put p (some bytes))) (herr : ∀ c, Q (.error .io) (d.put p c)) :
    Wp (writeFileMode p bytes a) d G Q := by
  have hself := d.put_self p
  cases a with
  | notOpened => simpa [writeFileMode, hself] using herr (d p)
  | cut left => simpa [writeFileMode, hG] using herr _
  | notSynced => simpa [writeFileMode, hG] using herr _
  | done => simpa [writeFileMode, hG] using hok

/-- The live files once `f` has been replaced, or as they were if that failed. -/
def Disk.replaced (d : Disk β) (f : Location) (bytes : β) :
    Except CompatError Unit → Location → Option β
  | .ok _ => Function.update d.live f (some bytes)
  | .error _ => d.live

theorem replaceFile_wp (f : Location) (bytes : β) (a : ReplaceAnswers β) (d : Disk β) :
    Wp (replaceFile f bytes a) d
      (fun _ t => t.live = d.live ∨ t.live = Function.update d.live f (some bytes))
      fun r t => t.live = d.replaced f bytes r := by
  unfold replaceFile
  rw [wp_bind]
  refine wp_writeFileMode (fun c => .inl (by simp)) ?_ fun c => by simp [Disk.replaced]
  dsimp only
  refine wp_ensure_bind (fun _ => by simp [Disk.replaced]) fun _ => ?_
  refine wp_ensure_bind (fun _ => by simp [Disk.replaced]) fun _ => ?_
  rw [wp_move, Disk.put_same]
  constructor
  · exact .inr (by simp)
  · simp [Disk.replaced]

private theorem replaceFile_ok {a : ReplaceAnswers β} (ha : a.Clear) (f : Location) (bytes : β)
    (d : Disk β) : (replaceFile f bytes a d).result = .ok () := by
  have hrun : Wp (replaceFile f bytes a) d (fun _ _ => True) fun r _ => r = .ok () := by
    simp [replaceFile, ha.write, ha.ownership, ha.rename, writeFileMode]
  exact hrun.2

theorem atomicWrite_wp (f : Location) (bytes : β) (a : ReplaceAnswers β) (d : Disk β) :
    Wp (atomicWrite f bytes a) d
      (fun _ t => t.live = d.live ∨ t.live = Function.update d.live f (some bytes))
      fun r t => t.live = d.replaced f bytes r := by
  unfold atomicWrite
  exact wp_ensure_bind (fun _ => rfl) fun _ => replaceFile_wp f bytes a d

theorem backupBeforeMutate_wp (f : Location) (a : BackupOutcome β) (d : Disk β) :
    Wp (backupBeforeMutate f a) d (fun _ t => t.live = d.live) fun _ t => t.live = d.live := by
  unfold backupBeforeMutate
  rw [wp_bind]
  refine wp_readFile (fun bytes _ _ => ?_) rfl
  dsimp only
  rw [wp_bind]
  exact wp_writeFileMode (fun c => by simp) (by simp) fun c => by simp

end Writing

/-- `UsersMigrationOutcome` and `DeploymentMigrationOutcome`. -/
inductive MigrationOutcome
  | missing
  | alreadyCurrent
  | migrated (backup : StatePath)
  deriving DecidableEq, Repr

structure MigrateAnswers (β : Type) where
  /-- The read of `detect_users_schema`; migrating `deployment.toml` makes no such read. -/
  detect : Bool
  read : Bool
  backup : BackupOutcome β
  replace : ReplaceAnswers β

structure MigrateAnswers.Clear (a : MigrateAnswers β) : Prop where
  detect : a.detect = true
  read : a.read = true
  readAgain : a.backup.read = true
  backup : a.backup.write = .done
  replace : a.replace.Clear

def MigrateAnswers.allDone : MigrateAnswers β where
  detect := true
  read := true
  backup := ⟨0, true, .done⟩
  replace := ⟨0, true, .done, true, true⟩

theorem MigrateAnswers.clear_allDone : (allDone : MigrateAnswers β).Clear :=
  ⟨rfl, rfl, rfl, rfl, rfl, rfl, rfl, rfl⟩

namespace Formats

open UserFormats

variable (fmt : Formats β) (rel : Release)

section UserStore

def saveUsersAtomic (f : Location) (users : List CompatUser) (chmodDir : Bool)
    (a : ReplaceAnswers β) : Prog (Disk β) Unit CompatError Unit := do
  Prog.ensure a.createDir .io
  Prog.ensure chmodDir .io
  replaceFile f (fmt.encodeUsers ⟨rel.users, users⟩) a

def migratedUsers (bytes : β) : Except CompatError β := do
  let some legacy := fmt.legacyUsers bytes | throw .parse
  let json := fmt.encodeUsers ⟨rel.users, legacy⟩
  let some reparsed := fmt.usersFile json | throw .parse
  if reparsed.schemaVersion ≠ rel.users ∨ reparsed.users.length ≠ legacy.length then throw .parse
  return json

def migrateUsers (f : Location) (a : MigrateAnswers β) :
    Prog (Disk β) Unit CompatError MigrationOutcome := do
  match fmt.detectUsersSchema rel (← Prog.look fun d => d.live f) a.detect with
  | .missing => return .missing
  | .current => return .alreadyCurrent
  | .future found => Prog.fail (.unsupportedSchema .usersJson found rel.users)
  | .corrupted => Prog.fail .parse
  | .legacy =>
    let bytes ← readFile f a.read
    let json ← Prog.lift (fmt.migratedUsers rel bytes)
    let backup ← backupBeforeMutate f a.backup
    atomicWrite f json a.replace
    return .migrated backup

end UserStore

section UserStoreLaws

variable {fmt rel}

theorem migratedUsers_ok {bytes : β} {legacy : List CompatUser}
    (h : fmt.legacyUsers bytes = some legacy) :
    fmt.migratedUsers rel bytes = .ok (fmt.encodeUsers ⟨rel.users, legacy⟩) := by
  simp [migratedUsers, h, pure, Except.pure]

theorem saveUsersAtomic_wp (f : Location) (users : List CompatUser) (chmodDir : Bool)
    (a : ReplaceAnswers β) (d : Disk β) :
    Wp (fmt.saveUsersAtomic rel f users chmodDir a) d (fun _ _ => True) fun r t =>
      t.live = d.replaced f (fmt.encodeUsers ⟨rel.users, users⟩) r := by
  unfold saveUsersAtomic
  refine wp_ensure_bind (fun _ => rfl) fun _ => ?_
  refine wp_ensure_bind (fun _ => rfl) fun _ => ?_
  exact (replaceFile_wp f _ a d).mono (fun _ _ _ => trivial) fun _ _ ht => ht

variable (fmt rel) in
/-- How a migration of the store can end. -/
inductive UsersMigration (f : Location) (d : Disk β) :
    Except CompatError MigrationOutcome → Disk β → Prop
  | missing (hf : d.live f = none) : UsersMigration f d (.ok .missing) d
  | alreadyCurrent {bytes : β} (hf : d.live f = some bytes)
      (hcurrent : fmt.detectUsersBytes rel bytes = .current) :
      UsersMigration f d (.ok .alreadyCurrent) d
  | migrated {bytes : β} {legacy : List CompatUser} {backup : StatePath} {t : Disk β}
      (hf : d.live f = some bytes) (hlegacy : fmt.detectUsersBytes rel bytes = .legacy)
      (hparse : fmt.parseUsersBytes rel bytes = .ok legacy)
      (ht : t.live = Function.update d.live f (some (fmt.encodeUsers ⟨rel.users, legacy⟩))) :
      UsersMigration f d (.ok (.migrated backup)) t
  | failed {e : CompatError} {t : Disk β} (ht : t.live = d.live) : UsersMigration f d (.error e) t

theorem migrateUsers_wp (f : Location) (a : MigrateAnswers β) (d : Disk β) :
    Wp (fmt.migrateUsers rel f a) d (fun _ _ => True) (UsersMigration fmt rel f d) := by
  unfold migrateUsers
  rw [wp_bind, wp_look]
  cases hf : d.live f with
  | none => exact wp_pure.mpr (.missing hf)
  | some bytes =>
    simp only [detectUsersSchema]
    cases a.detect with
    | false => exact wp_fail.mpr (.failed rfl)
    | true =>
      rw [if_pos rfl]
      cases hdetect : fmt.detectUsersBytes rel bytes with
      | missing => exact absurd hdetect detectUsersBytes_ne_missing
      | current => exact wp_pure.mpr (.alreadyCurrent hf hdetect)
      | future found => exact wp_fail.mpr (.failed rfl)
      | corrupted => exact wp_fail.mpr (.failed rfl)
      | legacy =>
        obtain ⟨legacy, hlegacy, hparse⟩ := legacy_of_detect hdetect
        dsimp only
        rw [wp_bind]
        refine wp_readFile (fun read hread _ => ?_) (.failed rfl)
        obtain rfl : bytes = read := Option.some.inj (hf.symm.trans hread)
        dsimp only
        rw [wp_bind, wp_lift, migratedUsers_ok hlegacy]
        dsimp only
        rw [wp_bind]
        refine (backupBeforeMutate_wp f a.backup d).mono (fun _ _ _ => trivial) fun r t ht => ?_
        cases r with
        | error e => exact .failed ht
        | ok backup =>
          dsimp only
          rw [wp_bind]
          refine (atomicWrite_wp f _ a.replace t).mono (fun _ _ _ => trivial) fun r u hu => ?_
          cases r with
          | error e => exact .failed (hu.trans ht)
          | ok _ =>
            rw [Disk.replaced, ht] at hu
            exact wp_pure.mpr (.migrated hf hdetect hparse hu)

/-- A store that is absent or current is left alone, siblings and all. -/
theorem migrateUsers_settled {f : Location} {d : Disk β}
    (h : ∀ bytes, d.live f = some bytes → fmt.detectUsersBytes rel bytes = .current)
    (a : MigrateAnswers β) : (fmt.migrateUsers rel f a d).final = d := by
  have hrun : Wp (fmt.migrateUsers rel f a) d (fun _ _ => True) fun _ t => t = d := by
    unfold migrateUsers
    rw [wp_bind, wp_look]
    cases hf : d.live f with
    | none => exact wp_pure.mpr rfl
    | some bytes =>
      simp only [detectUsersSchema, h bytes hf]
      split_ifs
      · exact wp_pure.mpr rfl
      · exact wp_fail.mpr rfl
  exact hrun.2

/-- Nothing but a failing step keeps a store that loads from being migrated. -/
theorem migrateUsers_ok {f : Location} {d : Disk β} {a : MigrateAnswers β} (ha : a.Clear)
    (h : (fmt.loadUsers rel (d.live f) true).isOk = true) :
    ∃ outcome, (fmt.migrateUsers rel f a d).result = .ok outcome := by
  have hrun : Wp (fmt.migrateUsers rel f a) d (fun _ _ => True) fun r _ =>
      ∃ outcome, r = .ok outcome := by
    unfold migrateUsers
    rw [wp_bind, wp_look]
    cases hf : d.live f with
    | none => exact wp_pure.mpr ⟨_, rfl⟩
    | some bytes =>
      have hparse : (fmt.parseUsersBytes rel bytes).isOk = true := by simpa [loadUsers, hf] using h
      rcases detect_current_or_legacy_iff.mp hparse with hlegacy | hcurrent
      · obtain ⟨legacy, hread, _⟩ := legacy_of_detect hlegacy
        simp [detectUsersSchema, hlegacy, readFile, hf, migratedUsers_ok hread, backupBeforeMutate,
          writeFileMode, atomicWrite, replaceFile, ha.detect, ha.read, ha.readAgain, ha.backup,
          ha.replace.createDir, ha.replace.write, ha.replace.ownership, ha.replace.rename]
      · simp [detectUsersSchema, hcurrent, ha.detect]
  exact hrun.2

private theorem saveUsersAtomic_ok {a : ReplaceAnswers β} (ha : a.Clear) (f : Location)
    (users : List CompatUser) (d : Disk β) :
    (fmt.saveUsersAtomic rel f users true a d).result = .ok () := by
  have hrun : Wp (fmt.saveUsersAtomic rel f users true a) d (fun _ _ => True)
      fun r _ => r = .ok () := by
    unfold saveUsersAtomic
    refine wp_ensure_bind (fun hno => ?_) fun _ => wp_ensure_bind (fun hno => ?_) fun _ => ?_
    · rw [ha.createDir] at hno
      cases hno
    · cases hno
    · exact ⟨fun _ _ => trivial, replaceFile_ok ha f _ d⟩
  exact hrun.2

variable (fmt rel) in
/-- What one migration of the store must not change, and what it must bring about. -/
structure StoreKept (f : Location) (d : Disk β) (a : MigrateAnswers β)
    (run : Run (Disk β) Unit (Except CompatError MigrationOutcome)) : Prop where
  succeeds : a.Clear → (fmt.loadUsers rel (d.live f) true).isOk = true → run.result.isOk = true
  users : fmt.loadUsers rel (run.final.live f) true = fmt.loadUsers rel (d.live f) true
  current : run.result.isOk = true → d.live f ≠ none →
    fmt.detectUsersSchema rel (run.final.live f) true = .current
  again : run.result.isOk = true → ∀ a, (fmt.migrateUsers rel f a run.final).final = run.final
  failed : run.result.isOk = false → run.final.live = d.live

variable (fmt rel) in
/-- What one save of `users` must bring about: it succeeds unless a step fails, and then the list is
what is loaded. -/
structure StoreSaved (f : Location) (d : Disk β) (users : List CompatUser) (chmodDir : Bool)
    (a : ReplaceAnswers β) (run : Run (Disk β) Unit (Except CompatError Unit)) : Prop where
  succeeds : a.Clear → chmodDir = true → run.result = .ok ()
  users : run.result = .ok () → fmt.loadUsers rel (run.final.live f) true = .ok users
  current : run.result = .ok () → fmt.detectUsersSchema rel (run.final.live f) true = .current
  failed : run.result ≠ .ok () → run.final.live = d.live

private theorem saveUsersAtomic_saved (f : Location) (d : Disk β) (users : List CompatUser)
    (chmodDir : Bool) (a : ReplaceAnswers β) :
    StoreSaved fmt rel f d users chmodDir a (fmt.saveUsersAtomic rel f users chmodDir a d) := by
  have hlive : (fmt.saveUsersAtomic rel f users chmodDir a d).final.live =
      d.replaced f (fmt.encodeUsers ⟨rel.users, users⟩)
        (fmt.saveUsersAtomic rel f users chmodDir a d).result :=
    (saveUsersAtomic_wp f users chmodDir a d).2
  have hf (hok : (fmt.saveUsersAtomic rel f users chmodDir a d).result = .ok ()) :
      (fmt.saveUsersAtomic rel f users chmodDir a d).final.live f =
        some (fmt.encodeUsers ⟨rel.users, users⟩) := by
    rw [hlive, hok]
    simp [Disk.replaced]
  constructor
  · rintro ha rfl
    exact saveUsersAtomic_ok ha f users d
  · intro hok
    rw [hf hok]
    exact parse_encodeUsers users
  · intro hok
    rw [hf hok]
    exact detect_encodeUsers users
  · intro hfail
    cases hresult : (fmt.saveUsersAtomic rel f users chmodDir a d).result with
    | ok _ => exact absurd hresult hfail
    | error e => rw [hlive, hresult, Disk.replaced]

/-- A successful migration leaves no store, or one that is current. -/
theorem UsersMigration.settled {f : Location} {d t : Disk β} {outcome : MigrationOutcome}
    (h : UsersMigration fmt rel f d (.ok outcome) t) {bytes : β} (hb : t.live f = some bytes) :
    fmt.detectUsersBytes rel bytes = .current := by
  cases h with
  | missing hf =>
    rw [hf] at hb
    cases hb
  | @alreadyCurrent bytes' hf hcurrent =>
    obtain rfl : bytes' = bytes := Option.some.inj (hf.symm.trans hb)
    exact hcurrent
  | @migrated _ legacy _ _ hf hlegacy hparse ht =>
    rw [ht, Function.update_self] at hb
    obtain rfl := Option.some.inj hb
    exact detect_encodeUsers legacy

theorem UsersMigration.live_of_ne {f g : Location} {d t : Disk β}
    {r : Except CompatError MigrationOutcome} (h : UsersMigration fmt rel f d r t) (hg : g ≠ f) :
    t.live g = d.live g := by
  cases h with
  | missing | alreadyCurrent => rfl
  | migrated hf hlegacy hparse ht => simp [ht, hg]
  | failed ht => rw [ht]

/-- No migration changes the list that is loaded. -/
theorem UsersMigration.loadUsers_eq {f : Location} {d t : Disk β}
    {r : Except CompatError MigrationOutcome} (h : UsersMigration fmt rel f d r t) :
    fmt.loadUsers rel (t.live f) true = fmt.loadUsers rel (d.live f) true := by
  cases h with
  | missing | alreadyCurrent => rfl
  | migrated hf hlegacy hparse ht => simp [loadUsers, ht, hf, hparse, parse_encodeUsers]
  | failed ht => rw [ht]

/-- A store whose migration succeeded was absent or could be loaded. -/
theorem UsersMigration.isOk_loadUsers {f : Location} {d t : Disk β} {outcome : MigrationOutcome}
    (h : UsersMigration fmt rel f d (.ok outcome) t) :
    (fmt.loadUsers rel (d.live f) true).isOk = true := by
  cases h with
  | missing hf => simp [loadUsers, hf]
  | @alreadyCurrent bytes hf hcurrent =>
    simpa [loadUsers, hf] using detect_current_or_legacy_iff.mpr (.inr hcurrent)
  | migrated hf hlegacy hparse ht => simp [loadUsers, hf, hparse]

theorem UsersMigration.storeKept {f : Location} {d : Disk β} {a : MigrateAnswers β}
    {run : Run (Disk β) Unit (Except CompatError MigrationOutcome)}
    (h : UsersMigration fmt rel f d run.result run.final)
    (hsucceeds : a.Clear → (fmt.loadUsers rel (d.live f) true).isOk = true →
      run.result.isOk = true) : StoreKept fmt rel f d a run := by
  obtain ⟨result, final, trail⟩ := run
  refine ⟨hsucceeds, h.loadUsers_eq, fun hok hne => ?_, fun hok a => ?_, fun hfail => ?_⟩
  · cases result with
    | error e => simp at hok
    | ok outcome =>
      cases hlive : final.live f with
      | some bytes => simpa [detectUsersSchema, hlive] using h.settled hlive
      | none =>
        -- only a store that was absent before is absent now
        cases h with
        | missing hf => exact absurd hf hne
        | alreadyCurrent hf hcurrent => exact absurd hlive hne
        | migrated hf hlegacy hparse ht => simp [ht] at hlive
  · cases result with
    | error e => simp at hok
    | ok outcome => exact migrateUsers_settled (fun bytes hb => h.settled hb) a
  · cases h with
    | missing | alreadyCurrent | migrated => simp at hfail
    | failed ht => exact ht

/-- Detecting, parsing, saving and migrating agree about every store. -/
theorem userStore_entryPoints_agree (fmt : Formats β) (rel : Release) (f : Location) :
    (∀ bytes, ((fmt.parseUsersBytes rel bytes).isOk = true ↔
          fmt.detectUsersBytes rel bytes = .legacy ∨ fmt.detectUsersBytes rel bytes = .current) ∧
        ∀ n, fmt.parseUsersBytes rel bytes = .error (.unsupportedSchema .usersJson n rel.users) ↔
          fmt.detectUsersBytes rel bytes = .future n) ∧
      (∀ d users chmodDir a, StoreSaved fmt rel f d users chmodDir a
        (fmt.saveUsersAtomic rel f users chmodDir a d)) ∧
      ∀ d a, StoreKept fmt rel f d a (fmt.migrateUsers rel f a d) := by
  refine ⟨fun _ => ⟨detect_current_or_legacy_iff, fun _ => detect_future_iff⟩,
    fun d users chmodDir a => saveUsersAtomic_saved f d users chmodDir a, fun d a => ?_⟩
  apply (migrateUsers_wp f a d).2.storeKept
  intro ha hload
  obtain ⟨outcome, hok⟩ := migrateUsers_ok ha hload
  rw [hok]
  rfl

end UserStoreLaws

end Formats

end Vpn1.Compat
