import Mathlib.Data.List.Infix
import Vpn1.Deploy.Ownership
import Vpn1.Lib.Sessions

/-! Files that `install.sh` puts at fixed system paths and `uninstall.sh` gives back, by the facts in
the ownership manifest and a backup of what was there before. -/

namespace Vpn1.Deploy.FixedPaths

open Traced Session

/-- The fixed paths that are installed with a record of their owner. -/
inductive FixedPath
  -- `/etc/systemd/system/sing-box.service`
  | singBoxUnit
  -- `/etc/systemd/system/vpn-subscription.service`
  | vpnSubscriptionUnit
  -- `/etc/systemd/system/vpn-expiry-reconcile.service` and its timer
  | expiryReconcileService
  | expiryReconcileTimer
  -- `/etc/letsencrypt/renewal-hooks/deploy/vpn1-hysteria.sh`
  | certbotHook
  deriving DecidableEq, Repr

def FixedPath.key : FixedPath → String
  | .singBoxUnit => "SINGBOX_UNIT"
  | .vpnSubscriptionUnit => "VPNSUB_UNIT"
  | .expiryReconcileService => "EXPIRY_SVC_UNIT"
  | .expiryReconcileTimer => "EXPIRY_TIMER_UNIT"
  | .certbotHook => "CERTBOT_HOOK"

/-- The order in which both scripts go through them. -/
def fixedPaths : List FixedPath :=
  [.singBoxUnit, .vpnSubscriptionUnit, .expiryReconcileService, .expiryReconcileTimer, .certbotHook]

section Ownership

/-- The keys `FIXEDPATH_<key>_…` of one path. -/
inductive Fact
  | preExisted
  | backup
  | backedUp
  deriving DecidableEq, Repr

abbrev Facts := Fact → Option String

/-- The last write wins. A new manifest replaces the old one in one step. -/
def ownershipSet (key : Fact) (value : String) (facts : Facts) : Facts :=
  Function.update facts key (some value)

/-- An empty value counts as none. -/
def ownershipGet (facts : Facts) (key : Fact) (default : String) : String :=
  match facts key with
  | some value => if value = "" then default else value
  | none => default

def ownershipMark (key : Fact) : Facts → Facts := ownershipSet key "1"

def ownershipSetBaselineOnce (key : Fact) (value : String) (facts : Facts) : Facts :=
  if (facts key).isSome then facts else ownershipSet key value facts

/-- An absolute path, not the root, without a `..` component. -/
def ownershipPathIsSafe (path : String) : Bool :=
  path != "" && path != "/" && path.toList.head? == some '/' &&
    !decide ("/../".toList <:+: '/' :: path.toList ++ ['/'])

def backupFile (key : String) : String := "/var/lib/vpn1/preexisting-backups/" ++ key

end Ownership

section Scripts

variable {α : Type}

inductive Stored (α : Type)
  | whole (content : α)
  | torn
  deriving DecidableEq

/-- All that is on disk about one fixed path: the file, its facts and its backup. -/
structure Slot (α : Type) where
  path : Option (Stored α)
  facts : Facts
  backup : Option (Stored α)

def record (write : Facts → Facts) : Session (Slot α) Unit :=
  step fun s => { s with facts := write s.facts }

/-- `cp -a` of the file, and the two facts about it. -/
def backUp (key : String) : Session (Slot α) Unit := do
  step fun s => { s with backup := some .torn }
  step fun s => { s with backup := s.path }
  record (ownershipSet .backup (backupFile key))
  record (ownershipMark .backedUp)

def recordOrigin (key : String) : Session (Slot α) Unit := do
  let s ← Prog.look id
  if s.path.isSome then
    record (ownershipSetBaselineOnce .preExisted "1")
    if ownershipGet s.facts .backedUp "0" ≠ "1" then backUp key else pure ()
  else record (ownershipSetBaselineOnce .preExisted "0")

/-- `install` unlinks its target, creates it anew and fills it. -/
def installFile (src : α) : Session (Slot α) Unit := do
  step fun s => { s with path := none }
  step fun s => { s with path := some .torn }
  step fun s => { s with path := some (.whole src) }

def installFixedPathWithOwnership (key : String) (src : α) : Session (Slot α) Unit := do
  recordOrigin key
  installFile src

def Slot.hasBackup (key : String) (s : Slot α) : Bool :=
  let backup := ownershipGet s.facts .backup ""
  backup != "" && ownershipPathIsSafe backup && (backup == backupFile key && s.backup.isSome)

def restoreOrRemoveFixedPath (key : String) : Session (Slot α) Unit := do
  let s ← Prog.look id
  if s.path.isNone then pure ()
  else if ownershipGet s.facts .preExisted "" = "0" then
    step fun s => { s with path := none }
  else if ownershipGet s.facts .preExisted "" = "1" then
    if s.hasBackup key then
      step fun s => { s with path := some .torn }
      step fun s => { s with path := s.backup }
      step fun s => { s with backup := none }
    else pure ()
  else pure ()

abbrev FixedHost (α : Type) := FixedPath → Slot α

/-- Without certbot the hook is left out, as in a run that ends before it. -/
def install (src : FixedPath → α) : Session (FixedHost α) Unit :=
  Prog.forEach (fun f => Prog.focus f (installFixedPathWithOwnership f.key (src f))) fixedPaths

/-- What `rm -rf` of the state directory removes one by one. -/
inductive StateEntry
  | manifest
  | backup (f : FixedPath)
  deriving DecidableEq, Repr

def removeEntry : StateEntry → FixedHost α → FixedHost α
  | .manifest, h => fun f => { h f with facts := fun _ => none }
  | .backup g, h => Function.update h g { h g with backup := none }

/-- The entries go in the order of the directory; in the end nothing is left. -/
def removeState (order : List StateEntry) : Session (FixedHost α) Unit := do
  Prog.forEach (fun entry => step (removeEntry entry)) order
  step fun h f => { h f with facts := fun _ => none, backup := none }

def uninstall (order : List StateEntry) : Session (FixedHost α) Unit := do
  Prog.forEach (fun f => Prog.focus f (restoreOrRemoveFixedPath f.key)) fixedPaths
  removeState order

end Scripts

section Facts

variable {facts : Facts} {k : Fact} {value : String}

theorem ownershipGet_eq_iff {default : String} (hvalue : value ≠ "") (hdefault : default ≠ value) :
    ownershipGet facts k default = value ↔ facts k = some value := by
  unfold ownershipGet
  cases facts k with
  | none => simp [hdefault]
  | some found =>
    by_cases hempty : found = ""
    · simp [hempty, hdefault, hvalue.symm]
    · simp [hempty]

theorem ownershipSet_of_ne {k' : Fact} (h : k' ≠ k) : ownershipSet k value facts k' = facts k' :=
  Function.update_of_ne h ..

theorem ownershipSetBaselineOnce_of_some {old : String} (h : facts k = some old) :
    ownershipSetBaselineOnce k value facts = facts := by
  rw [ownershipSetBaselineOnce, if_pos (by simp [h])]

theorem ownershipSetBaselineOnce_of_none (h : facts k = none) :
    ownershipSetBaselineOnce k value facts = ownershipSet k value facts := by
  rw [ownershipSetBaselineOnce, if_neg (by simp [h])]

private theorem backupFile_valid (f : FixedPath) :
    (backupFile f.key != "" && ownershipPathIsSafe (backupFile f.key)) = true := by
  cases f <;> decide

end Facts

section Invariant

variable {α : Type} {key : String} {a : α} {s : Slot α}

structure KeptFile (key : String) (a : α) (s : Slot α) : Prop where
  origin : s.facts .preExisted = none ∨ s.facts .preExisted = some "1"
  named : s.facts .backup = none ∨
    s.facts .backup = some (backupFile key) ∧ s.facts .preExisted = some "1"
  marked : s.facts .backedUp = none ∨ s.facts .backedUp = some "1" ∧
    s.facts .backup = some (backupFile key) ∧ s.backup ≠ some .torn
  copy : s.backup = none ∨ s.backup = some .torn ∨ s.backup = some (.whole a)
  found : s.path = some (.whole a) ∨
    s.facts .backup = some (backupFile key) ∧ s.backup = some (.whole a)
  unmarked : s.facts .backedUp = none → s.path = some (.whole a) ∨ s.path = some .torn

/-- A path that was not there is empty or known to be vpn1's own. -/
structure KeptAbsent (s : Slot α) : Prop where
  origin : s.facts .preExisted = none ∨ s.facts .preExisted = some "0"
  own : s.path = none ∨ s.facts .preExisted = some "0"

def Kept (key : String) : Option α → Slot α → Prop
  | some a, s => KeptFile key a s
  | none, s => KeptAbsent s

/-- An installer that finds the file of another owner can rely on the backup that is marked, or make
one of a whole file. -/
def BackupKept (s : Slot α) : Prop :=
  s.facts .preExisted = some "1" → s.path.isSome →
    if s.facts .backedUp = some "1" then s.backup.isSome else s.path ≠ some .torn

/-- An uninstaller finds a file that was there before in its place, and no half backup of it. -/
def Restorable (s : Slot α) : Prop :=
  s.facts .preExisted = some "1" →
    s.path.isSome ∧ (s.facts .backup ≠ none → s.backup ≠ some .torn)

theorem KeptFile.put_path (hs : KeptFile key a s) (hname : s.facts .backup = some (backupFile key))
    (hcopy : s.backup = some (.whole a)) (hmark : s.facts .backedUp = some "1")
    (content : Option (Stored α)) : KeptFile key a { s with path := content } where
  origin := hs.origin
  named := hs.named
  marked := hs.marked
  copy := hs.copy
  found := .inr ⟨hname, hcopy⟩
  unmarked h := by
    rw [hmark] at h
    cases h

private theorem installFile_file (src : α) (hs : KeptFile key a s)
    (hname : s.facts .backup = some (backupFile key)) (hcopy : s.backup = some (.whole a))
    (hmark : s.facts .backedUp = some "1") :
    Wp (installFile src) s (fun _ => KeptFile key a) (fun r t => r = .ok () ∧ KeptFile key a t) := by
  unfold installFile step
  simp only [wp_bind, wp_move, true_and]
  exact ⟨hs.put_path hname hcopy hmark _, hs.put_path hname hcopy hmark _,
    hs.put_path hname hcopy hmark _, hs.put_path hname hcopy hmark _⟩

/-- With the whole file in its place, and no backup marked, the backup may be in the making. -/
theorem KeptFile.put_backup (hs : KeptFile key a s) (hpath : s.path = some (.whole a))
    (hmark : s.facts .backedUp = none) {content : Option (Stored α)}
    (hcontent : content = some .torn ∨ content = some (.whole a)) :
    KeptFile key a { s with backup := content } where
  origin := hs.origin
  named := hs.named
  marked := .inl hmark
  copy := .inr hcontent
  found := .inl hpath
  unmarked _ := .inl hpath

private theorem backUp_file (hs : KeptFile key a s) (hpath : s.path = some (.whole a))
    (horigin : s.facts .preExisted = some "1") (hmark : s.facts .backedUp = none) :
    Wp (backUp key) s (fun _ => KeptFile key a) (fun r t => r = .ok () ∧ KeptFile key a t ∧
      t.facts .backup = some (backupFile key) ∧ t.backup = some (.whole a) ∧
      t.facts .backedUp = some "1") := by
  have hcopied := hs.put_backup hpath hmark (.inr hpath)
  have hnamed : KeptFile key a { s with
      backup := s.path
      facts := ownershipSet .backup (backupFile key) s.facts } := {
    origin := hs.origin
    named := .inr ⟨rfl, horigin⟩
    marked := .inl hmark
    copy := hcopied.copy
    found := .inl hpath
    unmarked := fun _ => .inl hpath }
  have hmarked : KeptFile key a { s with
      backup := s.path
      facts := ownershipMark .backedUp (ownershipSet .backup (backupFile key) s.facts) } := {
    origin := hs.origin
    named := .inr ⟨rfl, horigin⟩
    marked := .inr ⟨rfl, rfl, by simp [hpath]⟩
    copy := hcopied.copy
    found := .inl hpath
    unmarked := fun _ => .inl hpath }
  unfold backUp record step
  simp only [wp_bind, wp_move, true_and]
  exact ⟨hs.put_backup hpath hmark (.inl rfl), hcopied, hnamed, hmarked, hmarked, rfl, hpath, rfl⟩

/-- Finding a file does not change what is known of its origin. -/
theorem KeptFile.baseline (hs : KeptFile key a s) :
    KeptFile key a { s with facts := ownershipSetBaselineOnce .preExisted "1" s.facts } ∧
      ownershipSetBaselineOnce .preExisted "1" s.facts .preExisted = some "1" := by
  rcases hs.origin with hnone | hone
  · rw [ownershipSetBaselineOnce_of_none hnone]
    have hunnamed : s.facts .backup = none := by
      rcases hs.named with h | ⟨-, h⟩
      · exact h
      · rw [hnone] at h
        cases h
    exact ⟨⟨.inr rfl, .inl hunnamed, hs.marked, hs.copy, hs.found, hs.unmarked⟩, rfl⟩
  · rw [ownershipSetBaselineOnce_of_some hone]
    exact ⟨hs, hone⟩

theorem KeptFile.origin_of_named (hs : KeptFile key a s) (h : s.facts .backup ≠ none) :
    s.facts .preExisted = some "1" := by
  rcases hs.named with hnone | ⟨-, hone⟩
  · exact absurd hnone h
  · exact hone

theorem KeptFile.backup_of_marked (hs : KeptFile key a s) (hmark : s.facts .backedUp ≠ none)
    (hthere : s.backup.isSome) : s.facts .backup = some (backupFile key) ∧
      s.backup = some (.whole a) ∧ s.facts .backedUp = some "1" := by
  rcases hs.marked with hnone | ⟨hone, hname, hwhole⟩
  · exact absurd hnone hmark
  refine ⟨hname, ?_, hone⟩
  rcases hs.copy with hnone | htorn | hcopy
  · simp [hnone] at hthere
  · exact absurd htorn hwhole
  · exact hcopy

theorem KeptFile.path_of_unmarked (hs : KeptFile key a s) (hsafe : BackupKept s)
    (hthere : s.path.isSome) (hmark : s.facts .backedUp = none) : s.path = some (.whole a) := by
  rcases hs.found with hpath | ⟨hname, -⟩
  · exact hpath
  have hone := hs.origin_of_named (by simp [hname])
  have hwhole := hsafe hone hthere
  rw [if_neg (by simp [hmark])] at hwhole
  exact (hs.unmarked hmark).resolve_right hwhole

private theorem recordOrigin_file (hs : KeptFile key a s) (hsafe : BackupKept s) :
    Wp (recordOrigin key) s (fun _ => KeptFile key a) (fun r t => r = .ok () ∧ KeptFile key a t ∧
      t.facts .backup = some (backupFile key) ∧ t.backup = some (.whole a) ∧
      t.facts .backedUp = some "1") := by
  unfold recordOrigin
  rw [wp_bind, wp_look]
  by_cases hthere : s.path.isSome
  · obtain ⟨hbase, horigin⟩ := hs.baseline
    have hget : ownershipGet s.facts .backedUp "0" = "1" ↔ s.facts .backedUp = some "1" :=
      ownershipGet_eq_iff (by decide) (by decide)
    simp only [id, hthere, if_true, record, step, wp_bind, wp_move]
    refine ⟨hbase, ?_⟩
    have hkeeps : ownershipSetBaselineOnce .preExisted "1" s.facts .backedUp =
        s.facts .backedUp := by
      unfold ownershipSetBaselineOnce
      split_ifs
      · rfl
      · exact ownershipSet_of_ne (by decide)
    by_cases hmark : s.facts .backedUp = none
    · rw [if_pos (by simp [hget, hmark])]
      exact backUp_file hbase (hs.path_of_unmarked hsafe hthere hmark) horigin
        (hkeeps.trans hmark)
    · have hone : s.facts .backedUp = some "1" := by
        rcases hs.marked with hnone | ⟨hone, -⟩
        · exact absurd hnone hmark
        · exact hone
      have hbackup : s.backup.isSome := by
        have hnamed : s.facts .backup ≠ none := by
          rcases hs.marked with hnone | ⟨-, hname, -⟩
          · exact absurd hnone hmark
          · simp [hname]
        have := hsafe (hs.origin_of_named hnamed) hthere
        rwa [if_pos hone] at this
      rw [if_neg (by simp [hget, hone]), wp_pure]
      exact ⟨rfl, hbase, hbase.backup_of_marked (fun h => hmark (hkeeps.symm.trans h)) hbackup⟩
  · have hnone : s.path = none := by simpa using hthere
    have hmark : s.facts .backedUp ≠ none := by
      intro h
      rcases hs.unmarked h with hpath | hpath
      · rw [hnone] at hpath
        cases hpath
      · rw [hnone] at hpath
        cases hpath
    have hcopy : s.backup.isSome := by
      rcases hs.found with hpath | ⟨-, hcopy⟩
      · rw [hnone] at hpath
        cases hpath
      · simp [hcopy]
    have hkept := hs.backup_of_marked hmark hcopy
    have hsame : ownershipSetBaselineOnce .preExisted "0" s.facts = s.facts :=
      ownershipSetBaselineOnce_of_some (hs.origin_of_named (by simp [hkept.1]))
    simp only [id, hthere, Bool.false_eq_true, if_false, record, step, wp_move, hsame]
    exact ⟨hs, trivial, hs, hkept⟩

private theorem install_file (src : α) (hs : KeptFile key a s) (hsafe : BackupKept s) :
    Wp (installFixedPathWithOwnership key src) s (fun _ => KeptFile key a)
      (fun r t => r = .ok () ∧ KeptFile key a t) := by
  unfold installFixedPathWithOwnership
  rw [wp_bind]
  refine (recordOrigin_file hs hsafe).mono (fun _ _ h => h) ?_
  rintro r t ⟨rfl, ht, hname, hcopy, hmark⟩
  exact installFile_file src ht hname hcopy hmark

theorem KeptAbsent.of_own {t : Slot α} (h : t.facts .preExisted = some "0") : KeptAbsent t :=
  ⟨.inr h, .inr h⟩

private theorem recordOrigin_absent (hs : KeptAbsent s) :
    Wp (recordOrigin key) s (fun _ => KeptAbsent)
      (fun r t => r = .ok () ∧ t.facts .preExisted = some "0") := by
  unfold recordOrigin
  rw [wp_bind, wp_look]
  by_cases hthere : s.path.isSome
  · have hown : s.facts .preExisted = some "0" := by
      rcases hs.own with hnone | hown
      · simp [hnone] at hthere
      · exact hown
    simp only [id, hthere, if_true, record, step, wp_bind, wp_move,
      ownershipSetBaselineOnce_of_some hown]
    refine ⟨hs, ?_⟩
    split_ifs
    · unfold backUp record step
      simp only [wp_bind, wp_move, true_and]
      exact ⟨.of_own hown, .of_own hown, .of_own hown, .of_own hown, hown⟩
    · exact wp_pure.mpr ⟨rfl, hown⟩
  · have hown : ownershipSetBaselineOnce .preExisted "0" s.facts .preExisted = some "0" := by
      rcases hs.origin with hnone | hown
      · rw [ownershipSetBaselineOnce_of_none hnone]
        rfl
      · rw [ownershipSetBaselineOnce_of_some hown]
        exact hown
    simp only [id, hthere, Bool.false_eq_true, if_false, record, step, wp_move]
    exact ⟨.of_own hown, trivial, hown⟩

private theorem install_absent (src : α) (hs : KeptAbsent s) :
    Wp (installFixedPathWithOwnership key src) s (fun _ => KeptAbsent)
      (fun r t => r = .ok () ∧ KeptAbsent t) := by
  unfold installFixedPathWithOwnership
  rw [wp_bind]
  refine (recordOrigin_absent hs).mono (fun _ _ h => h) ?_
  rintro r t ⟨rfl, hown⟩
  unfold installFile step
  simp only [wp_bind, wp_move, true_and]
  exact ⟨.of_own hown, .of_own hown, .of_own hown, .of_own hown⟩

private theorem install_kept {original : Option α} (src : α) (hs : Kept key original s)
    (hsafe : BackupKept s) :
    Wp (installFixedPathWithOwnership key src) s (fun _ => Kept key original)
      (fun r t => r = .ok () ∧ Kept key original t) := by
  cases original with
  | none => exact install_absent src hs
  | some a => exact install_file src hs hsafe

end Invariant

section Restoring

variable {α : Type} {f : FixedPath} {a : α} {s : Slot α}

theorem hasBackup_iff (hs : KeptFile f.key a s) :
    s.hasBackup f.key = true ↔ s.facts .backup ≠ none ∧ s.backup.isSome = true := by
  have hvalid := backupFile_valid f
  have hne : backupFile f.key ≠ "" := by
    rw [Bool.and_eq_true, bne_iff_ne] at hvalid
    exact hvalid.1
  unfold Slot.hasBackup
  rcases hs.named with hnone | ⟨hname, -⟩
  · simp [ownershipGet, hnone]
  · have hget : ownershipGet s.facts .backup "" = backupFile f.key :=
      (ownershipGet_eq_iff hne hne.symm).mpr hname
    simp [hget, hvalid, hname]

private theorem preExisted_get {value : String} (hvalue : value ≠ "") :
    ownershipGet s.facts .preExisted "" = value ↔ s.facts .preExisted = some value :=
  ownershipGet_eq_iff hvalue hvalue.symm

theorem wp_restore {key : String} {G : Unit → Slot α → Prop} {Q : Except Empty Unit → Slot α → Prop} :
    Wp (restoreOrRemoveFixedPath key) s G Q ↔
      if s.path.isNone then Q (.ok ()) s
      else if s.facts .preExisted = some "0" then
        G () { s with path := none } ∧ Q (.ok ()) { s with path := none }
      else if s.facts .preExisted = some "1" ∧ s.hasBackup key then
        G () { s with path := some .torn } ∧ G () { s with path := s.backup } ∧
          G () { s with path := s.backup, backup := none } ∧
          Q (.ok ()) { s with path := s.backup, backup := none }
      else Q (.ok ()) s := by
  unfold restoreOrRemoveFixedPath
  rw [wp_bind, wp_look]
  simp only [id, preExisted_get (show "0" ≠ "" by decide), preExisted_get (show "1" ≠ "" by decide)]
  by_cases hpath : s.path.isNone = true
  · rw [if_pos hpath, if_pos hpath, wp_pure]
  rw [if_neg hpath, if_neg hpath]
  by_cases hzero : s.facts .preExisted = some "0"
  · rw [if_pos hzero, if_pos hzero]
    exact wp_move
  rw [if_neg hzero, if_neg hzero]
  by_cases hone : s.facts .preExisted = some "1"
  · rw [if_pos hone]
    by_cases hbackup : s.hasBackup key = true
    · rw [if_pos hbackup, if_pos ⟨hone, hbackup⟩]
      simp only [step, wp_bind, wp_move]
    · rw [if_neg hbackup, if_neg (fun h => hbackup h.2), wp_pure]
  · rw [if_neg hone, if_neg (fun h => hone h.1), wp_pure]

theorem KeptFile.path_of_no_backup (hs : KeptFile f.key a s)
    (hbackup : ¬ (s.facts .preExisted = some "1" ∧ s.hasBackup f.key = true)) :
    s.path = some (.whole a) := by
  rcases hs.found with hpath | ⟨hname, hcopy⟩
  · exact hpath
  have hnamed : s.facts .backup ≠ none := by simp [hname]
  exact absurd ⟨hs.origin_of_named hnamed, (hasBackup_iff hs).mpr ⟨hnamed, by simp [hcopy]⟩⟩ hbackup

theorem KeptFile.not_zero (hs : KeptFile f.key a s) : s.facts .preExisted ≠ some "0" := by
  rcases hs.origin with h | h
  · simp [h]
  · simp [h]

private theorem restore_file (hs : KeptFile f.key a s) (hrest : Restorable s) :
    Wp (restoreOrRemoveFixedPath f.key) s (fun _ => KeptFile f.key a)
      (fun r t => r = .ok () ∧ KeptFile f.key a t ∧ t.path = some (.whole a)) := by
  have hthere : ¬ s.path.isNone = true := by
    rcases hs.found with hpath | ⟨hname, -⟩
    · simp [hpath]
    · have hone := hs.origin_of_named (by simp [hname])
      simpa [Option.isSome_iff_ne_none] using (hrest hone).1
  rw [wp_restore, if_neg hthere, if_neg hs.not_zero]
  by_cases hbackup : s.facts .preExisted = some "1" ∧ s.hasBackup f.key = true
  · obtain ⟨hname, hsome⟩ := (hasBackup_iff hs).mp hbackup.2
    have hcopy : s.backup = some (.whole a) := by
      rcases hs.copy with hnone | htorn | hcopy
      · simp [hnone] at hsome
      · exact absurd htorn ((hrest hbackup.1).2 hname)
      · exact hcopy
    have hnamed : s.facts .backup = some (backupFile f.key) := by
      rcases hs.named with hnone | ⟨h, -⟩
      · exact absurd hnone hname
      · exact h
    rw [if_pos hbackup]
    have htorn : KeptFile f.key a { s with path := some .torn } :=
      ⟨hs.origin, hs.named, hs.marked, hs.copy, .inr ⟨hnamed, hcopy⟩, fun _ => .inr rfl⟩
    have hback : KeptFile f.key a { s with path := s.backup } :=
      ⟨hs.origin, hs.named, hs.marked, hs.copy, .inl hcopy, fun _ => .inl hcopy⟩
    have hdropped : KeptFile f.key a { s with path := s.backup, backup := none } := by
      refine ⟨hs.origin, hs.named, ?_, .inl rfl, .inl hcopy, fun _ => .inl hcopy⟩
      rcases hs.marked with hnone | ⟨hone, hmarked, -⟩
      · exact .inl hnone
      · exact .inr ⟨hone, hmarked, by simp⟩
    exact ⟨htorn, hback, hdropped, rfl, hdropped, hcopy⟩
  · rw [if_neg hbackup]
    exact ⟨rfl, hs, hs.path_of_no_backup hbackup⟩

theorem restore_file_iff (hs : KeptFile f.key a s) :
    Wp (restoreOrRemoveFixedPath f.key) s (fun _ _ => True)
      (fun r t => r = .ok () ∧ (t.path = some (.whole a) ↔ Restorable s)) := by
  by_cases hrest : Restorable s
  · refine (restore_file hs hrest).mono (fun _ _ _ => trivial) ?_
    rintro r t ⟨hr, -, hpath⟩
    exact ⟨hr, iff_of_true hpath hrest⟩
  · rw [wp_restore]
    unfold Restorable at hrest
    push Not at hrest
    obtain ⟨hone, hlost⟩ := hrest
    by_cases hnone : s.path.isNone = true
    · rw [if_pos hnone]
      have hpath : s.path = none := by simpa using hnone
      simp only [hpath, true_and]
      refine iff_of_false (by simp) fun h => ?_
      simpa [hpath] using (h hone).1
    · have hsome : s.path.isSome = true := by simpa [Option.isSome_iff_ne_none] using hnone
      obtain ⟨hname, htorn⟩ := hlost hsome
      have hbackup : s.hasBackup f.key = true := (hasBackup_iff hs).mpr ⟨hname, by simp [htorn]⟩
      rw [if_neg hnone, if_neg hs.not_zero, if_pos ⟨hone, hbackup⟩]
      refine ⟨trivial, trivial, trivial, rfl, iff_of_false ?_ fun h => (h hone).2 hname htorn⟩
      simp [htorn]

private theorem restore_absent (hs : KeptAbsent s) :
    Wp (restoreOrRemoveFixedPath f.key) s (fun _ => KeptAbsent)
      (fun r t => r = .ok () ∧ KeptAbsent t ∧ t.path = none) := by
  rw [wp_restore]
  by_cases hnone : s.path.isNone = true
  · rw [if_pos hnone]
    exact ⟨rfl, hs, by simpa using hnone⟩
  · have hown : s.facts .preExisted = some "0" := hs.own.resolve_left (by simpa using hnone)
    rw [if_neg hnone, if_pos hown]
    exact ⟨.of_own hown, rfl, .of_own hown, rfl⟩

private theorem restore_kept {original : Option α} (hs : Kept f.key original s)
    (hrest : Restorable s) :
    Wp (restoreOrRemoveFixedPath f.key) s (fun _ => Kept f.key original)
      (fun r t => r = .ok () ∧ Kept f.key original t ∧ t.path = original.map .whole) := by
  cases original with
  | none => exact restore_absent hs
  | some a => exact restore_file hs hrest

theorem restore_iff {original : Option α} (hs : Kept f.key original s) :
    Wp (restoreOrRemoveFixedPath f.key) s (fun _ _ => True)
      (fun r t => r = .ok () ∧ (t.path = original.map .whole ↔ Restorable s)) := by
  cases original with
  | none =>
    refine (restore_absent (f := f) hs).mono (fun _ _ _ => trivial) ?_
    rintro r t ⟨hr, -, hpath⟩
    refine ⟨hr, iff_of_true hpath fun hone => ?_⟩
    have horigin := KeptAbsent.origin hs
    simp [hone] at horigin
  | some a => exact restore_file_iff hs

end Restoring

section Whole

variable {α : Type} {original : FixedPath → Option α} {h : FixedHost α}

theorem mem_fixedPaths (f : FixedPath) : f ∈ fixedPaths := by
  cases f <;> decide

theorem fixedPaths_nodup : fixedPaths.Nodup := by decide

private theorem install_keeps (src : FixedPath → α) (hkept : ∀ f, Kept f.key (original f) (h f))
    (hsafe : ∀ f, BackupKept (h f)) :
    Wp (install src) h (fun _ t => ∀ f, Kept f.key (original f) (t f))
      (fun _ t => ∀ f, Kept f.key (original f) (t f)) := by
  have hall := wp_forEach_focus (Q := fun _ _ _ => True) fixedPaths fixedPaths_nodup hkept
    fun f _ => (install_kept (src f) (hkept f) (hsafe f)).mono (fun _ _ hw => hw)
      fun _ _ hdone => ⟨hdone.1, hdone.2, trivial⟩
  exact hall.mono (fun _ _ hw => hw) fun _ _ hdone => hdone.2.1

/-- A path that is as it was can do without its facts and its backup. -/
def AsBefore (original : FixedPath → Option α) (h : FixedHost α) : Prop :=
  ∀ f, Kept f.key (original f) (h f) ∧ (h f).path = (original f).map .whole

theorem Kept.drop_facts {key : String} {before : Option α} {s : Slot α}
    (hs : Kept key before s) (hpath : s.path = before.map .whole) :
    Kept key before { s with facts := fun _ => none } := by
  cases before with
  | none => exact ⟨.inl rfl, .inl hpath⟩
  | some a =>
    have hfile : KeptFile key a s := hs
    exact ⟨.inl rfl, .inl rfl, .inl rfl, hfile.copy, .inl hpath, fun _ => .inl hpath⟩

theorem Kept.drop_backup {key : String} {before : Option α} {s : Slot α}
    (hs : Kept key before s) (hpath : s.path = before.map .whole) :
    Kept key before { s with backup := none } := by
  cases before with
  | none =>
    have habsent : KeptAbsent s := hs
    exact ⟨habsent.origin, .inl hpath⟩
  | some a =>
    have hfile : KeptFile key a s := hs
    refine ⟨hfile.origin, hfile.named, ?_, .inl rfl, .inl hpath, fun _ => .inl hpath⟩
    rcases hfile.marked with hnone | ⟨hone, hname, -⟩
    · exact .inl hnone
    · exact .inr ⟨hone, hname, by simp⟩

private theorem removeEntry_asBefore (entry : StateEntry) (hbefore : AsBefore original h) :
    AsBefore original (removeEntry entry h) := by
  intro f
  obtain ⟨hkept, hpath⟩ := hbefore f
  cases entry with
  | manifest => exact ⟨hkept.drop_facts hpath, hpath⟩
  | backup g =>
    by_cases hf : f = g
    · subst hf
      simp only [removeEntry, Function.update_self]
      exact ⟨hkept.drop_backup hpath, hpath⟩
    · simp only [removeEntry, Function.update_of_ne hf]
      exact ⟨hkept, hpath⟩

private theorem removeState_asBefore (order : List StateEntry) (hbefore : AsBefore original h) :
    Wp (removeState order) h (fun _ => AsBefore original)
      (fun r t => r = .ok () ∧ AsBefore original t) := by
  unfold removeState
  rw [wp_bind]
  refine (wp_forEach order hbefore fun entry _ t ht => ?_).mono (fun _ _ hw => hw) ?_
  · have hnext := removeEntry_asBefore entry ht
    exact wp_move.mpr ⟨hnext, rfl, hnext⟩
  · rintro r t ⟨rfl, ht⟩
    have hlast : AsBefore original
        (fun f => { t f with facts := fun _ => none, backup := none }) := fun f =>
      ⟨((ht f).1.drop_facts (ht f).2).drop_backup (ht f).2, (ht f).2⟩
    exact wp_move.mpr ⟨hlast, rfl, hlast⟩

private theorem uninstall_keeps (order : List StateEntry)
    (hkept : ∀ f, Kept f.key (original f) (h f)) (hrest : ∀ f, Restorable (h f)) :
    Wp (uninstall order) h (fun _ t => ∀ f, Kept f.key (original f) (t f))
      (fun _ t => ∀ f, Kept f.key (original f) (t f)) := by
  have hall := wp_forEach_focus (Q := fun f _ t => t.path = (original f).map .whole)
    fixedPaths fixedPaths_nodup hkept fun f _ => restore_kept (hkept f) (hrest f)
  unfold uninstall
  rw [wp_bind]
  refine hall.mono (fun _ _ hw => hw) ?_
  rintro r t ⟨rfl, ht, hpath, -⟩
  have hbefore : AsBefore original t := fun f => ⟨ht f, hpath f (mem_fixedPaths f)⟩
  exact (removeState_asBefore order hbefore).mono (fun _ _ hw f => (hw f).1)
    fun _ _ hdone f => (hdone.2 f).1

private theorem removeState_paths (order : List StateEntry) :
    Wp (removeState order) h (fun _ t => ∀ f, (t f).path = (h f).path)
      (fun r t => r = .ok () ∧ ∀ f, (t f).path = (h f).path) := by
  unfold removeState
  rw [wp_bind]
  have hall := wp_forEach (I := fun t : FixedHost α => ∀ f, (t f).path = (h f).path)
    (G := fun _ t => ∀ f, (t f).path = (h f).path) (p := fun entry => step (removeEntry entry)) order
    (fun _ => rfl) fun entry _ t ht => by
      have hnext : ∀ f, (removeEntry entry t f).path = (h f).path := by
        intro f
        cases entry with
        | manifest => exact ht f
        | backup g =>
          by_cases hf : f = g
          · subst hf
            simpa only [removeEntry, Function.update_self] using ht f
          · simpa only [removeEntry, Function.update_of_ne hf] using ht f
      exact wp_move.mpr ⟨hnext, rfl, hnext⟩
  refine hall.mono (fun _ _ hw => hw) ?_
  rintro r t ⟨rfl, ht⟩
  exact wp_move.mpr ⟨ht, rfl, ht⟩

def GivesBack (original : FixedPath → Option α) (h : FixedHost α) : Prop :=
  ∀ f, (h f).path = (original f).map .whole

theorem uninstall_givesBack_iff (order : List StateEntry)
    (hkept : ∀ f, Kept f.key (original f) (h f)) :
    GivesBack original ((uninstall order) h).final ↔ ∀ f, Restorable (h f) := by
  have hall := wp_forEach_focus (K := fun _ _ => True)
    (Q := fun f s t => t.path = (original f).map .whole ↔ Restorable s)
    fixedPaths fixedPaths_nodup (fun _ => trivial) fun f _ =>
      (restore_iff (hkept f)).mono (fun _ _ _ => trivial) fun _ _ hdone =>
        ⟨hdone.1, trivial, hdone.2⟩
  have hwhole : Wp (uninstall order) h (fun _ _ => True)
      (fun _ t => ∀ f, (t f).path = (original f).map .whole ↔ Restorable (h f)) := by
    unfold uninstall
    rw [wp_bind]
    refine hall.mono (fun _ _ _ => trivial) ?_
    rintro r t ⟨rfl, -, hiff, -⟩
    refine (removeState_paths order).mono (fun _ _ _ => trivial) ?_
    rintro r u ⟨-, hpaths⟩ f
    rw [hpaths f]
    exact hiff f (mem_fixedPaths f)
  exact forall_congr' hwhole.2

def fresh (original : FixedPath → Option α) : FixedHost α := fun f =>
  ⟨(original f).map .whole, fun _ => none, none⟩

private theorem fresh_kept (original : FixedPath → Option α) (f : FixedPath) :
    Kept f.key (original f) (fresh original f) := by
  unfold fresh
  cases original f with
  | none => exact ⟨.inl rfl, .inl rfl⟩
  | some a => exact ⟨.inl rfl, .inl rfl, .inl rfl, .inl rfl, .inl rfl, fun _ => .inl rfl⟩

def AnyTime (_ : FixedHost α) (p : Session (FixedHost α) Unit) : Prop :=
  (∃ src, p = install src) ∨ ∃ order, p = uninstall order

def Careful (h : FixedHost α) (p : Session (FixedHost α) Unit) : Prop :=
  (∃ src, p = install src ∧ ∀ f, BackupKept (h f)) ∨
    ∃ order, p = uninstall order ∧ ∀ f, Restorable (h f)

/-- After runs that each found what they rely on, and were killed anywhere, an uninstaller gives back
all that was there exactly if it, too, finds what it relies on. -/
theorem givesBack_iff (hrun : History Careful (fresh original) h) (order : List StateEntry) :
    GivesBack original ((uninstall order) h).final ↔ ∀ f, Restorable (h f) := by
  have hkept : ∀ f, Kept f.key (original f) (h f) := by
    refine hrun.invariant (I := fun t => ∀ f, Kept f.key (original f) (t f))
      (fresh_kept original) ?_
    rintro s p hs (⟨src, rfl, hsafe⟩ | ⟨order, rfl, hrest⟩)
    · exact install_keeps src hs hsafe
    · exact uninstall_keeps order hs hrest
  exact uninstall_givesBack_iff order hkept

instance [DecidableEq α] (s : Slot α) : Decidable (Restorable s) :=
  inferInstanceAs (Decidable (_ → _))

/-- A host whose own unit is replaced and given back. -/
theorem ownUnit_givesBack :
    GivesBack (fun f => if f = .singBoxUnit then some 1 else none)
      ((uninstall [.manifest]) ((install fun _ => 2)
        (fresh fun f => if f = .singBoxUnit then some 1 else none)).final).final :=
  (givesBack_iff (.final .start (.inl ⟨_, rfl, fun f h => by cases h⟩)) [.manifest]).mpr fun f => by
    cases f <;> decide

/-- A backup that was restored and removed is not made again while the manifest has it as made: the
next installation cannot be undone. -/
theorem ownUnit_lost :
    ¬ ∀ (original : FixedPath → Option Nat) (h : FixedHost Nat),
      History AnyTime (fresh original) h → ∀ order,
        GivesBack original ((uninstall order) h).final := by
  intro hall
  let original : FixedPath → Option Nat := fun f => if f = .singBoxUnit then some 1 else none
  let installed := ((install fun _ => 2) (fresh original)).final
  have hfirst : History AnyTime (fresh original) installed := .final .start (.inl ⟨_, rfl⟩)
  -- killed after the first path, its backup just removed
  let killed := ((uninstall []).states installed).get ⟨3, by decide⟩
  have hkilled : History AnyTime (fresh original) killed :=
    .ran hfirst (.inr ⟨_, rfl⟩) (List.get_mem _ _)
  have hagain : History AnyTime (fresh original) ((install fun _ => 3) killed).final :=
    .final hkilled (.inl ⟨_, rfl⟩)
  have hgiven := hall original _ hagain [] .singBoxUnit
  revert hgiven
  decide

end Whole

section Manifest

open Ownership (Call Contents Key Value Disk)

def Fact.suffix : Fact → String
  | .preExisted => "PRE_EXISTED"
  | .backup => "BACKUP"
  | .backedUp => "BACKED_UP"

def asBytes (s : String) : List UInt8 := Utf8.bytes s.toList

theorem asBytes_inj {s t : String} : asBytes s = asBytes t ↔ s = t :=
  Utf8.bytes_injective.eq_iff.trans String.toList_inj

/-- `FIXEDPATH_<key>_<fact>`. -/
def manifestKey (f : FixedPath) (fact : Fact) : Key :=
  ⟨asBytes ("FIXEDPATH_" ++ f.key ++ "_" ++ fact.suffix),
    List.all_eq_true.mp (by cases f <;> cases fact <;> decide)⟩

def entries : List (FixedPath × Fact) :=
  fixedPaths.flatMap fun f => [(f, .preExisted), (f, .backup), (f, .backedUp)]

theorem mem_entries (f : FixedPath) (fact : Fact) : (f, fact) ∈ entries := by
  cases f <;> cases fact <;> decide

theorem manifestKey_inj {f g : FixedPath} {a b : Fact} (h : manifestKey f a = manifestKey g b) :
    f = g ∧ a = b := by
  have hall : ∀ p ∈ entries, ∀ q ∈ entries, manifestKey p.1 p.2 = manifestKey q.1 q.2 → p = q := by
    decide +kernel
  exact Prod.mk.inj (hall (f, a) (mem_entries f a) (g, b) (mem_entries g b) h)

/-- The writes that `install.sh` makes for a path. -/
inductive Write
  | origin (existed : Bool)
  | backup
  | backedUp

def Write.apply (f : FixedPath) : Write → Facts → Facts
  | .origin existed => ownershipSetBaselineOnce .preExisted (if existed then "1" else "0")
  | .backup => ownershipSet .backup (backupFile f.key)
  | .backedUp => ownershipMark .backedUp

def originValue (existed : Bool) : Value :=
  ⟨asBytes (if existed then "1" else "0"), by cases existed <;> decide⟩

def backupValue (f : FixedPath) : Value := ⟨asBytes (backupFile f.key), by cases f <;> decide⟩

def Write.call (f : FixedPath) : Write → Call
  | .origin existed => ⟨manifestKey f .preExisted, .setBaselineOnce (originValue existed)⟩
  | .backup => ⟨manifestKey f .backup, .set (backupValue f)⟩
  | .backedUp => ⟨manifestKey f .backedUp, .mark⟩

theorem Write.valid (loc : Ownership.Locale) (f : FixedPath) (w : Write) :
    (w.call f).Valid loc := by
  cases w with
  | origin existed => exact loc.valid_of_all (by cases existed <;> decide)
  | backup => exact loc.valid_of_all (by cases f <;> decide)
  | backedUp => trivial

def Shows (facts : FixedPath → Facts) (m : Contents) : Prop :=
  ∀ f fact, (m (manifestKey f fact)).map Subtype.val = (facts f fact).map asBytes

def Write.fact : Write → Fact
  | .origin _ => .preExisted
  | .backup => .backup
  | .backedUp => .backedUp

theorem Write.call_key (f : FixedPath) (w : Write) : (w.call f).key = manifestKey f w.fact := by
  cases w <;> rfl

theorem Write.apply_of_ne (f : FixedPath) (w : Write) {facts : Facts} {fact : Fact}
    (h : fact ≠ w.fact) : w.apply f facts fact = facts fact := by
  cases w with
  | origin existed =>
    rw [Write.apply, ownershipSetBaselineOnce]
    split
    · rfl
    · exact ownershipSet_of_ne h
  | backup => exact ownershipSet_of_ne h
  | backedUp => exact ownershipSet_of_ne h

theorem Write.next (f : FixedPath) (w : Write) {facts : Facts} {held : Option Value}
    (h : held.map Subtype.val = (facts w.fact).map asBytes) :
    ((w.call f).op.next held).map Subtype.val = (w.apply f facts w.fact).map asBytes := by
  cases w with
  | origin existed =>
    rw [Write.fact] at h
    rw [Write.apply, Write.fact]
    cases hfact : facts .preExisted with
    | none =>
      rw [hfact, Option.map_none, Option.map_eq_none_iff] at h
      rw [ownershipSetBaselineOnce_of_none hfact, h, ownershipSet, Function.update_self]
      rfl
    | some old =>
      obtain ⟨value, rfl, hvalue⟩ := Option.map_eq_some_iff.mp (h.trans (by rw [hfact]; rfl))
      rw [ownershipSetBaselineOnce_of_some hfact, hfact]
      exact congrArg some hvalue
  | backup =>
    rw [Write.apply, Write.fact, ownershipSet, Function.update_self]
    rfl
  | backedUp =>
    rw [Write.apply, Write.fact, ownershipMark, ownershipSet, Function.update_self]
    rfl

theorem Shows.write {facts : FixedPath → Facts} {m : Contents} (h : Shows facts m) (f : FixedPath)
    (w : Write) :
    Shows (Function.update facts f (w.apply f (facts f))) ((w.call f).effect m) := by
  intro g fact
  rw [Call.effect, w.call_key]
  by_cases hsame : g = f ∧ fact = w.fact
  · obtain ⟨rfl, rfl⟩ := hsame
    rw [Function.update_self, Function.update_self]
    exact w.next g (h g w.fact)
  · have hkey : manifestKey g fact ≠ manifestKey f w.fact := fun heq => hsame (manifestKey_inj heq)
    rw [Function.update_of_ne hkey, h]
    by_cases hg : g = f
    · subst hg
      rw [Function.update_self, w.apply_of_ne g fun heq => hsame ⟨rfl, heq⟩]
    · rw [Function.update_of_ne hg]

def written (writes : List (FixedPath × Write)) : FixedPath → Facts :=
  writes.foldl (fun facts w => Function.update facts w.1 (w.2.apply w.1 (facts w.1)))
    fun _ _ => none

def calls (writes : List (FixedPath × Write)) : List Call := writes.map fun w => w.2.call w.1

private theorem written_shows (writes : List (FixedPath × Write)) :
    Shows (written writes) (Ownership.contents (calls writes)) := by
  induction writes using List.reverseRecOn with
  | nil => exact fun _ _ => rfl
  | append_singleton writes w ih =>
    rw [written, List.foldl_concat, calls, List.map_append, List.map_singleton,
      Ownership.contents_concat]
    exact ih.write w.1 w.2

private theorem calls_valid (loc : Ownership.Locale) (writes : List (FixedPath × Write)) :
    ∀ call ∈ calls writes, call.Valid loc := by
  intro call hcall
  obtain ⟨w, -, rfl⟩ := List.mem_map.mp hcall
  exact w.2.valid loc w.1

theorem Shows.get {facts : FixedPath → Facts} {m : Contents} (h : Shows facts m) (f : FixedPath)
    (fact : Fact) (default : String) :
    m.get (manifestKey f fact) (asBytes default) = asBytes (ownershipGet (facts f) fact default) := by
  have hfact := h f fact
  rw [Contents.get, ownershipGet]
  cases hheld : facts f fact with
  | none =>
    rw [hheld, Option.map_none, Option.map_eq_none_iff] at hfact
    rw [hfact]
    rfl
  | some value =>
    rw [hheld, Option.map_some, Option.map_eq_some_iff] at hfact
    obtain ⟨held, hm, hvalue⟩ := hfact
    have hempty : asBytes value = [] ↔ value = "" := by
      rw [show ([] : List UInt8) = asBytes "" from rfl, asBytes_inj]
    rw [hm]
    simp only [Ownership.text, Option.elim_some, hvalue, hempty]
    exact (apply_ite asBytes _ _ _).symm

variable {α : Type} {original : FixedPath → Option α} {h : FixedHost α}

def Written (h : FixedHost α) : Prop := ∃ writes, (fun f => (h f).facts) = written writes

theorem Written.of_facts {t : FixedHost α} (hw : Written h) (ht : ∀ f, (t f).facts = (h f).facts) :
    Written t := by
  obtain ⟨writes, hwrites⟩ := hw
  exact ⟨writes, (funext ht).trans hwrites⟩

/-- The host with another slot for `f` is one that writes to the manifest make. -/
def SlotWritten (h : FixedHost α) (f : FixedPath) (s : Slot α) : Prop :=
  Written (Function.update h f s)

theorem SlotWritten.of_facts {f : FixedPath} {s t : Slot α} (hs : SlotWritten h f s)
    (ht : t.facts = s.facts) : SlotWritten h f t := by
  apply Written.of_facts hs
  intro g
  by_cases hg : g = f
  · subst hg
    simpa only [Function.update_self] using ht
  · simp only [Function.update_of_ne hg]

theorem SlotWritten.write {f : FixedPath} {s : Slot α} (hs : SlotWritten h f s) (w : Write) :
    SlotWritten h f { s with facts := w.apply f s.facts } := by
  obtain ⟨writes, hwrites⟩ := hs
  refine ⟨writes ++ [(f, w)], ?_⟩
  rw [written, List.foldl_concat]
  change _ = Function.update (written writes) f (w.apply f (written writes f))
  rw [← hwrites]
  funext g
  by_cases hg : g = f
  · subst hg
    simp only [Function.update_self]
  · simp only [Function.update_of_ne hg]

abbrev KeepsWritten (h : FixedHost α) (f : FixedPath) (p : Session (Slot α) Unit) : Prop :=
  Keeps (fun _ _ => True) (SlotWritten h f) (fun _ => SlotWritten h f) p

theorem step_keepsWritten {f : FixedPath} {g : Slot α → Slot α} (hg : ∀ s, (g s).facts = s.facts) :
    KeepsWritten h f (step g) :=
  Keeps.move fun s hs => ⟨hs.of_facts (hg s), hs.of_facts (hg s)⟩

theorem record_keepsWritten (f : FixedPath) (w : Write) :
    KeepsWritten h f (record (w.apply f)) :=
  Keeps.move fun _ hs => ⟨hs.write w, hs.write w⟩

private theorem backUp_keepsWritten (f : FixedPath) : KeepsWritten h f (backUp f.key) := by
  refine Keeps.bind (step_keepsWritten ?_) fun _ => Keeps.bind (step_keepsWritten ?_) fun _ =>
    Keeps.bind (record_keepsWritten f .backup) fun _ => record_keepsWritten f .backedUp
  · exact fun _ => rfl
  · exact fun _ => rfl

private theorem recordOrigin_keepsWritten (f : FixedPath) : KeepsWritten h f
    (recordOrigin f.key) := by
  apply Keeps.look_bind
  intro s _
  split
  · apply Keeps.bind (record_keepsWritten f (.origin true))
    intro _
    split
    · exact backUp_keepsWritten f
    · exact Keeps.pure ()
  · exact record_keepsWritten f (.origin false)

private theorem install_keepsWritten (f : FixedPath) (src : α) :
    KeepsWritten h f (installFixedPathWithOwnership f.key src) := by
  apply Keeps.bind (recordOrigin_keepsWritten f)
  intro _
  refine Keeps.bind (step_keepsWritten ?_) fun _ => Keeps.bind (step_keepsWritten ?_) fun _ =>
    step_keepsWritten ?_
  · exact fun _ => rfl
  · exact fun _ => rfl
  · exact fun _ => rfl

private theorem restore_keepsWritten (f : FixedPath) :
    KeepsWritten h f (restoreOrRemoveFixedPath f.key) := by
  apply Keeps.look_bind
  intro s _
  split_ifs
  · exact Keeps.pure ()
  · exact step_keepsWritten fun _ => rfl
  · refine Keeps.bind (step_keepsWritten ?_) fun _ => Keeps.bind (step_keepsWritten ?_) fun _ =>
      step_keepsWritten ?_
    · exact fun _ => rfl
    · exact fun _ => rfl
    · exact fun _ => rfl
  · exact Keeps.pure ()
  · exact Keeps.pure ()

private theorem forEach_written {p : FixedPath → Session (Slot α) Unit}
    (hp : ∀ (h : FixedHost α) f, KeepsWritten h f (p f)) (hw : Written h) :
    Wp (Prog.forEach (fun f => Prog.focus f (p f)) fixedPaths) h (fun _ => Written)
      (fun _ => Written) := by
  apply wp_forEach_keeps fixedPaths hw
  intro f _ s hs
  rw [wp_focus]
  have hslot : SlotWritten s f (s f) := by rwa [SlotWritten, Function.update_eq_self]
  exact hp s f (s f) hslot fun _ _ => trivial

private theorem removeEntry_written (entry : StateEntry) (hw : Written h) :
    Written (removeEntry entry h) := by
  cases entry with
  | manifest => exact ⟨[], rfl⟩
  | backup g =>
    apply hw.of_facts
    intro f
    by_cases hf : f = g
    · subst hf
      simp only [removeEntry, Function.update_self]
    · simp only [removeEntry, Function.update_of_ne hf]

private theorem uninstall_written (order : List StateEntry) (hw : Written h) :
    Wp (uninstall order) h (fun _ => Written) (fun _ => Written) := by
  unfold uninstall
  refine (forEach_written (fun _ => restore_keepsWritten) hw).bind ?_ fun _ _ ht => ht
  intro _ t ht
  unfold removeState
  refine (wp_forEach_keeps order ht ?_).bind ?_ fun _ _ hu => hu
  · intro entry _ u hu
    have hnext := removeEntry_written entry hu
    exact wp_move.mpr ⟨hnext, hnext⟩
  · intro _ u _
    have hnone : Written fun f => { u f with facts := fun _ => none, backup := none } := ⟨[], rfl⟩
    exact wp_move.mpr ⟨hnone, hnone⟩

/-- Whatever installers and uninstallers have done, the facts are what `ownership_get` reads from a
manifest that calls of `ownership.sh` have made. -/
theorem facts_from_manifest (loc : Ownership.Locale) (hrun : History AnyTime (fresh original) h) :
    ∃ writes, ∀ f fact default,
      Ownership.ownershipGet (Ownership.after loc (calls writes)) (manifestKey f fact)
        (asBytes default) = asBytes (ownershipGet (h f).facts fact default) := by
  have hwritten : Written h := by
    apply hrun.invariant (I := Written) ⟨[], rfl⟩
    rintro s p hs (⟨src, rfl⟩ | ⟨order, rfl⟩)
    · exact forEach_written (fun h f => install_keepsWritten f (src f)) hs
    · exact uninstall_written order hs
  obtain ⟨writes, hwrites⟩ := hwritten
  refine ⟨writes, fun f fact default => ?_⟩
  rw [Ownership.ownershipGet_eq (Ownership.after_holds (calls_valid loc writes)),
    (written_shows writes).get, ← hwrites]

end Manifest

end Vpn1.Deploy.FixedPaths
