import Mathlib.Data.List.Infix
import Vpn1.Lib.Turns

/-! The transaction of a production `update.sh`: its marker, the lock of the installers, the switch
to another release and the way back. -/

namespace Vpn1.Deploy.Interruption

open Turns

section Script

inductive Item
  | vpnAdmin
  | vpn
  | vpnSubscriptionSvc
  | singBoxService
  | vpnSubscriptionService
  | vpnExpiryReconcileService
  | vpnExpiryReconcileTimer
  | vpnHealthCheck
  | vpnBenchmark
  | vpnBenchmarkLib
  deriving DecidableEq, Repr

def binaries : List Item := [.vpnAdmin, .vpn, .vpnSubscriptionSvc]

def systemdUnits : List Item :=
  [.singBoxService, .vpnSubscriptionService, .vpnExpiryReconcileService, .vpnExpiryReconcileTimer]

def helpers : List Item := [.vpnHealthCheck, .vpnBenchmark, .vpnBenchmarkLib]

/-- `SWITCH`, `ACTIVATE`, `VERIFY` and the first part of `COMMIT`. A file is put beside its place
and renamed. -/
inductive SwitchOp
  | takeTree
  | putTree
  | item (x : Item)
  | singBox
  | activate
  | writeManifest
  deriving DecidableEq, Repr

def switchOps : List SwitchOp :=
  [.takeTree, .putTree] ++ (binaries ++ systemdUnits ++ helpers).map .item ++
    [.singBox, .activate, .writeManifest]

/-- What `rollback_update` does. -/
inductive UndoOp
  | item (x : Item)
  | singBox
  | treeAway
  | treeBack
  | services
  | manifest
  | dropMarker
  | dropStaging
  deriving DecidableEq, Repr

def undoOps : List UndoOp :=
  (binaries ++ systemdUnits ++ helpers).map .item ++
    [.singBox, .treeAway, .treeBack, .services, .manifest, .dropMarker, .dropStaging]

inductive CleanOp
  | dropPrev
  | dropStaging
  | dropMarker
  deriving DecidableEq, Repr

def cleanOps : List CleanOp := [.dropPrev, .dropStaging, .dropMarker]

variable {ι R V : Type}

/-- What is on disk, each file by the release it is of. -/
structure Host (ι R V : Type) where
  item : Item → Option R
  /-- The version of the `sing-box` binary. -/
  singBox : Option V
  /-- `/opt/vpn1` -/
  opt : Option R
  /-- The release in `install-state.json`, and with it the `sing-box` version it pins. -/
  manifest : R
  /-- `update-transaction.json` is there. -/
  marker : Bool
  /-- The directories `/opt/.vpn1-update-staging.…` and `/opt/.vpn1-prev-…` of the invocations. -/
  staging : ι → Bool
  prev : ι → Option R

structure Target (R : Type) where
  release : R
  stagesSingBox : Bool

structure Backup (R V : Type) where
  item : Item → Option R
  singBox : Option V
  manifest : Option R

inductive Phase (R V : Type)
  | checking
  | waiting
  | locked
  | staging (target : Target R)
  | staged (target : Target R)
  | prepared (target : Target R) (backup : Backup R V)
  -- the marker is written, the next step is `SWITCH`
  | marked (target : Target R) (backup : Backup R V)
  | switching (target : Target R) (backup : Backup R V) (ops : List SwitchOp)
  | committed (ops : List CleanOp)
  | rollback (backup : Backup R V) (ops : List UndoOp) (failed : Bool)
  | exited

inductive Answer (R : Type)
  | done
  | failed
  -- the release that is to be installed
  | resolved (release : R)
  -- done, but for the copy of the manifest, which may fail
  | withoutManifest
  deriving DecidableEq

def Phase.holds : Phase R V → Bool
  | .checking | .waiting | .exited => false
  | _ => true

def Phase.checked : Phase R V → Bool
  | .waiting => true
  | _ => false

variable [DecidableEq ι] [Fintype ι] [DecidableEq V] (pin : R → V)

def Host.stale (h : Host ι R V) : Bool :=
  decide (∃ i, h.staging i = true ∨ (h.prev i).isSome = true)

def snapshot (target : Target R) (h : Host ι R V) (manifest : Bool) : Backup R V where
  item := h.item
  singBox := if target.stagesSingBox then h.singBox else none
  manifest := if manifest then some h.manifest else none

def Host.complete (h : Host ι R V) : Bool := (binaries ++ systemdUnits).all fun x => (h.item x).isSome

def switch (i : ι) (target : Target R) (h : Host ι R V) : SwitchOp → Option (Host ι R V)
  | .takeTree =>
    if h.opt.isSome then some { h with opt := none, prev := Function.update h.prev i h.opt }
    else none
  | .putTree => some { h with opt := some target.release }
  | .item x => some { h with item := Function.update h.item x (some target.release) }
  | .singBox =>
    some (if target.stagesSingBox then { h with singBox := some (pin target.release) } else h)
  | .activate => some h
  | .writeManifest => some { h with manifest := target.release }

def undo (i : ι) (backup : Backup R V) (h : Host ι R V) : UndoOp → Host ι R V
  | .item x => { h with item := Function.update h.item x (backup.item x) }
  | .singBox => { h with singBox := backup.singBox.or h.singBox }
  | .treeAway => if (h.prev i).isSome then { h with opt := none } else h
  -- a tree that is still there takes the other into it
  | .treeBack => { h with opt := h.opt.or (h.prev i), prev := Function.update h.prev i none }
  | .services => h
  | .manifest => { h with manifest := backup.manifest.getD h.manifest }
  | .dropMarker => { h with marker := false }
  | .dropStaging => { h with staging := Function.update h.staging i false }

/-- A failure of the last two does not count as one of the rollback. -/
def UndoOp.counts : UndoOp → Bool
  | .dropMarker | .dropStaging => false
  | _ => true

def cleanUp (i : ι) (h : Host ι R V) : CleanOp → Host ι R V
  | .dropPrev => { h with prev := Function.update h.prev i none }
  | .dropStaging => { h with staging := Function.update h.staging i false }
  | .dropMarker => { h with marker := false }

def next (i : ι) (h : Host ι R V) : Phase R V → Answer R → Option (Host ι R V × Phase R V)
  | .checking, _ => some (h, if h.marker || h.stale then .exited else .waiting)
  | .waiting, _ => some (h, .locked)
  | .locked, .resolved release =>
    some ({ h with staging := Function.update h.staging i true },
      .staging ⟨release, pin release ≠ pin h.manifest⟩)
  | .locked, _ => some (h, .exited)
  | .staging target, .done => some (h, .staged target)
  | .staging _, _ => some ({ h with staging := Function.update h.staging i false }, .exited)
  | .staged target, .done =>
    some (h, if h.complete then .prepared target (snapshot target h true) else .exited)
  | .staged target, .withoutManifest =>
    some (h, if h.complete then .prepared target (snapshot target h false) else .exited)
  | .staged _, _ => some (h, .exited)
  | .prepared target backup, .done => some ({ h with marker := true }, .marked target backup)
  | .prepared _ _, _ => some (h, .exited)
  | .marked target backup, .done => some (h, .switching target backup switchOps)
  | .marked _ _, _ => some (h, .exited)
  | .switching target backup (op :: ops), .done =>
    match switch pin i target h op with
    | some t => some (t, .switching target backup ops)
    | none => some (h, .rollback backup undoOps false)
  | .switching _ _ [], .done => some (h, .committed cleanOps)
  | .switching _ backup _, _ => some (h, .rollback backup undoOps false)
  | .committed (op :: ops), .done => some (cleanUp i h op, .committed ops)
  | .committed _, _ => some (h, .exited)
  | .rollback backup (op :: ops) failed, .done => some (undo i backup h op, .rollback backup ops failed)
  | .rollback backup (op :: ops) failed, _ => some (h, .rollback backup ops (failed || op.counts))
  | .rollback _ [] _, _ => some (h, .exited)
  | .exited, _ => none

/-- `flock` on the lock of the installers, until the process ends. -/
def updateScript : Program ι (Host ι R V) (Phase R V) (Answer R) where
  holds := Phase.holds
  gone := .exited
  next := next pin

end Script

section Invariant

variable {ι R V : Type} {pin : R → V} {i : ι} {r : R} {h : Host ι R V} {target : Target R}
  {backup : Backup R V}

/-- The binaries, units and helpers, the `sing-box` binary and the tree are of one release. -/
structure OneRelease (pin : R → V) (h : Host ι R V) (r : R) : Prop where
  item : ∀ x, h.item x = some r
  singBox : h.singBox = some (pin r)
  opt : h.opt = some r

def Settled (pin : R → V) (h : Host ι R V) (r : R) : Prop := OneRelease pin h r ∧ h.manifest = r

/-- A host that is not settled has its marker. -/
def Safe (pin : R → V) (h : Host ι R V) : Prop := h.marker = true ∨ ∃ r, Settled pin h r

/-- The backup is one of a release, with its `sing-box` if that is to be replaced. -/
structure Saved (pin : R → V) (r : R) (backup : Backup R V) : Prop where
  item : ∀ x, backup.item x = some r
  singBox : backup.singBox = none ∨ backup.singBox = some (pin r)
  manifest : backup.manifest = some r

/-- A `sing-box` that is not replaced is the one that the target pins. -/
def Pinned (pin : R → V) (r : R) (target : Target R) : Prop :=
  target.stagesSingBox = false → pin target.release = pin r

def Taken (pin : R → V) (i : ι) (r : R) (target : Target R) (h : Host ι R V) : SwitchOp → Prop
  | .takeTree => h.prev i = some r
  | .putTree => h.opt = some target.release
  | .item x => h.item x = some target.release
  | .singBox => h.singBox = some (pin target.release)
  | .activate => True
  | .writeManifest => h.manifest = target.release

/-- What holds on the way from one release to another, with some steps to go. -/
structure Switched (pin : R → V) (i : ι) (r : R) (target : Target R) (ops : List SwitchOp)
    (h : Host ι R V) : Prop where
  taken : ∀ op, op ∉ ops → Taken pin i r target h op
  singBox : target.stagesSingBox = false → h.singBox = some (pin r)
  tree : .takeTree ∈ ops → h.prev i = none ∧ h.opt = some r

def Undone (pin : R → V) (i : ι) (r : R) (h : Host ι R V) : UndoOp → Prop
  | .item x => h.item x = some r
  | .singBox => h.singBox = some (pin r)
  | .treeAway => h.prev i = some r → h.opt = none
  | .treeBack => h.opt = some r
  | .manifest => h.manifest = r
  | .services | .dropMarker | .dropStaging => True

structure Restoring (pin : R → V) (i : ι) (r : R) (backup : Backup R V) (ops : List UndoOp)
    (h : Host ι R V) : Prop where
  undone : ∀ op, op ∉ ops → Undone pin i r h op
  singBox : backup.singBox = none → h.singBox = some (pin r)
  tree : .treeBack ∈ ops → (h.prev i = none ∧ h.opt = some r) ∨ h.prev i = some r

def Relies (pin : R → V) (h : Host ι R V) (i : ι) : Phase R V → Prop
  | .checking => h.prev i = none
  | .waiting => h.prev i = none ∧ h.marker = false
  | .locked => h.prev i = none ∧ h.marker = false ∧ ∃ r, Settled pin h r
  | .staging target | .staged target =>
    h.prev i = none ∧ ∃ r, Settled pin h r ∧ Pinned pin r target
  | .prepared target backup =>
    h.prev i = none ∧ ∃ r, Settled pin h r ∧ Pinned pin r target ∧ Saved pin r backup ∧
      (backup.singBox = none → target.stagesSingBox = false)
  | .marked target backup =>
    h.prev i = none ∧ h.marker = true ∧ ∃ r, Settled pin h r ∧ Pinned pin r target ∧
      Saved pin r backup ∧ (backup.singBox = none → target.stagesSingBox = false)
  | .switching target backup ops =>
    ops <:+ switchOps ∧ h.marker = true ∧ ∃ r, Switched pin i r target ops h ∧
      Pinned pin r target ∧ Saved pin r backup ∧
      (backup.singBox = none → target.stagesSingBox = false)
  | .committed _ => ∃ r, Settled pin h r
  | .rollback backup ops failed =>
    ops <:+ undoOps ∧ (.dropMarker ∈ ops → h.marker = true) ∧ failed = false ∧
      ∃ r, Saved pin r backup ∧ Restoring pin i r backup ops h
  | .exited => True

def Steady : Phase R V → Answer R → Prop
  | .staged _, a => a ≠ .withoutManifest
  | .rollback _ (op :: _) _, a => op.counts = true → a = .done
  | _, _ => True

/-- While an invocation is between its checks and its lock, no other one acts under the lock. -/
def Careful (σ : System ι (Host ι R V) (Phase R V)) : Event ι (Answer R) → Prop
  | .run i a => Steady (σ.phase i) a ∧
      ((σ.phase i).holds = true → ∀ j, (σ.phase j).checked = false)
  | .kill _ => True

private theorem switchOps_nodup : switchOps.Nodup := by decide

theorem undoOps_nodup : undoOps.Nodup := by decide

theorem mem_switchOps (op : SwitchOp) : op ∈ switchOps := by
  rcases op with _ | _ | x | _ | _ | _
  case item => cases x <;> decide
  all_goals decide

theorem mem_undoOps (op : UndoOp) : op ∈ undoOps := by
  rcases op with x | _ | _ | _ | _ | _ | _ | _
  case item => cases x <;> decide
  all_goals decide

theorem not_mem_of_suffix {α : Type} {l ops : List α} {op : α} (hl : l.Nodup)
    (h : op :: ops <:+ l) : op ∉ ops ∧ ops <:+ l :=
  ⟨(List.nodup_cons.mp (hl.sublist h.sublist)).1, (List.suffix_cons op ops).trans h⟩

private theorem putTree_mem {ops : List SwitchOp} (h : .takeTree :: ops <:+ switchOps) :
    .putTree ∈ ops := by
  have hall : ∀ l ∈ switchOps.tails, l.head? = some .takeTree → .putTree ∈ l.tail := by decide
  exact hall _ ((List.mem_tails _ _).mpr h) rfl

private theorem takeTree_not_mem {op : SwitchOp} {ops : List SwitchOp}
    (h : op :: ops <:+ switchOps) : .takeTree ∉ ops := by
  have hall : ∀ l ∈ switchOps.tails, .takeTree ∉ l.tail := by decide
  exact hall _ ((List.mem_tails _ _).mpr h)

private theorem treeBack_mem {ops : List UndoOp} (h : .treeAway :: ops <:+ undoOps) :
    .treeBack ∈ ops := by
  have hall : ∀ l ∈ undoOps.tails, l.head? = some .treeAway → .treeBack ∈ l.tail := by decide
  exact hall _ ((List.mem_tails _ _).mpr h) rfl

private theorem treeAway_not_mem {ops : List UndoOp} (h : .treeBack :: ops <:+ undoOps) :
    .treeAway ∉ ops := by
  have hall : ∀ l ∈ undoOps.tails, l.head? = some .treeBack → .treeAway ∉ l.tail := by decide
  exact hall _ ((List.mem_tails _ _).mpr h) rfl

private theorem dropMarker_mem {op : UndoOp} {ops : List UndoOp} (h : op :: ops <:+ undoOps)
    (hop : op.counts = true) : .dropMarker ∈ ops := by
  have hall : ∀ l ∈ undoOps.tails, l.head?.any UndoOp.counts = true → .dropMarker ∈ l.tail := by
    decide
  exact hall _ ((List.mem_tails _ _).mpr h) hop

private theorem after_dropMarker {ops : List UndoOp} (h : .dropMarker :: ops <:+ undoOps) :
    ops = [.dropStaging] := by
  have hall : ∀ l ∈ undoOps.tails, l.head? = some .dropMarker → l.tail = [.dropStaging] := by
    decide
  exact hall _ ((List.mem_tails _ _).mpr h) rfl

/-- Nothing has been replaced at the start. -/
theorem Switched.start (hprev : h.prev i = none) (hset : Settled pin h r) :
    Switched pin i r target switchOps h where
  taken op hop := absurd (mem_switchOps op) hop
  singBox _ := hset.1.singBox
  tree _ := ⟨hprev, hset.1.opt⟩

/-- In the end everything has. -/
theorem Switched.settled (hs : Switched pin i r target [] h) : Settled pin h target.release :=
  ⟨⟨fun x => hs.taken (.item x) List.not_mem_nil, hs.taken .singBox List.not_mem_nil,
    hs.taken .putTree List.not_mem_nil⟩, hs.taken .writeManifest List.not_mem_nil⟩

theorem Switched.restoring {ops : List SwitchOp} (hs : Switched pin i r target ops h)
    (hbackup : backup.singBox = none → target.stagesSingBox = false) :
    Restoring pin i r backup undoOps h where
  undone op hop := absurd (mem_undoOps op) hop
  singBox hnone := hs.singBox (hbackup hnone)
  tree _ := by
    by_cases htaken : .takeTree ∈ ops
    · exact .inl (hs.tree htaken)
    · exact .inr (hs.taken .takeTree htaken)

/-- Before the marker goes, everything is back. -/
theorem Restoring.settled {ops : List UndoOp} (hs : Restoring pin i r backup ops h)
    (hops : ∀ op ∈ ops, op.counts = false) : Settled pin h r := by
  have hundone : ∀ op : UndoOp, op.counts = true → Undone pin i r h op := by
    intro op hop
    refine hs.undone op fun hmem => ?_
    rw [hops op hmem] at hop
    cases hop
  exact ⟨⟨fun x => hundone (.item x) rfl, hundone .singBox rfl, hundone .treeBack rfl⟩,
    hundone .manifest rfl⟩

/-- A step that is left out, if it does not count. -/
theorem Restoring.skip {op : UndoOp} {ops : List UndoOp}
    (hs : Restoring pin i r backup (op :: ops) h) (hop : op.counts = false) :
    Restoring pin i r backup ops h where
  undone op' hop' := by
    by_cases hsame : op' = op
    · subst hsame
      cases op' with
      | dropMarker | dropStaging => trivial
      | item | singBox | treeAway | treeBack | services | manifest => cases hop
    · exact hs.undone op' (by simp [hsame, hop'])
  singBox := hs.singBox
  tree hback := hs.tree (List.mem_cons_of_mem op hback)

theorem Settled.of_eq {t : Host ι R V} (hs : Settled pin h r) (hitem : t.item = h.item)
    (hsing : t.singBox = h.singBox) (hopt : t.opt = h.opt) (hmanifest : t.manifest = h.manifest) :
    Settled pin t r :=
  ⟨⟨fun x => by rw [hitem, hs.1.item x], hsing.trans hs.1.singBox, hopt.trans hs.1.opt⟩,
    hmanifest.trans hs.2⟩

private theorem snapshot_saved (hset : Settled pin h r) : Saved pin r (snapshot target h true) where
  item := hset.1.item
  singBox := by
    unfold snapshot
    dsimp only
    split_ifs
    · exact .inr hset.1.singBox
    · exact .inl rfl
  manifest := congrArg some hset.2

private theorem snapshot_singBox (hset : Settled pin h r) (manifest : Bool)
    (h : (snapshot target h manifest).singBox = none) : target.stagesSingBox = false := by
  unfold snapshot at h
  dsimp only at h
  split_ifs at h with hstages
  · rw [hset.1.singBox] at h
    cases h
  · simpa using hstages

section Steps

variable [DecidableEq ι]

/-- A step of the switch leaves what the others have done. -/
theorem Taken.switch {op op' : SwitchOp} {t : Host ι R V} (h' : Taken pin i r target h op')
    (hne : op' ≠ op) (htree : op = .takeTree → op' ≠ .putTree)
    (ht : switch pin i target h op = some t) : Taken pin i r target t op' := by
  cases op with
  | takeTree =>
    simp only [Interruption.switch] at ht
    split_ifs at ht
    obtain rfl := Option.some.inj ht
    cases op' with
    | takeTree => exact absurd rfl hne
    | putTree => exact absurd rfl (htree rfl)
    | item | singBox | activate | writeManifest => exact h'
  | putTree =>
    obtain rfl := Option.some.inj ht
    cases op' with
    | putTree => exact absurd rfl hne
    | takeTree | item | singBox | activate | writeManifest => exact h'
  | item x =>
    obtain rfl := Option.some.inj ht
    cases op' with
    | item y =>
      have hxy : y ≠ x := fun hxy => hne (congrArg _ hxy)
      exact (Function.update_of_ne hxy ..).trans h'
    | takeTree | putTree | singBox | activate | writeManifest => exact h'
  | singBox =>
    obtain rfl := Option.some.inj ht
    split_ifs
    · cases op' with
      | singBox => exact absurd rfl hne
      | takeTree | putTree | item | activate | writeManifest => exact h'
    · exact h'
  | activate =>
    obtain rfl := Option.some.inj ht
    exact h'
  | writeManifest =>
    obtain rfl := Option.some.inj ht
    cases op' with
    | writeManifest => exact absurd rfl hne
    | takeTree | putTree | item | singBox | activate => exact h'

private theorem taken_switch {op : SwitchOp} {t : Host ι R V} (hpin : Pinned pin r target)
    (hsing : target.stagesSingBox = false → h.singBox = some (pin r))
    (htree : op = .takeTree → h.opt = some r) (ht : switch pin i target h op = some t) :
    Taken pin i r target t op := by
  cases op with
  | takeTree =>
    simp only [switch, htree rfl, Option.isSome_some, if_true, Option.some.injEq] at ht
    subst ht
    exact Function.update_self ..
  | activate => trivial
  | putTree | writeManifest =>
    obtain rfl := Option.some.inj ht
    exact rfl
  | item x =>
    obtain rfl := Option.some.inj ht
    exact Function.update_self ..
  | singBox =>
    obtain rfl := Option.some.inj ht
    by_cases hstages : target.stagesSingBox = true
    · rw [if_pos hstages]
      exact rfl
    · have hfalse : target.stagesSingBox = false := by simpa using hstages
      rw [if_neg hstages]
      exact (hsing hfalse).trans (congrArg some (hpin hfalse).symm)

/-- One step of the switch. -/
theorem Switched.step {op : SwitchOp} {ops : List SwitchOp} {t : Host ι R V}
    (hs : Switched pin i r target (op :: ops) h) (hsuffix : op :: ops <:+ switchOps)
    (hpin : Pinned pin r target) (ht : switch pin i target h op = some t) :
    Switched pin i r target ops t where
  taken op' hop' := by
    by_cases hsame : op' = op
    · subst hsame
      refine taken_switch hpin hs.singBox (fun htake => ?_) ht
      subst htake
      exact (hs.tree List.mem_cons_self).2
    · refine (hs.taken op' (by simp [hsame, hop'])).switch hsame ?_ ht
      rintro rfl rfl
      exact hop' (putTree_mem hsuffix)
  singBox hstages := by
    have hold := hs.singBox hstages
    cases op with
    | takeTree =>
      simp only [switch] at ht
      split_ifs at ht
      obtain rfl := Option.some.inj ht
      exact hold
    | singBox =>
      obtain rfl := Option.some.inj ht
      simpa [hstages] using hold
    | putTree | item | activate | writeManifest =>
      obtain rfl := Option.some.inj ht
      exact hold
  tree htake := absurd htake (takeTree_not_mem hsuffix)

/-- A step of the rollback leaves what the others have done. -/
theorem Undone.undo {op op' : UndoOp} (h' : Undone pin i r h op') (hne : op' ≠ op)
    (htree : op = .treeAway → op' ≠ .treeBack) : Undone pin i r (undo i backup h op) op' := by
  cases op with
  | item x =>
    cases op' with
    | item y =>
      have hxy : y ≠ x := fun hxy => hne (congrArg _ hxy)
      exact (Function.update_of_ne hxy ..).trans h'
    | singBox | treeAway | treeBack | services | manifest | dropMarker | dropStaging => exact h'
  | singBox =>
    cases op' with
    | singBox => exact absurd rfl hne
    | item | treeAway | treeBack | services | manifest | dropMarker | dropStaging => exact h'
  | treeAway =>
    simp only [Interruption.undo]
    split_ifs
    · cases op' with
      | treeAway => exact absurd rfl hne
      | treeBack => exact absurd rfl (htree rfl)
      | item | singBox | services | manifest | dropMarker | dropStaging => exact h'
    · exact h'
  | treeBack =>
    cases op' with
    | treeBack => exact absurd rfl hne
    | treeAway =>
      intro hprev
      simp [Interruption.undo] at hprev
    | item | singBox | services | manifest | dropMarker | dropStaging => exact h'
  | services => exact h'
  | manifest =>
    cases op' with
    | manifest => exact absurd rfl hne
    | item | singBox | treeAway | treeBack | services | dropMarker | dropStaging => exact h'
  | dropMarker | dropStaging =>
    cases op' <;> exact h'

private theorem undone_undo {op : UndoOp} (hsaved : Saved pin r backup)
    (hsing : backup.singBox = none → h.singBox = some (pin r))
    (htree : op = .treeBack → (h.prev i = none ∧ h.opt = some r) ∨ h.prev i = some r ∧ h.opt = none) :
    Undone pin i r (undo i backup h op) op := by
  cases op with
  | item x => exact (Function.update_self ..).trans (hsaved.item x)
  | singBox =>
    rcases hsaved.singBox with hnone | hsome
    · simpa [Undone, undo, hnone] using hsing hnone
    · simp [Undone, undo, hsome]
  | treeAway =>
    intro hprev
    by_cases hthere : (h.prev i).isSome = true
    · simp [undo, hthere]
    · simp only [undo, hthere, Bool.false_eq_true, if_false] at hprev
      simp [hprev] at hthere
  | treeBack =>
    rcases htree rfl with ⟨hprev, hopt⟩ | ⟨hprev, hopt⟩
    · simp [Undone, undo, hopt]
    · simp [Undone, undo, hopt, hprev]
  | manifest => simp [Undone, undo, hsaved.manifest]
  | services | dropMarker | dropStaging => trivial

/-- One step of the rollback. -/
theorem Restoring.step {op : UndoOp} {ops : List UndoOp}
    (hs : Restoring pin i r backup (op :: ops) h) (hsuffix : op :: ops <:+ undoOps)
    (hsaved : Saved pin r backup) : Restoring pin i r backup ops (undo i backup h op) where
  undone op' hop' := by
    by_cases hsame : op' = op
    · subst hsame
      refine undone_undo hsaved hs.singBox fun hback => ?_
      subst hback
      rcases hs.tree List.mem_cons_self with hthere | hprev
      · exact .inl hthere
      · refine .inr ⟨hprev, hs.undone .treeAway ?_ hprev⟩
        simpa using treeAway_not_mem hsuffix
    · refine (hs.undone op' (by simp [hsame, hop'])).undo hsame ?_
      rintro rfl rfl
      exact hop' (treeBack_mem hsuffix)
  singBox hnone := by
    have hold := hs.singBox hnone
    cases op with
    | singBox => simpa [undo, hnone] using hold
    | treeAway =>
      simp only [undo]
      split_ifs
      · exact hold
      · exact hold
    | item | treeBack | services | manifest | dropMarker | dropStaging => exact hold
  tree hback := by
    have hold := hs.tree (List.mem_cons_of_mem op hback)
    cases op with
    | treeAway =>
      rcases hold with ⟨hprev, hopt⟩ | hprev
      · exact .inl (by simp [undo, hprev, hopt])
      · exact .inr (by simp [undo, hprev])
    | treeBack => exact absurd hback (not_mem_of_suffix undoOps_nodup hsuffix).1
    | item | singBox | services | manifest | dropMarker | dropStaging => exact hold

private theorem switch_marker {op : SwitchOp} {t : Host ι R V}
    (ht : switch pin i target h op = some t) : t.marker = h.marker := by
  cases op with
  | takeTree =>
    simp only [switch] at ht
    split_ifs at ht
    obtain rfl := Option.some.inj ht
    rfl
  | singBox =>
    obtain rfl := Option.some.inj ht
    split_ifs
    · rfl
    · rfl
  | putTree | item | activate | writeManifest =>
    obtain rfl := Option.some.inj ht
    rfl

private theorem undo_marker {op : UndoOp} (hop : op ≠ .dropMarker) :
    (undo i backup h op).marker = h.marker := by
  cases op with
  | dropMarker => exact absurd rfl hop
  | treeAway =>
    simp only [undo]
    split_ifs
    · rfl
    · rfl
  | item | singBox | treeBack | services | manifest | dropStaging => rfl

private theorem switch_prev {j : ι} {op : SwitchOp} {t : Host ι R V} (hj : j ≠ i)
    (ht : switch pin i target h op = some t) : t.prev j = h.prev j := by
  cases op with
  | takeTree =>
    simp only [switch] at ht
    split_ifs at ht
    obtain rfl := Option.some.inj ht
    exact Function.update_of_ne hj ..
  | singBox =>
    obtain rfl := Option.some.inj ht
    split_ifs
    · rfl
    · rfl
  | putTree | item | activate | writeManifest =>
    obtain rfl := Option.some.inj ht
    rfl

private theorem undo_prev {j : ι} {op : UndoOp} (hj : j ≠ i) :
    (undo i backup h op).prev j = h.prev j := by
  cases op with
  | treeAway =>
    simp only [undo]
    split_ifs
    · rfl
    · rfl
  | treeBack => exact Function.update_of_ne hj ..
  | item | singBox | services | manifest | dropMarker | dropStaging => rfl

private theorem cleanUp_prev {j : ι} {op : CleanOp} (hj : j ≠ i) :
    (cleanUp i h op).prev j = h.prev j := by
  cases op with
  | dropPrev => exact Function.update_of_ne hj ..
  | dropStaging | dropMarker => rfl

private theorem undo_safe {op : UndoOp} {ops : List UndoOp} (hsafe : Safe pin h)
    (hsuffix : op :: ops <:+ undoOps) (hmarker : .dropMarker ∈ op :: ops → h.marker = true)
    (hnew : Restoring pin i r backup ops (undo i backup h op)) :
    Safe pin (undo i backup h op) ∧
      (.dropMarker ∈ ops → (undo i backup h op).marker = true) := by
  by_cases hdrop : op = .dropMarker
  · subst hdrop
    obtain rfl := after_dropMarker hsuffix
    exact ⟨.inr ⟨r, hnew.settled (by decide)⟩, fun hmem => by simp at hmem⟩
  · have hkept : (undo i backup h op).marker = h.marker := undo_marker hdrop
    refine ⟨?_, fun hmem => hkept.trans (hmarker (List.mem_cons_of_mem op hmem))⟩
    by_cases hcounts : op.counts = true
    · exact .inl (hkept.trans (hmarker
        (List.mem_cons_of_mem op (dropMarker_mem hsuffix hcounts))))
    · cases op with
      | dropMarker => exact absurd rfl hdrop
      | dropStaging => exact hsafe.imp id fun ⟨r, hset⟩ => ⟨r, hset.of_eq rfl rfl rfl rfl⟩
      | item | singBox | treeAway | treeBack | services | manifest => exact absurd rfl hcounts

end Steps

section Runs

variable [DecidableEq ι] [DecidableEq V]

inductive Moves (pin : R → V) (i : ι) (h : Host ι R V) :
    Phase R V → Answer R → Host ι R V → Phase R V → Prop
  | checked {a : Answer R} (hclear : h.marker = false) : Moves pin i h .checking a h .waiting
  | locked {a : Answer R} : Moves pin i h .waiting a h .locked
  | resolved {release : R} : Moves pin i h .locked (.resolved release)
      { h with staging := Function.update h.staging i true }
      (.staging ⟨release, pin release ≠ pin h.manifest⟩)
  | staged {target : Target R} : Moves pin i h (.staging target) .done h (.staged target)
  | unstaged {target : Target R} {a : Answer R} : Moves pin i h (.staging target) a
      { h with staging := Function.update h.staging i false } .exited
  | prepared {target : Target R} {a : Answer R} {manifest : Bool}
      (ha : a ≠ .withoutManifest → manifest = true) :
      Moves pin i h (.staged target) a h (.prepared target (snapshot target h manifest))
  | marked {target : Target R} {backup : Backup R V} :
      Moves pin i h (.prepared target backup) .done { h with marker := true } (.marked target backup)
  | starts {target : Target R} {backup : Backup R V} :
      Moves pin i h (.marked target backup) .done h (.switching target backup switchOps)
  | switched {target : Target R} {backup : Backup R V} {op : SwitchOp} {ops : List SwitchOp}
      {t : Host ι R V} (ht : switch pin i target h op = some t) :
      Moves pin i h (.switching target backup (op :: ops)) .done t (.switching target backup ops)
  | fails {target : Target R} {backup : Backup R V} {ops : List SwitchOp} {a : Answer R} :
      Moves pin i h (.switching target backup ops) a h (.rollback backup undoOps false)
  | commits {target : Target R} {backup : Backup R V} :
      Moves pin i h (.switching target backup []) .done h (.committed cleanOps)
  | cleans {op : CleanOp} {ops : List CleanOp} :
      Moves pin i h (.committed (op :: ops)) .done (cleanUp i h op) (.committed ops)
  | undoes {backup : Backup R V} {op : UndoOp} {ops : List UndoOp} {failed : Bool} :
      Moves pin i h (.rollback backup (op :: ops) failed) .done (undo i backup h op)
        (.rollback backup ops failed)
  | skips {backup : Backup R V} {op : UndoOp} {ops : List UndoOp} {failed : Bool} {a : Answer R}
      (ha : a ≠ .done) : Moves pin i h (.rollback backup (op :: ops) failed) a h
        (.rollback backup ops (failed || op.counts))
  | exits {p : Phase R V} {a : Answer R} : Moves pin i h p a h .exited

private theorem relies_step {p q : Phase R V} {a : Answer R} {t : Host ι R V} (hmay : Steady p a)
    (hsafe : Safe pin h) (hrel : Relies pin h i p) (hmove : Moves pin i h p a t q) :
    Safe pin t ∧ Relies pin t i q := by
  cases hmove with
  | checked hclear => exact ⟨hsafe, hrel, hclear⟩
  | locked =>
    obtain ⟨hprev, hmarker⟩ := hrel
    exact ⟨hsafe, hprev, hmarker, hsafe.resolve_left (by simp [hmarker])⟩
  | resolved =>
    obtain ⟨hprev, -, r, hset⟩ := hrel
    have hset' := hset.of_eq (t := { h with staging := Function.update h.staging i true })
      rfl rfl rfl rfl
    refine ⟨.inr ⟨r, hset'⟩, hprev, r, hset', fun hstages => ?_⟩
    simpa [hset.2] using hstages
  | staged => exact ⟨hsafe, hrel⟩
  | unstaged =>
    obtain ⟨-, r, hset, -⟩ := hrel
    exact ⟨.inr ⟨r, hset.of_eq rfl rfl rfl rfl⟩, trivial⟩
  | prepared ha =>
    obtain rfl := ha hmay
    obtain ⟨hprev, r, hset, hpin⟩ := hrel
    exact ⟨hsafe, hprev, r, hset, hpin, snapshot_saved hset, snapshot_singBox hset true⟩
  | marked =>
    obtain ⟨hprev, r, hset, hsaved⟩ := hrel
    exact ⟨.inl rfl, hprev, rfl, r, hset.of_eq rfl rfl rfl rfl, hsaved⟩
  | starts =>
    obtain ⟨hprev, hmarker, r, hset, hsaved⟩ := hrel
    exact ⟨hsafe, List.suffix_refl _, hmarker, r, Switched.start hprev hset, hsaved⟩
  | switched ht =>
    obtain ⟨hsuffix, hmarker, r, hs, hpin, hsaved⟩ := hrel
    have hkept : t.marker = true := (switch_marker ht).trans hmarker
    exact ⟨.inl hkept, (not_mem_of_suffix switchOps_nodup hsuffix).2, hkept, r,
      hs.step hsuffix hpin ht, hpin, hsaved⟩
  | fails =>
    obtain ⟨-, hmarker, r, hs, -, hsaved, hbackup⟩ := hrel
    exact ⟨hsafe, List.suffix_refl _, fun _ => hmarker, rfl, r, hsaved, hs.restoring hbackup⟩
  | commits =>
    obtain ⟨-, -, r, hs, -⟩ := hrel
    exact ⟨hsafe, _, hs.settled⟩
  | @cleans op =>
    obtain ⟨r, hset⟩ := hrel
    have hset' : Settled pin (cleanUp i h op) r := by
      cases op with
      | dropPrev | dropStaging | dropMarker => exact hset.of_eq rfl rfl rfl rfl
    exact ⟨.inr ⟨r, hset'⟩, r, hset'⟩
  | undoes =>
    obtain ⟨hsuffix, hmarker, rfl, r, hsaved, hs⟩ := hrel
    have hnew := hs.step hsuffix hsaved
    obtain ⟨hsafe', hmarker'⟩ := undo_safe hsafe hsuffix hmarker hnew
    exact ⟨hsafe', (not_mem_of_suffix undoOps_nodup hsuffix).2, hmarker', rfl, r, hsaved, hnew⟩
  | @skips _ op _ _ _ ha =>
    obtain ⟨hsuffix, hmarker, rfl, r, hsaved, hs⟩ := hrel
    -- only the last two steps may fail
    have hcounts : op.counts = false := by
      by_contra hcounts
      exact ha (hmay (by simpa using hcounts))
    exact ⟨hsafe, (not_mem_of_suffix undoOps_nodup hsuffix).2,
      fun hmem => hmarker (List.mem_cons_of_mem op hmem), by simp [hcounts], r, hsaved,
      hs.skip hcounts⟩
  | exits => exact ⟨hsafe, trivial⟩

private theorem moves_prev {j : ι} {p q : Phase R V} {a : Answer R} {t : Host ι R V} (hj : j ≠ i)
    (hmove : Moves pin i h p a t q) : t.prev j = h.prev j := by
  cases hmove with
  | switched ht => exact switch_prev hj ht
  | cleans => exact cleanUp_prev hj
  | undoes => exact undo_prev hj
  | checked | locked | resolved | staged | unstaged | prepared | marked | starts | fails | commits
  | skips | exits => rfl

variable [Fintype ι]

theorem moves_of_next {p q : Phase R V} {a : Answer R} {t : Host ι R V}
    (hnext : next pin i h p a = some (t, q)) : Moves pin i h p a t q := by
  cases p with
  | checking =>
    obtain ⟨rfl, rfl⟩ := Prod.mk.inj (Option.some.inj hnext)
    split_ifs with hfound
    · exact .exits
    · simp only [Bool.or_eq_true, not_or, Bool.not_eq_true] at hfound
      exact .checked hfound.1
  | waiting =>
    obtain ⟨rfl, rfl⟩ := Prod.mk.inj (Option.some.inj hnext)
    exact .locked
  | locked =>
    cases a with
    | resolved release =>
      obtain ⟨rfl, rfl⟩ := Prod.mk.inj (Option.some.inj hnext)
      exact .resolved
    | done | failed | withoutManifest =>
      obtain ⟨rfl, rfl⟩ := Prod.mk.inj (Option.some.inj hnext)
      exact .exits
  | staging target =>
    cases a with
    | done =>
      obtain ⟨rfl, rfl⟩ := Prod.mk.inj (Option.some.inj hnext)
      exact .staged
    | failed | resolved | withoutManifest =>
      obtain ⟨rfl, rfl⟩ := Prod.mk.inj (Option.some.inj hnext)
      exact .unstaged
  | staged target =>
    cases a with
    | done =>
      obtain ⟨rfl, rfl⟩ := Prod.mk.inj (Option.some.inj hnext)
      split_ifs
      · exact .prepared fun _ => rfl
      · exact .exits
    | withoutManifest =>
      obtain ⟨rfl, rfl⟩ := Prod.mk.inj (Option.some.inj hnext)
      split_ifs
      · exact .prepared fun ha => absurd rfl ha
      · exact .exits
    | failed | resolved =>
      obtain ⟨rfl, rfl⟩ := Prod.mk.inj (Option.some.inj hnext)
      exact .exits
  | prepared target backup =>
    cases a with
    | done =>
      obtain ⟨rfl, rfl⟩ := Prod.mk.inj (Option.some.inj hnext)
      exact .marked
    | failed | resolved | withoutManifest =>
      obtain ⟨rfl, rfl⟩ := Prod.mk.inj (Option.some.inj hnext)
      exact .exits
  | marked target backup =>
    cases a with
    | done =>
      obtain ⟨rfl, rfl⟩ := Prod.mk.inj (Option.some.inj hnext)
      exact .starts
    | failed | resolved | withoutManifest =>
      obtain ⟨rfl, rfl⟩ := Prod.mk.inj (Option.some.inj hnext)
      exact .exits
  | switching target backup ops =>
    cases ops with
    | nil =>
      cases a with
      | done =>
        obtain ⟨rfl, rfl⟩ := Prod.mk.inj (Option.some.inj hnext)
        exact .commits
      | failed | resolved | withoutManifest =>
        obtain ⟨rfl, rfl⟩ := Prod.mk.inj (Option.some.inj hnext)
        exact .fails
    | cons op ops =>
      cases a with
      | done =>
        simp only [next] at hnext
        cases hswitch : switch pin i target h op with
        | none =>
          rw [hswitch] at hnext
          obtain ⟨rfl, rfl⟩ := Prod.mk.inj (Option.some.inj hnext)
          exact .fails
        | some u =>
          rw [hswitch] at hnext
          obtain ⟨rfl, rfl⟩ := Prod.mk.inj (Option.some.inj hnext)
          exact .switched hswitch
      | failed | resolved | withoutManifest =>
        obtain ⟨rfl, rfl⟩ := Prod.mk.inj (Option.some.inj hnext)
        exact .fails
  | committed ops =>
    cases ops with
    | nil =>
      obtain ⟨rfl, rfl⟩ := Prod.mk.inj (Option.some.inj hnext)
      exact .exits
    | cons op ops =>
      cases a with
      | done =>
        obtain ⟨rfl, rfl⟩ := Prod.mk.inj (Option.some.inj hnext)
        exact .cleans
      | failed | resolved | withoutManifest =>
        obtain ⟨rfl, rfl⟩ := Prod.mk.inj (Option.some.inj hnext)
        exact .exits
  | rollback backup ops failed =>
    cases ops with
    | nil =>
      obtain ⟨rfl, rfl⟩ := Prod.mk.inj (Option.some.inj hnext)
      exact .exits
    | cons op ops =>
      cases a with
      | done =>
        obtain ⟨rfl, rfl⟩ := Prod.mk.inj (Option.some.inj hnext)
        exact .undoes
      | failed | resolved | withoutManifest =>
        obtain ⟨rfl, rfl⟩ := Prod.mk.inj (Option.some.inj hnext)
        exact .skips (by simp)
  | exited => cases hnext

/-- What an invocation relies on is kept, if each step is taken with care. -/
theorem protocol (pin : R → V) :
    Protocol (updateScript (ι := ι) pin) Careful (Safe pin) (Relies pin) where
  gone_free := rfl
  gone_relies _ _ := trivial
  idle := by
    intro i h p a t q hfree hnext
    cases p with
    | checking | waiting =>
      obtain ⟨rfl, -⟩ := Prod.mk.inj (Option.some.inj hnext)
      rfl
    | exited => cases hnext
    | locked | staging | staged | prepared | marked | switching | committed | rollback =>
      cases hfree
  step hmay hsafe hrel hnext := relies_step hmay.1 hsafe hrel (moves_of_next hnext)
  frame := by
    intro σ i j a t q hmay hj hholds hfree hnext hrel
    have hunchecked := hmay.2 hholds j
    have hkept := moves_prev hj (moves_of_next hnext)
    cases hphase : σ.phase j with
    | checking =>
      rw [hphase] at hrel
      exact hkept.trans hrel
    | waiting =>
      rw [hphase] at hunchecked
      cases hunchecked
    | exited => trivial
    | locked | staging | staged | prepared | marked | switching | committed | rollback =>
      rw [hphase] at hfree
      cases hfree

structure Fresh (pin : R → V) (σ : System ι (Host ι R V) (Phase R V)) : Prop where
  settled : ∃ r, Settled pin σ.shared r
  prev : ∀ i, σ.shared.prev i = none
  phase : ∀ i, σ.phase i = .checking

/-- Who is about to switch finds one release, and so does everyone where there is no marker. The
marker goes only with a commit or with a rollback that did not fail, and who has waited for the lock
has not missed one. -/
structure Detects (pin : R → V) (σ : System ι (Host ι R V) (Phase R V)) : Prop where
  switch : ∀ i target backup, σ.phase i = .marked target backup → ∃ r, OneRelease pin σ.shared r
  marker : σ.shared.marker = false → ∃ r, OneRelease pin σ.shared r
  drops : ∀ i a t q, next pin i σ.shared (σ.phase i) a = some (t, q) → σ.shared.marker = true →
    t.marker = false →
    ((∃ ops, σ.phase i = .committed ops) ∨ ∃ backup ops, σ.phase i = .rollback backup ops false) ∧
      ∃ r, OneRelease pin t r
  waited : ∀ i, σ.phase i = .locked → σ.shared.marker = false

theorem Fresh.orderly {σ : System ι (Host ι R V) (Phase R V)} (hσ : Fresh pin σ) :
    Orderly (updateScript pin) (Safe pin) (Relies pin) σ where
  alone i j hi := by
    rw [hσ.phase i] at hi
    cases hi
  safe := .inr hσ.settled
  relies i := by
    rw [hσ.phase i]
    exact hσ.prev i

end Runs

end Invariant

section Samples

def sampleSystem : System Bool (Host Bool Nat Nat) (Phase Nat Nat) :=
  ⟨⟨fun _ => some 0, some 0, some 0, 0, false, fun _ => false, fun _ => none⟩, fun _ => .checking⟩

instance {R V : Type} [DecidableEq R] (p : Phase R V) (a : Answer R) : Decidable (Steady p a) := by
  unfold Steady
  split
  all_goals infer_instance

instance {ι R V : Type} [Fintype ι] [DecidableEq R] (σ : System ι (Host ι R V) (Phase R V))
    (e : Event ι (Answer R)) : Decidable (Careful σ e) := by
  unfold Careful
  split
  all_goals infer_instance

/-- A rollback that could not put a binary back removes the marker, too. -/
theorem failedRollback_misses_marker :
    ∃ τ : System Bool (Host Bool Nat Nat) (Phase Nat Nat),
      Reaches (updateScript id) (fun _ _ => True) sampleSystem τ ∧ ¬ Detects id τ := by
  let events : List (Event Bool (Answer Nat)) :=
    [.run true .done, .run true .done, .run true (.resolved 1)] ++
      List.replicate 7 (.run true .done) ++ [.run true .failed, .run true .failed] ++
      List.replicate 15 (.run true .done)
  refine ⟨_, reaches_of_foldlM events rfl, fun hdetects => ?_⟩
  obtain ⟨r, hr⟩ := hdetects.marker rfl
  have hadmin := hr.item .vpnAdmin
  have hopt := hr.opt
  cases hadmin
  cases hopt

end Samples

end Vpn1.Deploy.Interruption
