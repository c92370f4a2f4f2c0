import Mathlib.Logic.Function.Basic
import Vpn1.Lib.Traced

/-! The deploy hook of certbot: it puts a renewed certificate and its key in the place of those that
Hysteria2 serves, and its exit trap takes them back. -/

namespace Vpn1.Deploy.Renewal

open Traced

variable {α : Type}

section Hook

inductive Content (α : Type)
  | whole (content : α)
  | part
  deriving DecidableEq

abbrev File (α : Type) := Option (Content α)

inductive Item
  | cert
  | key
  deriving DecidableEq, Repr

/-- The files in `hysteria/`, and the variables and the trap of the shell. -/
structure Hook (α : Type) where
  -- `cert.pem` and `key.pem`
  live : Item → File α
  -- `cert.pem.renew-bak` and `key.pem.renew-bak`
  bak : Item → File α
  -- `cert.pem.renew.tmp` and `key.pem.renew.tmp`
  tmp : Item → File α
  /-- `trap on_renewal_exit EXIT` is in force. -/
  armed : Bool
  swapStarted : Bool
  committed : Bool

structure Lineage (α : Type) where
  fullchain : α
  privkey : α

def Lineage.renewed (lineage : Lineage α) : Item → α
  | .cert => lineage.fullchain
  | .key => lineage.privkey

/-- What the hook finds, and how the commands it waits for turn out. -/
structure Env where
  lineageSet : Bool
  deployment : Bool
  isPublicHost : Bool
  fullchainThere : Bool
  privkeyThere : Bool
  currentlyValid : Bool
  matchesSan : Bool
  singBoxThere : Bool
  checks : Bool
  reloads : Bool
  active : Bool
  nginxActive : Bool
  nginxTests : Bool
  nginxReloads : Bool

inductive Exit
  | noLineage
  -- `exit 0`
  | notInstalled
  | otherHost
  | noFullchain
  | noPrivkey
  | expired
  | wrongHost
  | mismatch
  | staleBackup
  | noSingBox
  | checkFailed
  | reloadFailed
  | inactive
  | nginxTestFailed
  | nginxReloadFailed
  deriving DecidableEq, Repr

abbrev Script (α : Type) := Prog (Hook α) Unit Exit

def step (f : Hook α → Hook α) : Script α Unit := Prog.move () f

def checkLineage (env : Env) : Script α Unit := do
  Prog.ensure env.lineageSet .noLineage
  Prog.ensure env.deployment .notInstalled
  Prog.ensure env.isPublicHost .otherHost
  Prog.ensure env.fullchainThere .noFullchain
  Prog.ensure env.privkeyThere .noPrivkey
  Prog.ensure env.currentlyValid .expired
  Prog.ensure env.matchesSan .wrongHost

/-- `install` of one file beside its place. -/
def stage (lineage : Lineage α) (x : Item) : Script α Unit := do
  step fun s => { s with tmp := Function.update s.tmp x (some .part) }
  step fun s => { s with tmp := Function.update s.tmp x (some (.whole (lineage.renewed x))) }

/-- The two public keys are compared before anything is replaced. -/
def stagePair (isPair : α → α → Bool) (lineage : Lineage α) : Script α Unit := do
  stage lineage .cert
  stage lineage .key
  Prog.ensure (isPair lineage.fullchain lineage.privkey) .mismatch

/-- `[ -f "$cert" ] && cp -a "$cert" "$cert_bak"`. -/
def backUp (x : Item) : Script α Unit := do
  let s ← Prog.look id
  if (s.live x).isSome then
    step fun s => { s with bak := Function.update s.bak x (some .part) }
    step fun s => { s with bak := Function.update s.bak x (s.live x) }
  else pure ()

def backUpPair : Script α Unit := do
  let s ← Prog.look id
  Prog.ensure ((s.bak .cert).isNone && (s.bak .key).isNone) .staleBackup
  backUp .cert
  backUp .key

/-- `mv -f "$tmp_cert" "$cert"`. -/
def putInPlace (x : Item) : Script α Unit :=
  step fun s => { s with
    live := Function.update s.live x (s.tmp x), tmp := Function.update s.tmp x none }

/-- `INT` and `TERM` are made exits before `swap_started` is set. -/
def swapPair : Script α Unit := do
  step fun s => { s with swapStarted := false, committed := false }
  step fun s => { s with armed := true }
  step fun s => { s with swapStarted := true }
  putInPlace .cert
  putInPlace .key

def validate (env : Env) : Script α Unit := do
  Prog.ensure env.singBoxThere .noSingBox
  Prog.ensure env.checks .checkFailed
  Prog.ensure env.reloads .reloadFailed
  Prog.ensure env.active .inactive

def commit (env : Env) : Script α Unit := do
  step fun s => { s with committed := true }
  step fun s => { s with armed := false }
  step fun s => { s with bak := Function.update s.bak .cert none }
  step fun s => { s with bak := Function.update s.bak .key none }
  if env.nginxActive then
    Prog.ensure env.nginxTests .nginxTestFailed
    Prog.ensure env.nginxReloads .nginxReloadFailed
  else pure ()

def deployHook (isPair : α → α → Bool) (env : Env) (lineage : Lineage α) : Script α Unit := do
  checkLineage env
  stagePair isPair lineage
  backUpPair
  swapPair
  validate env
  commit env

/-- The renames of the trap are taken to succeed. -/
def rollbackRenewal (s : Hook α) : Hook α := { s with
  live := fun x => if (s.bak x).isSome then s.bak x else s.live x
  bak := fun _ => none
  tmp := fun _ => none
  armed := false }

def onRenewalExit (rc : Nat) (s : Hook α) : Hook α :=
  if rc ≠ 0 ∧ s.swapStarted = true ∧ s.committed = false then rollbackRenewal s else s

def exitWith (rc : Nat) (s : Hook α) : Hook α := if s.armed then onRenewalExit rc s else s

end Hook

section Stages

variable (isPair : α → α → Bool) (lineage : Lineage α) (start : Hook α)

structure Clean : Prop where
  bak : ∀ x, start.bak x = none
  armed : start.armed = false
  swapStarted : start.swapStarted = false
  committed : start.committed = false

/-- Until `swap_started` is set nothing in place has changed. -/
structure Waiting (s : Hook α) : Prop where
  live : s.live = start.live
  swapStarted : s.swapStarted = false
  committed : s.committed = false

/-- From then on the trap is in force and what was there is backed up. -/
structure Swapping (s : Hook α) : Prop where
  live : ∀ x, s.live x = start.live x ∨ s.live x = some (.whole (lineage.renewed x))
  bak : ∀ x, s.bak x = start.live x
  armed : s.armed = true
  swapStarted : s.swapStarted = true
  committed : s.committed = false

structure Committed (s : Hook α) : Prop where
  live : ∀ x, s.live x = some (.whole (lineage.renewed x))
  isPair : isPair lineage.fullchain lineage.privkey = true
  committed : s.committed = true

def Stage (s : Hook α) : Prop :=
  Waiting start s ∨ Swapping lineage start s ∨ Committed isPair lineage s

structure Staged (s : Hook α) : Prop extends Waiting start s where
  tmp : ∀ x, s.tmp x = some (.whole (lineage.renewed x))
  isPair : isPair lineage.fullchain lineage.privkey = true

end Stages

section Run

variable {isPair : α → α → Bool} {lineage : Lineage α} {start s : Hook α} {env : Env}

theorem Item.forall {P : Item → Prop} (hcert : P .cert) (hkey : P .key) (x : Item) : P x := by
  cases x with
  | cert => exact hcert
  | key => exact hkey

theorem wp_checkLineage {G : Unit → Hook α → Prop} :
    Wp (checkLineage env) s G (fun _ t => t = s) := by
  simp only [checkLineage, wp_bind, wp_ensure]
  split_ifs

theorem wp_validate {G : Unit → Hook α → Prop} : Wp (validate env) s G (fun _ t => t = s) := by
  simp only [validate, wp_bind, wp_ensure]
  split_ifs

theorem wp_stage (x : Item) (h : Waiting start s) :
    Wp (stage lineage x) s (fun _ t => Waiting start t)
      (fun r t => r = .ok () ∧
        t = { s with tmp := Function.update s.tmp x (some (.whole (lineage.renewed x))) }) := by
  have hwaiting : ∀ tmp, Waiting start { s with tmp := tmp } :=
    fun _ => ⟨h.live, h.swapStarted, h.committed⟩
  rw [stage, wp_bind, step, wp_move]
  refine ⟨hwaiting _, ?_⟩
  rw [step, wp_move]
  refine ⟨hwaiting _, rfl, ?_⟩
  rw [Function.update_idem]

theorem wp_stagePair (h : Waiting start s) :
    Wp (stagePair isPair lineage) s (fun _ t => Waiting start t)
      (fun r t => Waiting start t ∧ (r = .ok () → Staged isPair lineage start t)) := by
  have hwaiting : ∀ tmp, Waiting start { s with tmp := tmp } :=
    fun _ => ⟨h.live, h.swapStarted, h.committed⟩
  rw [stagePair]
  apply (wp_stage .cert h).bind_of_ok
  rintro t rfl
  apply (wp_stage .key (hwaiting _)).bind_of_ok
  rintro t rfl
  rw [wp_ensure]
  split_ifs with hpair
  · refine ⟨hwaiting _, fun _ => ⟨hwaiting _, ?_, hpair⟩⟩
    exact Item.forall (by simp) (by simp)
  · exact ⟨hwaiting _, fun hok => by cases hok⟩

theorem wp_backUp (x : Item) (h : Waiting start s) (hbak : s.bak x = none) :
    Wp (backUp x) s (fun _ t => Waiting start t)
      (fun r t => r = .ok () ∧ t = { s with bak := Function.update s.bak x (s.live x) }) := by
  have hwaiting : ∀ bak, Waiting start { s with bak := bak } :=
    fun _ => ⟨h.live, h.swapStarted, h.committed⟩
  rw [backUp, wp_look_bind, id]
  by_cases hlive : (s.live x).isSome = true
  · rw [if_pos hlive, wp_bind, step, wp_move]
    refine ⟨hwaiting _, ?_⟩
    rw [step, wp_move]
    refine ⟨hwaiting _, rfl, ?_⟩
    simp
  · have hsame : Function.update s.bak x (s.live x) = s.bak := by
      rw [Option.not_isSome_iff_eq_none.mp hlive, ← hbak, Function.update_eq_self]
    rw [if_neg hlive, wp_pure, hsame]
    exact ⟨rfl, rfl⟩

theorem wp_backUpPair (h : Staged isPair lineage start s) :
    Wp backUpPair s (fun _ t => Waiting start t)
      (fun r t => Waiting start t ∧
        (r = .ok () → Staged isPair lineage start t ∧ ∀ x, t.bak x = start.live x)) := by
  have hstaged : ∀ bak, Staged isPair lineage start { s with bak := bak } :=
    fun _ => ⟨⟨h.live, h.swapStarted, h.committed⟩, h.tmp, h.isPair⟩
  rw [backUpPair, wp_look_bind]
  refine wp_ensure_bind (fun _ => ⟨h.toWaiting, fun hok => by cases hok⟩) fun hnone => ?_
  simp only [id, Bool.and_eq_true, Option.isNone_iff_eq_none] at hnone
  have hkey : Function.update s.bak .cert (s.live .cert) .key = none := by
    rw [Function.update_of_ne (by decide), hnone.2]
  apply (wp_backUp .cert h.toWaiting hnone.1).bind_of_ok
  rintro t rfl
  have hcert := (hstaged (Function.update s.bak .cert (s.live .cert))).toWaiting
  apply (wp_backUp .key hcert hkey).mono (fun _ _ ht => ht)
  rintro r t ⟨rfl, rfl⟩
  refine ⟨(hstaged _).toWaiting, fun _ => ⟨hstaged _, ?_⟩⟩
  rw [← h.live]
  exact Item.forall (by simp) (by simp)

theorem wp_swapPair (h : Staged isPair lineage start s) (hbak : ∀ x, s.bak x = start.live x) :
    Wp swapPair s (fun _ t => Stage isPair lineage start t)
      (fun r t => r = .ok () ∧ Swapping lineage start t ∧
        ∀ x, t.live x = some (.whole (lineage.renewed x))) := by
  have hwaiting : ∀ armed,
      Waiting start { s with armed := armed, swapStarted := false, committed := false } :=
    fun _ => ⟨h.live, rfl, rfl⟩
  have hswapping : ∀ live tmp,
      (∀ x, live x = start.live x ∨ live x = some (.whole (lineage.renewed x))) →
      Swapping lineage start ⟨live, s.bak, tmp, true, true, false⟩ :=
    fun _ _ hlive => ⟨hlive, hbak, rfl, rfl, rfl⟩
  have hold : ∀ x, s.live x = start.live x ∨ s.live x = some (.whole (lineage.renewed x)) :=
    fun x => .inl (congrFun h.live x)
  have hcert : ∀ x, Function.update s.live .cert (s.tmp .cert) x = start.live x ∨
      Function.update s.live .cert (s.tmp .cert) x = some (.whole (lineage.renewed x)) :=
    Item.forall (.inr (by simp [h.tmp])) (by simpa using hold .key)
  have hboth : ∀ x,
      Function.update (Function.update s.live .cert (s.tmp .cert)) .key (s.tmp .key) x =
        some (.whole (lineage.renewed x)) :=
    Item.forall (by simp [h.tmp]) (by simp [h.tmp])
  have hdone := hswapping _ (Function.update (Function.update s.tmp .cert none) .key none)
    fun x => .inr (hboth x)
  simp only [swapPair, putInPlace, step, wp_bind, wp_move]
  refine ⟨.inl (hwaiting _), .inl (hwaiting _), .inr (.inl (hswapping _ _ hold)),
    .inr (.inl (hswapping _ _ hcert)), ?_⟩
  have hkey : Function.update s.tmp .cert none .key = s.tmp .key :=
    Function.update_of_ne (by decide) _ _
  rw [hkey]
  exact ⟨.inr (.inl hdone), trivial, hdone, hboth⟩

theorem wp_commit (hpair : isPair lineage.fullchain lineage.privkey)
    (hlive : ∀ x, s.live x = some (.whole (lineage.renewed x))) :
    Wp (commit env) s (fun _ t => Committed isPair lineage t)
      (fun _ t => Committed isPair lineage t) := by
  have hcommitted : ∀ bak armed,
      Committed isPair lineage { s with bak := bak, armed := armed, committed := true } :=
    fun _ _ => ⟨hlive, hpair, rfl⟩
  simp only [commit, step, wp_bind, wp_move]
  refine ⟨hcommitted _ _, hcommitted _ _, hcommitted _ _, hcommitted _ _, ?_⟩
  split_ifs
  · simp only [wp_bind, wp_ensure]
    split_ifs <;> exact hcommitted _ _
  · exact wp_pure.mpr (hcommitted _ _)

theorem wp_deployHook (hstart : Clean start) :
    Wp (deployHook isPair env lineage) start (fun _ t => Stage isPair lineage start t)
      (fun _ t => Stage isPair lineage start t) := by
  have hwaiting : Waiting start start := ⟨rfl, hstart.swapStarted, hstart.committed⟩
  rw [deployHook]
  apply wp_checkLineage.bind
  · rintro - t rfl
    have hpair : Wp (stagePair isPair lineage) t (fun _ u => Stage isPair lineage t u)
        (fun r u => Waiting t u ∧ (r = .ok () → Staged isPair lineage t u)) :=
      (wp_stagePair hwaiting).mono (fun _ _ ht => .inl ht) fun _ _ ht => ht
    apply hpair.bind
    · rintro ⟨⟩ u ⟨-, hstaged⟩
      have hbackUp : Wp backUpPair u (fun _ v => Stage isPair lineage t v)
          (fun r v => Waiting t v ∧
            (r = .ok () → Staged isPair lineage t v ∧ ∀ x, v.bak x = t.live x)) :=
        (wp_backUpPair (hstaged rfl)).mono (fun _ _ ht => .inl ht) fun _ _ ht => ht
      apply hbackUp.bind
      · rintro ⟨⟩ v ⟨-, hsaved⟩
        obtain ⟨hstaged, hbak⟩ := hsaved rfl
        apply (wp_swapPair hstaged hbak).bind_of_ok
        rintro w ⟨hswapping, hlive⟩
        apply wp_validate.bind
        · rintro - x rfl
          exact (wp_commit hstaged.isPair hlive).mono (fun _ _ ht => .inr (.inr ht))
            fun _ _ ht => .inr (.inr ht)
        · rintro - x rfl
          exact .inr (.inl hswapping)
      · rintro - t ⟨ht, -⟩
        exact .inl ht
    · rintro - t ⟨ht, -⟩
      exact .inl ht
  · rintro - t rfl
    exact .inl hwaiting

private theorem stage_of_mem_states (hstart : Clean start)
    (hs : s ∈ (deployHook isPair env lineage).states start) : Stage isPair lineage start s :=
  (wp_deployHook hstart).of_mem_states (.inl ⟨rfl, hstart.swapStarted, hstart.committed⟩)
    (fun _ _ ht => ht) hs

end Run

section Trap

/-- Everything is as it was, and the next renewal is not refused. -/
structure Restored (start t : Hook α) : Prop where
  live : ∀ x, t.live x = start.live x
  bak : ∀ x, t.bak x = none

/-- The hook does not end between the first backup and `swap_started=1`, and what it has replaced
had a predecessor. -/
structure Covered (start s : Hook α) : Prop where
  bak : s.swapStarted = false → ∀ x, s.bak x = none
  live : ∀ x, s.live x = start.live x ∨ (start.live x).isSome = true

private theorem exitWith_eq_self {s : Hook α} (h : s.swapStarted = false ∨ s.committed = true)
    (rc : Nat) : exitWith rc s = s := by
  have hno : ¬(rc ≠ 0 ∧ s.swapStarted = true ∧ s.committed = false) := by
    rintro ⟨-, hswap, hcommit⟩
    simp [hswap, hcommit] at h
  rw [exitWith]
  split_ifs
  · rw [onRenewalExit, if_neg hno]
  · rfl

private theorem exitWith_swapping {lineage : Lineage α} {start s : Hook α}
    (h : Swapping lineage start s)
    {rc : Nat} (hrc : rc ≠ 0) : exitWith rc s = rollbackRenewal s := by
  rw [exitWith, if_pos h.armed, onRenewalExit, if_pos ⟨hrc, h.swapStarted, h.committed⟩]

theorem restored_rollback_iff {lineage : Lineage α} {start s : Hook α}
    (h : Swapping lineage start s) : Restored start (rollbackRenewal s) ↔ Covered start s := by
  have hlive : ∀ x, (rollbackRenewal s).live x = start.live x ↔
      s.live x = start.live x ∨ (start.live x).isSome = true := by
    intro x
    show (if (s.bak x).isSome then s.bak x else s.live x) = start.live x ↔ _
    rw [h.bak x]
    split_ifs with hsome
    · simp [hsome]
    · simp [hsome]
  constructor
  · intro hrestored
    refine ⟨fun hwaiting => ?_, fun x => (hlive x).mp (hrestored.live x)⟩
    rw [h.swapStarted] at hwaiting
    cases hwaiting
  · intro hcovered
    exact ⟨fun x => (hlive x).mpr (hcovered.live x), fun _ => rfl⟩

/-- A renewal that ends before it commits is taken back exactly if it does not end between its first
backup and `swap_started=1`, and every file that it has replaced was there before. One that commits
leaves the renewed pair. -/
theorem renewal_restored_iff (isPair : α → α → Bool) (env : Env) (lineage : Lineage α)
    {start s : Hook α} (hstart : Clean start)
    (hs : s ∈ (deployHook isPair env lineage).states start) {rc : Nat} (hrc : rc ≠ 0) :
    (s.committed = false → (Restored start (exitWith rc s) ↔ Covered start s)) ∧
    (s.committed = true → isPair lineage.fullchain lineage.privkey = true ∧
      ∀ x, (exitWith rc s).live x = some (.whole (lineage.renewed x))) := by
  rcases stage_of_mem_states hstart hs with hwaiting | hswapping | hcommitted
  · rw [exitWith_eq_self (.inl hwaiting.swapStarted)]
    constructor
    · intro _
      constructor
      · intro hrestored
        exact ⟨fun _ => hrestored.bak, fun x => .inl (congrFun hwaiting.live x)⟩
      · intro hcovered
        exact ⟨congrFun hwaiting.live, hcovered.bak hwaiting.swapStarted⟩
    · intro hcommitted
      rw [hwaiting.committed] at hcommitted
      cases hcommitted
  · rw [exitWith_swapping hswapping hrc]
    constructor
    · intro _
      exact restored_rollback_iff hswapping
    · intro hcommitted
      rw [hswapping.committed] at hcommitted
      cases hcommitted
  · constructor
    · intro hfalse
      rw [hcommitted.committed] at hfalse
      cases hfalse
    · intro _
      rw [exitWith_eq_self (.inr hcommitted.committed)]
      exact ⟨hcommitted.isPair, hcommitted.live⟩

def samplePair : Lineage Nat := ⟨3, 4⟩

/-- A host on which the new certificate does not pass `sing-box check`. -/
def checkFails : Env where
  lineageSet := true
  deployment := true
  isPublicHost := true
  fullchainThere := true
  privkeyThere := true
  currentlyValid := true
  matchesSan := true
  singBoxThere := true
  checks := false
  reloads := true
  active := true
  nginxActive := false
  nginxTests := true
  nginxReloads := true

def starting (cert key : File Nat) : Hook Nat where
  live
    | .cert => cert
    | .key => key
  bak _ := none
  tmp _ := none
  armed := false
  swapStarted := false
  committed := false

private theorem starting_clean (cert key : File Nat) : Clean (starting cert key) :=
  ⟨fun _ => rfl, rfl, rfl, rfl⟩

def sampleRun (start : Hook Nat) : Run (Hook Nat) Unit (Except Exit Unit) :=
  deployHook (fun _ _ => true) checkFails samplePair start

theorem both_files_restored :
    Clean (starting (some (.whole 1)) (some (.whole 2))) ∧
    Restored (starting (some (.whole 1)) (some (.whole 2)))
      (exitWith 1 (sampleRun (starting (some (.whole 1)) (some (.whole 2)))).final) := by
  have hstart := starting_clean (some (.whole 1)) (some (.whole 2))
  have hmem := final_mem_states (deployHook (fun _ _ => true) checkFails samplePair)
    (starting (some (.whole 1)) (some (.whole 2)))
  refine ⟨hstart, ((renewal_restored_iff _ _ _ hstart hmem (by decide)).1 rfl).mpr ⟨?_, ?_⟩⟩
  · intro hwaiting
    cases hwaiting
  · exact Item.forall (.inr rfl) (.inr rfl)

/-- Without a certificate to give back, a failed check leaves the new one beside the old key. A hook
that is interrupted before `swap_started=1` leaves its backup. -/
theorem absent_cert_stays_replaced :
    (sampleRun (starting none (some (.whole 2)))).result = .error .checkFailed ∧
    (exitWith 1 (sampleRun (starting none (some (.whole 2)))).final).live .cert = some (.whole 3) ∧
    (exitWith 1 (sampleRun (starting none (some (.whole 2)))).final).live .key = some (.whole 2) ∧
    ∃ s ∈ (deployHook (fun _ _ => true) checkFails samplePair).states
      (starting (some (.whole 1)) (some (.whole 2))),
      (exitWith 130 s).bak .cert = some (.whole 1) := by
  refine ⟨rfl, rfl, rfl, ?_⟩
  refine ⟨((sampleRun (starting (some (.whole 1)) (some (.whole 2)))).trail[5]).2, ?_, rfl⟩
  simp only [Prog.states]
  apply List.mem_cons_of_mem
  apply List.mem_append_left
  exact List.mem_map_of_mem (List.getElem_mem _)

end Trap

end Vpn1.Deploy.Renewal
