import Mathlib.Data.List.Induction
import Mathlib.Logic.Function.Basic
import Vpn1.Lib.Traced

/-! `perf-tuning.sh`: the kernel network values of a host, the baseline that is recorded before they
are first changed, and the way back to it. -/

namespace Vpn1.Deploy.Perf

open Traced

section Model

inductive Param
  /-- `net.core.rmem_max` -/
  | rmemMax
  /-- `net.core.wmem_max` -/
  | wmemMax
  /-- `net.ipv4.tcp_congestion_control` -/
  | tcpCongestionControl
  /-- `net.core.default_qdisc` -/
  | defaultQdisc
  deriving DecidableEq, Repr

def Param.all : List Param := [.rmemMax, .wmemMax, .tcpCongestionControl, .defaultQdisc]

abbrev Values := Param → String

abbrev Settings := List (Param × String)

/-- The values that the kernel starts with, and those that can be written to a parameter. -/
structure Kernel where
  defaults : Values
  accepts : Param → String → Bool

/-- What the other files that `sysctl --system` reads set: before the rollback drop-in, whose name
comes before that of the tuning drop-in, between the two, and after them. -/
structure OtherFiles where
  before : Settings
  between : Settings
  after : Settings

structure Host where
  live : Values
  /-- `perf-tuning-baseline.env` -/
  baseline : Option Values
  /-- `99-vpn1-dataplane.conf` -/
  dropin : Option Settings
  /-- `99-vpn1-dataplane-rollback.conf` -/
  rollback : Option Settings

def untouched (live : Values) : Host := ⟨live, none, none, none⟩

inductive Point
  | assigned
  | baseline
  | dropin
  | rollback
  deriving DecidableEq, Repr

/-- `set -e` has ended the script. -/
inductive Stopped
  | errexit
  deriving DecidableEq, Repr

abbrev Script (α : Type) := Prog Host Point Stopped α

variable (k : Kernel) (o : OtherFiles)

def assign (live : Values) (s : Param × String) : Values :=
  if k.accepts s.1 s.2 then Function.update live s.1 s.2 else live

def assignAll (live : Values) (settings : Settings) : Values := settings.foldl (assign k) live

/-- What `sysctl --system` goes through, in its order. -/
def systemFiles (h : Host) : Settings :=
  o.before ++ h.rollback.getD [] ++ o.between ++ h.dropin.getD [] ++ o.after

def writeSettings : Settings → Script Unit
  | [] => pure ()
  | s :: rest => do
    Prog.move .assigned fun h => { h with live := assign k h.live s }
    writeSettings rest

def perfApplySysctlSystem : Script Unit := do
  let files ← Prog.look (systemFiles o)
  writeSettings k files

/-- The kernel applies the files when it starts. -/
def reboot (h : Host) : Host := { h with live := assignAll k k.defaults (systemFiles o h) }

/-- `sysctl -n`, which may fail. -/
def perfReadSysctl (reads : Param → Bool) (live : Values) (p : Param) : String :=
  if reads p then live p else ""

structure QdiscAnswers where
  loaded : Bool
  /-- `modules.builtin` can be read and lists the module. -/
  builtin : Bool
  /-- `modprobe` is there and could load the module. -/
  loadable : Bool

def perfQdiscAvailable (q : QdiscAnswers) : Bool := q.loaded || q.builtin || q.loadable

/-- A file that is written under a name of its own and moved into place. The number of lines is that
of a write that fails halfway. -/
structure FileAnswers where
  write : Bool
  lines : Nat
  mv : Bool
  chmod : Bool

structure ApplyAnswers where
  /-- The script runs under `set -e`, as in `install.sh`. After `||`, as in `update.sh`, it does not. -/
  errexit : Bool
  sysctlThere : Bool
  reads : Param → Bool
  baselineFile : FileAnswers
  -- `tcp_available_congestion_control`, before and after `modprobe tcp_bbr`
  ccReadable : Bool
  bbrListed : Bool
  ccReadableAfter : Bool
  bbrListedAfter : Bool
  fq : QdiscAnswers
  fqCodel : QdiscAnswers
  dropinFile : FileAnswers
  readsAfter : Param → Bool

namespace ApplyAnswers

variable (a : ApplyAnswers)

/-- A command that failed does not end the script. -/
def goesOn (ok : Bool) : Bool := ok || !a.errexit

def perfKernelSupportsBbr : Bool :=
  a.ccReadable && (a.bbrListed || (a.ccReadableAfter && a.bbrListedAfter))

def qdisc : Option String :=
  if perfQdiscAvailable a.fq then some "fq"
  else if perfQdiscAvailable a.fqCodel then some "fq_codel"
  else none

end ApplyAnswers

/-- The lines of a baseline that was cut off are those of its first values. -/
def FileAnswers.baseline (f : FileAnswers) (values : Values) : Values := fun p =>
  if f.write || p ∈ Param.all.take f.lines then values p else ""

def FileAnswers.settings (f : FileAnswers) (settings : Settings) : Settings :=
  if f.write then settings else settings.take f.lines

def writeFile (a : ApplyAnswers) (f : FileAnswers) (w : Point) (put : Host → Host) :
    Script Unit := do
  Prog.ensure (a.goesOn f.write) .errexit
  if f.mv then Prog.move w put else Prog.ensure (a.goesOn false) .errexit
  Prog.ensure (a.goesOn f.chmod) .errexit

def perfCaptureBaseline (a : ApplyAnswers) : Script Unit := do
  let h ← Prog.look id
  if h.baseline.isSome then pure ()
  else
    let values := perfReadSysctl a.reads h.live
    writeFile a a.baselineFile .baseline fun h =>
      { h with baseline := some (a.baselineFile.baseline values) }

/-- `PERF_RMEM_MAX` and `PERF_WMEM_MAX` -/
structure Buffers where
  rmemMax : String
  wmemMax : String

def perfTuningRender (b : Buffers) (a : ApplyAnswers) : Settings :=
  [(.rmemMax, b.rmemMax), (.wmemMax, b.wmemMax)] ++
    if a.perfKernelSupportsBbr then
      (.tcpCongestionControl, "bbr") :: (a.qdisc.map (Param.defaultQdisc, ·)).toList
    else []

inductive Notice
  | sysctlNotFound
  | confirmed (p : Param) (effective : String)
  | notApplied (p : Param) (wanted effective : String)
  | noBbr
  deriving DecidableEq, Repr

def verify (a : ApplyAnswers) (live : Values) (p : Param) (wanted : String) : Notice :=
  let effective := perfReadSysctl a.readsAfter live p
  if effective = wanted then .confirmed p effective else .notApplied p wanted effective

/-- A drop-in that is up to date is left as it is. -/
def writeDropin (a : ApplyAnswers) (rendered : Settings) : Script Unit := do
  let h ← Prog.look id
  if h.dropin = some rendered then pure ()
  else writeFile a a.dropinFile .dropin fun h =>
    { h with dropin := some (a.dropinFile.settings rendered) }

def perfTuningApply (b : Buffers) (a : ApplyAnswers) : Script (List Notice) :=
  if a.sysctlThere then do
    perfCaptureBaseline a
    let rendered := perfTuningRender b a
    writeDropin a rendered
    perfApplySysctlSystem k o
    let h ← Prog.look id
    let wantedCc := rendered.find? (·.1 = .tcpCongestionControl)
    pure [verify a h.live .rmemMax b.rmemMax, verify a h.live .wmemMax b.wmemMax,
      wantedCc.elim .noBbr fun s => verify a h.live .tcpCongestionControl s.2]
  else pure [.sysctlNotFound]

structure RollbackAnswers where
  rm : Bool
  rollbackFile : FileAnswers
  readsAfter : Param → Bool

/-- The lines of the rollback drop-in: a value that was not recorded is left out. -/
def rollbackSettings (baseline : Values) : Settings :=
  (Param.all.filter (baseline · ≠ "")).map fun p => (p, baseline p)

/-- A command on a file that may fail, after which the script goes on. -/
def change (ok : Bool) (w : Point) (put : Host → Host) : Script Unit :=
  if ok then Prog.move w put else pure ()

/-- Whether the exit status is 0. No caller runs it under `set -e`. -/
def perfTuningRollback (a : RollbackAnswers) : Script Bool := do
  let h ← Prog.look id
  match h.baseline with
  | none => pure false
  | some baseline =>
    change a.rm .dropin fun h => { h with dropin := none }
    change a.rollbackFile.mv .rollback fun h =>
      { h with rollback := some (a.rollbackFile.settings (rollbackSettings baseline)) }
    perfApplySysctlSystem k o
    let h ← Prog.look id
    pure (Param.all.all fun p =>
      baseline p = "" || perfReadSysctl a.readsAfter h.live p = baseline p)

structure UninstallAnswers where
  rollback : RollbackAnswers
  rmDropin : Bool
  rmRollback : Bool
  rmBaseline : Bool

/-- The part of `uninstall.sh` that takes the tuning back. -/
def uninstallTuning (a : UninstallAnswers) : Script Unit := do
  let h ← Prog.look id
  if h.baseline.isSome then
    let _ ← perfTuningRollback k o a.rollback
    change a.rmDropin .dropin fun h => { h with dropin := none }
    change a.rmRollback .rollback fun h => { h with rollback := none }
    change a.rmBaseline .baseline fun h => { h with baseline := none }
  else pure ()

end Model

section Assignments

variable {k : Kernel} {o : OtherFiles} {live : Values} {p : Param}

def lastSet (k : Kernel) (settings : Settings) (p : Param) : Option String :=
  ((settings.filter fun s => s.1 = p && k.accepts s.1 s.2).getLast?).map Prod.snd

private theorem lastSet_append (settings more : Settings) :
    lastSet k (settings ++ more) p = (lastSet k more p).or (lastSet k settings p) := by
  simp only [lastSet, List.filter_append, List.getLast?_append]
  cases (more.filter fun s => s.1 = p && k.accepts s.1 s.2).getLast? <;> rfl

private theorem assignAll_apply (live : Values) (settings : Settings) (p : Param) :
    assignAll k live settings p = (lastSet k settings p).getD (live p) := by
  induction settings using List.reverseRecOn with
  | nil => rfl
  | append_singleton settings s ih =>
    have hstep : assignAll k live (settings ++ [s]) = assign k (assignAll k live settings) s := by
      simp [assignAll]
    rw [hstep, lastSet_append, assign]
    by_cases haccepts : k.accepts s.1 s.2 = true
    · by_cases hp : s.1 = p
      · subst hp
        simp [lastSet, haccepts]
      · simp [lastSet, haccepts, hp, Function.update_of_ne (Ne.symm hp), ih]
    · simp [lastSet, haccepts, ih]

def bootValues (k : Kernel) (o : OtherFiles) : Values :=
  assignAll k k.defaults (o.before ++ o.between ++ o.after)

/-- The values that the host started with can be read, and written back. -/
def Restorable (k : Kernel) (o : OtherFiles) : Prop :=
  ∀ p, bootValues k o p ≠ "" ∧ k.accepts p (bootValues k o p) = true

theorem Restorable.lastSet_rollbackSettings (hk : Restorable k o) (p : Param) :
    lastSet k (rollbackSettings (bootValues k o)) p = some (bootValues k o p) := by
  have hall : rollbackSettings (bootValues k o) = Param.all.map fun p => (p, bootValues k o p) := by
    rw [rollbackSettings, List.filter_eq_self.mpr]
    intro q _
    simpa using (hk q).1
  have haccepts := fun q => (hk q).2
  rw [hall, lastSet]
  cases p <;> simp [Param.all, haccepts]

/-- With the baseline in the rollback drop-in and no tuning, the values are those of the start,
whatever they have been: the files that come later only say what they said then. -/
theorem Restorable.assignAll_rollback (hk : Restorable k o) (live : Values) :
    assignAll k live
      (o.before ++ rollbackSettings (bootValues k o) ++ o.between ++ [] ++ o.after) =
        bootValues k o := by
  funext p
  have hboot : bootValues k o p =
      (lastSet k (o.before ++ o.between ++ o.after) p).getD (k.defaults p) := assignAll_apply ..
  rw [List.append_nil, assignAll_apply]
  simp only [lastSet_append, hk.lastSet_rollbackSettings] at hboot ⊢
  cases hafter : lastSet k o.after p with
  | some value => simp [hboot, hafter]
  | none =>
    cases hbetween : lastSet k o.between p with
    | some value => simp [hboot, hafter, hbetween]
    | none => rfl

end Assignments

section Scripts

variable {k : Kernel} {o : OtherFiles} {b : Buffers} {v : Values} {h t : Host}

theorem writeSettings_wp (settings : Settings) (h : Host) :
    Wp (writeSettings k settings) h (fun _ t => ∃ live, t = { h with live := live })
      (fun r t => r = .ok () ∧ t = { h with live := assignAll k h.live settings }) := by
  induction settings generalizing h with
  | nil => exact wp_pure.mpr ⟨rfl, rfl⟩
  | cons s rest ih =>
    rw [writeSettings, wp_bind, wp_move]
    refine ⟨⟨_, rfl⟩, (ih _).mono ?_ ?_⟩
    · rintro _ t ⟨live, rfl⟩
      exact ⟨live, rfl⟩
    · rintro r t ⟨hr, ht⟩
      exact ⟨hr, ht⟩

theorem perfApplySysctlSystem_wp (h : Host) :
    Wp (perfApplySysctlSystem k o) h (fun _ t => ∃ live, t = { h with live := live })
      (fun r t => r = .ok () ∧ t = { h with live := assignAll k h.live (systemFiles o h) }) := by
  rw [perfApplySysctlSystem, wp_look_bind]
  exact writeSettings_wp _ h

theorem ensure_wp {ok : Bool} {e : Stopped} {G : Point → Host → Prop}
    {Q : Except Stopped Unit → Host → Prop} (hQ : ∀ r, Q r h) : Wp (Prog.ensure ok e) h G Q := by
  rw [wp_ensure]
  split_ifs
  · exact hQ _
  · exact hQ _

theorem writeFile_wp {a : ApplyAnswers} {f : FileAnswers} {w : Point} {put : Host → Host}
    (hsound : a.errexit = true ∨ (f.write = true ∧ f.mv = true)) :
    Wp (writeFile a f w put) h (fun _ t => t = put h ∧ f.write = true)
      (fun r t => (t = put h ∧ f.write = true) ∨ (t = h ∧ r = .error .errexit)) := by
  rw [writeFile]
  apply wp_ensure_bind
  · intro _
    exact .inr ⟨rfl, rfl⟩
  · intro hwrite
    have hwhole : f.write = true := by
      rcases hsound with hexit | hfile
      · simpa [ApplyAnswers.goesOn, hexit] using hwrite
      · exact hfile.1
    cases hmv : f.mv with
    | true =>
      rw [if_pos rfl, wp_bind, wp_move]
      exact ⟨⟨rfl, hwhole⟩, ensure_wp fun _ => .inl ⟨rfl, hwhole⟩⟩
    | false =>
      have hexit : a.errexit = true := by
        rcases hsound with hexit | hfile
        · exact hexit
        · rw [hmv] at hfile
          cases hfile.2
      rw [if_neg (by decide)]
      apply wp_ensure_bind
      · intro _
        exact .inr ⟨rfl, rfl⟩
      · intro hgoes
        simp [ApplyAnswers.goesOn, hexit] at hgoes

/-- The values from before the tuning are on record, or nothing was touched yet. -/
def Kept (v : Values) (h : Host) : Prop := h.baseline = some v ∨ h = untouched v

/-- The values could be read, and a baseline that could not be written ends the script. -/
structure ApplyAnswers.Sound (a : ApplyAnswers) : Prop where
  reads : ∀ p, a.reads p = true
  baseline : a.errexit = true ∨ (a.baselineFile.write = true ∧ a.baselineFile.mv = true)

theorem perfCaptureBaseline_wp {a : ApplyAnswers} (ha : a.Sound) (hkept : Kept v h) :
    Wp (perfCaptureBaseline a) h (fun _ => Kept v)
      (fun r t => Kept v t ∧ (r = .ok () → t.baseline = some v)) := by
  rw [perfCaptureBaseline, wp_look_bind]
  rcases hkept with hbaseline | rfl
  · have hsome : h.baseline.isSome = true := by rw [hbaseline]; rfl
    rw [id, if_pos hsome, wp_pure]
    exact ⟨.inl hbaseline, fun _ => hbaseline⟩
  · have hvalues : perfReadSysctl a.reads (untouched v).live = v := by
      funext p
      rw [perfReadSysctl, ha.reads p, if_pos rfl]
      rfl
    have hrecord (hwrite : a.baselineFile.write = true) : a.baselineFile.baseline v = v := by
      funext p
      simp [FileAnswers.baseline, hwrite]
    rw [id, if_neg (by simp [untouched])]
    simp only [hvalues]
    refine (writeFile_wp ha.baseline).mono ?_ ?_
    · rintro _ t ⟨rfl, hwrite⟩
      exact .inl (by rw [hrecord hwrite])
    · intro r t hr
      rcases hr with ⟨rfl, hwrite⟩ | ⟨rfl, rfl⟩
      · have hbaseline : some (a.baselineFile.baseline v) = some v := by rw [hrecord hwrite]
        exact ⟨.inl hbaseline, fun _ => hbaseline⟩
      · exact ⟨.inr rfl, by simp⟩

/-- A script that leaves the record alone, however it goes and wherever it is killed. -/
def KeepsRecord {α : Type} (v : Values) (p : Script α) : Prop :=
  Keeps (fun _ _ => True) (·.baseline = some v) (fun _ t => t.baseline = some v) p

theorem KeepsRecord.wp {α : Type} {p : Script α} (hp : KeepsRecord v p)
    (hbaseline : h.baseline = some v) :
    Wp p h (fun _ t => t.baseline = some v) (fun _ t => t.baseline = some v) :=
  hp h hbaseline fun _ _ => trivial

theorem move_keepsRecord {w : Point} {put : Host → Host}
    (hput : ∀ h, (put h).baseline = h.baseline) :
    KeepsRecord v (Prog.move w put : Script Unit) := by
  apply Keeps.move
  intro s hs
  have hafter : (put s).baseline = some v := (hput s).trans hs
  exact ⟨hafter, hafter⟩

theorem ensure_keepsRecord (ok : Bool) : KeepsRecord v (Prog.ensure ok .errexit : Script Unit) :=
  Keeps.of_wp fun _ hs => ensure_wp fun _ => hs

private theorem writeFile_keepsRecord (a : ApplyAnswers) (f : FileAnswers) {w : Point}
    {put : Host → Host}
    (hput : ∀ h, (put h).baseline = h.baseline) : KeepsRecord v (writeFile a f w put) := by
  apply Keeps.bind (ensure_keepsRecord _)
  intro _
  dsimp only
  split_ifs
  · exact Keeps.bind (move_keepsRecord hput) fun _ => ensure_keepsRecord _
  · exact Keeps.bind (ensure_keepsRecord _) fun _ => ensure_keepsRecord _

private theorem writeSettings_keepsRecord (settings : Settings) :
    KeepsRecord v (writeSettings k settings) := by
  induction settings with
  | nil => exact Keeps.pure ()
  | cons s rest ih => exact Keeps.bind (move_keepsRecord fun _ => rfl) fun _ => ih

private theorem perfApplySysctlSystem_keepsRecord : KeepsRecord v (perfApplySysctlSystem k o) :=
  Keeps.look_bind fun _ _ => writeSettings_keepsRecord _

private theorem writeDropin_keepsRecord (a : ApplyAnswers) (rendered : Settings) :
    KeepsRecord v (writeDropin a rendered) := by
  apply Keeps.look_bind
  intro s _
  split_ifs
  · exact Keeps.pure ()
  · exact writeFile_keepsRecord a _ fun _ => rfl

theorem perfTuningApply_wp {a : ApplyAnswers} (ha : a.Sound) (hkept : Kept v h) :
    Wp (perfTuningApply k o b a) h (fun _ => Kept v) (fun _ => Kept v) := by
  rw [perfTuningApply]
  cases a.sysctlThere with
  | false => exact wp_pure.mpr hkept
  | true =>
    rw [if_pos rfl]
    apply (perfCaptureBaseline_wp ha hkept).bind
    · intro _ t ht
      -- From here on the record stays as it is, so it does not matter what becomes of the values.
      refine (KeepsRecord.wp ?_ (ht.2 rfl)).mono (fun _ _ => .inl) (fun _ _ => .inl)
      apply Keeps.bind (writeDropin_keepsRecord a _)
      intro _
      apply Keeps.bind perfApplySysctlSystem_keepsRecord
      intro _
      exact Keeps.look_bind fun _ _ => Keeps.pure _
    · intro e t ht
      exact ht.1

private theorem change_keepsRecord (ok : Bool) {w : Point} {put : Host → Host}
    (hput : ∀ h, (put h).baseline = h.baseline) : KeepsRecord v (change ok w put) := by
  cases ok with
  | true => exact move_keepsRecord hput
  | false => exact Keeps.pure ()

private theorem perfTuningRollback_keepsRecord (a : RollbackAnswers) :
    KeepsRecord v (perfTuningRollback k o a) := by
  apply Keeps.look_bind
  intro s hs
  rw [id, show s.baseline = some v from hs]
  refine Keeps.bind (change_keepsRecord a.rm fun _ => rfl) fun _ => ?_
  refine Keeps.bind (change_keepsRecord a.rollbackFile.mv fun _ => rfl) fun _ => ?_
  refine Keeps.bind perfApplySysctlSystem_keepsRecord fun _ => ?_
  exact Keeps.look_bind fun _ _ => Keeps.pure _

structure RollbackAnswers.Clear (a : RollbackAnswers) : Prop where
  rm : a.rm = true
  write : a.rollbackFile.write = true
  mv : a.rollbackFile.mv = true
  reads : ∀ p, a.readsAfter p = true

def restored (v : Values) : Host := ⟨v, some v, none, some (rollbackSettings v)⟩

private theorem perfTuningRollback_restores {a : RollbackAnswers} (ha : a.Clear)
    (hk : Restorable k o) (hbaseline : h.baseline = some (bootValues k o)) :
    Wp (perfTuningRollback k o a) h (fun _ t => t.baseline = some (bootValues k o))
      (fun r t => r = .ok true ∧ t = restored (bootValues k o)) := by
  refine ⟨((perfTuningRollback_keepsRecord a).wp hbaseline).1, ?_⟩
  have hrun : Wp (perfTuningRollback k o a) h (fun _ _ => True)
      (fun r t => r = .ok true ∧ t = restored (bootValues k o)) := by
    rw [perfTuningRollback, wp_look_bind, id, hbaseline]
    dsimp only
    simp only [ha.rm, ha.mv, ha.write, change, if_true, wp_bind, wp_move, true_and,
      FileAnswers.settings]
    refine (perfApplySysctlSystem_wp _).mono (fun _ _ _ => trivial) ?_
    intro r t ht
    obtain ⟨rfl, rfl⟩ := ht
    have hlive := hk.assignAll_rollback h.live
    simp only [wp_look, wp_pure, systemFiles, Option.getD_some, Option.getD_none, hlive, id]
    constructor
    · simp [perfReadSysctl, ha.reads]
    · rw [hbaseline]
      rfl
  exact hrun.2

structure UninstallAnswers.Clear (a : UninstallAnswers) : Prop where
  rollback : a.rollback.Clear
  rmDropin : a.rmDropin = true
  rmRollback : a.rmRollback = true
  rmBaseline : a.rmBaseline = true

theorem uninstallTuning_wp {a : UninstallAnswers} (ha : a.Clear) (hk : Restorable k o)
    (hkept : Kept (bootValues k o) h) :
    Wp (uninstallTuning k o a) h (fun _ => Kept (bootValues k o))
      (fun _ t => t = untouched (bootValues k o)) := by
  rw [uninstallTuning, wp_look_bind]
  rcases hkept with hbaseline | rfl
  · have hsome : h.baseline.isSome = true := by rw [hbaseline]; rfl
    rw [id, if_pos hsome]
    apply (((perfTuningRollback_restores ha.rollback hk hbaseline)).mono
      (fun _ _ => .inl) (fun _ _ hr => hr)).bind
    · intro _ t ht
      obtain ⟨-, rfl⟩ := ht
      simp only [ha.rmDropin, ha.rmRollback, ha.rmBaseline, change, if_true, wp_bind, wp_move]
      exact ⟨.inl rfl, .inl rfl, .inr rfl, rfl⟩
    · intro e t ht
      cases ht.1
  · rw [id, if_neg (by simp [untouched]), wp_pure]

end Scripts

section Runs

variable {k : Kernel} {o : OtherFiles} {b : Buffers} {h : Host}

/-- What a host goes through: the script in any of its uses, to its end or until it is killed, and
reboots. Once the baseline is there, anything may happen to the values. -/
inductive Reached (k : Kernel) (o : OtherFiles) (b : Buffers) (first : Host) : Host → Prop
  | start : Reached k o b first first
  | applied {h t : Host} (before : Reached k o b first h) (a : ApplyAnswers) (ha : a.Sound)
      (ht : t ∈ (perfTuningApply k o b a).states h) : Reached k o b first t
  | rolledBack {h t : Host} (before : Reached k o b first h) (a : RollbackAnswers)
      (ht : t ∈ (perfTuningRollback k o a).states h) : Reached k o b first t
  | uninstalled {h t : Host} (before : Reached k o b first h) (a : UninstallAnswers) (ha : a.Clear)
      (ht : t ∈ (uninstallTuning k o a).states h) : Reached k o b first t
  | rebooted {h : Host} (before : Reached k o b first h) : Reached k o b first (reboot k o h)
  | drifted {h : Host} (before : Reached k o b first h) (hbaseline : h.baseline.isSome = true)
      (live : Values) : Reached k o b first { h with live := live }

theorem Reached.kept (hk : Restorable k o)
    (hreach : Reached k o b (untouched (bootValues k o)) h) : Kept (bootValues k o) h := by
  induction hreach with
  | start => exact .inr rfl
  | applied before a ha ht ih =>
    exact (perfTuningApply_wp ha ih).of_mem_states ih (fun _ _ hu => hu) ht
  | @rolledBack h t before a ht ih =>
    rcases ih with hbaseline | rfl
    · exact .inl (((perfTuningRollback_keepsRecord a).wp hbaseline).of_mem_states hbaseline
        (fun _ _ hu => hu) ht)
    · -- without a record there is nothing to do
      have hsame : t = untouched (bootValues k o) := by
        simpa [perfTuningRollback, Prog.states, Prog.look, bind, Prog.bind, pure, Prog.pure,
          untouched] using ht
      exact .inr hsame
  | uninstalled before a ha ht ih =>
    exact (uninstallTuning_wp ha hk ih).of_mem_states ih (fun _ _ hu => .inr hu) ht
  | @rebooted h before ih =>
    rcases ih with hbaseline | rfl
    · exact .inl hbaseline
    · right
      simp [reboot, untouched, systemFiles, bootValues]
  | drifted before hbaseline live ih =>
    rcases ih with hkept | rfl
    · exact .inl hkept
    · cases hbaseline

/-- Whatever a host has been through, a rollback that can do its work says so, brings back the values
from before the tuning, and they stay through a reboot; an uninstallation leaves the host as if it had
never been tuned. -/
theorem perf_tuning_reversible (hk : Restorable k o)
    (hreach : Reached k o b (untouched (bootValues k o)) h) :
    (h = untouched (bootValues k o) ∨ ∀ a : RollbackAnswers, a.Clear →
      (perfTuningRollback k o a h).result = .ok true ∧
        (perfTuningRollback k o a h).final.live = bootValues k o ∧
        (reboot k o (perfTuningRollback k o a h).final).live = bootValues k o) ∧
      ∀ a : UninstallAnswers, a.Clear →
        (uninstallTuning k o a h).final = untouched (bootValues k o) := by
  have hkept := hreach.kept hk
  constructor
  · rcases hkept with hbaseline | huntouched
    · right
      intro a ha
      obtain ⟨hresult, hfinal⟩ := (perfTuningRollback_restores ha hk hbaseline).2
      rw [hfinal]
      exact ⟨hresult, rfl, hk.assignAll_rollback k.defaults⟩
    · exact .inl huntouched
  · intro a ha
    exact (uninstallTuning_wp ha hk hkept).2

/-- A kernel that starts with small buffers, on a host with a file of its own. -/
def stockKernel : Kernel where
  defaults
    | .rmemMax | .wmemMax => "212992"
    | .tcpCongestionControl => "cubic"
    | .defaultQdisc => "pfifo_fast"
  accepts _ _ := true

def stockFiles : OtherFiles := ⟨[], [], [(.defaultQdisc, "fq_codel")]⟩

def done : FileAnswers := ⟨true, 0, true, true⟩

def firstApply : ApplyAnswers where
  errexit := true
  sysctlThere := true
  reads _ := true
  baselineFile := done
  ccReadable := true
  bbrListed := false
  ccReadableAfter := true
  bbrListedAfter := true
  fq := ⟨false, false, true⟩
  fqCodel := ⟨true, true, true⟩
  dropinFile := done
  readsAfter _ := true

def sampleBuffers : Buffers := ⟨"16777216", "16777216"⟩

def tunedHost : Host :=
  (perfTuningApply stockKernel stockFiles sampleBuffers firstApply
    (untouched (bootValues stockKernel stockFiles))).final

private theorem stockKernel_restorable : Restorable stockKernel stockFiles := by
  intro p
  cases p <;> decide

theorem tunedHost_reversible :
    (tunedHost.live .tcpCongestionControl = "bbr" ∧ tunedHost.live .rmemMax = "16777216") ∧
      (tunedHost = untouched (bootValues stockKernel stockFiles) ∨
        ∀ a : RollbackAnswers, a.Clear →
          (perfTuningRollback stockKernel stockFiles a tunedHost).result = .ok true ∧
          (perfTuningRollback stockKernel stockFiles a tunedHost).final.live =
            bootValues stockKernel stockFiles ∧
          (reboot stockKernel stockFiles
            (perfTuningRollback stockKernel stockFiles a tunedHost).final).live =
              bootValues stockKernel stockFiles) ∧
      ∀ a : UninstallAnswers, a.Clear →
        (uninstallTuning stockKernel stockFiles a tunedHost).final =
          untouched (bootValues stockKernel stockFiles) := by
  have hsound : firstApply.Sound := ⟨fun _ => rfl, .inl rfl⟩
  have hreach : Reached stockKernel stockFiles sampleBuffers
      (untouched (bootValues stockKernel stockFiles)) tunedHost :=
    .applied .start firstApply hsound (final_mem_states _ _)
  exact ⟨by decide, perf_tuning_reversible stockKernel_restorable hreach⟩

end Runs

end Vpn1.Deploy.Perf
