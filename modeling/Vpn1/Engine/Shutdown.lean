import Mathlib.Algebra.Order.Field.Rat
import Mathlib.Data.List.DropRight
import Mathlib.Tactic.Linarith

/-! The shutdown guard: a sliding window of outcomes that suppresses switching for a while once too
many of them are failures. -/

namespace Vpn1.Engine

/-- Outcomes by tick, the newest last. -/
abbrev Window := List (UInt64 × Bool)

structure ShutdownGuard where
  window : Window
  windowSize : Nat
  failureFractionThreshold : ℚ
  cooldownTicks : UInt64
  cooldownUntil : Option UInt64
  bounded : window.length ≤ max windowSize 1

namespace Window

def failures (w : Window) : Nat := w.countP (!·.2)

def successes (w : Window) : Nat := w.countP (·.2)

def failureFraction (w : Window) : ℚ :=
  if w.isEmpty then 0 else (w.failures : ℚ) / (w.length : ℚ)

def trim (size : Nat) (w : Window) : Window := if size ≤ w.length then w.tail else w

/-- `ShutdownGuard::record`. -/
def record (size : Nat) (tick : UInt64) (success : Bool) (w : Window) : Window :=
  w.trim size ++ [(tick, success)]

theorem length_trim (size : Nat) (w : Window) :
    (w.trim size).length = if size ≤ w.length then w.length - 1 else w.length := by
  unfold trim
  split_ifs
  · exact List.length_tail
  · rfl

private theorem length_record_le (size : Nat) (tick : UInt64) (success : Bool) {w : Window}
    (hw : w.length ≤ max size 1) : (w.record size tick success).length ≤ max size 1 := by
  rw [record, List.length_append, length_trim, List.length_singleton]
  split_ifs <;> omega

private theorem failures_add_successes (w : Window) : w.failures + w.successes = w.length := by
  have hlength := w.length_eq_countP_add_countP (fun x => x.2)
  simp only [failures, successes]
  simp only [Bool.not_eq_true] at hlength
  rw [hlength, Nat.add_comm]
  congr 2
  funext x
  cases x.2 <;> rfl

/-- No stretch of newest outcomes holds more successes in `w` than in `v`, and `w` is no shorter: `w`
is `v` with failures put in between. -/
structure Outweighs (w v : Window) : Prop where
  length : v.length ≤ w.length
  newest : ∀ n, successes (w.rtake n) ≤ successes (v.rtake n)

theorem Outweighs.refl (w : Window) : w.Outweighs w := ⟨le_rfl, fun _ => le_rfl⟩

theorem rtake_trim_suffix (size n : Nat) (w : Window) : (w.trim size).rtake n <:+ w.rtake n := by
  unfold trim
  split_ifs
  · cases w with
    | nil => exact List.suffix_rfl
    | cons x w =>
      -- without its head the list has the same last `n` entries, or all there are
      have hsuffix : w.rtake n <:+ x :: w := (List.drop_suffix _ _).trans (List.suffix_cons _ _)
      exact List.suffix_of_suffix_length_le hsuffix (List.drop_suffix _ _) (by simp [List.rtake]; omega)
  · exact List.suffix_rfl

theorem successes_rtake_trim_le (size n : Nat) (w : Window) :
    successes ((w.trim size).rtake n) ≤ successes (w.rtake n) :=
  (rtake_trim_suffix size n w).sublist.countP_le

private theorem rtake_trim (size n : Nat) {w : Window} (hn : n < w.length) :
    (w.trim size).rtake n = w.rtake n := by
  refine (rtake_trim_suffix size n w).eq_of_length ?_
  rw [List.rtake, List.rtake, List.length_drop, List.length_drop, length_trim]
  split_ifs <;> omega

theorem rtake_of_length_le {n : Nat} {w : Window} (hn : w.length ≤ n) : w.rtake n = w := by
  rw [List.rtake, Nat.sub_eq_zero_of_le hn, List.drop_zero]

theorem Outweighs.trim {size : Nat} {w v : Window} (h : w.Outweighs v)
    (hw : w.length ≤ max size 1) : (w.trim size).Outweighs (v.trim size) := by
  have hlength := h.length
  refine ⟨?_, fun n => ?_⟩
  · simp only [length_trim]
    split_ifs <;> omega
  · have hle := (successes_rtake_trim_le size n w).trans (h.newest n)
    by_cases hn : n < v.length
    · rwa [rtake_trim size n hn]
    · by_cases hsize : size ≤ v.length
      · -- both are full, so they lose their heads together
        have hwhole : (w.trim size).length ≤ v.length - 1 := by
          rw [length_trim, if_pos (hsize.trans hlength)]
          omega
        have hwhole' : (v.trim size).length ≤ v.length - 1 := by
          rw [length_trim, if_pos hsize]
        have hle := (successes_rtake_trim_le size (v.length - 1) w).trans (h.newest _)
        rw [rtake_of_length_le hwhole] at hle
        rw [rtake_of_length_le (by omega), rtake_of_length_le (by omega)]
        refine hle.trans ?_
        cases v with
        | nil => exact Nat.zero_le _
        | cons x v => rw [← rtake_trim size _ (by simp), rtake_of_length_le hwhole']
      · rwa [show v.trim size = v from if_neg hsize]

theorem Outweighs.record {size : Nat} {w v : Window} (h : w.Outweighs v)
    (hw : w.length ≤ max size 1) (tick : UInt64) (success : Bool) :
    (w.record size tick success).Outweighs (v.record size tick success) := by
  have htrim := h.trim hw
  refine ⟨?_, fun n => ?_⟩
  · simpa [Window.record] using htrim.length
  · cases n with
    | zero => simp
    | succ n =>
      have hn := htrim.newest n
      simp only [Window.record, List.rtake_concat_succ, successes, List.countP_append] at hn ⊢
      omega

theorem Outweighs.record_failure {size : Nat} {w v : Window} (h : w.Outweighs v)
    (tick : UInt64) : (w.record size tick false).Outweighs v := by
  have hlength := h.length
  refine ⟨?_, fun n => ?_⟩
  · rw [Window.record, List.length_append, length_trim, List.length_singleton]
    split_ifs <;> omega
  · cases n with
    | zero => simp
    | succ n =>
      have hn := (successes_rtake_trim_le size n w).trans (h.newest n)
      have hmore : successes (v.rtake n) ≤ successes (v.rtake (n + 1)) :=
        (List.drop_sublist_drop_left v (by omega)).countP_le
      simp only [Window.record, List.rtake_concat_succ, successes, List.countP_append,
        List.countP_singleton] at hn hmore ⊢
      simpa using hn.trans hmore

end Window

namespace ShutdownGuard

def new (windowSize : Nat) (failureFractionThreshold : ℚ) (cooldownTicks : UInt64) :
    ShutdownGuard :=
  ⟨[], windowSize, failureFractionThreshold, cooldownTicks, none, Nat.zero_le _⟩

def record (tick : UInt64) (success : Bool) (g : ShutdownGuard) : ShutdownGuard :=
  { g with
    window := g.window.record g.windowSize tick success
    bounded := Window.length_record_le _ _ _ g.bounded }

def armed (g : ShutdownGuard) : Bool :=
  max g.windowSize 4 ≤ g.window.length &&
    g.failureFractionThreshold ≤ g.window.failureFraction

def release (g : ShutdownGuard) : ShutdownGuard :=
  { g with window := [], cooldownUntil := none, bounded := Nat.zero_le _ }

/-- Start a cooldown if the window calls for one. The sum wraps, as in a release build. -/
def arm (tick : UInt64) (g : ShutdownGuard) : Bool × ShutdownGuard :=
  if g.armed then (true, { g with cooldownUntil := some (tick + g.cooldownTicks) })
  else (false, g)

def shouldSuppressSwitching (tick : UInt64) (g : ShutdownGuard) : Bool × ShutdownGuard :=
  match g.cooldownUntil with
  | some t => if tick < t then (true, g) else g.release.arm tick
  | none => g.arm tick

structure Outweighs (g r : ShutdownGuard) : Prop where
  windowSize : g.windowSize = r.windowSize
  threshold : g.failureFractionThreshold = r.failureFractionThreshold
  cooldownTicks : g.cooldownTicks = r.cooldownTicks
  cooldownUntil : g.cooldownUntil = r.cooldownUntil
  window : g.window.Outweighs r.window

theorem Outweighs.refl (g : ShutdownGuard) : g.Outweighs g := ⟨rfl, rfl, rfl, rfl, .refl _⟩

section Outweighs

variable {g r : ShutdownGuard} (h : g.Outweighs r) (tick : UInt64)
include h

theorem Outweighs.record (success : Bool) :
    (g.record tick success).Outweighs (r.record tick success) := by
  have hwindow := h.window.record g.bounded tick success
  refine ⟨h.windowSize, h.threshold, h.cooldownTicks, h.cooldownUntil, ?_⟩
  simpa only [ShutdownGuard.record, h.windowSize] using hwindow

theorem Outweighs.record_failure : (g.record tick false).Outweighs r :=
  { h with window := h.window.record_failure tick }

theorem Outweighs.armed (hr : r.armed = true) : g.armed = true := by
  have hlength := h.window.length
  have hsize := h.windowSize
  have hbounded := g.bounded
  simp only [ShutdownGuard.armed, Bool.and_eq_true, decide_eq_true_eq] at hr ⊢
  obtain ⟨hfull, hbad⟩ := hr
  -- a window that can arm is full, so the two have the same length
  have hsame : r.window.length = g.window.length := by omega
  refine ⟨by omega, ?_⟩
  rw [h.threshold]
  refine hbad.trans ?_
  have hnewest := h.window.newest g.window.length
  rw [Window.rtake_of_length_le le_rfl, Window.rtake_of_length_le hsame.le] at hnewest
  have hg := g.window.failures_add_successes
  have hr := r.window.failures_add_successes
  have hfailures : r.window.failures ≤ g.window.failures := by omega
  have hnonempty : ∀ w : Window, 4 ≤ w.length → w.isEmpty = false := by
    intro w hw
    cases w with
    | nil => simp at hw
    | cons x w => rfl
  rw [Window.failureFraction, Window.failureFraction, hnonempty _ (by omega),
    hnonempty _ (by omega), hsame]
  simp only [Bool.false_eq_true, if_false]
  gcongr

theorem Outweighs.arm :
    ((r.arm tick).1 = true → (g.arm tick).1 = true) ∧
      ((g.arm tick).1 = (r.arm tick).1 → (g.arm tick).2.Outweighs (r.arm tick).2) := by
  have harmed := h.armed
  unfold ShutdownGuard.arm
  cases hr : r.armed with
  | true =>
    rw [harmed hr]
    simp only [if_true, true_and, forall_const]
    exact { h with cooldownUntil := by rw [h.cooldownTicks] }
  | false =>
    cases g.armed with
    | true => simp
    | false => simpa using h

/-- Being told of more failures only suppresses more, and changes nothing else while it does not. -/
theorem Outweighs.shouldSuppressSwitching :
    ((r.shouldSuppressSwitching tick).1 = true → (g.shouldSuppressSwitching tick).1 = true) ∧
      ((g.shouldSuppressSwitching tick).1 = (r.shouldSuppressSwitching tick).1 →
        (g.shouldSuppressSwitching tick).2.Outweighs (r.shouldSuppressSwitching tick).2) := by
  unfold ShutdownGuard.shouldSuppressSwitching
  rw [← h.cooldownUntil]
  cases hcool : g.cooldownUntil with
  | none => exact h.arm tick
  | some t =>
    dsimp only
    split_ifs
    · exact ⟨fun _ => rfl, fun _ => h⟩
    · have hrelease : g.release.Outweighs r.release :=
        ⟨h.windowSize, h.threshold, h.cooldownTicks, rfl, .refl _⟩
      exact hrelease.arm tick

end Outweighs

end ShutdownGuard

end Vpn1.Engine
