import Vpn1.Engine.Cooldown

/-! The shutdown guard under any sequence of calls, and whether it notices that nothing gets through
any more. -/

namespace Vpn1.Engine

open Stepwise

inductive GuardCall
  | record (tick : UInt64) (success : Bool)
  | shouldSuppressSwitching (tick : UInt64)
  deriving DecidableEq, Repr

namespace GuardCall

def outcomes : GuardCall → Nat
  | record .. => 1
  | shouldSuppressSwitching _ => 0

def failing : GuardCall → Bool
  | record _ success => !success
  | shouldSuppressSwitching _ => true

end GuardCall

namespace ShutdownGuard

/-- A call and what it answers, if anything. -/
def call : GuardCall → ShutdownGuard → Option Bool × ShutdownGuard
  | .record tick success, g => (none, g.record tick success)
  | .shouldSuppressSwitching tick, g =>
    let r := g.shouldSuppressSwitching tick
    (some r.1, r.2)

def answers (calls : List GuardCall) (g : ShutdownGuard) : List (Option Bool) :=
  (runAll call calls g).1

def after (calls : List GuardCall) (g : ShutdownGuard) : ShutdownGuard := (runAll call calls g).2

theorem after_append (calls more : List GuardCall) (g : ShutdownGuard) :
    g.after (calls ++ more) = (g.after calls).after more := by
  rw [after, runAll_append]
  rfl

section Idle

variable {g : ShutdownGuard} (hidle : g.cooldownUntil = none) (tick : UInt64)
include hidle

theorem suppresses_eq_armed : (g.shouldSuppressSwitching tick).1 = g.armed := by
  rw [shouldSuppressSwitching, hidle]
  dsimp only [arm]
  cases g.armed <;> rfl

private theorem unchanged_of_unarmed (harmed : g.armed = false) :
    g.shouldSuppressSwitching tick = (false, g) := by
  rw [shouldSuppressSwitching, hidle]
  dsimp only [arm]
  rw [harmed]
  rfl

end Idle

private theorem unarmed_of_windowSize_lt {g : ShutdownGuard} (hw : g.windowSize < 4) :
    g.armed = false := by
  have hbounded := g.bounded
  have hshort : ¬ max g.windowSize 4 ≤ g.window.length := by omega
  rw [armed, decide_eq_false hshort, Bool.false_and]

end ShutdownGuard

open ShutdownGuard

variable {g : ShutdownGuard} {w k : Nat} {threshold : ℚ} {cooldown : UInt64}

theorem Configured.call (hg : Configured w threshold cooldown g) (c : GuardCall) :
    Configured w threshold cooldown (ShutdownGuard.call c g).2 := by
  cases c with
  | record tick success => exact ⟨hg.windowSize, hg.threshold, hg.cooldown⟩
  | shouldSuppressSwitching tick => exact (checkPath tick g).configured hg

theorem Configured.after (hg : Configured w threshold cooldown g) (calls : List GuardCall) :
    Configured w threshold cooldown (g.after calls) :=
  runAll_invariant (fun c _ hg => hg.call c) calls hg

theorem Trailing.mono {j : Nat} {window : Window} (h : Trailing k window) (hj : j ≤ k) :
    Trailing j window := by
  refine ⟨hj.trans h.length, fun x hx => h.failed x ?_⟩
  exact (List.drop_sublist_drop_left window (by omega)).subset hx

/-- No cooldown is on, and the newest outcomes are failures: `k` of them, or all that the window
has room for. -/
structure Unnoticed (w : Nat) (threshold : ℚ) (cooldown : UInt64) (k : Nat) (g : ShutdownGuard) : Prop
    extends Configured w threshold cooldown g where
  idle : g.cooldownUntil = none
  trailing : Trailing (min k w) g.window

namespace Unnoticed

theorem record (h : Unnoticed w threshold cooldown k g) (hw : 0 < w) (tick : UInt64) :
    Unnoticed w threshold cooldown (k + 1) (g.record tick false) := by
  refine ⟨h.toConfigured.call (.record tick false), h.idle, ?_⟩
  -- a full window forgets the oldest of its failures for the new one
  have hroom : min k (w - 1) < g.windowSize := by
    rw [h.windowSize]
    omega
  have hnext := (h.trailing.mono (show min k (w - 1) ≤ min k w by omega)).record hroom tick
  rwa [show min k (w - 1) + 1 = min (k + 1) w by omega] at hnext

theorem call (h : Unnoticed w threshold cooldown k g) (hw : 0 < w) (c : GuardCall)
    (hfail : c.failing = true) (hquiet : (ShutdownGuard.call c g).1 ≠ some true) :
    Unnoticed w threshold cooldown (k + c.outcomes) (ShutdownGuard.call c g).2 := by
  cases c with
  | record tick success =>
    cases success with
    | true => cases hfail
    | false => exact h.record hw tick
  | shouldSuppressSwitching tick =>
    have harmed : g.armed = false := by
      rw [← suppresses_eq_armed h.idle tick, ← Bool.not_eq_true]
      exact fun htrue => hquiet (congrArg some htrue)
    dsimp only [ShutdownGuard.call]
    rw [unchanged_of_unarmed h.idle tick harmed]
    exact h

/-- Every failure that goes unnoticed adds to those that the window ends with. -/
theorem after (hw : 0 < w) {calls : List GuardCall} (h : Unnoticed w threshold cooldown k g)
    (hfail : ∀ c ∈ calls, c.failing = true) (hquiet : some true ∉ g.answers calls) :
    Unnoticed w threshold cooldown (k + (calls.map GuardCall.outcomes).sum) (g.after calls) := by
  induction calls generalizing k g with
  | nil => exact h
  | cons c calls ih =>
    rw [answers, runAll_cons, List.mem_cons, not_or] at hquiet
    obtain ⟨hfirst, hrest⟩ := List.forall_mem_cons.mp hfail
    have hnext := ih (h.call hw c hfirst (Ne.symm hquiet.1)) hrest hquiet.2
    rwa [List.map_cons, List.sum_cons, ← Nat.add_assoc]

/-- Once the window could hold nothing but failures it arms, unless it is too small to arm at all. -/
theorem armed_iff (h : Unnoticed w threshold cooldown k g) (hthreshold : threshold ≤ 1)
    (hk : max w 4 ≤ k) : g.armed = true ↔ 4 ≤ w := by
  have hsize := h.windowSize
  constructor
  · intro harmed
    by_contra hsmall
    rw [unarmed_of_windowSize_lt (by omega)] at harmed
    cases harmed
  · intro hw
    rw [← Bool.not_eq_false]
    intro harmed
    have hroom := h.trailing.lt_windowSize (by omega) (h.threshold ▸ hthreshold) harmed
    omega

end Unnoticed

theorem Configured.unnoticed (hg : Configured w threshold cooldown g)
    (hidle : g.cooldownUntil = none) : Unnoticed w threshold cooldown 0 g := by
  refine ⟨hg, hidle, ?_⟩
  rw [Nat.zero_min]
  exact .zero _

private theorem quiet_records (g : ShutdownGuard) (ticks : List UInt64) :
    some true ∉ g.answers (ticks.map (.record · false)) := by
  intro hmem
  obtain ⟨c, hc, t, ht⟩ := exists_of_mem_runWhile hmem
  obtain ⟨tick, -, rfl⟩ := List.mem_map.mp hc
  cases ht

/-- A guard with a window of four or more suppresses at the latest at the first check after a window
of failures, however the checks and the failures are mixed. -/
theorem outage_noticed (hw : 4 ≤ g.windowSize) (hthreshold : g.failureFractionThreshold ≤ 1)
    (hidle : g.cooldownUntil = none) {calls : List GuardCall}
    (hfail : ∀ c ∈ calls, c.failing = true)
    (hfull : g.windowSize ≤ (calls.map GuardCall.outcomes).sum) (tick : UInt64) :
    some true ∈ g.answers (calls ++ [.shouldSuppressSwitching tick]) := by
  rw [answers, runAll_append, List.mem_append]
  by_cases hearlier : some true ∈ g.answers calls
  · exact .inl hearlier
  · have hconfigured : Configured _ _ _ g := ⟨rfl, rfl, rfl⟩
    have hafter := (hconfigured.unnoticed hidle).after (by omega) hfail hearlier
    have harmed := (hafter.armed_iff hthreshold (by omega)).mpr hw
    rw [← suppresses_eq_armed hafter.idle tick] at harmed
    exact .inr (List.mem_singleton.mpr (congrArg some harmed.symm))

/-- A guard with a smaller window never suppresses. -/
theorem never_suppresses (hw : g.windowSize < 4) (hidle : g.cooldownUntil = none)
    (calls : List GuardCall) : some true ∉ g.answers calls := by
  induction calls generalizing g with
  | nil => exact List.not_mem_nil
  | cons c calls ih =>
    rw [answers, runAll_cons, List.mem_cons, not_or]
    cases c with
    | record tick success => exact ⟨Option.some_ne_none true, ih hw hidle⟩
    | shouldSuppressSwitching tick =>
      dsimp only [ShutdownGuard.call]
      rw [unchanged_of_unarmed hidle tick (unarmed_of_windowSize_lt hw)]
      exact ⟨by simp, ih hw hidle⟩

/-- When nothing has got through for a window and for four outcomes, the next check suppresses exactly
if the window has room for four. -/
theorem outage_detected_iff (g : ShutdownGuard) (hsize : 1 ≤ g.windowSize)
    (hthreshold : 0 < g.failureFractionThreshold ∧ g.failureFractionThreshold ≤ 1)
    (past : List GuardCall) (hidle : (g.after past).cooldownUntil = none) (ticks : List UInt64)
    (hticks : max g.windowSize 4 ≤ ticks.length) (tick : UInt64) :
    ((g.after (past ++ ticks.map (.record · false))).shouldSuppressSwitching tick).1 = true ↔
      4 ≤ g.windowSize := by
  have hconfigured : Configured _ _ _ g := ⟨rfl, rfl, rfl⟩
  have hstart := (hconfigured.after past).unnoticed hidle
  have hfail : ∀ c ∈ ticks.map (GuardCall.record · false), c.failing = true := by
    intro c hc
    obtain ⟨t, -, rfl⟩ := List.mem_map.mp hc
    rfl
  have hcount : ((ticks.map (GuardCall.record · false)).map GuardCall.outcomes).sum = ticks.length := by
    simp [Function.comp_def, GuardCall.outcomes]
  have hend := hstart.after hsize hfail (quiet_records _ ticks)
  rw [hcount, Nat.zero_add, ← after_append] at hend
  rw [suppresses_eq_armed hend.idle]
  exact hend.armed_iff hthreshold.2 hticks

/-- An outage, the check that notices it, and the re-probe after the cooldown, which gets through. -/
def recovered : List GuardCall :=
  List.replicate 8 (.record 0 false) ++
    [.shouldSuppressSwitching 1, .shouldSuppressSwitching 91, .record 92 true]

/-- The guard of an engine notices the next outage too. -/
theorem next_outage_detected :
    ((ShutdownGuard.new 8 (3 / 4) 90).after recovered).cooldownUntil = none ∧
      (((ShutdownGuard.new 8 (3 / 4) 90).after
        (recovered ++ (List.replicate 8 93).map (.record · false))).shouldSuppressSwitching 94).1 =
          true := by
  have hidle : ((ShutdownGuard.new 8 (3 / 4) 90).after recovered).cooldownUntil = none := by
    decide +kernel
  have hthreshold : (0 : ℚ) < 3 / 4 ∧ (3 / 4 : ℚ) ≤ 1 := by norm_num
  refine ⟨hidle, (outage_detected_iff (.new 8 (3 / 4) 90) (by decide) hthreshold recovered hidle
    (List.replicate 8 93) (by decide) 94).mpr (by decide)⟩

/-- Four failures in a row, seen through a window of three. -/
theorem three_outcomes_undetected :
    (ShutdownGuard.new 3 (3 / 4) 90).cooldownUntil = none ∧
      (((ShutdownGuard.new 3 (3 / 4) 90).after
        ([0, 1, 2, 3].map (.record · false))).shouldSuppressSwitching 4).1 = false := by
  decide +kernel

end Vpn1.Engine
