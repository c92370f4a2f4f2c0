import Vpn1.Engine.Concurrent

/-! Calls of `connect` that run at the same time during an outage: how often they dial together, and what
a cooldown holds back. -/

namespace Vpn1.Engine

open Interleave

section Outage

variable {Session : Type} {e : ConnectionEngine}

namespace Phase

def aboutToDial : Phase Session → Nat
  | .cleared .. => 1
  | _ => 0

def inFlight : Phase Session → Nat
  | .dialing .. | .connected .. | .scored .. | .failed .. => 1
  | _ => 0

def gotThrough : Phase Session → Bool
  | .connected .. | .scored .. => true
  | _ => false

end Phase

namespace ConnectionEngine

def dials (e : ConnectionEngine) (a : Attempt Session) : Phase Session → EngineState → Nat
  | .cleared .., s => if (pick e.candidates a s.scores).isSome then 1 else 0
  | _, _ => 0

def releases (_ : Attempt Session) : Phase Session → EngineState → Nat
  | .ticked _ tick, s =>
    if s.shutdownGuard.cooldownUntil.isSome ∧
      (s.shutdownGuard.shouldSuppressSwitching tick).2.cooldownUntil = none then 1 else 0
  | _, _ => 0

end ConnectionEngine

/-- While nothing gets through: of the dials, `recent` were made since the last cooldown ended. With the
calls about to dial they stay below the window and the calls that can be under way at once. -/
structure Within (w : Nat) (threshold : ℚ) (cooldown : UInt64)
    (n dials releases recent about flight : Nat) (g : ShutdownGuard) : Prop where
  configured : Configured w threshold cooldown g
  dials_le : dials ≤ releases * (w + n - 1) + recent
  recent_le : recent + about ≤ w + n - 1
  unnoticed : g.cooldownUntil = none →
    ∃ k, Unnoticed w threshold cooldown k g ∧ recent ≤ flight + k

section Step

variable {w n dials releases recent about flight about' flight' : Nat} {threshold : ℚ}
  {cooldown : UInt64} {a : Attempt Session} {s t : EngineState} {p q : Phase Session}

/-- A step that the guard does not see. -/
theorem Within.unseen {g : ShutdownGuard}
    (h : Within w threshold cooldown n dials releases recent about flight g)
    (habout : about' ≤ about) (hflight : flight ≤ flight') :
    Within w threshold cooldown n dials releases recent about' flight' g := by
  refine ⟨h.configured, h.dials_le, ?_, ?_⟩
  · have hrecent := h.recent_le
    omega
  · intro hidle
    obtain ⟨k, hk, hle⟩ := h.unnoticed hidle
    exact ⟨k, hk, by omega⟩

/-- A check that suppresses leaves the calls with what they had. -/
theorem Within.suppressed {g g' : ShutdownGuard} {tick : UInt64} (more : Nat)
    (h : Within w threshold cooldown n dials releases recent about flight g)
    (hcheck : CheckPath tick g true g') :
    Within w threshold cooldown n dials (releases + more) recent about flight g' := by
  have hconfigured := hcheck.configured h.configured
  have hdials : dials ≤ (releases + more) * (w + n - 1) + recent := by
    have hle := Nat.mul_le_mul_right (w + n - 1) (Nat.le_add_right releases more)
    have hdials := h.dials_le
    omega
  cases hcheck with
  | cooling hcool hlt => exact ⟨hconfigured, hdials, h.recent_le, h.unnoticed⟩
  | arms hcool harmed => exact ⟨hconfigured, hdials, h.recent_le, fun hidle => nomatch hidle⟩

/-- A check that lets a call through: the window was not full of failures, or starts over. -/
theorem Within.cleared {g' : ShutdownGuard} {tick : UInt64}
    (h : Within w threshold cooldown n dials releases recent about flight s.shutdownGuard)
    (hw : 4 ≤ w) (hthreshold : threshold ≤ 1)
    (hcheck : s.shutdownGuard.shouldSuppressSwitching tick = (false, g'))
    (hbusy : about + 1 + flight ≤ n) (m : Nat) :
    ∃ recent', Within w threshold cooldown n dials
      (releases + ConnectionEngine.releases a (.ticked m tick) s) recent' (about + 1) flight g' := by
  have hpath := checkPath tick s.shutdownGuard
  rw [hcheck] at hpath
  have hconfigured := hpath.configured h.configured
  have hrecent := h.recent_le
  have hdials := h.dials_le
  cases hpath with
  | idle hcool harmed =>
    have hreleases : ConnectionEngine.releases a (.ticked m tick) s = 0 := by
      simp [ConnectionEngine.releases, hcool]
    obtain ⟨k, hk, hle⟩ := h.unnoticed hcool
    have hroom : min k w < w := by
      have hlt := hk.trailing.lt_windowSize (hk.windowSize.symm ▸ hw) (hk.threshold ▸ hthreshold) harmed
      rwa [hk.windowSize] at hlt
    refine ⟨recent, hconfigured, ?_, by omega, h.unnoticed⟩
    rw [hreleases]
    exact hdials
  | released hcool hle =>
    have hreleases : ConnectionEngine.releases a (.ticked m tick) s = 1 := by
      simp [ConnectionEngine.releases, hcool, hcheck]
    -- what was dialed up to now is charged to the cooldown that ends
    refine ⟨0, hconfigured, ?_, by omega, ?_⟩
    · rw [hreleases, Nat.add_mul, Nat.one_mul]
      omega
    · intro hidle
      exact ⟨0, hconfigured.unnoticed hidle, Nat.zero_le _⟩

theorem Within.advance (h : Within w threshold cooldown n dials releases recent about flight
      s.shutdownGuard)
    (hpath : Advances e a s p q t) (hw : 4 ≤ w) (hthreshold : threshold ≤ 1)
    (hp : p.gotThrough = false) (hq : q.gotThrough = false)
    (habout : about' + p.aboutToDial = about + q.aboutToDial)
    (hflight : flight' + p.inFlight = flight + q.inFlight) (hbusy : about' + flight' ≤ n) :
    ∃ recent', Within w threshold cooldown n (dials + e.dials a p s)
      (releases + ConnectionEngine.releases a p s) recent' about' flight' t.shutdownGuard := by
  cases hpath with
  | tick | exhausted | again | rest =>
    exact ⟨recent, h.unseen (Nat.le_of_eq habout) (Nat.le_of_eq hflight.symm)⟩
  | @suppressed m tick g hcheck =>
    obtain rfl : about' = about := habout
    obtain rfl : flight' = flight := hflight
    have hcheckPath := checkPath tick s.shutdownGuard
    rw [hcheck] at hcheckPath
    exact ⟨recent, h.suppressed _ hcheckPath⟩
  | @clear m tick g hcheck =>
    obtain rfl : about' = about + 1 := habout
    obtain rfl : flight' = flight := hflight
    exact h.cleared hw hthreshold hcheck hbusy m
  | noCandidates hpick =>
    have hfewer : about' + 1 = about := habout
    have hdials : ∀ m tick, e.dials a (.cleared m tick) s = 0 := by
      simp [ConnectionEngine.dials, hpick]
    rw [hdials]
    exact ⟨recent, h.unseen (by omega) (Nat.le_of_eq hflight.symm)⟩
  | dial hpick =>
    have hfewer : about' + 1 = about := habout
    have hmore : flight' = flight + 1 := hflight
    have hdials : ∀ m tick, e.dials a (.cleared m tick) s = 1 := by
      simp [ConnectionEngine.dials, hpick]
    have hrecent := h.recent_le
    have htotal := h.dials_le
    rw [hdials]
    refine ⟨recent + 1, h.configured, ?_, by omega, ?_⟩
    · simp only [ConnectionEngine.releases, Nat.add_zero]
      omega
    · intro hidle
      obtain ⟨k, hk, hle⟩ := h.unnoticed hidle
      exact ⟨k, hk, by omega⟩
  | fail hdial =>
    have hsame : flight' + 1 = flight + 1 := hflight
    exact ⟨recent, h.unseen (Nat.le_of_eq habout) (by omega)⟩
  | record =>
    have hsame : about' = about := habout
    have hfewer : flight' + 1 = flight := hflight
    have hrecent := h.recent_le
    refine ⟨recent, h.configured.call (.record _ false), h.dials_le, by omega, ?_⟩
    intro hidle
    obtain ⟨k, hk, hle⟩ := h.unnoticed hidle
    exact ⟨k + 1, hk.record (by omega) _, by omega⟩
  | connect => cases hq
  | score | succeed => cases hp

end Step

variable {ι : Type} [DecidableEq ι] [Fintype ι]

/-- The calls between a check and what they tell the guard of it. -/
def busy (σ : System ι EngineState (Phase Session)) : Nat :=
  ∑ i, (σ.phase i).aboutToDial + ∑ i, (σ.phase i).inFlight

variable {w n : Nat} {threshold : ℚ} {cooldown : UInt64}

/-- While no dial gets through. -/
theorem Within.run {dials releases recent : Nat} (hw : 4 ≤ w) (hthreshold : threshold ≤ 1)
    {es : List (Event ι (Attempt Session) Empty)} {σ : System ι EngineState (Phase Session)}
    (hbusy : Always e.calls (fun τ => busy τ ≤ n) es σ)
    (hdown : Always e.calls (fun τ => ∀ i, (τ.phase i).gotThrough = false) es σ)
    (h : Within w threshold cooldown n dials releases recent (∑ i, (σ.phase i).aboutToDial)
      (∑ i, (σ.phase i).inFlight) σ.shared.shutdownGuard) :
    ∃ recent' about flight, Within w threshold cooldown n (dials + total e.calls e.dials es σ)
      (releases + total e.calls ConnectionEngine.releases es σ) recent' about flight
      (run e.calls es σ).shared.shutdownGuard := by
  induction es generalizing dials releases recent σ with
  | nil => exact ⟨recent, _, _, h⟩
  | cons ev es ih =>
    cases ev with
    | env b => exact b.elim
    | task i a =>
      have hpath := advances e a (σ.phase i) σ.shared
      have hq := hdown.tail.first i
      rw [phase_act_self] at hq
      obtain ⟨recent', hnext⟩ := h.advance hpath hw hthreshold (hdown.first i) hq
        (sum_update Phase.aboutToDial σ.phase i _) (sum_update Phase.inFlight σ.phase i _)
        hbusy.tail.first
      obtain ⟨recent'', about, flight, hend⟩ := ih hbusy.tail hdown.tail hnext
      refine ⟨recent'', about, flight, ?_⟩
      rw [Nat.add_assoc, Nat.add_assoc] at hend
      exact hend

def Down (es : List (Event ι (Attempt Session) Empty)) : Prop :=
  ∀ i a, .task i a ∈ es → ∀ d, (a.dial d).isOk = false

theorem Advances.gotThrough {a : Attempt Session} {s t : EngineState} {p q : Phase Session}
    (h : Advances e a s p q t) (hfails : ∀ d, (a.dial d).isOk = false)
    (hp : p.gotThrough = false) : q.gotThrough = false := by
  cases h with
  | @connect n tick choice session hdial =>
    have hfailed := hfails choice.2
    rw [hdial] at hfailed
    cases hfailed
  | score | succeed => cases hp
  | tick | exhausted | suppressed | clear | noCandidates | dial | fail | record | again | rest => rfl

omit [Fintype ι] in
private theorem always_down {es : List (Event ι (Attempt Session) Empty)} (hdown : Down es)
    {σ : System ι EngineState (Phase Session)} (hσ : ∀ i, (σ.phase i).gotThrough = false) :
    Always e.calls (fun τ => ∀ i, (τ.phase i).gotThrough = false) es σ := by
  refine always_of_act (fun ev hev τ hτ => ?_) hσ
  cases ev with
  | env b => exact b.elim
  | task i a =>
    have hstep := (advances e a (τ.phase i) τ.shared).gotThrough (hdown i a hev) (hτ i)
    exact forall_phase_act (fun p : Phase Session => p.gotThrough = false) hτ hstep

/-- While nothing gets through, the calls together start at most a window of dials, and one for each
other call under way, for every cooldown that ends, however their steps are mixed. -/
theorem dials_bounded (e : ConnectionEngine) (hw : 4 ≤ w) (hthreshold : threshold ≤ 1)
    (σ : System ι EngineState (Phase Session))
    (hσ : Configured w threshold cooldown σ.shared.shutdownGuard)
    (hthrough : ∀ i, (σ.phase i).gotThrough = false)
    (es : List (Event ι (Attempt Session) Empty)) (hdown : Down es)
    (hbusy : Always e.calls (fun τ => busy τ ≤ n) es σ) :
    total e.calls e.dials es σ ≤
      (total e.calls ConnectionEngine.releases es σ + 1) * (w + n - 1) := by
  have hfirst := hbusy.first
  unfold busy at hfirst
  have hstart : Within w threshold cooldown n 0 0 0 (∑ i, (σ.phase i).aboutToDial)
      (∑ i, (σ.phase i).inFlight) σ.shared.shutdownGuard := by
    refine ⟨hσ, Nat.zero_le _, by omega, ?_⟩
    intro hidle
    exact ⟨0, hσ.unnoticed hidle, Nat.zero_le _⟩
  obtain ⟨recent, about, flight, hend⟩ := hstart.run hw hthreshold hbusy (always_down hdown hthrough)
  have htotal := hend.dials_le
  have hrecent := hend.recent_le
  rw [Nat.zero_add, Nat.zero_add] at htotal
  rw [Nat.add_mul, Nat.one_mul]
  omega

omit [DecidableEq ι] in
private theorem busy_le_card (σ : System ι EngineState (Phase Session)) :
    busy σ ≤ Fintype.card ι := by
  unfold busy
  rw [← Finset.sum_add_distrib, ← Finset.card_univ, Finset.card_eq_sum_ones]
  apply Finset.sum_le_sum
  intro i _
  cases σ.phase i <;> simp [Phase.aboutToDial, Phase.inFlight]

def patientEngine : ConnectionEngine := { sampleEngine with maxAttempts := 9 }

/-- Two calls on a network that is down: one has failed seven times when both pass the check. -/
def racingCalls : List (Event Bool (Attempt Unit) Empty) :=
  (List.replicate 44 false ++ [true, true, false, true]).map fun i =>
    .task i (dialing (.error (.connect .localNetworkFailure "")) 0)

private theorem down_racingCalls : Down racingCalls := by
  intro i a hmem d
  obtain ⟨j, -, hj⟩ := List.mem_map.mp hmem
  cases hj
  rfl

/-- They start nine dials before the guard hears of the eighth. -/
theorem racingCalls_bounded :
    total patientEngine.calls patientEngine.dials racingCalls patientEngine.fresh = 9 ∧
      total patientEngine.calls patientEngine.dials racingCalls patientEngine.fresh ≤
        (total patientEngine.calls ConnectionEngine.releases racingCalls patientEngine.fresh + 1) *
          (8 + 2 - 1) := by
  have hnine :
      total patientEngine.calls patientEngine.dials racingCalls patientEngine.fresh = 9 := by
    decide +kernel
  have hconfigured : Configured 8 (3 / 4) 90
      (patientEngine.fresh : System Bool EngineState (Phase Unit)).shared.shutdownGuard :=
    ⟨rfl, rfl, rfl⟩
  refine ⟨hnine, dials_bounded patientEngine (by decide) (by norm_num) patientEngine.fresh hconfigured
    (by decide) racingCalls down_racingCalls ?_⟩
  intro front _
  exact busy_le_card _

end Outage

section Cooldown

variable {Session : Type} {e : ConnectionEngine}

/-- A cooldown stays on, and lets nobody through, while the ticks are before its deadline. -/
theorem Advances.cooling {a : Attempt Session} {s t : EngineState} {p q : Phase Session}
    (h : Advances e a s p q t) {deadline : UInt64}
    (hcool : s.shutdownGuard.cooldownUntil = some deadline)
    (hp : ∀ tick ∈ p.unchecked, tick < deadline) (htakes : ∀ tick ∈ e.takes a p s, tick < deadline) :
    t.shutdownGuard.cooldownUntil = some deadline ∧ (∀ tick ∈ q.unchecked, tick < deadline) ∧
      q.aboutToDial + e.dials a p s ≤ p.aboutToDial := by
  cases h with
  | @tick n lastErr hn =>
    refine ⟨hcool, ?_, Nat.le_refl _⟩
    intro tick htick
    apply htakes
    rw [ConnectionEngine.takes, if_pos hn]
    exact htick
  | @suppressed n tick g hcheck =>
    have hsame := ((checkPath tick s.shutdownGuard).of_lt hcool (hp tick (by simp [Phase.unchecked]))).2
    rw [hcheck] at hsame
    refine ⟨?_, by simp [Phase.unchecked], Nat.le_refl _⟩
    rw [← hcool, ← hsame]
  | @clear n tick g hcheck =>
    have hsuppress :=
      ((checkPath tick s.shutdownGuard).of_lt hcool (hp tick (by simp [Phase.unchecked]))).1
    rw [hcheck] at hsuppress
    cases hsuppress
  | noCandidates hpick =>
    exact ⟨hcool, by simp [Phase.unchecked], by simp [Phase.aboutToDial, ConnectionEngine.dials, hpick]⟩
  | dial hpick =>
    exact ⟨hcool, by simp [Phase.unchecked], by simp [Phase.aboutToDial, ConnectionEngine.dials, hpick]⟩
  | exhausted | connect | fail | score | succeed | record | again | rest =>
    exact ⟨hcool, by simp [Phase.unchecked], Nat.le_refl _⟩

variable {ι : Type} [DecidableEq ι]

/-- While a cooldown is on and the counter has not reached its deadline, a call starts a dial only if it
had been let through before, and then at most one, whatever the outcomes that come in. -/
theorem cooldown_holds (e : ConnectionEngine) (σ : System ι EngineState (Phase Session))
    (deadline : UInt64) (hcool : σ.shared.shutdownGuard.cooldownUntil = some deadline)
    (hticks : ∀ i, ∀ tick ∈ (σ.phase i).unchecked, tick < deadline)
    (es : List (Event ι (Attempt Session) Empty))
    (htakes : σ.shared.tick.toNat + (total e.calls e.takes es σ).card ≤ deadline.toNat) :
    (run e.calls es σ).shared.shutdownGuard.cooldownUntil = some deadline ∧
      ∀ i, ((run e.calls es σ).phase i).aboutToDial + totalOf e.calls i e.dials es σ ≤
        (σ.phase i).aboutToDial := by
  induction es generalizing σ with
  | nil => exact ⟨hcool, fun _ => Nat.le_refl _⟩
  | cons ev es ih =>
    cases ev with
    | env b => exact b.elim
    | task i a =>
      have hpath := advances e a (σ.phase i) σ.shared
      have hdeadline := deadline.toNat_lt
      rw [total_cons, Multiset.card_add, reading] at htakes
      have hcounter : (act e.calls σ (.task i a)).shared.tick.toNat =
            σ.shared.tick.toNat + (e.takes a (σ.phase i) σ.shared).card ∧
          ∀ tick ∈ e.takes a (σ.phase i) σ.shared, tick < deadline := by
        obtain ⟨htaken, htick⟩ | ⟨htaken, htick⟩ := hpath.counter
        · rw [htaken, Multiset.card_singleton] at htakes
          rw [htaken, Multiset.card_singleton, ← toNat_succ (by omega), ← htick]
          refine ⟨rfl, fun tick hmem => ?_⟩
          rw [Multiset.mem_singleton.mp hmem, UInt64.lt_iff_toNat_lt]
          omega
        · rw [htaken, Multiset.card_zero]
          exact ⟨congrArg UInt64.toNat htick, fun tick hmem => absurd hmem (Multiset.notMem_zero _)⟩
      obtain ⟨hcool', hticks', hone⟩ := hpath.cooling hcool (hticks i) hcounter.2
      have hlater := forall_phase_act (fun p : Phase Session => ∀ tick ∈ p.unchecked, tick < deadline)
        hticks hticks'
      obtain ⟨hend, hrest⟩ := ih (act e.calls σ (.task i a)) hcool' hlater (by omega)
      rw [run_cons]
      refine ⟨hend, fun j => ?_⟩
      have hj := hrest j
      rw [totalOf]
      by_cases hij : i = j
      · subst hij
        rw [phase_act_self] at hj
        rw [if_pos rfl]
        have hone' : (e.calls.step a (σ.phase i) σ.shared).1.aboutToDial +
            e.dials a (σ.phase i) σ.shared ≤ (σ.phase i).aboutToDial := hone
        omega
      · rw [phase_act_of_ne (Ne.symm hij)] at hj
        rw [if_neg hij]
        omega

/-- A cooldown until tick 91, a call that was let through before it and one that comes after. -/
def coolingCalls : System Bool EngineState (Phase Unit) :=
  ⟨⟨.new, { ShutdownGuard.new 8 (3 / 4) 90 with cooldownUntil := some 91 }, 2⟩,
    fun i => if i then .waiting 0 none else .cleared 0 0⟩

/-- The call that comes after makes no dial, and the other makes one. -/
theorem coolingCalls_hold :
    let es : List (Event Bool (Attempt Unit) Empty) :=
      [false, true, true, false, false].map fun i => .task i (dialing (.ok ()) 0)
    (run sampleEngine.calls es coolingCalls).shared.shutdownGuard.cooldownUntil = some 91 ∧
      totalOf sampleEngine.calls true sampleEngine.dials es coolingCalls = 0 ∧
      totalOf sampleEngine.calls false sampleEngine.dials es coolingCalls = 1 := by
  intro es
  have hnone : ∀ i, (coolingCalls.phase i).unchecked = 0 := by decide
  have hticks : ∀ i, ∀ tick ∈ (coolingCalls.phase i).unchecked, tick < 91 := by
    intro i tick htick
    rw [hnone i] at htick
    exact absurd htick (Multiset.notMem_zero tick)
  have hholds := cooldown_holds sampleEngine coolingCalls 91 rfl hticks es (by decide +kernel)
  have hwaiting : (coolingCalls.phase true).aboutToDial = 0 := rfl
  have hlast := hholds.2 true
  exact ⟨hholds.1, by omega, by decide +kernel⟩

end Cooldown

end Vpn1.Engine
