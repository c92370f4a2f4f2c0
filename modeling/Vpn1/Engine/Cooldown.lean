import Vpn1.Engine.Connect

/-! How long suppression lasts and how often an engine dials during an outage. -/

namespace Vpn1.Engine

open Stepwise

variable {Session : Type}

structure Turn (Session : Type) where
  before : EngineState
  pass : Pass Session
  after : EngineState

namespace Turn

def dials (t : Turn Session) : Bool :=
  match t.pass.seen with
  | .connected .. | .failed .. => true
  | _ => false

def failing (t : Turn Session) : Bool :=
  match t.pass.seen with
  | .connected .. => false
  | _ => true

def suppressed (t : Turn Session) : Bool :=
  match t.pass.seen with
  | .suppressed => true
  | _ => false

def arms (t : Turn Session) : Bool :=
  t.suppressed && !t.before.shutdownGuard.cooldownUntil.any (t.before.tick < ·)

def releases (t : Turn Session) : Bool :=
  t.before.shutdownGuard.cooldownUntil.isSome && t.after.shutdownGuard.cooldownUntil.isNone

end Turn

def turn (all : List Choice) (a : Attempt Session) (s : EngineState) : Turn Session × EngineState :=
  (⟨s, (attempt all a s).1, (attempt all a s).2⟩, (attempt all a s).2)

def ConnectionEngine.turns (e : ConnectionEngine) (calls : List (Nat → Attempt Session))
    (s : EngineState) : List (Turn Session) :=
  (runAll (fun answers => runWhile (turn e.candidates) (fun t => t.pass.retries)
    (if e.candidates.isEmpty then [] else (List.range e.maxAttempts).map answers)) calls s).1.flatten

def dialCount (ts : List (Turn Session)) : Nat := ts.countP Turn.dials

/-- What suppression amounts to along the turns of a run that starts at tick `start`. -/
structure Paced (w c start : Nat) (ts : List (Turn Session)) : Prop where
  ticks : ∀ i (hi : i < ts.length), ts[i].pass.tick.toNat = start + i
  suppresses : ∀ earlier t later, ts = earlier ++ t :: later → t.arms = true →
    ∀ u ∈ t :: later, u.pass.tick.toNat < t.pass.tick.toNat + c → u.suppressed = true
  releases : ∀ earlier t between u later, ts = earlier ++ t :: (between ++ u :: later) →
    t.arms = true → (∀ v ∈ between, v.pass.tick.toNat < t.pass.tick.toNat + c) →
      t.pass.tick.toNat + c ≤ u.pass.tick.toNat → u.releases = true ∧ u.suppressed = false
  refills : ∀ earlier t between u later, ts = earlier ++ t :: (between ++ u :: later) →
    t.releases = true → u.arms = true → w ≤ dialCount (t :: between)
  outage : ∀ earlier stretch later, ts = earlier ++ (stretch ++ later) → stretch.length ≤ w + c →
    (∀ t ∈ stretch, t.failing = true) → dialCount stretch ≤ w

section Guard

variable {g : ShutdownGuard} {tick : UInt64}

/-- What one check does. -/
inductive CheckPath (tick : UInt64) (g : ShutdownGuard) : Bool → ShutdownGuard → Prop
  | cooling {until_ : UInt64} (hcool : g.cooldownUntil = some until_) (hlt : tick < until_) :
      CheckPath tick g true g
  | released {until_ : UInt64} (hcool : g.cooldownUntil = some until_) (hle : until_ ≤ tick) :
      CheckPath tick g false g.release
  | arms (hcool : g.cooldownUntil = none) (harmed : g.armed = true) :
      CheckPath tick g true { g with cooldownUntil := some (tick + g.cooldownTicks) }
  | idle (hcool : g.cooldownUntil = none) (harmed : g.armed = false) : CheckPath tick g false g

private theorem armed_release (g : ShutdownGuard) : g.release.armed = false := by
  simp [ShutdownGuard.armed, ShutdownGuard.release]

theorem checkPath (tick : UInt64) (g : ShutdownGuard) :
    CheckPath tick g (g.shouldSuppressSwitching tick).1 (g.shouldSuppressSwitching tick).2 := by
  unfold ShutdownGuard.shouldSuppressSwitching
  cases hcool : g.cooldownUntil with
  | none =>
    dsimp only [ShutdownGuard.arm]
    cases harmed : g.armed with
    | true => exact .arms hcool harmed
    | false => exact .idle hcool harmed
  | some until_ =>
    dsimp only
    split_ifs with hlt
    · exact .cooling hcool hlt
    · rw [ShutdownGuard.arm, armed_release]
      exact .released hcool (UInt64.not_lt.mp hlt)

theorem CheckPath.of_lt {suppress : Bool} {g' : ShutdownGuard} (h : CheckPath tick g suppress g')
    {deadline : UInt64} (hcool : g.cooldownUntil = some deadline) (hlt : tick < deadline) :
    suppress = true ∧ g' = g := by
  cases h with
  | cooling => exact ⟨rfl, rfl⟩
  | released hcool' hle =>
    obtain rfl := Option.some.inj (hcool.symm.trans hcool')
    exact absurd hlt (UInt64.not_lt.mpr hle)
  | arms hnone | idle hnone =>
    rw [hcool] at hnone
    cases hnone

theorem CheckPath.of_le {suppress : Bool} {g' : ShutdownGuard} (h : CheckPath tick g suppress g')
    {deadline : UInt64} (hcool : g.cooldownUntil = some deadline) (hle : deadline ≤ tick) :
    suppress = false ∧ g' = g.release := by
  cases h with
  | released => exact ⟨rfl, rfl⟩
  | cooling hcool' hlt =>
    obtain rfl := Option.some.inj (hcool.symm.trans hcool')
    exact absurd hlt (UInt64.not_lt.mpr hle)
  | arms hnone | idle hnone =>
    rw [hcool] at hnone
    cases hnone

private theorem windowSize_le_of_armed (h : g.armed = true) : g.windowSize ≤ g.window.length := by
  simp only [ShutdownGuard.armed, Bool.and_eq_true, decide_eq_true_eq] at h
  omega

private theorem armed_of_failures (hw : 4 ≤ g.windowSize)
    (hthreshold : g.failureFractionThreshold ≤ 1)
    (hfull : g.windowSize ≤ g.window.length) (hfailed : ∀ x ∈ g.window, x.2 = false) :
    g.armed = true := by
  have hlength : max g.windowSize 4 ≤ g.window.length := by omega
  have hall : g.window.failures = g.window.length := by
    rw [Window.failures, List.countP_eq_length]
    intro x hx
    simp [hfailed x hx]
  have hnonempty : g.window.isEmpty = false := by
    rw [List.isEmpty_eq_false_iff]
    intro hnil
    rw [hnil, List.length_nil] at hlength
    omega
  have hpos : (g.window.length : ℚ) ≠ 0 := by
    have hne : g.window.length ≠ 0 := by omega
    exact_mod_cast hne
  have hfraction : g.window.failureFraction = 1 := by
    rw [Window.failureFraction, hnonempty, hall]
    exact div_self hpos
  simp [ShutdownGuard.armed, hlength, hfraction, hthreshold]

structure Configured (w : Nat) (threshold : ℚ) (cooldown : UInt64) (g : ShutdownGuard) : Prop where
  windowSize : g.windowSize = w
  threshold : g.failureFractionThreshold = threshold
  cooldown : g.cooldownTicks = cooldown

variable {w : Nat} {threshold : ℚ} {cooldown : UInt64}

theorem CheckPath.configured {suppress : Bool} {g' : ShutdownGuard}
    (h : CheckPath tick g suppress g') (hg : Configured w threshold cooldown g) :
    Configured w threshold cooldown g' := by
  cases h with
  | cooling | idle => exact hg
  | released => exact ⟨hg.windowSize, hg.threshold, hg.cooldown⟩
  | arms => exact ⟨hg.windowSize, hg.threshold, hg.cooldown⟩

/-- A check does not add to the window. -/
theorem CheckPath.length_le {suppress : Bool} {g' : ShutdownGuard}
    (h : CheckPath tick g suppress g') : g'.window.length ≤ g.window.length := by
  cases h with
  | cooling | idle | arms => exact le_rfl
  | released => exact Nat.zero_le _

private theorem length_record_le_succ (g : ShutdownGuard) (tick : UInt64) (success : Bool) :
    (g.record tick success).window.length ≤ g.window.length + 1 := by
  show (g.window.record g.windowSize tick success).length ≤ _
  rw [Window.record, List.length_append, Window.length_trim, List.length_singleton]
  split_ifs <;> omega

end Guard

section Turns

variable {all : List Choice} {s t : EngineState} {ts us : List (Turn Session)} {u : Turn Session}

/-- What a turn does to the guard and the clock. -/
structure TurnPath (s : EngineState) (u : Turn Session) (g : ShutdownGuard) : Prop where
  before : u.before = s
  tick : u.pass.tick = s.tick
  next : u.after.tick = s.tick + 1
  check : CheckPath s.tick s.shutdownGuard u.suppressed g
  after : u.after.shutdownGuard = if u.dials then g.record s.tick (!u.failing) else g
  quiet : u.suppressed = true → u.dials = false

theorem turn_path (all : List Choice) (a : Attempt Session) (s : EngineState) :
    TurnPath s (turn all a s).1 (s.shutdownGuard.shouldSuppressSwitching s.tick).2 := by
  have hcheck := checkPath s.tick s.shutdownGuard
  have hiff : seeNext all a s.check.1 s.scores = .suppressed ↔
      (s.shutdownGuard.shouldSuppressSwitching s.tick).1 = true := seeNext_eq_suppressed_iff
  simp only [turn, attempt_eq, attemptTelling]
  generalize seeNext all a s.check.1 s.scores = seen at hiff ⊢
  cases seen with
  | suppressed =>
    rw [hiff.mp rfl] at hcheck
    exact ⟨rfl, rfl, rfl, hcheck, rfl, fun _ => rfl⟩
  | noCandidates | connected | failed =>
    have hpasses : (s.shutdownGuard.shouldSuppressSwitching s.tick).1 = false := by simpa using hiff
    rw [hpasses] at hcheck
    exact ⟨rfl, rfl, rfl, hcheck, rfl, nofun⟩

inductive Consecutive (all : List Choice) : EngineState → List (Turn Session) → EngineState → Prop
  | nil {s : EngineState} : Consecutive all s [] s
  | cons {s t : EngineState} {us : List (Turn Session)} (a : Attempt Session)
      (hrest : Consecutive all (turn all a s).2 us t) : Consecutive all s ((turn all a s).1 :: us) t

theorem Consecutive.append (hfirst : Consecutive all s ts t) {v : EngineState}
    (hlast : Consecutive all t us v) : Consecutive all s (ts ++ us) v := by
  induction hfirst with
  | nil => exact hlast
  | cons a _ ih => exact .cons a (ih hlast)

theorem Consecutive.split {v : EngineState} (h : Consecutive all s (ts ++ us) v) :
    ∃ t, Consecutive all s ts t ∧ Consecutive all t us v := by
  induction ts generalizing s with
  | nil => exact ⟨s, .nil, h⟩
  | cons u ts ih =>
    cases h with
    | cons a hrest =>
      obtain ⟨t, hfirst, hlast⟩ := ih hrest
      exact ⟨t, .cons a hfirst, hlast⟩

private theorem consecutive_runWhile (again : Turn Session → Bool) (as : List (Attempt Session))
    (s : EngineState) :
    Consecutive all s (runWhile (turn all) again as s).1 (runWhile (turn all) again as s).2 := by
  induction as generalizing s with
  | nil => exact .nil
  | cons a as ih =>
    simp only [runWhile]
    split_ifs
    · exact .cons a (ih _)
    · exact .cons a .nil

private theorem consecutive_turns (e : ConnectionEngine) (calls : List (Nat → Attempt Session))
    (s : EngineState) : ∃ t, Consecutive e.candidates s (e.turns calls s) t := by
  induction calls generalizing s with
  | nil => exact ⟨s, .nil⟩
  | cons call calls ih =>
    obtain ⟨t, hcalls⟩ := ih _
    exact ⟨t, (consecutive_runWhile _ _ s).append hcalls⟩

/-- The turns of the calls are those that `connect` makes. -/
theorem turns_pass (e : ConnectionEngine) (calls : List (Nat → Attempt Session)) (s : EngineState) :
    (e.turns calls s).map Turn.pass = (runAll e.connect calls s).1.flatten := by
  have hturn : ∀ (a : Attempt Session) t, attempt e.candidates a t =
      Prod.map Turn.pass id (turn e.candidates a t) := fun _ _ => rfl
  have hcall : ∀ answers t, e.connect answers t = Prod.map (List.map Turn.pass) id
      (runWhile (turn e.candidates) (fun t => t.pass.retries)
        (if e.candidates.isEmpty then [] else (List.range e.maxAttempts).map answers) t) :=
    fun answers t => runWhile_mapAnswer Turn.pass hturn Pass.retries _ t
  have hcalls := runWhile_mapAnswer _ hcall (fun _ => true) calls s
  rw [runAll, hcalls, Prod.map_fst, ← List.map_flatten]
  rfl

variable {w : Nat} {threshold : ℚ} {cooldown : UInt64}

theorem TurnPath.configured {g : ShutdownGuard} (h : TurnPath s u g)
    (hs : Configured w threshold cooldown s.shutdownGuard) :
    Configured w threshold cooldown u.after.shutdownGuard := by
  have hg := h.check.configured hs
  rw [h.after]
  split_ifs
  · exact ⟨hg.windowSize, hg.threshold, hg.cooldown⟩
  · exact hg

theorem Consecutive.configured (h : Consecutive all s ts t)
    (hs : Configured w threshold cooldown s.shutdownGuard) :
    Configured w threshold cooldown t.shutdownGuard := by
  induction h with
  | nil => exact hs
  | cons a _ ih => exact ih ((turn_path all a _).configured hs)

theorem toNat_succ {tick : UInt64} (h : tick.toNat + 1 < 2 ^ 64) :
    (tick + 1).toNat = tick.toNat + 1 := by
  rw [UInt64.toNat_add]
  exact Nat.mod_eq_of_lt h

theorem toNat_tick_turn (all : List Choice) (a : Attempt Session) (s : EngineState)
    (hno : s.tick.toNat + 1 < 2 ^ 64) : (turn all a s).2.tick.toNat = s.tick.toNat + 1 :=
  (congrArg UInt64.toNat (turn_path all a s).next).trans (toNat_succ hno)

theorem Consecutive.tick_eq (h : Consecutive all s ts t) (hno : s.tick.toNat + ts.length < 2 ^ 64) :
    t.tick.toNat = s.tick.toNat + ts.length := by
  induction h with
  | nil => rfl
  | @cons s t us a _ ih =>
    rw [List.length_cons] at hno ⊢
    have hnext := toNat_tick_turn all a s (by omega)
    rw [ih (by omega), hnext]
    omega

theorem Consecutive.getElem_tick (h : Consecutive all s ts t)
    (hno : s.tick.toNat + ts.length < 2 ^ 64) (i : Nat) (hi : i < ts.length) :
    ts[i].pass.tick.toNat = s.tick.toNat + i := by
  induction h generalizing i with
  | nil => simp at hi
  | @cons s t us a _ ih =>
    rw [List.length_cons] at hno
    cases i with
    | zero => exact congrArg UInt64.toNat (turn_path all a s).tick
    | succ i =>
      have hnext := toNat_tick_turn all a s (by omega)
      rw [List.getElem_cons_succ, ih (by omega) i (by simpa using hi), hnext]
      omega

/-- A turn can only fill the window by a dial. -/
theorem TurnPath.length_le {g : ShutdownGuard} (h : TurnPath s u g) :
    u.after.shutdownGuard.window.length ≤
      s.shutdownGuard.window.length + if u.dials then 1 else 0 := by
  have hcheck := h.check.length_le
  rw [h.after]
  split_ifs
  · have hrecord := length_record_le_succ g s.tick (!u.failing)
    omega
  · omega

theorem dialCount_cons (u : Turn Session) (us : List (Turn Session)) :
    dialCount (u :: us) = dialCount us + if u.dials then 1 else 0 := List.countP_cons

private theorem dialCount_cons_of_dials (h : u.dials = true) : dialCount
    (u :: us) = dialCount us + 1 := by
  rw [dialCount_cons, if_pos h]

theorem dialCount_cons_of_quiet (h : u.dials = false) : dialCount (u :: us) = dialCount us := by
  rw [dialCount_cons, h]
  rfl

theorem Consecutive.length_le (h : Consecutive all s ts t) :
    t.shutdownGuard.window.length ≤ s.shutdownGuard.window.length + dialCount ts := by
  induction h with
  | nil => exact Nat.le_add_right _ _
  | @cons s t us a _ ih =>
    have hturn := (turn_path all a s).length_le
    have hafter : (turn all a s).2 = (turn all a s).1.after := rfl
    rw [hafter] at ih
    rw [dialCount_cons]
    omega

end Turns

section Suppression

variable {all : List Choice} {s t : EngineState} {ts : List (Turn Session)} {u : Turn Session}
  {g : ShutdownGuard}

theorem TurnPath.arms_iff (h : TurnPath s u g) : u.arms = true ↔
    s.shutdownGuard.cooldownUntil = none ∧ s.shutdownGuard.armed = true ∧ u.suppressed = true ∧
      u.after.shutdownGuard.cooldownUntil = some (s.tick + s.shutdownGuard.cooldownTicks) := by
  have hcheck := h.check
  have hafter := h.after
  have hbefore := h.before
  have hquiet := h.quiet
  rw [Turn.arms, hbefore]
  cases hs : u.suppressed with
  | false => simp
  | true =>
    rw [hs] at hcheck
    rw [hquiet hs] at hafter
    cases hcheck with
    | cooling hcool hlt => simp [hcool, hlt]
    | arms hcool harmed => simp [hcool, harmed, hafter]

theorem TurnPath.releases_iff (h : TurnPath s u g) : u.releases = true ↔
    (∃ deadline, s.shutdownGuard.cooldownUntil = some deadline ∧ deadline ≤ s.tick) := by
  have hcheck := h.check
  have hafter := h.after
  have hquiet := h.quiet
  rw [Turn.releases, h.before]
  cases hs : u.suppressed with
  | true =>
    rw [hs] at hcheck
    rw [hquiet hs] at hafter
    cases hcheck with
    | cooling hcool hlt => simp [hcool, hafter, UInt64.not_le.mpr hlt]
    | arms hcool => simp [hcool]
  | false =>
    rw [hs] at hcheck
    cases hcheck with
    | released hcool hle =>
      have hnone : u.after.shutdownGuard.cooldownUntil = none := by
        rw [hafter]
        split_ifs <;> rfl
      simp [hcool, hnone, hle]
    | idle hcool => simp [hcool]

/-- While a cooldown is on nothing changes but the clock. -/
theorem TurnPath.cooling (h : TurnPath s u g) {deadline : UInt64}
    (hcool : s.shutdownGuard.cooldownUntil = some deadline) (hlt : s.tick < deadline) :
    u.suppressed = true ∧ u.dials = false ∧ u.after.shutdownGuard = s.shutdownGuard := by
  obtain ⟨hsuppressed, hsame⟩ := h.check.of_lt hcool hlt
  have hafter := h.after
  rw [h.quiet hsuppressed, hsame] at hafter
  exact ⟨hsuppressed, h.quiet hsuppressed, hafter⟩

/-- The first check after a cooldown starts over with an empty window. -/
theorem TurnPath.release (h : TurnPath s u g) {deadline : UInt64}
    (hcool : s.shutdownGuard.cooldownUntil = some deadline) (hle : deadline ≤ s.tick) :
    u.suppressed = false ∧ g = s.shutdownGuard.release :=
  h.check.of_le hcool hle

theorem Consecutive.tick_le (h : Consecutive all s ts t) (hno : s.tick.toNat + ts.length < 2 ^ 64)
    (hu : u ∈ ts) : s.tick.toNat ≤ u.pass.tick.toNat := by
  obtain ⟨i, hi, rfl⟩ := List.mem_iff_getElem.mp hu
  rw [h.getElem_tick hno i hi]
  exact Nat.le_add_right _ _

variable {deadline : UInt64}

/-- Turns before the deadline of a cooldown are suppressed. -/
theorem Consecutive.suppressed (h : Consecutive all s ts t)
    (hno : s.tick.toNat + ts.length < 2 ^ 64)
    (hcool : s.shutdownGuard.cooldownUntil = some deadline) (hu : u ∈ ts)
    (hlt : u.pass.tick < deadline) : u.suppressed = true := by
  induction h with
  | nil => simp at hu
  | @cons s t us a hrest ih =>
    have hpath := turn_path all a s
    have hfirst : s.tick.toNat ≤ u.pass.tick.toNat := (Consecutive.cons a hrest).tick_le hno hu
    have hon : s.tick < deadline := UInt64.lt_of_le_of_lt hfirst hlt
    obtain ⟨hsuppressed, -, hafter⟩ := hpath.cooling hcool hon
    rcases List.mem_cons.mp hu with rfl | hu
    · exact hsuppressed
    · rw [List.length_cons] at hno
      have hnext := toNat_tick_turn all a s (by omega)
      exact ih (by omega) (hafter ▸ hcool) hu

/-- A cooldown stays on until its deadline. -/
theorem Consecutive.cooldownUntil (h : Consecutive all s ts t)
    (hcool : s.shutdownGuard.cooldownUntil = some deadline)
    (hlt : ∀ u ∈ ts, u.pass.tick < deadline) : t.shutdownGuard.cooldownUntil = some deadline := by
  induction h with
  | nil => exact hcool
  | @cons s t us a _ ih =>
    have hpath := turn_path all a s
    have hon : s.tick < deadline := hpath.tick ▸ hlt _ List.mem_cons_self
    obtain ⟨-, -, hafter⟩ := hpath.cooling hcool hon
    exact ih (hafter ▸ hcool) fun u hu => hlt u (List.mem_cons_of_mem _ hu)

theorem Consecutive.dialCount_le (h : Consecutive all s ts t)
    (hno : s.tick.toNat + ts.length < 2 ^ 64)
    (hcool : s.shutdownGuard.cooldownUntil = some deadline) :
    dialCount ts ≤ ts.length - (deadline.toNat - s.tick.toNat) := by
  induction h with
  | nil => exact Nat.zero_le _
  | @cons s t us a hrest ih =>
    have hpath := turn_path all a s
    rw [List.length_cons] at hno
    by_cases hon : s.tick < deadline
    · obtain ⟨-, hquiet, hafter⟩ := hpath.cooling hcool hon
      have hnext := toNat_tick_turn all a s (by omega)
      have hrest := ih (by omega) (hafter ▸ hcool)
      have hlt : s.tick.toNat < deadline.toNat := hon
      rw [dialCount_cons_of_quiet hquiet, List.length_cons]
      omega
    · have hle : deadline.toNat ≤ s.tick.toNat := UInt64.not_lt.mp hon
      have hcount : dialCount ((turn all a s).1 :: us) ≤ ((turn all a s).1 :: us).length :=
        List.countP_le_length
      omega

end Suppression

section Outage

variable {all : List Choice} {s t : EngineState} {ts : List (Turn Session)} {u : Turn Session}
  {g : ShutdownGuard} {w : Nat} {threshold : ℚ} {cooldown : UInt64}

/-- The newest `k` outcomes are failures. -/
structure Trailing (k : Nat) (window : Window) : Prop where
  length : k ≤ window.length
  failed : ∀ x ∈ window.rtake k, x.2 = false

theorem Trailing.zero (window : Window) : Trailing 0 window := ⟨Nat.zero_le _, by simp⟩

theorem Trailing.record {k : Nat} (h : Trailing k g.window) (hk : k < g.windowSize) (tick : UInt64) :
    Trailing (k + 1) (g.record tick false).window := by
  have hlength := h.length
  show Trailing (k + 1) (g.window.record g.windowSize tick false)
  constructor
  · rw [Window.record, List.length_append, Window.length_trim, List.length_singleton]
    split_ifs <;> omega
  · intro x hx
    rw [Window.record, List.rtake_concat_succ] at hx
    rcases List.mem_append.mp hx with hx | hx
    · exact h.failed x ((Window.rtake_trim_suffix _ _ _).subset hx)
    · rw [List.mem_singleton.mp hx]

/-- A guard that has not armed has room for another failure. -/
theorem Trailing.lt_windowSize {k : Nat} (h : Trailing k g.window) (hw : 4 ≤ g.windowSize)
    (hthreshold : g.failureFractionThreshold ≤ 1) (harmed : g.armed = false) : k < g.windowSize := by
  by_contra hk
  have hlength := h.length
  have hbounded := g.bounded
  have hwhole : g.window.rtake k = g.window := Window.rtake_of_length_le (by omega)
  have hfailed := h.failed
  rw [hwhole] at hfailed
  rw [armed_of_failures hw hthreshold (by omega) hfailed] at harmed
  cases harmed

/-- An idle guard that knows of `k` failures in a row lets through at most those that it still
lacks, or as many turns as are left after a cooldown. -/
theorem Consecutive.outage_idle (h : Consecutive all s ts t) (hw : 4 ≤ w) (hthreshold : threshold ≤ 1)
    (hno : s.tick.toNat + ts.length + cooldown.toNat < 2 ^ 64)
    (hs : Configured w threshold cooldown s.shutdownGuard)
    (hidle : s.shutdownGuard.cooldownUntil = none) {k : Nat}
    (hk : Trailing k s.shutdownGuard.window) (hfail : ∀ u ∈ ts, u.failing = true) :
    dialCount ts ≤ max (w - k) (ts.length - cooldown.toNat) := by
  induction h generalizing k with
  | nil => exact Nat.zero_le _
  | @cons s t us a hrest ih =>
    rw [List.length_cons] at hno
    have hpath := turn_path all a s
    have hnext := toNat_tick_turn all a s (by omega)
    have hconfigured := hpath.configured hs
    have hcheck := hpath.check
    have hafter := hpath.after
    have hquiet := hpath.quiet
    have hlater : ∀ u ∈ us, u.failing = true := fun u hu => hfail u (List.mem_cons_of_mem _ hu)
    generalize (s.shutdownGuard.shouldSuppressSwitching s.tick).2 = g at hcheck hafter
    cases hsuppressed : (turn all a s).1.suppressed with
    | true =>
      rw [hsuppressed] at hcheck
      rw [hquiet hsuppressed] at hafter
      cases hcheck with
      | cooling hcool =>
        rw [hidle] at hcool
        cases hcool
      | arms =>
        -- the turns of the cooldown do not dial
        have hcool : (turn all a s).2.shutdownGuard.cooldownUntil = some (s.tick + cooldown) := by
          rw [← hs.cooldown]
          exact congrArg ShutdownGuard.cooldownUntil hafter
        have hdeadline : (s.tick + cooldown).toNat = s.tick.toNat + cooldown.toNat := by
          rw [UInt64.toNat_add]
          exact Nat.mod_eq_of_lt (by omega)
        have hcount := hrest.dialCount_le (by omega) hcool
        rw [hdeadline, hnext] at hcount
        rw [dialCount_cons_of_quiet (hquiet hsuppressed), List.length_cons]
        omega
    | false =>
      rw [hsuppressed] at hcheck
      cases hcheck with
      | released hcool =>
        rw [hidle] at hcool
        cases hcool
      | idle _ harmed =>
        have hroom : k < w := hs.windowSize ▸ hk.lt_windowSize (hs.windowSize ▸ hw)
          (hs.threshold ▸ hthreshold) harmed
        cases hdials : (turn all a s).1.dials with
        | true =>
          rw [hdials, if_pos rfl, hfail _ List.mem_cons_self] at hafter
          have hk' := hk.record (hs.windowSize ▸ hroom) s.tick
          have hcount := ih (by omega) hconfigured (hafter ▸ hidle) (hafter ▸ hk') hlater
          rw [dialCount_cons_of_dials hdials, List.length_cons]
          omega
        | false =>
          rw [hdials, if_neg Bool.false_ne_true] at hafter
          have hcount := ih (by omega) hconfigured (hafter ▸ hidle) (hafter ▸ hk) hlater
          rw [dialCount_cons_of_quiet hdials, List.length_cons]
          omega

theorem Consecutive.outage (h : Consecutive all s ts t) (hw : 4 ≤ w) (hthreshold : threshold ≤ 1)
    (hno : s.tick.toNat + ts.length + cooldown.toNat < 2 ^ 64)
    (hs : Configured w threshold cooldown s.shutdownGuard) (hfail : ∀ u ∈ ts, u.failing = true) :
    dialCount ts ≤ max w (ts.length - cooldown.toNat) := by
  induction h with
  | nil => exact Nat.zero_le _
  | @cons s t us a hrest ih =>
    cases hcool : s.shutdownGuard.cooldownUntil with
    | none =>
      exact (Consecutive.cons a hrest).outage_idle hw hthreshold hno hs hcool (.zero _) hfail
    | some deadline =>
      rw [List.length_cons] at hno
      have hpath := turn_path all a s
      have hnext := toNat_tick_turn all a s (by omega)
      have hconfigured := hpath.configured hs
      have hlater : ∀ u ∈ us, u.failing = true := fun u hu => hfail u (List.mem_cons_of_mem _ hu)
      by_cases hon : s.tick < deadline
      · obtain ⟨-, hquiet, -⟩ := hpath.cooling hcool hon
        have hcount := ih (by omega) hconfigured hlater
        rw [dialCount_cons_of_quiet hquiet, List.length_cons]
        omega
      · -- the window starts over with at most the dial of this turn
        obtain ⟨-, hrelease⟩ := hpath.release hcool (UInt64.not_lt.mp hon)
        have hafter := hpath.after
        rw [hrelease] at hafter
        cases hdials : (turn all a s).1.dials with
        | true =>
          rw [hdials, if_pos rfl, hfail _ List.mem_cons_self] at hafter
          have hroom : 0 < s.shutdownGuard.release.windowSize := by
            have hsize : s.shutdownGuard.release.windowSize = w := hs.windowSize
            omega
          have hfirst := (Trailing.zero s.shutdownGuard.release.window).record hroom s.tick
          have hcount := hrest.outage_idle hw hthreshold (by omega) hconfigured
            (congrArg ShutdownGuard.cooldownUntil hafter) (hafter ▸ hfirst) hlater
          rw [dialCount_cons_of_dials hdials, List.length_cons]
          omega
        | false =>
          rw [hdials, if_neg Bool.false_ne_true] at hafter
          have hcount := hrest.outage_idle hw hthreshold (by omega) hconfigured
            (congrArg ShutdownGuard.cooldownUntil hafter) (.zero _) hlater
          rw [dialCount_cons_of_quiet hdials, List.length_cons]
          omega

end Outage

section Pacing

variable {all : List Choice} {s t : EngineState} {ts : List (Turn Session)} {w : Nat}
  {threshold : ℚ} {cooldown : UInt64}

theorem Consecutive.split_at {earlier rest : List (Turn Session)}
    (h : Consecutive all s (earlier ++ rest) t)
    (hno : s.tick.toNat + (earlier ++ rest).length + cooldown.toNat < 2 ^ 64)
    (hs : Configured w threshold cooldown s.shutdownGuard) :
    ∃ m, Consecutive all m rest t ∧ Configured w threshold cooldown m.shutdownGuard ∧
      m.tick.toNat + rest.length + cooldown.toNat < 2 ^ 64 := by
  obtain ⟨m, hfirst, hrest⟩ := h.split
  rw [List.length_append] at hno
  have htick := hfirst.tick_eq (by omega)
  refine ⟨m, hrest, hfirst.configured hs, ?_⟩
  rw [htick]
  omega

/-- A turn that arms starts a cooldown of the configured length. -/
theorem TurnPath.deadline {u : Turn Session} {g : ShutdownGuard} (h : TurnPath s u g)
    (hs : Configured w threshold cooldown s.shutdownGuard)
    (hno : s.tick.toNat + cooldown.toNat < 2 ^ 64) (harms : u.arms = true) :
    u.suppressed = true ∧ ∃ deadline : UInt64,
      u.after.shutdownGuard.cooldownUntil = some deadline ∧
        deadline.toNat = u.pass.tick.toNat + cooldown.toNat := by
  obtain ⟨-, -, hsuppressed, hcool⟩ := h.arms_iff.mp harms
  refine ⟨hsuppressed, s.tick + cooldown, hs.cooldown ▸ hcool, ?_⟩
  rw [h.tick, UInt64.toNat_add]
  exact Nat.mod_eq_of_lt hno

theorem Consecutive.length_le_of_releases {u : Turn Session} {between : List (Turn Session)}
    (h : Consecutive all s (u :: between) t) (hreleases : u.releases = true) :
    t.shutdownGuard.window.length ≤ dialCount (u :: between) := by
  cases h with
  | cons a hbetween =>
    have hpath := turn_path all a s
    obtain ⟨deadline, hcool, hpast⟩ := hpath.releases_iff.mp hreleases
    obtain ⟨-, hrelease⟩ := hpath.release hcool hpast
    have hafter := hpath.after
    have hrecord := length_record_le_succ s.shutdownGuard.release s.tick (!(turn all a s).1.failing)
    have hempty : s.shutdownGuard.release.window.length = 0 := rfl
    have hfirst : (turn all a s).2.shutdownGuard.window.length ≤
        if (turn all a s).1.dials then 1 else 0 := by
      rw [show (turn all a s).2 = (turn all a s).1.after from rfl, hafter, hrelease]
      split_ifs <;> omega
    have hsince := hbetween.length_le
    rw [dialCount_cons]
    omega

theorem Consecutive.paced (h : Consecutive all s ts t) (hw : 4 ≤ w) (hthreshold : threshold ≤ 1)
    (hno : s.tick.toNat + ts.length + cooldown.toNat < 2 ^ 64)
    (hs : Configured w threshold cooldown s.shutdownGuard) :
    Paced w cooldown.toNat s.tick.toNat ts := by
  constructor
  case ticks => exact h.getElem_tick (by omega)
  case suppresses =>
    rintro earlier u later rfl harms v hv hlt
    obtain ⟨m, hrest, hm, hno⟩ := h.split_at hno hs
    rw [List.length_cons] at hno
    cases hrest with
    | cons a hlater =>
      have hpath := turn_path all a m
      obtain ⟨hsuppressed, deadline, hcool, hdeadline⟩ := hpath.deadline hm (by omega) harms
      rcases List.mem_cons.mp hv with rfl | hv
      · exact hsuppressed
      · have hnext := toNat_tick_turn all a m (by omega)
        refine hlater.suppressed (by omega) hcool hv ?_
        exact UInt64.lt_iff_toNat_lt.mpr (hdeadline ▸ hlt)
  case releases =>
    rintro earlier u between v later rfl harms hbetween hv
    obtain ⟨m, hrest, hm, hno⟩ := h.split_at hno hs
    rw [List.length_cons] at hno
    cases hrest with
    | cons a hlater =>
      have hpath := turn_path all a m
      obtain ⟨-, deadline, hcool, hdeadline⟩ := hpath.deadline hm (by omega) harms
      obtain ⟨n, hbefore, hlast⟩ := hlater.split
      have hstill := hbefore.cooldownUntil hcool fun x hx =>
        UInt64.lt_iff_toNat_lt.mpr (hdeadline ▸ hbetween x hx)
      cases hlast with
      | cons b _ =>
        have hpath' := turn_path all b n
        have hpast : deadline ≤ n.tick := by
          rw [UInt64.le_iff_toNat_le, hdeadline, ← hpath'.tick]
          exact hv
        exact ⟨hpath'.releases_iff.mpr ⟨deadline, hstill, hpast⟩, (hpath'.release hstill hpast).1⟩
  case refills =>
    rintro earlier u between v later rfl hreleases harms
    obtain ⟨m, hrest, hm, hno⟩ := h.split_at hno hs
    obtain ⟨n, hbefore, hlast⟩ := Consecutive.split (List.cons_append ▸ hrest)
    cases hlast with
    | cons b _ =>
      obtain ⟨-, harmed, -, -⟩ := (turn_path all b n).arms_iff.mp harms
      have hfull := windowSize_le_of_armed harmed
      rw [(hbefore.configured hm).windowSize] at hfull
      exact hfull.trans (hbefore.length_le_of_releases hreleases)
  case outage =>
    rintro earlier stretch later rfl hlength hfail
    obtain ⟨m, hrest, hm, hno⟩ := h.split_at hno hs
    obtain ⟨n, hstretch, -⟩ := hrest.split
    rw [List.length_append] at hno
    have hcount := hstretch.outage hw hthreshold (by omega) hm hfail
    omega

/-- Suppression neither lasts beyond its cooldown nor lets an outage through. -/
theorem turns_paced (e : ConnectionEngine) (calls : List (Nat → Attempt Session)) (s : EngineState)
    (hw : 4 ≤ w) (hthreshold : 0 < threshold ∧ threshold ≤ 1)
    (hs : Configured w threshold cooldown s.shutdownGuard)
    (hno : s.tick.toNat + (e.turns calls s).length + cooldown.toNat < 2 ^ 64) :
    Paced w cooldown.toNat s.tick.toNat (e.turns calls s) := by
  obtain ⟨t, hturns⟩ := consecutive_turns e calls s
  exact hturns.paced hw hthreshold.2 hno hs

def deadCalls : List (Nat → Attempt Unit) :=
  List.replicate 3 (dialing (.error (.connect .localNetworkFailure "")))

/-- The engine's own settings meet the conditions, and the ninth turn arms. -/
theorem deadCalls_paced : Paced 8 90 0 (sampleEngine.turns deadCalls .new) ∧
    (sampleEngine.turns deadCalls .new).map Turn.arms = List.replicate 8 false ++ [true] := by
  have harms : (sampleEngine.turns deadCalls .new).map Turn.arms =
      List.replicate 8 false ++ [true] := by
    decide +kernel
  have hlength : (sampleEngine.turns deadCalls .new).length = 9 := by
    rw [← List.length_map Turn.arms, harms]
    rfl
  refine ⟨turns_paced sampleEngine deadCalls .new (by decide) ?_ ⟨rfl, rfl, rfl⟩ ?_, harms⟩
  · norm_num [EngineState.new, ShutdownGuard.new]
  · rw [hlength]
    decide

end Pacing

end Vpn1.Engine
