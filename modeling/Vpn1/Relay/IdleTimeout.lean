import Mathlib.Data.List.Basic
import Mathlib.Tactic.Ring

/-! The relay's inactivity bound: windows of one length follow each other while bytes are copied, and
a window in which the shared counter of moves did not change ends the session. Time is in ticks from
the beginning of the copy. -/

namespace Vpn1.Relay

section Model

inductive Poll
  | pending
  | failed
  | ready (n : Nat)
  deriving DecidableEq

def Poll.moved : Poll → Bool
  | .ready n => decide (0 < n)
  | _ => false

/-- `ActivityTracked::poll_read` and `poll_write`: the counter wraps. -/
def track (activity : UInt64) (p : Poll) : UInt64 := if p.moved then activity + 1 else activity

/-- The polls of a copy by the tick they happen at, those before the timer is looked at first; and
the tick at which the copy is done. -/
structure Trace where
  early : Nat → List Poll
  late : Nat → List Poll
  finish : Option Nat

namespace Trace

def tick (tr : Trace) (t : Nat) : List Poll := tr.early t ++ tr.late t

def polls (tr : Trace) (t : Nat) : List Poll := (List.range t).flatMap tr.tick ++ tr.early t

def activity (tr : Trace) (t : Nat) : UInt64 := (tr.polls t).foldl track 0

end Trace

inductive Outcome
  | returned (t : Nat)
  | aborted (t : Nat)
  | running
  deriving DecidableEq

/-- The loop of `copy_with_idle_timeout` for some windows. The copy is polled before the timer. -/
def idleLoop (tr : Trace) (idle : Nat) : Nat → Nat → UInt64 → Outcome
  | 0, _, _ => .running
  | windows + 1, start, before =>
    let deadline := start + idle
    match tr.finish with
    | some t =>
      if t ≤ deadline then .returned t
      else if tr.activity deadline = before then .aborted deadline
      else idleLoop tr idle windows deadline (tr.activity deadline)
    | none =>
      if tr.activity deadline = before then .aborted deadline
      else idleLoop tr idle windows deadline (tr.activity deadline)

def copyWithIdleTimeout (tr : Trace) (idle windows : Nat) : Outcome := idleLoop tr idle windows 0 0

end Model

namespace Trace

section Counting

def moves (tr : Trace) (t : Nat) : Nat := (tr.polls t).countP Poll.moved

/-- Bytes moved at tick `t`, before the timer was looked at at `T`. -/
def Active (tr : Trace) (t T : Nat) : Prop :=
  (t < T ∧ ∃ p ∈ tr.tick t, p.moved = true) ∨ (t = T ∧ ∃ p ∈ tr.early t, p.moved = true)

def loaded (tr : Trace) (idle : Nat) : Nat → Nat
  | 0 => 0
  | k + 1 => tr.moves ((k + 1) * idle)

def windowMoves (tr : Trace) (idle k : Nat) : Nat := tr.moves ((k + 1) * idle) - tr.loaded idle k

theorem foldl_track (ps : List Poll) (c : UInt64) :
    ps.foldl track c = c + UInt64.ofNat (ps.countP Poll.moved) := by
  induction ps generalizing c with
  | nil => simp
  | cons p ps ih =>
    rw [List.foldl_cons, ih, List.countP_cons, track]
    split_ifs
    · rw [UInt64.ofNat_add, UInt64.add_assoc, UInt64.add_comm 1]
      rfl
    · simp

theorem activity_eq (tr : Trace) (t : Nat) : tr.activity t = UInt64.ofNat (tr.moves t) := by
  rw [activity, foldl_track, UInt64.zero_add, moves]

def past (tr : Trace) (t : Nat) : Nat := ((List.range t).flatMap tr.tick).countP Poll.moved

theorem moves_eq (tr : Trace) (t : Nat) :
    tr.moves t = tr.past t + (tr.early t).countP Poll.moved := List.countP_append

theorem past_succ (tr : Trace) (t : Nat) :
    tr.past (t + 1) = tr.past t + (tr.tick t).countP Poll.moved := by
  rw [past, List.range_succ, List.flatMap_append, List.flatMap_singleton, List.countP_append]
  rfl

private theorem past_mono (tr : Trace) {s t : Nat} (h : s ≤ t) : tr.past s ≤ tr.past t := by
  induction t with
  | zero =>
    obtain rfl := Nat.le_zero.mp h
    exact le_rfl
  | succ t ih =>
    rcases Nat.le_or_eq_of_le_succ h with hle | rfl
    · have hpast := ih hle
      rw [past_succ]
      omega
    · exact le_rfl

private theorem moves_le_past (tr : Trace) {s t : Nat} (h : s < t) : tr.moves s ≤ tr.past t := by
  have hpast := tr.past_mono h
  have htick : (tr.tick s).countP Poll.moved =
      (tr.early s).countP Poll.moved + (tr.late s).countP Poll.moved := List.countP_append
  rw [Nat.succ_eq_add_one, past_succ] at hpast
  rw [moves_eq]
  omega

private theorem past_le_moves (tr : Trace) (t : Nat) : tr.past t ≤ tr.moves t := by
  rw [moves_eq]
  exact Nat.le_add_right _ _

private theorem moves_mono (tr : Trace) {s t : Nat} (h : s ≤ t) : tr.moves s ≤ tr.moves t := by
  rcases Nat.lt_or_eq_of_le h with hlt | rfl
  · exact (tr.moves_le_past hlt).trans (tr.past_le_moves t)
  · exact le_rfl

private theorem past_lt_moves_of_active {tr : Trace} {t T : Nat} (h : tr.Active t T) :
    tr.past t < tr.moves T := by
  rcases h with ⟨htT, hmoved⟩ | ⟨rfl, hmoved⟩
  · have hsome := List.countP_pos_iff.mpr hmoved
    have hpast := (tr.past_mono htT).trans (tr.past_le_moves T)
    rw [Nat.succ_eq_add_one, past_succ] at hpast
    omega
  · have hsome := List.countP_pos_iff.mpr hmoved
    rw [moves_eq]
    omega

theorem countP_moved_eq_zero {ps : List Poll} (h : ∀ p ∈ ps, p.moved = false) :
    ps.countP Poll.moved = 0 := by
  rw [List.countP_eq_zero]
  intro p hp
  simp [h p hp]

theorem moves_eq_of_silent {tr : Trace} {t : Nat}
    (h : ∀ i, t < i → ∀ p ∈ tr.tick i, p.moved = false) {s : Nat} (hs : t < s) :
    tr.moves s = tr.past (t + 1) := by
  have hearly : (tr.early s).countP Poll.moved = 0 :=
    countP_moved_eq_zero fun p hp => h s hs p (List.mem_append_left _ hp)
  have hpast : tr.past s = tr.past (t + 1) := by
    clear hearly
    induction s with
    | zero => exact absurd hs (Nat.not_lt_zero t)
    | succ s ih =>
      rcases Nat.lt_succ_iff_lt_or_eq.mp hs with hlt | rfl
      · rw [past_succ, countP_moved_eq_zero (h s hlt), ih hlt, Nat.add_zero]
      · rfl
  rw [moves_eq, hearly, hpast, Nat.add_zero]

end Counting

end Trace

section Loop

private theorem idleLoop_succ (tr : Trace) (idle n start : Nat) (before : UInt64) :
    idleLoop tr idle (n + 1) start before =
      if ∃ t ∈ tr.finish, t ≤ start + idle then .returned (tr.finish.getD 0)
      else if tr.activity (start + idle) = before then .aborted (start + idle)
      else idleLoop tr idle n (start + idle) (tr.activity (start + idle)) := by
  rw [idleLoop]
  cases hfinish : tr.finish with
  | none => simp
  | some t => simp

def beforeWindow (tr : Trace) (idle k : Nat) : UInt64 := UInt64.ofNat (tr.loaded idle k)

private theorem activity_eq_beforeWindow (tr : Trace) (idle k : Nat) :
    tr.activity ((k + 1) * idle) = beforeWindow tr idle (k + 1) := tr.activity_eq _

theorem idleLoop_window (tr : Trace) (idle n k : Nat) :
    idleLoop tr idle (n + 1) (k * idle) (beforeWindow tr idle k) =
      if ∃ t ∈ tr.finish, t ≤ (k + 1) * idle then .returned (tr.finish.getD 0)
      else if tr.activity ((k + 1) * idle) = beforeWindow tr idle k then .aborted ((k + 1) * idle)
      else idleLoop tr idle n ((k + 1) * idle) (beforeWindow tr idle (k + 1)) := by
  rw [idleLoop_succ, ← Nat.succ_mul, Nat.succ_eq_add_one, activity_eq_beforeWindow]

theorem copyWithIdleTimeout_eq (tr : Trace) (idle n : Nat) :
    copyWithIdleTimeout tr idle n = idleLoop tr idle n (0 * idle) (beforeWindow tr idle 0) := by
  rw [Nat.zero_mul]
  rfl

private theorem idleLoop_eq_aborted {tr : Trace} {idle n k T : Nat}
    (h : idleLoop tr idle n (k * idle) (beforeWindow tr idle k) = .aborted T) :
    ∃ j, k ≤ j ∧ j < k + n ∧ T = (j + 1) * idle ∧ tr.activity T = beforeWindow tr idle j := by
  induction n generalizing k with
  | zero => cases h
  | succ n ih =>
    rw [idleLoop_window] at h
    split_ifs at h with hfinish hsame
    · cases h
      exact ⟨k, le_rfl, by omega, rfl, hsame⟩
    · obtain ⟨j, hkj, hjn, hT, hj⟩ := ih h
      exact ⟨j, by omega, by omega, hT, hj⟩

private theorem idleLoop_eq_running {tr : Trace} {idle n k : Nat}
    (h : idleLoop tr idle n (k * idle) (beforeWindow tr idle k) = .running) :
    ∀ j, k ≤ j → j < k + n → tr.activity ((j + 1) * idle) ≠ beforeWindow tr idle j := by
  induction n generalizing k with
  | zero =>
    intro j hkj hjn
    omega
  | succ n ih =>
    rw [idleLoop_window] at h
    split_ifs at h with hfinish hsame
    intro j hkj hjn
    rcases Nat.eq_or_lt_of_le hkj with rfl | hlt
    · exact hsame
    · exact ih h j hlt (by omega)

private theorem idleLoop_ne_returned {tr : Trace} {idle n k : Nat}
    (hfinish : ∀ t ∈ tr.finish, (k + n) * idle < t) (t : Nat) :
    idleLoop tr idle n (k * idle) (beforeWindow tr idle k) ≠ .returned t := by
  induction n generalizing k with
  | zero =>
    intro h
    cases h
  | succ n ih =>
    have hlate : ¬ ∃ t ∈ tr.finish, t ≤ (k + 1) * idle := by
      rintro ⟨t, ht, hle⟩
      have hlt := hfinish t ht
      have hwindow : (k + 1) * idle ≤ (k + (n + 1)) * idle := Nat.mul_le_mul_right _ (by omega)
      omega
    rw [idleLoop_window, if_neg hlate]
    split_ifs
    · intro h
      cases h
    · apply ih
      intro t ht
      have hlt := hfinish t ht
      rwa [Nat.add_assoc, Nat.add_comm 1 n]

end Loop

section Exactness

/-- No window has so many moves that the counter comes back to its value. -/
def Unwrapped (tr : Trace) (idle : Nat) : Prop :=
  ∀ k, 2 ^ 64 ∣ tr.windowMoves idle k → tr.windowMoves idle k = 0

private theorem loaded_le_moves (tr : Trace) (idle k : Nat) :
    tr.loaded idle k ≤ tr.moves ((k + 1) * idle) := by
  cases k with
  | zero => exact Nat.zero_le _
  | succ k => exact tr.moves_mono (Nat.mul_le_mul_right _ (by omega))

private theorem moves_eq_loaded {tr : Trace} {idle j : Nat} (hwrap : Unwrapped tr idle)
    (h : tr.activity ((j + 1) * idle) = beforeWindow tr idle j) :
    tr.moves ((j + 1) * idle) = tr.loaded idle j := by
  have hle := loaded_le_moves tr idle j
  rw [Trace.activity_eq, beforeWindow] at h
  have hmod : tr.moves ((j + 1) * idle) % 2 ^ 64 = tr.loaded idle j % 2 ^ 64 := by
    simpa using congrArg UInt64.toNat h
  have hdvd : 2 ^ 64 ∣ tr.windowMoves idle j :=
    Nat.dvd_of_mod_eq_zero (Nat.sub_mod_eq_zero_of_mod_eq hmod)
  have hzero := hwrap j hdvd
  rw [Trace.windowMoves] at hzero
  omega

private theorem aborted_after_idle {tr : Trace} {idle n T : Nat} (hwrap : Unwrapped tr idle)
    (h : copyWithIdleTimeout tr idle n = .aborted T) :
    idle ≤ T ∧ ∀ t, tr.Active t T → t + idle ≤ T := by
  rw [copyWithIdleTimeout_eq] at h
  obtain ⟨j, -, -, rfl, hsame⟩ := idleLoop_eq_aborted h
  have hmoves := moves_eq_loaded hwrap hsame
  have hT : (j + 1) * idle = j * idle + idle := Nat.succ_mul j idle
  constructor
  · omega
  · intro t ht
    cases j with
    | zero =>
      have hcounted := Trace.past_lt_moves_of_active ht
      rw [hmoves] at hcounted
      exact absurd hcounted (Nat.not_lt_zero _)
    | succ j =>
      -- a move after the last look would have been counted
      by_contra hlate
      have hafter : (j + 1) * idle < t := by omega
      have hlt := (tr.moves_le_past hafter).trans_lt (Trace.past_lt_moves_of_active ht)
      rw [hmoves] at hlt
      exact absurd hlt (Nat.lt_irrefl _)

private theorem running_of_active {tr : Trace} {idle n : Nat} (hwrap : Unwrapped tr idle)
    (hactive : ∀ T, idle ≤ T → ∃ t, tr.Active t T ∧ T < t + idle)
    (hfinish : ∀ t ∈ tr.finish, n * idle < t) : copyWithIdleTimeout tr idle n = .running := by
  cases h : copyWithIdleTimeout tr idle n with
  | running => rfl
  | returned t =>
    rw [copyWithIdleTimeout_eq] at h
    exact absurd h (idleLoop_ne_returned (by rwa [Nat.zero_add]) t)
  | aborted T =>
    obtain ⟨hle, hidle⟩ := aborted_after_idle hwrap h
    obtain ⟨t, ht, hrecent⟩ := hactive T hle
    have hold := hidle t ht
    omega

private theorem aborted_of_silent {tr : Trace} {idle t : Nat} (hidle : 0 < idle)
    (hsilent : ∀ i, t < i → ∀ p ∈ tr.tick i, p.moved = false)
    (hfinish : ∀ f ∈ tr.finish, t + 2 * idle < f) :
    ∃ n T, copyWithIdleTimeout tr idle n = .aborted T ∧ T ≤ t + 2 * idle := by
  -- the window of the last move may end with a change, the next one cannot
  obtain ⟨k, hk⟩ : ∃ k, k = t / idle := ⟨_, rfl⟩
  have hlow : k * idle ≤ t := by
    rw [hk]
    exact Nat.div_mul_le_self t idle
  have hhigh : t < (k + 1) * idle := by
    rw [Nat.succ_mul, hk]
    exact Nat.lt_div_mul_add hidle
  have hend : (k + 2) * idle = k * idle + 2 * idle := Nat.add_mul k 2 idle
  refine ⟨k + 2, ?_⟩
  rw [copyWithIdleTimeout_eq]
  cases h : idleLoop tr idle (k + 2) (0 * idle) (beforeWindow tr idle 0) with
  | aborted T =>
    obtain ⟨j, -, hj, hT, -⟩ := idleLoop_eq_aborted h
    have hwindow : (j + 1) * idle ≤ (k + 2) * idle := Nat.mul_le_mul_right _ (by omega)
    exact ⟨T, rfl, by omega⟩
  | returned f =>
    refine absurd h (idleLoop_ne_returned (fun f hf => ?_) f)
    have hlate := hfinish f hf
    rw [Nat.zero_add]
    omega
  | running =>
    have hchanged := idleLoop_eq_running h (k + 1) (Nat.zero_le _) (by omega)
    have hlater : t < (k + 1 + 1) * idle := by
      rw [Nat.succ_mul]
      omega
    rw [Trace.activity_eq, Trace.moves_eq_of_silent hsilent hlater, beforeWindow, Trace.loaded,
      Trace.moves_eq_of_silent hsilent hhigh] at hchanged
    exact absurd rfl hchanged

/-- Unless the counter wraps in a window, a session is aborted only when nothing has moved for the
whole idle time, and one that keeps moving goes on; a silent one is aborted within twice that time. -/
theorem idleTimeout_exact (tr : Trace) (idle : Nat) (hidle : 0 < idle) :
    (Unwrapped tr idle →
      (∀ n T, copyWithIdleTimeout tr idle n = .aborted T →
        idle ≤ T ∧ ∀ t, tr.Active t T → t + idle ≤ T) ∧
      ((∀ T, idle ≤ T → ∃ t, tr.Active t T ∧ T < t + idle) →
        ∀ n, (∀ f ∈ tr.finish, n * idle < f) → copyWithIdleTimeout tr idle n = .running)) ∧
    (∀ t, (∀ i, t < i → ∀ p ∈ tr.tick i, p.moved = false) →
      (∀ f ∈ tr.finish, t + 2 * idle < f) →
      ∃ n T, copyWithIdleTimeout tr idle n = .aborted T ∧ T ≤ t + 2 * idle) := by
  constructor
  · intro hwrap
    constructor
    · intro n T haborted
      exact aborted_after_idle hwrap haborted
    · intro hactive n hfinish
      exact running_of_active hwrap hactive hfinish
  · intro t hsilent hfinish
    exact aborted_of_silent hidle hsilent hfinish

end Exactness

section Samples

def oneRead : Trace where
  early t := if t = 3 then [.pending, .ready 512] else []
  late _ := [.pending]
  finish := none

private theorem oneRead_silent (i : Nat) (hi : 3 < i) : ∀ p ∈ oneRead.tick i, p.moved = false := by
  intro p hp
  have hne : i ≠ 3 := by omega
  have hpending : p = .pending := by simpa [Trace.tick, oneRead, hne] using hp
  rw [hpending]
  rfl

private theorem oneRead_unwrapped : Unwrapped oneRead 5 := by
  intro k hdvd
  have hmoves : oneRead.moves ((k + 1) * 5) ≤ 1 := by
    have hlater := Trace.moves_eq_of_silent oneRead_silent (show 3 < (k + 1) * 5 by omega)
    rw [hlater]
    decide
  have hwindow : oneRead.windowMoves 5 k ≤ 1 := (Nat.sub_le _ _).trans hmoves
  exact Nat.eq_zero_of_dvd_of_lt hdvd (by omega)

def steady : Trace where
  early _ := [.ready 1]
  late _ := []
  finish := none

private theorem steady_past (t : Nat) : steady.past t = t := by
  induction t with
  | zero => rfl
  | succ t ih =>
    rw [Trace.past_succ, ih]
    rfl

private theorem steady_moves (t : Nat) : steady.moves t = t + 1 := by
  rw [Trace.moves_eq, steady_past]
  rfl

private theorem steady_unwrapped : Unwrapped steady 5 := by
  intro k hdvd
  have hwindow : steady.windowMoves 5 k ≤ 6 := by
    rw [Trace.windowMoves, steady_moves]
    cases k with
    | zero => decide
    | succ k =>
      rw [Trace.loaded, steady_moves]
      omega
  exact Nat.eq_zero_of_dvd_of_lt hdvd (by omega)

/-- The session with one read is aborted after an idle time, and the steady one goes on. -/
theorem oneRead_aborted : copyWithIdleTimeout oneRead 5 2 = .aborted 10 ∧
    (∀ t, oneRead.Active t 10 → t + 5 ≤ 10) ∧
    (∃ n T, copyWithIdleTimeout oneRead 5 n = .aborted T ∧ T ≤ 3 + 2 * 5) ∧
    ∀ n, copyWithIdleTimeout steady 5 n = .running := by
  have haborted : copyWithIdleTimeout oneRead 5 2 = .aborted 10 := by decide
  obtain ⟨hunwrapped, hsilent⟩ := idleTimeout_exact oneRead 5 (by decide)
  obtain ⟨hsteady, -⟩ := idleTimeout_exact steady 5 (by decide)
  refine ⟨haborted, ?_, ?_, ?_⟩
  · exact ((hunwrapped oneRead_unwrapped).1 2 10 haborted).2
  · exact hsilent 3 oneRead_silent fun f hf => by cases hf
  · intro n
    refine (hsteady steady_unwrapped).2 (fun T hT => ⟨T, ?_, by omega⟩) n fun f hf => by cases hf
    exact .inr ⟨rfl, .ready 1, List.mem_singleton_self _, rfl⟩

def burst (n : Nat) : Trace where
  early t := if t = 3 then List.replicate n (.ready 1) else []
  late _ := []
  finish := none

private theorem moves_burst (n : Nat) : (burst n).moves 5 = n := by
  have hall : (List.replicate n (Poll.ready 1)).countP Poll.moved = n := by
    rw [List.countP_replicate]
    rfl
  simpa [Trace.moves, Trace.polls, Trace.tick, burst, List.range_succ] using hall

/-- If the counter is back where it was, the session is aborted two ticks after its last move. -/
theorem burst_aborted {n : Nat} (hn : 0 < n) (hwrap : UInt64.ofNat n = 0) :
    copyWithIdleTimeout (burst n) 5 1 = .aborted 5 ∧ (burst n).Active 3 5 := by
  constructor
  · have hactivity : (burst n).activity 5 = 0 := by rw [Trace.activity_eq, moves_burst, hwrap]
    rw [copyWithIdleTimeout, idleLoop_succ, Nat.zero_add, hactivity]
    simp [burst]
  · left
    refine ⟨by decide, .ready 1, ?_, rfl⟩
    simp [Trace.tick, burst, hn.ne']

/-- As many reads as the counter has values. -/
theorem fullTurn_aborted_early :
    copyWithIdleTimeout (burst (2 ^ 64)) 5 1 = .aborted 5 ∧ (burst (2 ^ 64)).Active 3 5 ∧
      5 < 3 + 5 := by
  have hwrap : UInt64.ofNat (2 ^ 64) = 0 := by decide
  obtain ⟨haborted, hactive⟩ := burst_aborted (by decide) hwrap
  exact ⟨haborted, hactive, by decide⟩

end Samples

end Vpn1.Relay
