import Mathlib.Algebra.Order.Field.Basic
import Mathlib.Tactic.Linarith
import Vpn1.Engine.Policy

/-! What a score board says of the observations it was told of, and which candidates it can select. -/

namespace Vpn1.Engine

private theorem exists_draw {weights : List ℚ} {i : Nat} (hi : i < weights.length) :
    ∃ draw : Draw, draw.index weights = i := by
  have hmin (other : List ℚ) (hne : other ≠ []) : min i (other.length - 1) < other.length := by
    have hpos := List.length_pos_iff.mpr hne
    omega
  exact ⟨⟨fun other => min i (other.length - 1), fun other hne _ => hmin other hne⟩,
    Nat.min_eq_left (Nat.le_sub_one_of_lt hi)⟩

namespace ScoreBoard

variable {b : ScoreBoard} {candidates : List Candidate} {now : Instant}

private theorem selectionWeight_pos (s : Score) : 0 < s.selectionWeight :=
  lt_of_lt_of_le (by norm_num [scoreFloor]) (le_max_right _ _)

def eligible (b : ScoreBoard) (candidates : List Candidate) (now : Instant) : List Candidate :=
  candidates.filter fun c => !(b.scoreOf c).isQuarantined now

theorem mem_eligible {c : Candidate} :
    c ∈ b.eligible candidates now ↔ c ∈ candidates ∧ (b.scoreOf c).isQuarantined now = false := by
  simp [eligible]

theorem selectNext_eq_none_iff {draw : Draw} :
    b.selectNext candidates now draw = none ↔
      ∀ c ∈ candidates, (b.scoreOf c).isQuarantined now = true := by
  have hempty : (∀ c ∈ candidates, (b.scoreOf c).isQuarantined now = true) ↔
      b.eligible candidates now = [] := by
    simp [eligible, List.filter_eq_nil_iff]
  rw [hempty, selectNext, ← eligible, List.getElem?_eq_none_iff]
  constructor
  · intro hle
    by_contra hne
    have hweights : ((b.eligible candidates now).map fun c => (b.scoreOf c).selectionWeight) ≠ [] :=
      by simpa using hne
    have hpos : ∀ w ∈ (b.eligible candidates now).map fun c => (b.scoreOf c).selectionWeight,
        0 < w := by
      intro w hw
      obtain ⟨c, -, rfl⟩ := List.mem_map.mp hw
      exact selectionWeight_pos _
    have hlt := draw.index_lt _ hweights hpos
    rw [List.length_map] at hlt
    omega
  · intro hnil
    simp [hnil]

private theorem eligible_of_selectNext {draw : Draw} {c : Candidate}
    (hc : b.selectNext candidates now draw = some c) : c ∈ b.eligible candidates now :=
  List.mem_of_getElem? hc

/-- Nobody who can be chosen is ruled out by the weights. -/
theorem exists_selectNext {c : Candidate} (hc : c ∈ b.eligible candidates now) :
    ∃ draw, b.selectNext candidates now draw = some c := by
  obtain ⟨i, hi, rfl⟩ := List.mem_iff_getElem.mp hc
  have hlength : i < ((b.eligible candidates now).map fun c =>
      (b.scoreOf c).selectionWeight).length := by
    rwa [List.length_map]
  obtain ⟨draw, hdraw⟩ := exists_draw hlength
  refine ⟨draw, ?_⟩
  rw [selectNext, ← eligible, hdraw]
  exact List.getElem?_eq_getElem hi

end ScoreBoard

inductive Observation
  | success (c : Candidate)
  | failure (c : Candidate) (category : FailureCategory) (now : Instant) (jitter : Jitter)

namespace Observation

def candidate : Observation → Candidate
  | success c => c
  | failure c .. => c

def observe : Observation → ScoreBoard → ScoreBoard
  | success c => .observeSuccess c
  | failure c category now jitter => .observeFailure c category now jitter

/-- It is a success of `c`. -/
def succeeds (c : Candidate) : Observation → Bool
  | success d => d = c
  | failure .. => false

/-- The time of a failure of `c` that a remote cause explains. -/
def failedAt (c : Candidate) : Observation → Option Instant
  | success _ => none
  | failure d category now _ => if d = c ∧ category.isRemoteSignal then some now else none

end Observation

/-- Observations, the newest first. -/
abbrev History := List Observation

namespace History

def board : History → ScoreBoard
  | [] => .new
  | o :: older => o.observe (board older)

def failuresSince (c : Candidate) (history : History) : Nat :=
  (history.takeWhile fun o => !o.succeeds c).countP fun o => (o.failedAt c).isSome

def latestFailure (c : Candidate) (history : History) : Option Instant :=
  history.findSome? (Observation.failedAt c)

end History

/-- What a board says of the candidates after a history, and whom it can choose. -/
structure Consistent (history : History) : Prop where
  score : ∀ c, 0 ≤ (history.board.scoreOf c).ewmaSuccess ∧ (history.board.scoreOf c).ewmaSuccess ≤ 1
  quarantine : ∀ c, (history.board.scoreOf c).quarantinedUntil.isSome = true ↔
    quarantineThreshold ≤ history.failuresSince c
  deadline : ∀ c deadline, (history.board.scoreOf c).quarantinedUntil = some deadline →
    ∃ failed, history.latestFailure c = some failed ∧
      failed + quarantineMin * 10 ^ 9 ≤ deadline ∧ deadline ≤ failed + quarantineMax * 10 ^ 9
  others : ∀ (o : Observation) (c : Candidate), o.candidate ≠ c →
    (o.observe history.board).scoreOf c = history.board.scoreOf c
  none_iff : ∀ candidates now draw, history.board.selectNext candidates now draw = none ↔
    ∀ c ∈ candidates, (history.board.scoreOf c).isQuarantined now = true
  selects : ∀ candidates now draw c, history.board.selectNext candidates now draw = some c →
    c ∈ candidates ∧ (history.board.scoreOf c).isQuarantined now = false
  selectable : ∀ candidates now c, c ∈ candidates →
    (history.board.scoreOf c).isQuarantined now = false →
      ∃ draw, history.board.selectNext candidates now draw = some c

section History

structure Records (c : Candidate) (history : History) (s : Score) : Prop where
  nonneg : 0 ≤ s.ewmaSuccess
  le_one : s.ewmaSuccess ≤ 1
  failures : s.consecutiveFailures = min (history.failuresSince c) (2 ^ 16 - 1)
  quarantine : s.quarantinedUntil.isSome = true ↔ quarantineThreshold ≤ history.failuresSince c
  deadline : ∀ deadline, s.quarantinedUntil = some deadline →
    ∃ failed, history.latestFailure c = some failed ∧
      failed + quarantineMin * 10 ^ 9 ≤ deadline ∧ deadline ≤ failed + quarantineMax * 10 ^ 9

variable {c : Candidate} {history : History} {s : Score}

theorem Observation.observe_of_ne {o : Observation} (hne : o.candidate ≠ c) (b : ScoreBoard) :
    (o.observe b).scoreOf c = b.scoreOf c := by
  cases o with
  | success d => exact Function.update_of_ne hne.symm _ _
  | failure d category now jitter =>
    simp only [Observation.observe, ScoreBoard.observeFailure]
    split_ifs
    · exact Function.update_of_ne hne.symm _ _
    · rfl

/-- An observation that is neither a success of `c` nor counts as its failure. -/
theorem Records.skip (h : Records c history s) {o : Observation} (hsuccess : o.succeeds c = false)
    (hfailure : o.failedAt c = none) : Records c (o :: history) s := by
  have hsince : History.failuresSince c (o :: history) = history.failuresSince c := by
    simp [History.failuresSince, hsuccess, hfailure]
  have hlatest : History.latestFailure c (o :: history) = history.latestFailure c := by
    simp [History.latestFailure, hfailure]
  refine ⟨h.nonneg, h.le_one, ?_, ?_, ?_⟩
  · rw [hsince, h.failures]
  · rw [hsince, h.quarantine]
  · rw [hlatest]
    exact h.deadline

theorem Records.success (h : Records c history s) :
    Records c (.success c :: history) s.recordSuccess := by
  have hsince : History.failuresSince c (.success c :: history) = 0 := by
    simp [History.failuresSince, Observation.succeeds]
  have hlo := h.nonneg
  have hhi := h.le_one
  refine ⟨?_, ?_, ?_, ?_, ?_⟩
  · simp only [Score.recordSuccess, ewmaAlpha]
    linarith
  · simp only [Score.recordSuccess, ewmaAlpha]
    linarith
  · simp [hsince, Score.recordSuccess]
  · simp [hsince, Score.recordSuccess, quarantineThreshold]
  · intro deadline hdeadline
    simp [Score.recordSuccess] at hdeadline

theorem Records.failure (h : Records c history s) {category : FailureCategory}
    (hremote : category.isRemoteSignal = true) (now : Instant) (jitter : Jitter) :
    Records c (.failure c category now jitter :: history)
      (s.recordFailure category now jitter) := by
  have hsince : History.failuresSince c (.failure c category now jitter :: history) =
      history.failuresSince c + 1 := by
    simp [History.failuresSince, Observation.succeeds, Observation.failedAt,
      hremote]
  have hlatest : History.latestFailure c (.failure c category now jitter :: history) = some now := by
    simp [History.latestFailure, Observation.failedAt, hremote]
  have hlo := h.nonneg
  have hhi := h.le_one
  have hcount : saturatingSucc 16 s.consecutiveFailures =
      min (history.failuresSince c + 1) (2 ^ 16 - 1) := by
    rw [saturatingSucc, h.failures]
    omega
  have hthreshold : quarantineThreshold ≤ saturatingSucc 16 s.consecutiveFailures ↔
      quarantineThreshold ≤ history.failuresSince c + 1 := by
    rw [hcount, quarantineThreshold]
    omega
  have hjitter := jitter.isLt
  refine ⟨?_, ?_, ?_, ?_, ?_⟩
  · simp only [Score.recordFailure, ewmaAlpha]
    linarith
  · simp only [Score.recordFailure, ewmaAlpha]
    linarith
  · rw [hsince]
    exact hcount
  · simp only [Score.recordFailure, hthreshold, hsince]
    split_ifs with hmany
    · simp [hmany]
    · -- fewer failures now are fewer before
      rw [h.quarantine]
      omega
  · intro deadline hdeadline
    simp only [Score.recordFailure, hthreshold] at hdeadline
    split_ifs at hdeadline with hmany
    · obtain rfl := Option.some.inj hdeadline
      have hlow : quarantineMin ≤ quarantineMin + jitter := Nat.le_add_right _ _
      have hhigh : quarantineMin + jitter ≤ quarantineMax := by
        simp only [quarantineMin, quarantineMax] at hjitter ⊢
        omega
      exact ⟨now, hlatest, Nat.add_le_add_left (Nat.mul_le_mul_right _ hlow) _,
        Nat.add_le_add_left (Nat.mul_le_mul_right _ hhigh) _⟩
    · -- a deadline from before would take three failures
      have hbefore := h.quarantine.mp (by simp [hdeadline])
      omega

theorem records_board (c : Candidate) (history : History) :
    Records c history (history.board.scoreOf c) := by
  induction history with
  | nil =>
    refine ⟨by norm_num [History.board, ScoreBoard.new], by norm_num [History.board, ScoreBoard.new],
      ?_, ?_, ?_⟩
    · simp [History.board, ScoreBoard.new, History.failuresSince]
    · simp [History.board, ScoreBoard.new, History.failuresSince, quarantineThreshold]
    · simp [History.board, ScoreBoard.new]
  | cons o older ih =>
    by_cases hc : o.candidate = c
    · cases o with
      | success d =>
        obtain rfl : d = c := hc
        simpa [History.board, Observation.observe, ScoreBoard.observeSuccess] using ih.success
      | failure d category now jitter =>
        obtain rfl : d = c := hc
        cases hremote : category.isRemoteSignal with
        | true =>
          simpa [History.board, Observation.observe, ScoreBoard.observeFailure, hremote] using
            ih.failure hremote now jitter
        | false =>
          simpa [History.board, Observation.observe, ScoreBoard.observeFailure, hremote] using
            ih.skip rfl (by simp [Observation.failedAt, hremote])
    · rw [History.board, Observation.observe_of_ne hc]
      refine ih.skip ?_ ?_
      · cases o <;> simp_all [Observation.succeeds, Observation.candidate]
      · cases o <;> simp_all [Observation.failedAt, Observation.candidate]

/-- Whatever a board was told, it is consistent. -/
theorem board_consistent (history : History) : Consistent history where
  score c := ⟨(records_board c history).nonneg, (records_board c history).le_one⟩
  quarantine c := (records_board c history).quarantine
  deadline c := (records_board c history).deadline
  others o _ hne := o.observe_of_ne hne _
  none_iff _ _ _ := ScoreBoard.selectNext_eq_none_iff
  selects _ _ _ _ hc := ScoreBoard.mem_eligible.mp (ScoreBoard.eligible_of_selectNext hc)
  selectable _ _ _ hc hfree := ScoreBoard.exists_selectNext (ScoreBoard.mem_eligible.mpr ⟨hc, hfree⟩)

end History

end Vpn1.Engine
