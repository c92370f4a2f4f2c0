import Mathlib.Algebra.Order.Field.Basic
import Mathlib.Data.List.Sort
import Mathlib.Tactic.FieldSimp
import Mathlib.Tactic.Linarith

/-! Token buckets over an ordered field: a request takes one token, and tokens come back at a fixed
rate up to a capacity. Over any stretch of time the requests granted are bounded by the capacity and
what came back meanwhile. -/

namespace TokenBucket

variable {K : Type*} [Field K] [LinearOrder K]

/-- A capacity of one request at least, and a rate at which tokens come back. -/
structure Limit (K : Type*) [Field K] [LinearOrder K] where
  capacity : K
  refillPerSec : K
  one_le_capacity : 1 ≤ capacity
  refill_pos : 0 < refillPerSec

/-- The tokens there were when the bucket was last asked. -/
structure Bucket (K : Type*) where
  tokens : K
  last : K
  deriving DecidableEq

namespace Limit

def full (L : Limit K) (now : K) : Bucket K := ⟨L.capacity, now⟩

/-- What has come back since counts too. Time that runs backwards counts as none. -/
def levelAt (L : Limit K) (b : Bucket K) (now : K) : K :=
  min (b.tokens + max (now - b.last) 0 * L.refillPerSec) L.capacity

def take (L : Limit K) (b : Bucket K) (now : K) : Bool × Bucket K :=
  if 1 ≤ L.levelAt b now then (true, ⟨L.levelAt b now - 1, now⟩)
  else (false, ⟨L.levelAt b now, now⟩)

/-- The answers to requests at some times. A bucket that is not there is a full one. -/
def grants (L : Limit K) : Option (Bucket K) → List K → List (K × Bool)
  | _, [] => []
  | b, t :: ts =>
    let r := L.take (b.getD (L.full t)) t
    (t, r.1) :: L.grants (some r.2) ts

structure Holds (L : Limit K) (b : Bucket K) : Prop where
  nonneg : 0 ≤ b.tokens
  le_capacity : b.tokens ≤ L.capacity

@[simp] theorem take_last (L : Limit K) (b : Bucket K) (now : K) : (L.take b now).2.last = now := by
  unfold take
  split_ifs <;> rfl

theorem fst_take (L : Limit K) (b : Bucket K) (now : K) :
    (L.take b now).1 = decide (1 ≤ L.levelAt b now) := by
  unfold take
  split_ifs with h <;> simp [h]

theorem levelAt_le_capacity (L : Limit K) (b : Bucket K) (now : K) :
    L.levelAt b now ≤ L.capacity := min_le_right _ _

theorem fst_of_mem_grants {L : Limit K} {b : Option (Bucket K)} {ts : List K} {g : K × Bool}
    (hg : g ∈ L.grants b ts) : g.1 ∈ ts := by
  induction ts generalizing b with
  | nil => simp [grants] at hg
  | cons t ts ih =>
    rcases List.mem_cons.mp hg with rfl | hrest
    · exact List.mem_cons_self
    · exact List.mem_cons_of_mem _ (ih hrest)

/-- The tokens of a request and those that are left come from the level before. -/
theorem granted_add_tokens_take (L : Limit K) (b : Bucket K) (now : K) :
    (if (L.take b now).1 then 1 else 0) + (L.take b now).2.tokens = L.levelAt b now := by
  unfold take
  split_ifs <;> simp_all

theorem take_full_granted (L : Limit K) (now : K) : (L.take (L.full now) now).1 = true := by
  rw [fst_take, decide_eq_true_eq]
  simp [levelAt, full, L.one_le_capacity]

/-- A request finds the bucket as if its level had been brought up to date before. -/
theorem take_refreshed (L : Limit K) (b : Bucket K) (t : K) :
    L.take ⟨L.levelAt b t, t⟩ t = L.take b t := by
  have hsame : L.levelAt ⟨L.levelAt b t, t⟩ t = L.levelAt b t := by
    rw [levelAt]
    simp [L.levelAt_le_capacity b t]
  simp only [take, hsame]

theorem countP_grants_eq_zero {L : Limit K} {p : K × Bool → Bool} {b : Option (Bucket K)} {t e : K}
    {ts : List K} (hp : ∀ g, p g = true → g.1 ≤ e) (hte : e < t)
    (hts : (t :: ts).Pairwise (· ≤ ·)) : (L.grants b (t :: ts)).countP p = 0 := by
  rw [List.countP_eq_zero]
  intro g hg hcounted
  have hlate : t ≤ g.1 := by
    rcases List.mem_cons.mp (fst_of_mem_grants hg) with heq | hmem
    · exact heq.ge
    · exact List.rel_of_pairwise_cons hts hmem
  exact absurd (hp g hcounted) (not_le.mpr (hte.trans_le hlate))

variable [IsStrictOrderedRing K]

theorem Holds.full (L : Limit K) (now : K) : L.Holds (L.full now) :=
  ⟨zero_le_one.trans L.one_le_capacity, le_rfl⟩

/-- A bucket is never found full after a request. -/
theorem tokens_take_lt_capacity (L : Limit K) (b : Bucket K) (now : K) :
    (L.take b now).2.tokens < L.capacity := by
  have hlevel := L.levelAt_le_capacity b now
  have hone := L.one_le_capacity
  unfold take
  split_ifs with h
  · dsimp only
    linarith
  · exact (not_le.mp h).trans_le hone

theorem levelAt_nonneg {L : Limit K} {b : Bucket K} (hb : L.Holds b) (now : K) :
    0 ≤ L.levelAt b now := by
  have hback : 0 ≤ max (now - b.last) 0 * L.refillPerSec :=
    mul_nonneg (le_max_right _ _) L.refill_pos.le
  exact le_min (add_nonneg hb.nonneg hback) (zero_le_one.trans L.one_le_capacity)

theorem Holds.take {L : Limit K} {b : Bucket K} (hb : L.Holds b) (now : K) :
    L.Holds (L.take b now).2 := by
  constructor
  · have hlevel := levelAt_nonneg hb now
    unfold Limit.take
    split_ifs with h
    · exact sub_nonneg.mpr h
    · exact hlevel
  · exact (L.tokens_take_lt_capacity b now).le

theorem levelAt_le {L : Limit K} {b : Bucket K} {now : K} (h : b.last ≤ now) :
    L.levelAt b now ≤ b.tokens + L.refillPerSec * (now - b.last) := by
  have helapsed : max (now - b.last) 0 = now - b.last := max_eq_left (sub_nonneg.mpr h)
  rw [levelAt, helapsed, mul_comm]
  exact min_le_left _ _

/-- After one token's time there is a token. -/
theorem take_granted_of_idle {L : Limit K} {b : Bucket K} {now : K} (hb : L.Holds b)
    (hidle : b.last ≤ now - 1 / L.refillPerSec) : (L.take b now).1 = true := by
  have hrefill := L.refill_pos
  have helapsed : 1 / L.refillPerSec ≤ max (now - b.last) 0 :=
    le_max_of_le_left (by linarith)
  have hback : 1 ≤ max (now - b.last) 0 * L.refillPerSec := by
    rwa [div_le_iff₀ hrefill] at helapsed
  rw [fst_take, decide_eq_true_eq]
  apply le_min
  · have hnonneg := hb.nonneg
    linarith
  · exact L.one_le_capacity

/-- What is granted up to some time was there before or has come back since. -/
theorem countP_grants_le {L : Limit K} {b : Bucket K} {ts : List K} {e : K} (hb : L.Holds b)
    (hlast : b.last ≤ e) (hts : (b.last :: ts).Pairwise (· ≤ ·)) :
    ((L.grants (some b) ts).countP fun g => g.2 && decide (g.1 ≤ e) : K) ≤
      b.tokens + L.refillPerSec * (e - b.last) := by
  have hrefill := L.refill_pos
  induction ts generalizing b with
  | nil =>
    have hback : 0 ≤ L.refillPerSec * (e - b.last) := mul_nonneg hrefill.le (sub_nonneg.mpr hlast)
    simpa [grants] using add_nonneg hb.nonneg hback
  | cons t ts ih =>
    rw [List.pairwise_cons] at hts
    obtain ⟨hfirst, hrest⟩ := hts
    by_cases hte : t ≤ e
    · have hnext := ih (hb.take t) (by simpa using hte) (by simpa using hrest)
      have htaken := L.granted_add_tokens_take b t
      have hlevel := levelAt_le (L := L) (hfirst t List.mem_cons_self)
      rw [take_last] at hnext
      simp only [grants, Option.getD_some, List.countP_cons, hte, decide_true, Bool.and_true,
        Nat.cast_add, Nat.cast_ite, Nat.cast_one, Nat.cast_zero]
      linarith
    · -- this request and all later ones come too late to count
      have hzero : (L.grants (some b) (t :: ts)).countP (fun g => g.2 && decide (g.1 ≤ e)) = 0 :=
        countP_grants_eq_zero (fun g hg => by simp at hg; exact hg.2) (not_le.mp hte) hrest
      rw [hzero, Nat.cast_zero]
      exact add_nonneg hb.nonneg (mul_nonneg hrefill.le (sub_nonneg.mpr hlast))

theorem holds_refreshed {L : Limit K} {b : Bucket K} (hb : L.Holds b) (t : K) :
    L.Holds ⟨L.levelAt b t, t⟩ := ⟨levelAt_nonneg hb t, L.levelAt_le_capacity b t⟩

/-- The law: over an interval no more is granted than the capacity and what comes back in it. -/
theorem countP_grants_interval_le {L : Limit K} {b : Option (Bucket K)} {ts : List K} {s e : K}
    (hb : ∀ c ∈ b, L.Holds c) (hse : s ≤ e) (hts : ts.Pairwise (· ≤ ·)) :
    ((L.grants b ts).countP fun g => g.2 && decide (s ≤ g.1) && decide (g.1 ≤ e) : K) ≤
      L.capacity + L.refillPerSec * (e - s) := by
  have hrefill := L.refill_pos
  have hone := L.one_le_capacity
  have hbound : 0 ≤ L.capacity + L.refillPerSec * (e - s) :=
    add_nonneg (by linarith) (mul_nonneg hrefill.le (sub_nonneg.mpr hse))
  induction ts generalizing b with
  | nil => simpa [grants] using hbound
  | cons t ts ih =>
    have hfound : L.Holds (b.getD (L.full t)) := by
      cases b with
      | none => exact Holds.full L t
      | some c => exact hb c rfl
    by_cases hst : s ≤ t
    · by_cases hte : t ≤ e
      · -- from the first request in the interval on, with its bucket brought up to date
        have hrefreshed : L.grants (some ⟨L.levelAt (b.getD (L.full t)) t, t⟩) (t :: ts) =
            L.grants b (t :: ts) := by
          simp only [grants, Option.getD_some, take_refreshed]
        have hlaw := countP_grants_le (e := e) (holds_refreshed hfound t) hte
          (List.pairwise_cons.mpr ⟨fun u hu => by
            rcases List.mem_cons.mp hu with rfl | hmem
            · exact le_rfl
            · exact List.rel_of_pairwise_cons hts hmem, hts⟩)
        rw [hrefreshed] at hlaw
        have hfewer : (L.grants b (t :: ts)).countP
              (fun g => g.2 && decide (s ≤ g.1) && decide (g.1 ≤ e)) ≤
            (L.grants b (t :: ts)).countP fun g => g.2 && decide (g.1 ≤ e) := by
          apply List.countP_mono_left
          intro g _ hg
          simp only [Bool.and_eq_true] at hg ⊢
          exact ⟨hg.1.1, hg.2⟩
        have hlevel := L.levelAt_le_capacity (b.getD (L.full t)) t
        have hlater : L.refillPerSec * (e - t) ≤ L.refillPerSec * (e - s) :=
          mul_le_mul_of_nonneg_left (by linarith) hrefill.le
        calc (((L.grants b (t :: ts)).countP
                fun g => g.2 && decide (s ≤ g.1) && decide (g.1 ≤ e) : ℕ) : K)
            ≤ _ := Nat.cast_le.mpr hfewer
          _ ≤ L.levelAt (b.getD (L.full t)) t + L.refillPerSec * (e - t) := hlaw
          _ ≤ L.capacity + L.refillPerSec * (e - s) := add_le_add hlevel hlater
      · have hzero : (L.grants b (t :: ts)).countP
            (fun g => g.2 && decide (s ≤ g.1) && decide (g.1 ≤ e)) = 0 :=
          countP_grants_eq_zero (fun g hg => by simp at hg; exact hg.2) (not_le.mp hte) hts
        rw [hzero, Nat.cast_zero]
        exact hbound
    · have hnext := ih (b := some (L.take (b.getD (L.full t)) t).2)
        (fun c hc => by
          cases hc
          exact hfound.take t)
        hts.of_cons
      simp only [grants, List.countP_cons, hst, decide_false, Bool.and_false, Bool.false_and]
      simpa using hnext

end Limit

end TokenBucket
