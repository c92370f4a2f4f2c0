import Vpn1.Services.RateLimiter

/-! Which buckets a pass over the subscription limiter's table removes. No stored level is ever back
at the capacity, since it is only brought up to date when a token is taken, so the pass never sees a
full bucket and keeps the most recently seen addresses. -/

namespace Vpn1.Services

open Stepwise TokenBucket

variable {α : Type}

/-- Back at the capacity, with the refill since the bucket was last seen. -/
def Refilled (L : Limit ℚ) (now : ℚ) (b : Bucket ℚ) : Prop := L.capacity ≤ L.levelAt b now

instance (L : Limit ℚ) (now : ℚ) (b : Bucket ℚ) : Decidable (Refilled L now b) :=
  inferInstanceAs (Decidable (_ ≤ _))

def RateLimiter.Idle (l : RateLimiter α) (now : ℚ) (b : Bucket ℚ) : Prop :=
  l.idleFor ≤ now - b.last

def RateLimiter.unrefilled (l : RateLimiter α) (now : ℚ) : Nat :=
  l.buckets.entries.countP fun e => decide ¬ Refilled l.toLimit now e.2

section Recent

theorem mem_entries_of_retain {keep : Entry α → Bool} {buckets : Buckets α} {e : Entry α}
    (he : e ∈ (buckets.retain keep).entries) : e ∈ buckets.entries := List.mem_of_mem_filter he

theorem seen_fst_perm (order : HashOrder α) (buckets : Buckets α) :
    ((RateLimiter.seen order buckets).map Prod.fst).Perm buckets.keys := by
  have hsorted : (RateLimiter.seen order buckets).Perm
      ((order.iter buckets.entries).map fun e => (e.1, e.2.last)) := List.mergeSort_perm _ _
  have hiter := (order.perm buckets.entries).map Sigma.fst
  have hfst := hsorted.map Prod.fst
  rw [List.map_map] at hfst
  exact hfst.trans hiter

private theorem recent_sublist (order : HashOrder α) (buckets : Buckets α) :
    (RateLimiter.recent order buckets).Sublist ((RateLimiter.seen order buckets).map Prod.fst) :=
  (List.take_sublist _ _).map _

theorem mem_of_mem_recent {order : HashOrder α} {buckets : Buckets α} {a : α}
    (ha : a ∈ RateLimiter.recent order buckets) : a ∈ buckets := by
  have hseen := (recent_sublist order buckets).subset ha
  exact AList.mem_keys.mpr ((seen_fst_perm order buckets).mem_iff.mp hseen)

private theorem nodup_recent (order : HashOrder α) (buckets : Buckets α) :
    (RateLimiter.recent order buckets).Nodup := by
  have hseen := (seen_fst_perm order buckets).nodup_iff.mpr buckets.keys_nodup
  exact hseen.sublist (recent_sublist order buckets)

private theorem length_recent {order : HashOrder α} {buckets : Buckets α}
    (h : trimTo ≤ buckets.entries.length) :
    (RateLimiter.recent order buckets).length = trimTo := by
  have hseen := (seen_fst_perm order buckets).length_eq
  rw [List.length_map, AList.keys, List.keys, List.length_map] at hseen
  rw [RateLimiter.recent, List.length_map, List.length_take, hseen]
  exact min_eq_left h

end Recent

variable [DecidableEq α]

def found (L : Limit ℚ) (past : List (Call α)) (call : Call α) : RateLimiter α :=
  ((Subscription.run L past).2.charge call.toRequest).2

def left (L : Limit ℚ) (past : List (Call α)) (call : Call α) : RateLimiter α :=
  (Subscription.run L (past ++ [call])).2

/-- Only peers that have earned it are forgotten. -/
structure Forgives (L : Limit ℚ) (past : List (Call α)) (call : Call α) : Prop where
  refilled_removed : ∀ a, ∀ b ∈ (found L past call).buckets.lookup a,
    Refilled L call.time b → (found L past call).Idle call.time b → a ∉ (left L past call).buckets
  unrefilled_kept : ∀ a, ∀ b ∈ (found L past call).buckets.lookup a,
    ¬ Refilled L call.time b → a ∉ (left L past call).buckets →
      4096 < (found L past call).unrefilled call.time

/-- None of the most recently seen buckets is refilled and idle, and all that are not refilled are
among them, if they are not too many. -/
structure RecentEarned (L : Limit ℚ) (past : List (Call α)) (call : Call α) : Prop where
  busy : ∀ a ∈ RateLimiter.recent call.order (found L past call).buckets,
    ∀ b ∈ (found L past call).buckets.lookup a,
      ¬ (Refilled L call.time b ∧ (found L past call).Idle call.time b)
  covers : (found L past call).unrefilled call.time ≤ 4096 →
    ∀ a, ∀ b ∈ (found L past call).buckets.lookup a, ¬ Refilled L call.time b →
      a ∈ RateLimiter.recent call.order (found L past call).buckets

section Stored

def Spent (L : Limit ℚ) (l : RateLimiter α) : Prop :=
  l.toLimit = L ∧ ∀ a, ∀ b ∈ l.buckets.lookup a, b.tokens < L.capacity

theorem Spent.charge {L : Limit ℚ} {l : RateLimiter α} (h : Spent L l) (q : Request α) :
    Spent L (l.charge q).2 := by
  constructor
  · rw [toLimit_charge, h.1]
  · intro a b hb
    by_cases ha : a = q.address
    · subst ha
      rw [lookup_charge_self, h.1] at hb
      cases hb
      exact L.tokens_take_lt_capacity _ _
    · rw [lookup_charge_of_ne ha] at hb
      exact h.2 a b hb

theorem mem_entries_of_evict {l : RateLimiter α} {order : HashOrder α} {now : ℚ} {e : Entry α}
    (he : e ∈ (l.evict order now).entries) : e ∈ l.buckets.entries := by
  unfold RateLimiter.evict RateLimiter.trim RateLimiter.dropIdle at he
  split_ifs at he
  · exact he
  · exact mem_entries_of_retain (mem_entries_of_retain he)
  · exact mem_entries_of_retain he

theorem Spent.evict {L : Limit ℚ} {l : RateLimiter α} (h : Spent L l) (order : HashOrder α)
    (now : ℚ) : Spent L (l.evictFullBuckets order now) := by
  constructor
  · exact h.1
  · intro a b hb
    have hentry := mem_entries_of_evict (AList.mem_lookup_iff.mp hb)
    exact h.2 a b (AList.mem_lookup_iff.mpr hentry)

theorem Spent.run (L : Limit ℚ) (calls : List (Call α)) : Spent L (Subscription.run L calls).2 := by
  apply runAll_invariant (I := Spent L)
  · intro call l h
    exact (h.charge call.toRequest).evict call.order call.time
  · constructor
    · rfl
    · intro a b hb
      simp [RateLimiter.new] at hb

theorem Spent.found (L : Limit ℚ) (past : List (Call α)) (call : Call α) :
    Spent L (found L past call) := (Spent.run L past).charge call.toRequest

end Stored

section Pass

private theorem dropIdle_eq {L : Limit ℚ} {l : RateLimiter α} (h : Spent L l) (now : ℚ) :
    l.dropIdle now = l.buckets := by
  apply AList.ext
  apply List.filter_eq_self.mpr
  intro e he
  have hspent := h.2 e.1 e.2 (AList.mem_lookup_iff.mpr he)
  rw [← h.1] at hspent
  simp [hspent]

theorem mem_left_iff {L : Limit ℚ} {past : List (Call α)} {call : Call α}
    (hruns : maxBuckets < (found L past call).buckets.entries.length) (a : α) :
    a ∈ (left L past call).buckets ↔
      a ∈ RateLimiter.recent call.order (found L past call).buckets := by
  have hspent := Spent.found L past call
  have hmany : trimTo < (found L past call).buckets.entries.length :=
    lt_of_le_of_lt (by decide) hruns
  have hleft : left L past call = (found L past call).evictFullBuckets call.order call.time := by
    rw [left, Subscription.run, runAll_append]
    rfl
  rw [hleft, RateLimiter.evictFullBuckets, RateLimiter.evict, if_neg (not_le.mpr hruns),
    dropIdle_eq hspent, RateLimiter.trim, if_pos hmany, mem_retain]
  constructor
  · rintro ⟨b, -, hkept⟩
    simpa using hkept
  · intro ha
    obtain ⟨b, hb⟩ := Option.isSome_iff_exists.mp (AList.lookup_isSome.mpr (mem_of_mem_recent ha))
    exact ⟨b, AList.mem_lookup_iff.mp hb, by simpa using ha⟩

/-- A pass forgives only those who have earned it exactly if the most recently seen ones are those
that have not. -/
theorem forgives_iff_recentEarned (L : Limit ℚ) (past : List (Call α)) (call : Call α)
    (hruns : 8192 < (found L past call).buckets.entries.length) :
    Forgives L past call ↔ RecentEarned L past call := by
  have hmem := mem_left_iff hruns
  constructor
  · intro h
    constructor
    · rintro a ha b hb ⟨hrefilled, hidle⟩
      exact h.refilled_removed a b hb hrefilled hidle ((hmem a).mpr ha)
    · intro hfew a b hb hunrefilled
      by_contra hgone
      have hmany := h.unrefilled_kept a b hb hunrefilled fun ha => hgone ((hmem a).mp ha)
      omega
  · intro h
    constructor
    · intro a b hb hrefilled hidle ha
      exact h.busy a ((hmem a).mp ha) b hb ⟨hrefilled, hidle⟩
    · intro a b hb hunrefilled hgone
      by_contra hfew
      exact hgone ((hmem a).mpr (h.covers (not_lt.mp hfew) a b hb hunrefilled))

end Pass

section NewAddresses

theorem mem_run_iff (L : Limit ℚ) (requests : List (Request α)) (a : α) :
    a ∈ (Rendezvous.run L requests).2.buckets ↔ a ∈ requests.map Request.address := by
  induction requests using List.reverseRecOn with
  | nil => simp [Rendezvous.run, runAll, runWhile, RateLimiter.new]
  | append_singleton requests q ih =>
    rw [Rendezvous.run, runAll_append, List.map_append, List.mem_append, ← ih, List.map_singleton,
      List.mem_singleton, or_comm]
    exact mem_charge

private theorem lookup_run_of_nodup (L : Limit ℚ) {requests : List (Request α)}
    (hnodup : (requests.map Request.address).Nodup) {q : Request α} (hq : q ∈ requests) :
    (Rendezvous.run L requests).2.buckets.lookup q.address = some ⟨L.capacity - 1, q.time⟩ := by
  induction requests using List.reverseRecOn with
  | nil => simp at hq
  | append_singleton requests p ih =>
    rw [List.map_append, List.nodup_append] at hnodup
    obtain ⟨hbefore, -, hnew⟩ := hnodup
    rw [Rendezvous.run, runAll_append]
    rcases List.mem_append.mp hq with hold | hlast
    · have hne : q.address ≠ p.address :=
        hnew _ (List.mem_map_of_mem hold) _ (by simp)
      exact (lookup_charge_of_ne hne).trans (ih hbefore hold)
    · obtain rfl := List.mem_singleton.mp hlast
      have habsent : (Rendezvous.run L requests).2.buckets.lookup q.address = none := by
        rw [AList.lookup_eq_none, mem_run_iff]
        intro ha
        exact hnew _ ha _ (by simp) rfl
      have hlimit := (Rendezvous.Records.run L requests).limit
      have hself := lookup_charge_self (Rendezvous.run L requests).2 q
      rw [habsent, hlimit] at hself
      refine hself.trans ?_
      simp [Limit.take, Limit.levelAt, Limit.full, L.one_le_capacity]

private theorem length_run_of_nodup (L : Limit ℚ) {requests : List (Request α)}
    (hnodup : (requests.map Request.address).Nodup) :
    (Rendezvous.run L requests).2.buckets.entries.length = requests.length := by
  have hperm : (Rendezvous.run L requests).2.buckets.keys.Perm (requests.map Request.address) := by
    rw [List.perm_ext_iff_of_nodup (AList.keys_nodup _) hnodup]
    intro a
    exact AList.mem_keys.symm.trans (mem_run_iff L requests a)
  simpa [AList.keys, List.keys] using hperm.length_eq

private theorem found_eq_run (L : Limit ℚ) {past : List (Call α)} {call : Call α}
    (hfew : past.length ≤ maxBuckets) :
    found L past call = (Rendezvous.run L ((past ++ [call]).map Call.toRequest)).2 := by
  have hdistinct : ((past.map Call.toRequest).map Request.address).dedup.length ≤ maxBuckets := by
    refine (List.dedup_sublist _).length_le.trans ?_
    simpa using hfew
  rw [found, Subscription.run_eq_of_few L hdistinct, List.map_append, Rendezvous.run,
    Rendezvous.run, runAll_append]
  rfl

end NewAddresses

section Sample

def oneASecond : Limit ℚ where
  capacity := 1
  refillPerSec := 1
  one_le_capacity := le_rfl
  refill_pos := one_pos

private theorem refilled_oneASecond {last now : ℚ} (h : last + 1 ≤ now) :
    Refilled oneASecond now ⟨0, last⟩ := by
  have helapsed : 1 ≤ max (now - last) 0 := le_max_of_le_left (le_sub_iff_add_le'.mpr h)
  apply le_min
  · simpa [oneASecond] using helapsed
  · exact le_rfl

private theorem idleFor_oneASecond {l : RateLimiter ℕ} (hl : l.toLimit = oneASecond) :
    l.idleFor = 1 := by
  have hmin : minPositive ≤ 1 := by
    rw [minPositive]
    exact div_le_one_of_le₀ (one_le_pow₀ (by norm_num)) (by positivity)
  have hcapacity : l.capacity = 1 := congrArg Limit.capacity hl
  have hrefill : l.refillPerSec = 1 := congrArg Limit.refillPerSec hl
  rw [RateLimiter.idleFor, hcapacity, hrefill, max_eq_left hmin, div_one, max_self]

/-- Address `i` asks at time `time i`. -/
def newcomer (time : ℕ → ℚ) (i : ℕ) : Call ℕ := ⟨⟨time i, i⟩, ⟨id, fun _ => .refl _⟩⟩

def newcomers (time : ℕ → ℚ) (n : ℕ) : List (Call ℕ) := (List.range n).map (newcomer time)

variable {time : ℕ → ℚ} {n : ℕ}

private theorem found_newcomers (hn : n ≤ maxBuckets) :
    found oneASecond (newcomers time n) (newcomer time n) =
      (Rendezvous.run oneASecond ((newcomers time (n + 1)).map Call.toRequest)).2 := by
  rw [found_eq_run oneASecond (by simpa [newcomers] using hn)]
  simp only [newcomers, List.range_succ, List.map_append, List.map_cons, List.map_nil]

theorem addresses_newcomers :
    ((newcomers time n).map Call.toRequest).map Request.address = List.range n := by
  simp [newcomers, newcomer, Function.comp_def]

private theorem length_found_newcomers (time : ℕ → ℚ) (hn : n ≤ maxBuckets) :
    (found oneASecond (newcomers time n) (newcomer time n)).buckets.entries.length = n + 1 := by
  rw [found_newcomers hn, length_run_of_nodup oneASecond (by
    rw [addresses_newcomers]
    exact List.nodup_range)]
  simp [newcomers]

private theorem of_mem_lookup_newcomers (hn : n ≤ maxBuckets) {i : ℕ} {b : Bucket ℚ}
    (hb : b ∈ (found oneASecond (newcomers time n) (newcomer time n)).buckets.lookup i) :
    i ≤ n ∧ b = ⟨0, time i⟩ := by
  rw [found_newcomers hn] at hb
  have hasked := (mem_run_iff oneASecond _ i).mp (AList.lookup_isSome.mp (by rw [hb]; rfl))
  rw [addresses_newcomers, List.mem_range] at hasked
  have hmem : (newcomer time i).toRequest ∈ (newcomers time (n + 1)).map Call.toRequest :=
    List.mem_map_of_mem (List.mem_map_of_mem (List.mem_range.mpr hasked))
  have hbucket := lookup_run_of_nodup oneASecond (by
    rw [addresses_newcomers]
    exact List.nodup_range) hmem
  have hsame := Option.some.inj (hb.symm.trans hbucket)
  constructor
  · omega
  · simpa [oneASecond, newcomer] using hsame

/-- New addresses that all ask at once: none of them is refilled, and half of them are forgotten. -/
theorem burst_forgives :
    8192 < (found oneASecond (newcomers 0 8192) (newcomer 0 8192)).buckets.entries.length ∧
      Forgives oneASecond (newcomers 0 8192) (newcomer 0 8192) := by
  have hn : 8192 ≤ maxBuckets := le_rfl
  have hlength := length_found_newcomers 0 hn
  have hruns : 8192 < (found oneASecond (newcomers 0 8192)
      (newcomer 0 8192)).buckets.entries.length := by
    rw [hlength]
    norm_num
  have hfound : ∀ i, ∀ b ∈ (found oneASecond (newcomers 0 8192)
      (newcomer 0 8192)).buckets.lookup i, ¬ Refilled oneASecond 0 b := by
    intro i b hb
    obtain ⟨-, rfl⟩ := of_mem_lookup_newcomers hn hb
    norm_num [Refilled, Limit.levelAt, oneASecond]
  refine ⟨hruns, (forgives_iff_recentEarned _ _ _ hruns).mpr ⟨?_, ?_⟩⟩
  · intro i _ b hb hearned
    exact hfound i b hb hearned.1
  · intro hfew
    have hall : (found oneASecond (newcomers 0 8192) (newcomer 0 8192)).unrefilled 0 =
        (found oneASecond (newcomers 0 8192) (newcomer 0 8192)).buckets.entries.length := by
      apply List.countP_eq_length.mpr
      intro e he
      rw [(Spent.found oneASecond (newcomers 0 8192) (newcomer 0 8192)).1]
      exact decide_eq_true (hfound e.1 e.2 (AList.mem_lookup_iff.mpr he))
    have hfew : (found oneASecond (newcomers 0 8192) (newcomer 0 8192)).unrefilled 0 ≤ 4096 := hfew
    omega

/-- New addresses that ask one a second: each is refilled and idle when the next one asks, but half
of them are still in the table after the pass. -/
theorem idle_newcomers_kept :
    ¬ Forgives oneASecond (newcomers (fun i => i) 8192) (newcomer (fun i => i) 8192) := by
  intro h
  have hn : 8192 ≤ maxBuckets := le_rfl
  have hlength := length_found_newcomers (fun i => i) hn
  set table := (found oneASecond (newcomers (fun i => i) 8192) (newcomer (fun i => i) 8192)).buckets
    with htable
  obtain ⟨recent, hdef⟩ : ∃ recent, recent =
      RateLimiter.recent (newcomer (fun i => i) 8192).order table := ⟨_, rfl⟩
  have hrecent : recent.length = 4096 := by
    rw [hdef]
    exact length_recent (by rw [hlength]; decide)
  -- some address other than the last one is among those that stay
  obtain ⟨i, hi, hne⟩ : ∃ i ∈ recent, i ≠ 8192 := by
    by_contra hlast
    push Not at hlast
    have honly : recent ⊆ [8192] := fun i hi => List.mem_singleton.mpr (hlast i hi)
    have hshort := (List.subperm_of_subset (hdef ▸ nodup_recent _ _) honly).length_le
    rw [List.length_singleton] at hshort
    omega
  obtain ⟨b, hb⟩ := Option.isSome_iff_exists.mp
    (AList.lookup_isSome.mpr (mem_of_mem_recent (hdef ▸ hi)))
  obtain ⟨hle, rfl⟩ := of_mem_lookup_newcomers hn hb
  have hearlier : (i : ℚ) + 1 ≤ 8192 := by
    have : i + 1 ≤ 8192 := by omega
    exact_mod_cast this
  have hruns : maxBuckets < table.entries.length := by
    rw [hlength]
    decide
  apply h.refilled_removed i _ hb
  · exact refilled_oneASecond hearlier
  · rw [RateLimiter.Idle, idleFor_oneASecond (Spent.found oneASecond _ _).1]
    exact le_sub_iff_add_le'.mpr hearlier
  · exact (mem_left_iff hruns i).mpr (hdef ▸ hi)

end Sample

end Vpn1.Services
