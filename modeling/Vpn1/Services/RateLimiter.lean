import Mathlib.Algebra.Order.Field.Rat
import Mathlib.Data.List.AList
import Mathlib.Data.List.Dedup
import Mathlib.Data.List.Induction
import Vpn1.Lib.Lockstep
import Vpn1.Lib.TokenBucket

/-! The per-address rate limiters of the rendezvous and the subscription service, over exact
rationals: the second one bounds its table. -/

namespace Vpn1.Services

open Stepwise TokenBucket

variable {α : Type}

/-- `HashMap<IpAddr, (f64, Instant)>`. -/
abbrev Buckets (α : Type) := AList fun _ : α => Bucket ℚ

abbrev Entry (α : Type) := Sigma fun _ : α => Bucket ℚ

/-- The order in which a hash map hands out its entries is its own. -/
structure HashOrder (α : Type) where
  iter : List (Entry α) → List (Entry α)
  perm : ∀ entries, (iter entries).Perm entries

structure RateLimiter (α : Type) extends Limit ℚ where
  buckets : Buckets α

structure Request (α : Type) where
  time : ℚ
  address : α
  deriving DecidableEq

/-- A request, and the order of the table if it comes to a pass over it. -/
structure Call (α : Type) extends Request α where
  order : HashOrder α

/-- `HashMap::retain`. -/
def Buckets.retain (keep : Entry α → Bool) (buckets : Buckets α) : Buckets α :=
  ⟨buckets.entries.filter keep, buckets.nodupKeys.sublist List.filter_sublist⟩

def RateLimiter.new (L : Limit ℚ) : RateLimiter α := ⟨L, ∅⟩

/-- `f64::MIN_POSITIVE`. -/
def minPositive : ℚ := 1 / 2 ^ 1022

def maxBuckets : Nat := 8192

def trimTo : Nat := maxBuckets / 2

namespace RateLimiter

variable [DecidableEq α]

/-- What both services' `allow` begins with. -/
def charge (limiter : RateLimiter α) (request : Request α) : Bool × RateLimiter α :=
  let now := request.time
  let bucket := (limiter.buckets.lookup request.address).getD ⟨limiter.capacity, now⟩
  let elapsed := max (now - bucket.last) 0
  let tokens := min (bucket.tokens + elapsed * limiter.refillPerSec) limiter.capacity
  if 1 ≤ tokens then
    (true, { limiter with buckets := limiter.buckets.insert request.address ⟨tokens - 1, now⟩ })
  else (false, { limiter with buckets := limiter.buckets.insert request.address ⟨tokens, now⟩ })

def idleFor (limiter : RateLimiter α) : ℚ :=
  max (limiter.capacity / max limiter.refillPerSec minPositive) 1

def seen (order : HashOrder α) (buckets : Buckets α) : List (α × ℚ) :=
  ((order.iter buckets.entries).map fun e => (e.1, e.2.last)).mergeSort fun a b => decide (b.2 ≤ a.2)

def recent (order : HashOrder α) (buckets : Buckets α) : List α :=
  ((seen order buckets).take trimTo).map Prod.fst

/-- The first pass: full buckets that are idle go. -/
def dropIdle (limiter : RateLimiter α) (now : ℚ) : Buckets α :=
  limiter.buckets.retain fun e =>
    decide (e.2.tokens < limiter.capacity) || decide (max (now - e.2.last) 0 < limiter.idleFor)

/-- The second pass, if there are still too many: the most recently seen addresses stay. -/
def trim (order : HashOrder α) (buckets : Buckets α) : Buckets α :=
  if buckets.entries.length > trimTo then
    let keep := recent order buckets
    buckets.retain fun e => keep.contains e.1
  else buckets

def evict (limiter : RateLimiter α) (order : HashOrder α) (now : ℚ) : Buckets α :=
  if limiter.buckets.entries.length ≤ maxBuckets then limiter.buckets
  else trim order (limiter.dropIdle now)

def evictFullBuckets (limiter : RateLimiter α) (order : HashOrder α) (now : ℚ) : RateLimiter α :=
  { limiter with buckets := limiter.evict order now }

end RateLimiter

namespace Rendezvous

variable [DecidableEq α]

def allow (limiter : RateLimiter α) (request : Request α) : Bool × RateLimiter α :=
  limiter.charge request

def serve (request : Request α) (limiter : RateLimiter α) : (Request α × Bool) × RateLimiter α :=
  ((request, (allow limiter request).1), (allow limiter request).2)

def run (L : Limit ℚ) (requests : List (Request α)) : List (Request α × Bool) × RateLimiter α :=
  runAll serve requests (.new L)

end Rendezvous

namespace Subscription

variable [DecidableEq α]

def allow (limiter : RateLimiter α) (call : Call α) : Bool × RateLimiter α :=
  let (allowed, limiter) := limiter.charge call.toRequest
  (allowed, limiter.evictFullBuckets call.order call.time)

def serve (call : Call α) (limiter : RateLimiter α) : (Request α × Bool) × RateLimiter α :=
  ((call.toRequest, (allow limiter call).1), (allow limiter call).2)

def run (L : Limit ℚ) (calls : List (Call α)) : List (Request α × Bool) × RateLimiter α :=
  runAll serve calls (.new L)

end Subscription

section Table

private theorem length_entries_le_of_subset {buckets : Buckets α} {addresses : List α}
    (h : ∀ a ∈ buckets, a ∈ addresses) : buckets.entries.length ≤ addresses.length := by
  have hsub := (List.subperm_of_subset buckets.keys_nodup h).length_le
  simpa [AList.keys, List.keys] using hsub

private theorem length_recent_le (order : HashOrder α) (buckets : Buckets α) :
    (RateLimiter.recent order buckets).length ≤ trimTo := by
  rw [RateLimiter.recent, List.length_map]
  exact List.length_take_le _ _

theorem mem_retain {keep : Entry α → Bool} {buckets : Buckets α} {a : α} :
    a ∈ buckets.retain keep ↔ ∃ b, ⟨a, b⟩ ∈ buckets.entries ∧ keep ⟨a, b⟩ = true := by
  rw [AList.mem_keys]
  simp [Buckets.retain, AList.keys, List.keys]

end Table

section Charge

variable [DecidableEq α]

theorem charge_eq (limiter : RateLimiter α) (q : Request α) :
    limiter.charge q =
      let r := limiter.take ((limiter.buckets.lookup q.address).getD (limiter.full q.time)) q.time
      (r.1, ⟨limiter.toLimit, limiter.buckets.insert q.address r.2⟩) := by
  unfold RateLimiter.charge Limit.take
  by_cases htoken : 1 ≤ limiter.levelAt
      ((limiter.buckets.lookup q.address).getD (limiter.full q.time)) q.time
  · rw [if_pos htoken]
    exact if_pos htoken
  · rw [if_neg htoken]
    exact if_neg htoken

@[simp] theorem toLimit_charge (limiter : RateLimiter α) (q : Request α) :
    (limiter.charge q).2.toLimit = limiter.toLimit := by
  rw [charge_eq]

theorem lookup_charge_self (limiter : RateLimiter α) (q : Request α) :
    (limiter.charge q).2.buckets.lookup q.address =
      some (limiter.take ((limiter.buckets.lookup q.address).getD (limiter.full q.time)) q.time).2 := by
  rw [charge_eq]
  exact AList.lookup_insert _

theorem lookup_charge_of_ne {limiter : RateLimiter α} {q : Request α} {a : α}
    (ha : a ≠ q.address) :
    (limiter.charge q).2.buckets.lookup a = limiter.buckets.lookup a := by
  rw [charge_eq]
  exact AList.lookup_insert_ne ha

theorem mem_charge {limiter : RateLimiter α} {q : Request α} {a : α} :
    a ∈ (limiter.charge q).2.buckets ↔ a = q.address ∨ a ∈ limiter.buckets := by
  rw [charge_eq]
  exact AList.mem_insert _

end Charge

namespace Rendezvous

variable [DecidableEq α]

private theorem filter_runAll_serve (a : α) (requests : List (Request α)) {l m : RateLimiter α}
    (hlimit : l.toLimit = m.toLimit) (hbucket : l.buckets.lookup a = m.buckets.lookup a) :
    (runAll serve requests l).1.filter (fun x => decide (x.1.address = a)) =
      (runAll serve (requests.filter fun q => decide (q.address = a)) m).1 := by
  induction requests generalizing l m with
  | nil => rfl
  | cons q requests ih =>
    rw [runAll_cons]
    by_cases hq : q.address = a
    · subst hq
      have hanswer : (l.charge q).1 = (m.charge q).1 := by
        rw [charge_eq, charge_eq, hlimit, hbucket]
      have hnext := ih (l := (l.charge q).2) (m := (m.charge q).2) (by simp [hlimit])
        (by rw [lookup_charge_self, lookup_charge_self, hlimit, hbucket])
      rw [List.filter_cons_of_pos (by simp [serve]), List.filter_cons_of_pos (by simp), runAll_cons]
      exact congrArg₂ List.cons (congrArg (Prod.mk q) hanswer) hnext
    · rw [List.filter_cons_of_neg (by simp [serve, hq]),
        List.filter_cons_of_neg (by simp [hq])]
      apply ih
      · simpa [serve, allow] using hlimit
      · rw [← hbucket]
        exact lookup_charge_of_ne (Ne.symm hq)

private theorem map_runAll_serve {a : α} {requests : List (Request α)} (l : RateLimiter α)
    (ha : ∀ q ∈ requests, q.address = a) :
    (runAll serve requests l).1.map (fun x => (x.1.time, x.2)) =
      l.grants (l.buckets.lookup a) (requests.map Request.time) := by
  induction requests generalizing l with
  | nil => rfl
  | cons q requests ih =>
    obtain ⟨rfl, hrest⟩ := List.forall_mem_cons.mp ha
    have hnext := ih (l.charge q).2 hrest
    rw [lookup_charge_self, toLimit_charge] at hnext
    have hanswer : (l.charge q).1 =
        (l.take ((l.buckets.lookup q.address).getD (l.full q.time)) q.time).1 := by
      rw [charge_eq]
    rw [runAll_cons, List.map_cons, List.map_cons, Limit.grants]
    exact congrArg₂ List.cons (congrArg (Prod.mk q.time) hanswer) hnext

structure Records (L : Limit ℚ) (past : List (Request α)) (l : RateLimiter α) : Prop where
  limit : l.toLimit = L
  holds : ∀ a, ∀ b ∈ l.buckets.lookup a, L.Holds b
  asked : ∀ a, ∀ b ∈ l.buckets.lookup a, ∃ q ∈ past, q.address = a ∧ q.time = b.last

theorem Records.new (L : Limit ℚ) : Records (α := α) L [] (.new L) where
  limit := rfl
  holds a b hb := by simp [RateLimiter.new] at hb
  asked a b hb := by simp [RateLimiter.new] at hb

theorem Records.charge {L : Limit ℚ} {past : List (Request α)} {l : RateLimiter α}
    (h : Records L past l) (q : Request α) : Records L (past ++ [q]) (l.charge q).2 where
  limit := by rw [toLimit_charge, h.limit]
  holds a b hb := by
    by_cases ha : a = q.address
    · subst ha
      rw [lookup_charge_self, h.limit] at hb
      cases hb
      apply Limit.Holds.take
      cases hfound : l.buckets.lookup q.address with
      | none => exact Limit.Holds.full L q.time
      | some c => exact h.holds q.address c hfound
    · rw [lookup_charge_of_ne ha] at hb
      exact h.holds a b hb
  asked a b hb := by
    by_cases ha : a = q.address
    · subst ha
      rw [lookup_charge_self] at hb
      cases hb
      exact ⟨q, by simp, rfl, by simp⟩
    · rw [lookup_charge_of_ne ha] at hb
      obtain ⟨p, hp, hasked⟩ := h.asked a b hb
      exact ⟨p, List.mem_append_left _ hp, hasked⟩

theorem Records.run (L : Limit ℚ) (requests : List (Request α)) :
    Records L requests (run L requests).2 := by
  induction requests using List.reverseRecOn with
  | nil => exact Records.new L
  | append_singleton requests q ih =>
    rw [Rendezvous.run, runAll_append]
    exact ih.charge q

private theorem allow_of_idle {L : Limit ℚ} {past : List (Request α)} {l : RateLimiter α}
    (h : Records L past l) {q : Request α}
    (hidle : ∀ p ∈ past, p.address = q.address → p.time ≤ q.time - 1 / L.refillPerSec) :
    (allow l q).1 = true := by
  rw [allow, charge_eq]
  cases hfound : l.buckets.lookup q.address with
  | none => exact l.take_full_granted q.time
  | some b =>
    obtain ⟨p, hp, haddress, htime⟩ := h.asked q.address b hfound
    rw [h.limit]
    apply Limit.take_granted_of_idle (h.holds q.address b hfound)
    rw [← htime]
    exact hidle p hp haddress

end Rendezvous

namespace Subscription

variable [DecidableEq α]

private theorem length_trim_le (order : HashOrder α) (buckets : Buckets α) :
    (RateLimiter.trim order buckets).entries.length ≤ trimTo := by
  unfold RateLimiter.trim
  split_ifs with hover
  · apply le_trans (length_entries_le_of_subset _) (length_recent_le order buckets)
    intro a ha
    obtain ⟨b, -, hkept⟩ := mem_retain.mp ha
    simpa using hkept
  · exact not_lt.mp hover

private theorem length_evict_le (l : RateLimiter α) (order : HashOrder α) (now : ℚ) :
    (l.evict order now).entries.length ≤ maxBuckets := by
  have htrim : trimTo ≤ maxBuckets := by decide
  unfold RateLimiter.evict
  split_ifs with hfits
  · exact hfits
  · exact (length_trim_le order _).trans htrim

private theorem evictFullBuckets_of_length_le {l : RateLimiter α} (order : HashOrder α) (now : ℚ)
    (h : l.buckets.entries.length ≤ maxBuckets) : l.evictFullBuckets order now = l := by
  rw [RateLimiter.evictFullBuckets, RateLimiter.evict, if_pos h]

private theorem runAll_serve_eq {calls : List (Call α)} {addresses : List α} {l : RateLimiter α}
    (hfit : addresses.length ≤ maxBuckets) (hcalls : ∀ c ∈ calls, c.address ∈ addresses)
    (hl : ∀ a ∈ l.buckets, a ∈ addresses) :
    runAll serve calls l = runAll Rendezvous.serve (calls.map Call.toRequest) l := by
  induction calls generalizing l with
  | nil => rfl
  | cons c calls ih =>
    obtain ⟨hc, hrest⟩ := List.forall_mem_cons.mp hcalls
    have hseen : ∀ a ∈ (l.charge c.toRequest).2.buckets, a ∈ addresses := by
      intro a ha
      rcases mem_charge.mp ha with rfl | hmem
      · exact hc
      · exact hl a hmem
    have hsame : allow l c = Rendezvous.allow l c.toRequest := by
      have hevict := evictFullBuckets_of_length_le c.order c.time
        ((length_entries_le_of_subset hseen).trans hfit)
      simp only [allow, Rendezvous.allow, hevict]
    rw [List.map_cons, runAll_cons, runAll_cons]
    have hstep : serve c l = Rendezvous.serve c.toRequest l := by
      simp only [serve, Rendezvous.serve, hsame]
    have hnext := ih (l := (Rendezvous.serve c.toRequest l).2) hrest hseen
    rw [hstep, hnext]

end Subscription

section Law

variable [DecidableEq α]

theorem Rendezvous.countP_run_le (L : Limit ℚ) {requests : List (Request α)}
    (htimes : requests.Pairwise fun p q => p.time ≤ q.time) (a : α) {s e : ℚ} (hse : s ≤ e) :
    (((Rendezvous.run L requests).1.countP fun x =>
        decide (x.1.address = a ∧ s ≤ x.1.time ∧ x.1.time ≤ e ∧ x.2 = true) : ℕ) : ℚ) ≤
      L.capacity + L.refillPerSec * (e - s) := by
  let own := requests.filter fun q => decide (q.address = a)
  have hown : ∀ q ∈ own, q.address = a := by
    intro q hq
    simpa using (List.mem_filter.mp hq).2
  have hsorted : (own.map Request.time).Pairwise (· ≤ ·) :=
    List.pairwise_map.mpr (htimes.filter _)
  have hlaw := Limit.countP_grants_interval_le (b := none) (L := L) (by simp) hse hsorted
  have hgrants : L.grants none (own.map Request.time) =
      ((Rendezvous.run L requests).1.filter fun x => decide (x.1.address = a)).map
        fun x => (x.1.time, x.2) := by
    rw [Rendezvous.run, filter_runAll_serve a requests (m := RateLimiter.new L) rfl rfl]
    exact (map_runAll_serve (RateLimiter.new L) hown).symm
  rw [hgrants, List.countP_map, List.countP_filter] at hlaw
  refine le_trans (Nat.cast_le.mpr (List.countP_mono_left ?_)) hlaw
  intro x _ hx
  simp only [decide_eq_true_eq] at hx
  simp [hx]

theorem Rendezvous.run_getElem?_of_idle (L : Limit ℚ) {past later : List (Request α)}
    {q : Request α}
    (hidle : ∀ p ∈ past, p.address = q.address → p.time ≤ q.time - 1 / L.refillPerSec) :
    (Rendezvous.run L (past ++ q :: later)).1[past.length]? = some (q, true) := by
  have hallowed := allow_of_idle (Records.run L past) hidle
  rw [Rendezvous.run, runAll_append, List.getElem?_append_right (length_runAll ..).le,
    length_runAll, Nat.sub_self, runAll_cons]
  exact congrArg (fun answer => some (q, answer)) hallowed

theorem Subscription.run_eq_of_few (L : Limit ℚ) {calls : List (Call α)}
    (hfew : ((calls.map Call.toRequest).map Request.address).dedup.length ≤ maxBuckets) :
    Subscription.run L calls = Rendezvous.run L (calls.map Call.toRequest) := by
  apply runAll_serve_eq hfew
  · intro c hc
    rw [List.mem_dedup, List.map_map]
    exact List.mem_map_of_mem hc
  · intro a ha
    exact absurd ha (AList.notMem_empty a)

theorem Subscription.length_run_le (L : Limit ℚ) (calls : List (Call α)) :
    (Subscription.run L calls).2.buckets.entries.length ≤ maxBuckets := by
  refine runAll_invariant (I := fun l : RateLimiter α => l.buckets.entries.length ≤ maxBuckets)
    (fun c l _ => ?_) calls (Nat.zero_le _)
  exact length_evict_le _ c.order c.time

/-- Requests of one address in an interval are bounded by the token-bucket law, an address that
waited long enough is allowed, and addresses do not affect each other; the subscription limiter
answers alike while all addresses fit in its table, and its table stays bounded. -/
theorem rateLimiters_obey_tokenBucket (L : Limit ℚ) (requests : List (Request α))
    (htimes : requests.Pairwise fun p q => p.time ≤ q.time) :
    (∀ a s e, s ≤ e →
      (((Rendezvous.run L requests).1.countP fun x =>
          decide (x.1.address = a ∧ s ≤ x.1.time ∧ x.1.time ≤ e ∧ x.2 = true) : ℕ) : ℚ) ≤
        L.capacity + L.refillPerSec * (e - s)) ∧
    (∀ past q later, requests = past ++ q :: later →
      (∀ p ∈ past, p.address = q.address → p.time ≤ q.time - 1 / L.refillPerSec) →
      (Rendezvous.run L requests).1[past.length]? = some (q, true)) ∧
    (∀ a, (Rendezvous.run L requests).1.filter (fun x => decide (x.1.address = a)) =
      (Rendezvous.run L (requests.filter fun q => decide (q.address = a))).1) ∧
    (∀ calls : List (Call α), calls.map Call.toRequest = requests →
      ((requests.map Request.address).dedup.length ≤ 8192 →
        (Subscription.run L calls).1 = (Rendezvous.run L requests).1) ∧
      ∀ done, done <+: calls → (Subscription.run L done).2.buckets.entries.length ≤ 8192) := by
  refine ⟨fun a s e hse => Rendezvous.countP_run_le L htimes a hse, ?_, ?_, ?_⟩
  · intro past q later hrequests hidle
    subst hrequests
    exact Rendezvous.run_getElem?_of_idle L hidle
  · intro a
    exact Rendezvous.filter_runAll_serve a requests rfl rfl
  · intro calls hcalls
    subst hcalls
    constructor
    · intro hfew
      rw [Subscription.run_eq_of_few L hfew]
    · intro done _
      exact Subscription.length_run_le L done

end Law

section Sample

def sampleLimit : Limit ℚ where
  capacity := 2
  refillPerSec := 1 / 2
  one_le_capacity := by norm_num
  refill_pos := by norm_num

/-- One address asks three times in a second and once more later, another one in between. -/
def sampleRequests : List (Request ℕ) := [⟨0, 1⟩, ⟨0, 1⟩, ⟨1, 1⟩, ⟨1, 2⟩, ⟨4, 1⟩]

theorem sampleRequests_obey :
    (∀ s e, s ≤ e →
      (((Rendezvous.run sampleLimit sampleRequests).1.countP fun x =>
          decide (x.1.address = 1 ∧ s ≤ x.1.time ∧ x.1.time ≤ e ∧ x.2 = true) : ℕ) : ℚ) ≤
        sampleLimit.capacity + sampleLimit.refillPerSec * (e - s)) ∧
    (Rendezvous.run sampleLimit sampleRequests).1.map Prod.snd = [true, true, false, true, true] :=
  ⟨(rateLimiters_obey_tokenBucket sampleLimit sampleRequests (by decide +kernel)).1 1,
    by decide +kernel⟩

end Sample

end Vpn1.Services
