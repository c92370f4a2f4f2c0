import Mathlib.Algebra.BigOperators.Group.Finset.Piecewise
import Mathlib.Algebra.Order.BigOperators.Group.Finset
import Mathlib.Algebra.Order.BigOperators.Ring.Finset
import Mathlib.Data.List.FinRange
import Mathlib.Data.List.Perm.Subperm
import Vpn1.Services.RateLimiter
import Vpn1.Trust.Ceremony

/-! The rendezvous service over whole runs: it hands out small signed subsets of its pool, and the rate
limiter bounds how much of the pool anybody can collect. -/

namespace Vpn1.Services.Rendezvous

open Stepwise TokenBucket Trust

section Service

/-- What the service signs with, the relays it knows, and how many of them it hands out at a time. -/
structure Service extends AppState where
  pool : List RelayPoolEntry
  subsetSize : Nat

/-- A draw of `choose_multiple`: different positions of the pool, as many as asked for or as there
are. -/
structure Sample (pool : List RelayPoolEntry) (n : Nat) where
  positions : List (Fin pool.length)
  nodup : positions.Nodup
  size : positions.length = min n pool.length

def Sample.chosen {pool : List RelayPoolEntry} {n : Nat} (sample : Sample pool n) :
    List RelayPoolEntry :=
  sample.positions.map pool.get

/-- A request for a bundle, with the draws and the clock that its answer depends on. -/
structure BundleRequest (α : Type) (service : Service) extends Request α where
  sample : Sample service.pool service.subsetSize
  nonce : Vector UInt8 16
  clock : UInt64

/-- Payloads can always be written as JSON, so there is no signing error. -/
inductive Reply
  /-- 429 -/
  | tooManyRequests
  /-- 200 -/
  | ok (bundle : SignedBundle)

variable {α : Type} [DecidableEq α] (scheme : Scheme) (json : Codec RelayBundlePayload)
  {service : Service}

def BundleRequest.bundle (request : BundleRequest α service) : SignedBundle :=
  service.relayBundle scheme json request.sample.chosen (Compat.hexEncode request.nonce.toList)
    request.clock

def getRelayBundle (request : BundleRequest α service) (limiter : RateLimiter α) :
    Reply × RateLimiter α :=
  let (allowed, limiter) := allow limiter request.toRequest
  (if allowed then .ok (request.bundle scheme json) else .tooManyRequests, limiter)

def answer (request : BundleRequest α service) (limiter : RateLimiter α) :
    (BundleRequest α service × Reply) × RateLimiter α :=
  ((request, (getRelayBundle scheme json request limiter).1),
    (getRelayBundle scheme json request limiter).2)

/-- A run of the service from its start: requests have the lock of the limiter in turn. -/
def answers (L : Limit ℚ) (requests : List (BundleRequest α service)) :
    List (BundleRequest α service × Reply) :=
  (runAll (answer scheme json) requests (.new L)).1

def Reply.disclosed : Reply → List EndpointDescriptor
  | .ok bundle => ((json.decode bundle.payloadBytes).map (·.endpoints)).getD []
  | .tooManyRequests => []

def disclosedTo (addresses : Finset α) (s e : ℚ)
    (answers : List (BundleRequest α service × Reply)) : List EndpointDescriptor :=
  (answers.filter fun x => decide (x.1.address ∈ addresses ∧ s ≤ x.1.time ∧ x.1.time ≤ e)).flatMap
    fun x => x.2.disclosed json

end Service

section Counting

variable {α β γ : Type}

private theorem length_flatMap_filter_le {n : Nat} {p counts : β → Bool} {f : β → List γ}
    {l : List β} (hf : ∀ x ∈ l, (f x).length ≤ if counts x then n else 0) :
    ((l.filter p).flatMap f).length ≤ l.countP (fun x => p x && counts x) * n := by
  induction l with
  | nil => simp
  | cons x l ih =>
    obtain ⟨hx, hrest⟩ := List.forall_mem_cons.mp hf
    have hlater := ih hrest
    rw [List.countP_cons]
    cases hp : p x with
    | false =>
      rw [List.filter_cons_of_neg (by simp [hp])]
      simpa using hlater
    | true =>
      rw [List.filter_cons_of_pos hp, List.flatMap_cons, List.length_append, Nat.add_mul]
      cases hcounts : counts x with
      | false =>
        have hnone : (f x).length ≤ 0 := by simpa [hcounts] using hx
        simp only [Bool.and_false, Bool.false_eq_true, if_false]
        omega
      | true =>
        have hfew : (f x).length ≤ n := by simpa [hcounts] using hx
        simp only [Bool.and_self, if_true]
        omega

private theorem countP_mem_eq_sum [DecidableEq α] (key : β → α) (q : β → Prop) [DecidablePred q]
    (keys : Finset α) (l : List β) :
    l.countP (fun x => decide (key x ∈ keys ∧ q x)) =
      ∑ a ∈ keys, l.countP fun x => decide (key x = a ∧ q x) := by
  induction l with
  | nil => simp
  | cons x l ih =>
    simp only [List.countP_cons, Finset.sum_add_distrib, ih]
    congr 1
    by_cases hq : q x
    · simp [hq, Finset.sum_ite_eq]
    · simp [hq]

end Counting

section Run

variable {α : Type} [DecidableEq α] {scheme : Scheme} {json : Codec RelayBundlePayload}
  {service : Service}

theorem Sample.length_chosen {pool : List RelayPoolEntry} {n : Nat} (sample : Sample pool n) :
    sample.chosen.length = min n pool.length := by
  rw [chosen, List.length_map, sample.size]

theorem Sample.chosen_subperm {pool : List RelayPoolEntry} {n : Nat} (sample : Sample pool n) :
    sample.chosen.Subperm pool := by
  have hall : (List.finRange pool.length).map pool.get = pool := List.map_get_finRange pool
  have hwithin : sample.positions ⊆ List.finRange pool.length := fun i _ => List.mem_finRange i
  obtain ⟨order, hperm, hsub⟩ := List.subperm_of_subset sample.nodup hwithin
  have hchosen := hsub.map pool.get
  rw [hall] at hchosen
  exact ⟨_, hperm.map _, hchosen⟩

omit [DecidableEq α] in
private theorem disclosed_bundle (request : BundleRequest α service) :
    (Reply.ok (request.bundle scheme json)).disclosed json =
      request.sample.chosen.map (·.toEndpoint) := by
  simp [Reply.disclosed, BundleRequest.bundle, AppState.relayBundle, SignedBundle.sign]

def Reply.granted : Reply → Bool
  | .ok _ => true
  | .tooManyRequests => false

private theorem getRelayBundle_eq (request : BundleRequest α service) (limiter : RateLimiter α) :
    getRelayBundle scheme json request limiter =
      (if (allow limiter request.toRequest).1 then .ok (request.bundle scheme json)
        else .tooManyRequests, (allow limiter request.toRequest).2) := rfl

private theorem forall_mem_answers {limiter : RateLimiter α}
    {requests : List (BundleRequest α service)} :
    ∀ x ∈ (runAll (answer scheme json) requests limiter).1,
      x.2 = .tooManyRequests ∨ x.2 = .ok (x.1.bundle scheme json) := by
  induction requests generalizing limiter with
  | nil =>
    intro x hx
    exact absurd hx List.not_mem_nil
  | cons request requests ih =>
    rw [runAll_cons, List.forall_mem_cons]
    refine ⟨?_, ih⟩
    rw [answer, getRelayBundle_eq]
    cases (allow limiter request.toRequest).1 with
    | false => exact .inl rfl
    | true => exact .inr rfl

variable (scheme json) in
private theorem map_answers (limiter : RateLimiter α) (requests : List (BundleRequest α service)) :
    (runAll (answer scheme json) requests limiter).1.map (fun x => (x.1.toRequest, x.2.granted)) =
      (runAll serve (requests.map (·.toRequest)) limiter).1 := by
  induction requests generalizing limiter with
  | nil => rfl
  | cons request requests ih =>
    have hnext := ih (allow limiter request.toRequest).2
    have hgranted : (getRelayBundle scheme json request limiter).1.granted =
        (allow limiter request.toRequest).1 := by
      rw [getRelayBundle_eq]
      cases (allow limiter request.toRequest).1 with
      | false => rfl
      | true => rfl
    rw [List.map_cons, runAll_cons, runAll_cons, List.map_cons]
    exact congrArg₂ List.cons (congrArg (Prod.mk _) hgranted) hnext

omit [DecidableEq α] in
private theorem length_disclosed_le {x : BundleRequest α service × Reply}
    (hx : x.2 = .tooManyRequests ∨ x.2 = .ok (x.1.bundle scheme json)) :
    (x.2.disclosed json).length ≤ if x.2.granted then service.subsetSize else 0 := by
  rcases hx with hrefused | hgranted
  · rw [hrefused]
    exact Nat.zero_le _
  · have hsize := x.1.sample.length_chosen
    rw [hgranted, disclosed_bundle, List.length_map, hsize]
    exact Nat.min_le_left _ _

variable (scheme json) in
private theorem countP_answers_le (L : Limit ℚ) {requests : List (BundleRequest α service)}
    (htimes : requests.Pairwise fun p q => p.time ≤ q.time) (addresses : Finset α) {s e : ℚ}
    (hse : s ≤ e) :
    (((answers scheme json L requests).countP fun x =>
        decide (x.1.address ∈ addresses ∧ s ≤ x.1.time ∧ x.1.time ≤ e) && x.2.granted : ℕ) : ℚ) ≤
      addresses.card * (L.capacity + L.refillPerSec * (e - s)) := by
  have hsorted : (requests.map (·.toRequest)).Pairwise fun p q => p.time ≤ q.time :=
    List.pairwise_map.mpr htimes
  have hcount : ((answers scheme json L requests).countP fun x =>
      decide (x.1.address ∈ addresses ∧ s ≤ x.1.time ∧ x.1.time ≤ e) && x.2.granted) =
      (run L (requests.map (·.toRequest))).1.countP fun x =>
        decide (x.1.address ∈ addresses ∧ s ≤ x.1.time ∧ x.1.time ≤ e ∧ x.2 = true) := by
    have hmap := map_answers scheme json (.new L) requests
    rw [run, ← hmap, List.countP_map]
    congr 1
    funext x
    simp [Bool.and_assoc]
  rw [hcount, countP_mem_eq_sum (fun x : Request α × Bool => x.1.address)
    (fun x => s ≤ x.1.time ∧ x.1.time ≤ e ∧ x.2 = true), Nat.cast_sum, ← nsmul_eq_mul]
  apply Finset.sum_le_card_nsmul
  intro a _
  exact countP_run_le L hsorted a hse

/-- Whatever addresses somebody asks from, the relays they learn of in an interval are bounded by what
the buckets of those addresses give and the size of a subset; and a bundle tells of as many relays as
it should, each of them from the pool and none twice. -/
theorem enumeration_bounded (scheme : Scheme) (json : Codec RelayBundlePayload) (L : Limit ℚ)
    (requests : List (BundleRequest α service))
    (htimes : requests.Pairwise fun p q => p.time ≤ q.time) :
    (∀ x ∈ answers scheme json L requests, x.2.granted = true →
      ∃ chosen : List RelayPoolEntry, chosen.Subperm service.pool ∧
        chosen.length = min service.subsetSize service.pool.length ∧
        x.2.disclosed json = chosen.map (·.toEndpoint)) ∧
    ∀ (addresses : Finset α) (s e : ℚ), s ≤ e →
      ((disclosedTo json addresses s e (answers scheme json L requests)).toFinset.card : ℚ) ≤
        addresses.card * (L.capacity + L.refillPerSec * (e - s)) * service.subsetSize := by
  constructor
  · intro x hx hgranted
    rcases forall_mem_answers x hx with hrefused | hbundle
    · rw [hrefused] at hgranted
      contradiction
    · refine ⟨x.1.sample.chosen, x.1.sample.chosen_subperm, x.1.sample.length_chosen, ?_⟩
      rw [hbundle, disclosed_bundle]
  · intro addresses s e hse
    let told := disclosedTo json addresses s e (answers scheme json L requests)
    have hdistinct : told.toFinset.card ≤ told.length := told.toFinset_card_le
    have hlength : told.length ≤ ((answers scheme json L requests).countP fun x =>
        decide (x.1.address ∈ addresses ∧ s ≤ x.1.time ∧ x.1.time ≤ e) && x.2.granted) *
          service.subsetSize :=
      length_flatMap_filter_le fun x hx => length_disclosed_le (forall_mem_answers x hx)
    have hgrants := countP_answers_le scheme json L htimes addresses hse
    calc (told.toFinset.card : ℚ)
        ≤ _ := Nat.cast_le.mpr (hdistinct.trans hlength)
      _ = _ := Nat.cast_mul _ _
      _ ≤ _ := mul_le_mul_of_nonneg_right hgrants (Nat.cast_nonneg _)

section Example

def Sample.single {pool : List RelayPoolEntry} (i : Fin pool.length) : Sample pool 1 where
  positions := [i]
  nodup := List.nodup_singleton i
  size := (Nat.min_eq_left i.pos).symm

def sampleService : Service where
  bundleKey := .replicate 32 1
  bundleKeyCert := (bundleFile 2).cert
  releaseKeyCert := releaseFile.cert
  ttlSecs := 900
  pool := ["a", "b", "c"].map fun id => ⟨id, "quic", id ++ ".example:443", "p", [], ""⟩
  subsetSize := 1

/-- One address asks at once for as many bundles as there are relays. -/
def greedyRequests : List (BundleRequest ℕ sampleService) :=
  (List.finRange sampleService.pool.length).map fun i => ⟨⟨0, 1⟩, .single i, .replicate 16 0, 0⟩

/-- It learns of two of the three. -/
theorem greedyRequests_bounded :
    ∃ json : Codec RelayBundlePayload, sampleService.pool.length = 3 ∧
      greedyRequests.length = 3 ∧
      ((disclosedTo json {1} 0 0
        (answers sampleScheme json sampleLimit greedyRequests)).toFinset.card : ℚ) ≤ 2 := by
  obtain ⟨json⟩ := Framed.nonempty RelayBundlePayload
  have hbound := (enumeration_bounded sampleScheme json.toCodec sampleLimit greedyRequests
    (by decide +kernel)).2 {1} 0 0 le_rfl
  refine ⟨json.toCodec, rfl, rfl, hbound.trans ?_⟩
  norm_num [sampleLimit, sampleService]

end Example

end Run

end Vpn1.Services.Rendezvous
