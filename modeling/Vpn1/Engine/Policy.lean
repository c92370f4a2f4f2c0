import Mathlib.Algebra.Order.Field.Rat
import Mathlib.Data.Rat.Defs

/-! Scoring of transport and endpoint candidates, quarantine, and weighted selection. Scores are
exact rationals where the source has `f32`. -/

namespace Vpn1.Engine

inductive FailureCategory
  | dnsFailure
  | tcpTimeout
  | tcpReset
  | tlsFailure
  | quicFailure
  | udpUnavailable
  | handshakeTimeout
  | stallAfterConnect
  | endpointUnreachable
  | providerDegradation
  | transportDegradation
  | generalRouteFailure
  | possibleShutdown
  | localNetworkFailure
  deriving DecidableEq, Repr

def FailureCategory.isRemoteSignal : FailureCategory → Bool
  | localNetworkFailure => false
  | _ => true

structure TransportId where
  name : String
  deriving DecidableEq, Repr

structure EndpointId where
  name : String
  deriving DecidableEq, Repr

structure Candidate where
  transport : TransportId
  endpoint : EndpointId
  deriving DecidableEq, Repr

/-- Nanoseconds of the monotonic clock. -/
abbrev Instant := Nat

def ewmaAlpha : ℚ := 3 / 10

def scoreFloor : ℚ := 1 / 20

def quarantineThreshold : Nat := 3

/-- In seconds, as `quarantineMax`. -/
def quarantineMin : Nat := 60

def quarantineMax : Nat := 300

/-- A draw from `QUARANTINE_MIN..=QUARANTINE_MAX`, less the minimum. -/
abbrev Jitter := Fin (quarantineMax - quarantineMin + 1)

/-- `counter.saturating_add(1)` on a counter of `w` bits. -/
def saturatingSucc (w n : Nat) : Nat := min (n + 1) (2 ^ w - 1)

structure Score where
  ewmaSuccess : ℚ := 1 / 2
  totalAttempts : Nat := 0
  consecutiveFailures : Nat := 0
  lastFailureCategory : Option FailureCategory := none
  quarantinedUntil : Option Instant := none
  deriving DecidableEq

namespace Score

def recordSuccess (s : Score) : Score :=
  { s with
    totalAttempts := saturatingSucc 32 s.totalAttempts
    consecutiveFailures := 0
    quarantinedUntil := none
    ewmaSuccess := ewmaAlpha * 1 + (1 - ewmaAlpha) * s.ewmaSuccess }

def recordFailure (category : FailureCategory) (now : Instant) (jitter : Jitter) (s : Score) :
    Score :=
  let failures := saturatingSucc 16 s.consecutiveFailures
  { totalAttempts := saturatingSucc 32 s.totalAttempts
    consecutiveFailures := failures
    lastFailureCategory := some category
    ewmaSuccess := ewmaAlpha * 0 + (1 - ewmaAlpha) * s.ewmaSuccess
    quarantinedUntil :=
      if quarantineThreshold ≤ failures then
        some (now + (quarantineMin + jitter) * 10 ^ 9)
      else s.quarantinedUntil }

def isQuarantined (now : Instant) (s : Score) : Bool := s.quarantinedUntil.any (now < ·)

def selectionWeight (s : Score) : ℚ := max s.ewmaSuccess scoreFloor

end Score

/-- A candidate that was never observed has the default score. -/
structure ScoreBoard where
  scoreOf : Candidate → Score

/-- A draw of `WeightedIndex`: of weights that are positive it takes one, and it may be any. -/
structure Draw where
  index : List ℚ → Nat
  index_lt : ∀ weights, weights ≠ [] → (∀ w ∈ weights, 0 < w) → index weights < weights.length

def Draw.first : Draw := ⟨fun _ => 0, fun _ hne _ => List.length_pos_iff.mpr hne⟩

namespace ScoreBoard

def new : ScoreBoard := ⟨fun _ => {}⟩

def observeSuccess (c : Candidate) (b : ScoreBoard) : ScoreBoard :=
  ⟨Function.update b.scoreOf c (b.scoreOf c).recordSuccess⟩

def observeFailure (c : Candidate) (category : FailureCategory) (now : Instant) (jitter : Jitter)
    (b : ScoreBoard) : ScoreBoard :=
  if category.isRemoteSignal then
    ⟨Function.update b.scoreOf c ((b.scoreOf c).recordFailure category now jitter)⟩
  else b

/-- `WeightedIndex::new` cannot refuse the weights: each is at least the floor. -/
def selectNext (candidates : List Candidate) (now : Instant) (draw : Draw) (b : ScoreBoard) :
    Option Candidate :=
  let eligible := candidates.filter fun c => !(b.scoreOf c).isQuarantined now
  let weights := eligible.map fun c => (b.scoreOf c).selectionWeight
  eligible[draw.index weights]?

theorem mem_of_selectNext {candidates : List Candidate} {now : Instant} {draw : Draw}
    {b : ScoreBoard} {c : Candidate} (hc : b.selectNext candidates now draw = some c) :
    c ∈ candidates :=
  (List.mem_filter.mp (List.mem_of_getElem? hc)).1

end ScoreBoard

end Vpn1.Engine
