import Vpn1.Engine.Policy
import Vpn1.Engine.Shutdown
import Vpn1.Lib.Lockstep
import Vpn1.Trust.Bundle

/-! `ConnectionEngine`: attempts over scored candidates under the shutdown guard, and what the engine
makes of failures of the local network. -/

namespace Vpn1.Engine

open Stepwise Trust

inductive TransportError
  | connect (category : FailureCategory) (detail : String)
  | session (category : FailureCategory) (detail : String)
  deriving DecidableEq, Repr

def TransportError.category : TransportError → FailureCategory
  | connect category _ => category
  | session category _ => category

inductive EngineError
  | possibleShutdown
  | noCandidates
  | allAttemptsFailed (cause : TransportError)
  deriving DecidableEq, Repr

/-- What does not change while the engine runs. The endpoints are those that parse. -/
structure ConnectionEngine where
  transports : List TransportId
  endpoints : List EndpointDescriptor
  maxAttempts : Nat := 4

abbrev Choice := Candidate × EndpointDescriptor

structure EngineState where
  scores : ScoreBoard
  shutdownGuard : ShutdownGuard
  tick : UInt64

def EngineState.new : EngineState := ⟨.new, .new 8 (3 / 4) 90, 0⟩

def knownTransportIdStr (s : String) : String :=
  if s = "direct-tls" then "direct-tls" else if s = "noise-quic" then "noise-quic" else ""

def ConnectionEngine.candidates (e : ConnectionEngine) : List Choice :=
  e.endpoints.filterMap fun d =>
    let transport := TransportId.mk (knownTransportIdStr d.transport)
    if transport ∈ e.transports then some (⟨transport, ⟨d.id⟩⟩, d) else none

section Connect

variable {Session : Type}

/-- The clock, the random draws and the network during one attempt. -/
structure Attempt (Session : Type) where
  selectAt : Instant
  draw : Draw
  dial : EndpointDescriptor → Except TransportError Session
  failedAt : Instant
  jitter : Jitter

inductive Seen (Session : Type)
  | suppressed
  | noCandidates
  | connected (choice : Choice) (session : Session)
  | failed (choice : Choice) (cause : TransportError)

/-- One turn of the loop in `connect`. -/
structure Pass (Session : Type) where
  tick : UInt64
  seen : Seen Session

def EngineState.check (s : EngineState) : Bool × EngineState :=
  let r := s.shutdownGuard.shouldSuppressSwitching s.tick
  (r.1, { s with shutdownGuard := r.2, tick := s.tick + 1 })

/-- The selection, and the first endpoint that goes by the candidate selected. -/
def pick (all : List Choice) (a : Attempt Session) (b : ScoreBoard) : Option Choice :=
  (b.selectNext (all.map Prod.fst) a.selectAt a.draw).bind fun chosen =>
    all.find? fun choice => choice.1 = chosen

/-- The `expect` on the endpoint cannot fail. -/
theorem pick_eq_none_iff {all : List Choice} {a : Attempt Session} {b : ScoreBoard} :
    pick all a b = none ↔ b.selectNext (all.map Prod.fst) a.selectAt a.draw = none := by
  unfold pick
  cases hselect : b.selectNext (all.map Prod.fst) a.selectAt a.draw with
  | none => simp
  | some chosen =>
    obtain ⟨choice, hmem, hchoice⟩ := List.mem_map.mp (ScoreBoard.mem_of_selectNext hselect)
    simp only [Option.bind_some, List.find?_eq_none, reduceCtorEq, iff_false, not_forall]
    exact ⟨choice, hmem, by simp [hchoice]⟩

def attempt (all : List Choice) (a : Attempt Session) (s : EngineState) :
    Pass Session × EngineState :=
  let t := s.check.2
  if s.check.1 then (⟨s.tick, .suppressed⟩, t)
  else match pick all a t.scores with
  | none => (⟨s.tick, .noCandidates⟩, t)
  | some choice =>
    match a.dial choice.2 with
    | .ok session =>
      (⟨s.tick, .connected choice session⟩,
        { t with
          scores := t.scores.observeSuccess choice.1
          shutdownGuard := t.shutdownGuard.record s.tick true })
    | .error e =>
      (⟨s.tick, .failed choice e⟩,
        { t with
          shutdownGuard := t.shutdownGuard.record s.tick false
          scores :=
            if e.category.isRemoteSignal then
              t.scores.observeFailure choice.1 e.category a.failedAt a.jitter
            else t.scores })

/-- A turn depends on the guard only through its answer. -/
def seeNext (all : List Choice) (a : Attempt Session) (suppress : Bool) (b : ScoreBoard) :
    Seen Session :=
  if suppress then .suppressed
  else match pick all a b with
  | none => .noCandidates
  | some choice =>
    match a.dial choice.2 with
    | .ok session => .connected choice session
    | .error e => .failed choice e

theorem seeNext_eq_suppressed_iff {all : List Choice} {a : Attempt Session} {suppress : Bool}
    {b : ScoreBoard} : seeNext all a suppress b = .suppressed ↔ suppress = true := by
  unfold seeNext
  cases suppress with
  | true => simp
  | false =>
    simp only [Bool.false_eq_true, if_false, iff_false]
    split
    · simp
    · split <;> simp

def ScoreBoard.settle (a : Attempt Session) (seen : Seen Session) (b : ScoreBoard) : ScoreBoard :=
  match seen with
  | .connected choice _ => b.observeSuccess choice.1
  | .failed choice e => b.observeFailure choice.1 e.category a.failedAt a.jitter
  | _ => b

/-- The guard after a turn, told of a failure of the local network or not. -/
def ShutdownGuard.told (tellLocal : Bool) (p : Pass Session) (g : ShutdownGuard) : ShutdownGuard :=
  let g := (g.shouldSuppressSwitching p.tick).2
  match p.seen with
  | .connected _ _ => g.record p.tick true
  | .failed _ e =>
    if tellLocal || e.category.isRemoteSignal then g.record p.tick false else g
  | _ => g

/-- The attempt by its parts: what is seen, the scores and the guard. -/
def attemptTelling (tellLocal : Bool) (all : List Choice) (a : Attempt Session) (s : EngineState) :
    Pass Session × EngineState :=
  let p := ⟨s.tick, seeNext all a s.check.1 s.scores⟩
  (p, ⟨s.scores.settle a p.seen, s.shutdownGuard.told tellLocal p, s.tick + 1⟩)

theorem attempt_eq (all : List Choice) (a : Attempt Session) (s : EngineState) :
    attempt all a s = attemptTelling true all a s := by
  unfold attempt attemptTelling seeNext
  cases hsuppress : s.check.1 with
  | true => rfl
  | false =>
    simp only [Bool.false_eq_true, if_false]
    cases hpick : pick all a s.scores with
    | none => simp [EngineState.check, hpick, ScoreBoard.settle, ShutdownGuard.told]
    | some choice =>
      cases hdial : a.dial choice.2 with
      | ok session =>
        simp [EngineState.check, hpick, hdial, ScoreBoard.settle, ShutdownGuard.told]
      | error e =>
        cases hremote : e.category.isRemoteSignal <;>
          simp [EngineState.check, hpick, hdial, hremote, ScoreBoard.settle,
            ScoreBoard.observeFailure, ShutdownGuard.told]

def Pass.retries (p : Pass Session) : Bool :=
  match p.seen with
  | .failed _ _ => true
  | _ => false

/-- What `connect` returns after these turns of its loop. -/
def verdict (passes : List (Pass Session)) : Except EngineError (TransportId × Session) :=
  match passes.getLast? with
  | none => .error .noCandidates
  | some p =>
    match p.seen with
    | .suppressed => .error .possibleShutdown
    | .noCandidates => .error .noCandidates
    | .connected choice session => .ok (choice.1.transport, session)
    | .failed _ e => .error (.allAttemptsFailed e)

/-- The loop of `connect` around an attempt; with no candidates it is not entered. -/
def ConnectionEngine.loop {σ : Type} (e : ConnectionEngine)
    (step : Attempt Session → σ → Pass Session × σ) (answers : Nat → Attempt Session) :
    σ → List (Pass Session) × σ :=
  runWhile step Pass.retries
    (if e.candidates.isEmpty then [] else (List.range e.maxAttempts).map answers)

/-- The turns a call of `connect` makes; it returns their `verdict`. -/
def ConnectionEngine.connect (e : ConnectionEngine) (answers : Nat → Attempt Session) :
    EngineState → List (Pass Session) × EngineState :=
  e.loop (attempt e.candidates) answers

end Connect

section Sample

def sampleEngine : ConnectionEngine where
  transports := [⟨"direct-tls"⟩]
  endpoints := [⟨"relay-1", "direct-tls", "192.0.2.1:443", "provider", [], ""⟩]

def dialing (outcome : Except TransportError Unit) : Nat → Attempt Unit := fun _ =>
  ⟨0, .first, fun _ => outcome, 0, 0⟩

def deadAttempt (draw : Draw) : Attempt Session :=
  ⟨0, draw, fun _ => .error (.connect .tcpTimeout ""), 0, 0⟩

end Sample

end Vpn1.Engine
