import Mathlib.Algebra.Order.BigOperators.Group.Finset
import Vpn1.Engine.Outage
import Vpn1.Engine.Scores
import Vpn1.Lib.Fallible
import Vpn1.Lib.Interleave

/-! Calls of `connect` that run at the same time on one engine. What a call does between two waits is
one step, and the calls take their steps in any order. -/

namespace Vpn1.Engine

open Interleave Stepwise

section Model

variable {Session : Type}

/-- Where a call of `connect` is. -/
inductive Phase (Session : Type)
  | waiting (attempt : Nat) (lastErr : Option TransportError)
  | ticked (attempt : Nat) (tick : UInt64)
  | cleared (attempt : Nat) (tick : UInt64)
  | dialing (attempt : Nat) (tick : UInt64) (choice : Choice)
  | connected (tick : UInt64) (choice : Choice) (session : Session)
  | scored (tick : UInt64) (choice : Choice) (session : Session)
  | failed (attempt : Nat) (tick : UInt64) (choice : Choice) (cause : TransportError)
  | recorded (attempt : Nat) (tick : UInt64) (choice : Choice) (cause : TransportError)
  | done (result : Except EngineError (TransportId × Session))

def Phase.start (e : ConnectionEngine) : Phase Session :=
  if e.candidates.isEmpty then .done (.error .noCandidates) else .waiting 0 none

/-- The next step of a call. A success is scored before the guard hears of it, a failure after. -/
def ConnectionEngine.advance (e : ConnectionEngine) (a : Attempt Session) (p : Phase Session)
    (s : EngineState) : Phase Session × EngineState :=
  match p with
  | .waiting n lastErr =>
    if n < e.maxAttempts then (.ticked n s.tick, { s with tick := s.tick + 1 })
    else
      (.done (.error ((lastErr.map .allAttemptsFailed).getD .noCandidates)), s)
  | .ticked n tick =>
    let r := s.shutdownGuard.shouldSuppressSwitching tick
    (if r.1 then .done (.error .possibleShutdown) else .cleared n tick,
      { s with shutdownGuard := r.2 })
  | .cleared n tick =>
    match pick e.candidates a s.scores with
    | none => (.done (.error .noCandidates), s)
    | some choice => (.dialing n tick choice, s)
  | .dialing n tick choice =>
    match a.dial choice.2 with
    | .ok session => (.connected tick choice session, s)
    | .error cause => (.failed n tick choice cause, s)
  | .connected tick choice session =>
    (.scored tick choice session, { s with scores := s.scores.observeSuccess choice.1 })
  | .scored tick choice session =>
    (.done (.ok (choice.1.transport, session)),
      { s with shutdownGuard := s.shutdownGuard.record tick true })
  | .failed n tick choice cause =>
    (.recorded n tick choice cause, { s with shutdownGuard := s.shutdownGuard.record tick false })
  | .recorded n _ choice cause =>
    (.waiting (n + 1) (some cause),
      { s with
        scores :=
          if cause.category.isRemoteSignal then
            s.scores.observeFailure choice.1 cause.category a.failedAt a.jitter
          else s.scores })
  | .done result => (.done result, s)

def ConnectionEngine.calls (e : ConnectionEngine) :
    Program EngineState (Phase Session) (Attempt Session) Empty where
  step := e.advance
  env b := b.elim

/-- What one step of a call can do. -/
inductive Advances (e : ConnectionEngine) (a : Attempt Session) (s : EngineState) :
    Phase Session → Phase Session → EngineState → Prop
  | tick {n lastErr} (hn : n < e.maxAttempts) :
      Advances e a s (.waiting n lastErr) (.ticked n s.tick) { s with tick := s.tick + 1 }
  | exhausted {n lastErr} (hn : ¬ n < e.maxAttempts) :
      Advances e a s (.waiting n lastErr)
        (.done (.error ((lastErr.map .allAttemptsFailed).getD .noCandidates))) s
  | suppressed {n tick g} (hcheck : s.shutdownGuard.shouldSuppressSwitching tick = (true, g)) :
      Advances e a s (.ticked n tick) (.done (.error .possibleShutdown)) { s with shutdownGuard := g }
  | clear {n tick g} (hcheck : s.shutdownGuard.shouldSuppressSwitching tick = (false, g)) :
      Advances e a s (.ticked n tick) (.cleared n tick) { s with shutdownGuard := g }
  | noCandidates {n tick} (hpick : pick e.candidates a s.scores = none) :
      Advances e a s (.cleared n tick) (.done (.error .noCandidates)) s
  | dial {n tick choice} (hpick : pick e.candidates a s.scores = some choice) :
      Advances e a s (.cleared n tick) (.dialing n tick choice) s
  | connect {n tick choice session} (hdial : a.dial choice.2 = .ok session) :
      Advances e a s (.dialing n tick choice) (.connected tick choice session) s
  | fail {n tick choice cause} (hdial : a.dial choice.2 = .error cause) :
      Advances e a s (.dialing n tick choice) (.failed n tick choice cause) s
  | score {tick choice session} :
      Advances e a s (.connected tick choice session) (.scored tick choice session)
        { s with scores := s.scores.observeSuccess choice.1 }
  | succeed {tick choice session} :
      Advances e a s (.scored tick choice session) (.done (.ok (choice.1.transport, session)))
        { s with shutdownGuard := s.shutdownGuard.record tick true }
  | record {n tick choice cause} :
      Advances e a s (.failed n tick choice cause) (.recorded n tick choice cause)
        { s with shutdownGuard := s.shutdownGuard.record tick false }
  | again {n tick choice cause} :
      Advances e a s (.recorded n tick choice cause) (.waiting (n + 1) (some cause))
        { s with
          scores :=
            if cause.category.isRemoteSignal then
              s.scores.observeFailure choice.1 cause.category a.failedAt a.jitter
            else s.scores }
  | rest {result} : Advances e a s (.done result) (.done result) s

theorem advances (e : ConnectionEngine) (a : Attempt Session) (p : Phase Session) (s : EngineState) :
    Advances e a s p (e.calls.step a p s).1 (e.calls.step a p s).2 := by
  simp only [ConnectionEngine.calls]
  cases p with
  | waiting n lastErr =>
    rw [ConnectionEngine.advance]
    split_ifs with hn
    · exact .tick hn
    · exact .exhausted hn
  | ticked n tick =>
    rw [ConnectionEngine.advance]
    cases hcheck : s.shutdownGuard.shouldSuppressSwitching tick with
    | mk suppress g =>
      cases suppress with
      | true => exact .suppressed hcheck
      | false => exact .clear hcheck
  | cleared n tick =>
    rw [ConnectionEngine.advance]
    cases hpick : pick e.candidates a s.scores with
    | none => exact .noCandidates hpick
    | some choice => exact .dial hpick
  | dialing n tick choice =>
    rw [ConnectionEngine.advance]
    cases hdial : a.dial choice.2 with
    | ok session => exact .connect hdial
    | error cause => exact .fail hdial
  | connected tick choice session => exact .score
  | scored tick choice session => exact .succeed
  | failed n tick choice cause => exact .record
  | recorded n tick choice cause => exact .again
  | done result => exact .rest

end Model

section Serial

variable {Session : Type} {e : ConnectionEngine}

def Pass.phase (n : Nat) (p : Pass Session) : Phase Session :=
  match p.seen with
  | .suppressed => .done (.error .possibleShutdown)
  | .noCandidates => .done (.error .noCandidates)
  | .connected choice session => .done (.ok (choice.1.transport, session))
  | .failed _ cause => .waiting (n + 1) (some cause)

theorem solo_done (as : List (Attempt Session)) (result : Except EngineError (TransportId × Session))
    (s : EngineState) : solo e.calls as (.done result) s = (.done result, s) := by
  induction as with
  | nil => rfl
  | cons a as ih => rw [solo_cons, ← ih]; rfl

theorem solo_attempt {n : Nat} (hn : n < e.maxAttempts) (lastErr : Option TransportError)
    (a : Attempt Session) (s : EngineState) :
    solo e.calls (List.replicate 6 a) (.waiting n lastErr) s =
      ((attempt e.candidates a s).1.phase n, (attempt e.candidates a s).2) := by
  have htick : solo e.calls (List.replicate 6 a) (.waiting n lastErr) s =
      solo e.calls (List.replicate 4 a)
        (if s.check.1 then .done (.error .possibleShutdown) else .cleared n s.tick) s.check.2 := by
    rw [List.replicate_succ, solo_cons, List.replicate_succ, solo_cons]
    simp only [ConnectionEngine.calls, ConnectionEngine.advance, if_pos hn]
    rfl
  rw [htick]
  unfold attempt
  cases hsuppress : s.check.1 with
  | true =>
    rw [if_pos rfl, solo_done]
    rfl
  | false =>
    rw [if_neg Bool.false_ne_true, List.replicate_succ, solo_cons]
    simp only [Bool.false_eq_true, if_false, ConnectionEngine.calls, ConnectionEngine.advance]
    cases hpick : pick e.candidates a s.check.2.scores with
    | none => exact solo_done _ _ _
    | some choice =>
      dsimp only
      rw [List.replicate_succ, solo_cons]
      simp only [ConnectionEngine.advance]
      cases hdial : a.dial choice.2 with
      | ok session => rfl
      | error cause => rfl

/-- What `connect` returns after these turns, when `lastErr` is what went wrong before them. -/
def verdictAfter (lastErr : Option TransportError) :
    List (Pass Session) → Except EngineError (TransportId × Session)
  | [] => .error ((lastErr.map .allAttemptsFailed).getD .noCandidates)
  | p :: passes => verdict (p :: passes)

private theorem verdictAfter_none (passes : List (Pass Session)) :
    verdictAfter none passes = verdict passes := by
  cases passes <;> rfl

private theorem verdictAfter_failed {p : Pass Session} {choice : Choice} {cause : TransportError}
    (hseen : p.seen = .failed choice cause) (lastErr : Option TransportError)
    (passes : List (Pass Session)) :
    verdictAfter lastErr (p :: passes) = verdictAfter (some cause) passes := by
  cases passes with
  | nil => simp [verdictAfter, verdict, hseen]
  | cons q passes => rw [verdictAfter, verdictAfter, verdict, List.getLast?_cons_cons, verdict]

/-- What the steps of a call that is alone meet: six steps for a turn of the loop. -/
def turnAnswers (answers : Nat → Attempt Session) (attempts : List Nat) : List (Attempt Session) :=
  attempts.flatMap fun k => List.replicate 6 (answers k)

theorem solo_loop (answers : Nat → Attempt Session) (last : Attempt Session) {n k : Nat}
    (hnk : n + k = e.maxAttempts) (lastErr : Option TransportError) (s : EngineState) :
    solo e.calls (turnAnswers answers (List.range' n k) ++ [last]) (.waiting n lastErr) s =
      (.done (verdictAfter lastErr (runWhile (attempt e.candidates) Pass.retries
          ((List.range' n k).map answers) s).1),
        (runWhile (attempt e.candidates) Pass.retries ((List.range' n k).map answers) s).2) := by
  induction k generalizing n lastErr s with
  | zero =>
    have hstop : ¬ n < e.maxAttempts := by omega
    simp only [List.range'_zero, turnAnswers, List.flatMap_nil, List.nil_append, solo_cons]
    simp only [ConnectionEngine.calls, ConnectionEngine.advance, if_neg hstop]
    rfl
  | succ k ih =>
    have hfirst := solo_attempt (show n < e.maxAttempts by omega) lastErr (answers n) s
    rw [List.range'_succ, turnAnswers, List.flatMap_cons, List.append_assoc, solo_append, hfirst,
      List.map_cons, runWhile, ← turnAnswers]
    cases hseen : (attempt e.candidates (answers n) s).1.seen with
    | failed choice cause =>
      have hretries : (attempt e.candidates (answers n) s).1.retries = true := by
        rw [Pass.retries, hseen]
      have hphase : (attempt e.candidates (answers n) s).1.phase n = .waiting (n + 1) (some cause) := by
        rw [Pass.phase, hseen]
      rw [hretries, if_pos rfl, hphase, verdictAfter_failed hseen]
      exact ih (by omega) _ _
    | suppressed | noCandidates | connected choice session =>
      simp only [Pass.retries, Pass.phase, hseen, Bool.false_eq_true, if_false, solo_done]
      simp [verdictAfter, verdict, hseen]

/-- A call that is alone makes the turns of `connect` and returns their verdict. -/
theorem solo_connect (answers : Nat → Attempt Session) (last : Attempt Session) (s : EngineState) :
    solo e.calls (turnAnswers answers (List.range e.maxAttempts) ++ [last]) (.start e) s =
      (.done (verdict (e.connect answers s).1), (e.connect answers s).2) := by
  unfold ConnectionEngine.connect ConnectionEngine.loop Phase.start
  split_ifs with hnone
  · exact solo_done _ _ _
  · rw [List.range_eq_range', solo_loop answers last (Nat.zero_add _), verdictAfter_none]

variable {ι : Type} [DecidableEq ι]

/-- A call of `connect`: who makes it, and what its attempts meet. -/
structure Call (ι Session : Type) where
  caller : ι
  answers : Nat → Attempt Session
  /-- What the step out of the loop meets, which it does not look at. -/
  last : Attempt Session

def Call.events (e : ConnectionEngine) (c : Call ι Session) : List (Event ι (Attempt Session) Empty) :=
  (turnAnswers c.answers (List.range e.maxAttempts) ++ [c.last]).map (.task c.caller)

private theorem run_call (c : Call ι Session) {σ : System ι EngineState (Phase Session)}
    (hstart : σ.phase c.caller = .start e) :
    run e.calls (c.events e) σ = ⟨(e.connect c.answers σ.shared).2,
      Function.update σ.phase c.caller (.done (verdict (e.connect c.answers σ.shared).1))⟩ := by
  rw [Call.events, run_task, hstart, solo_connect]

private theorem phase_run_calls {calls : List (Call ι Session)} {i : ι}
    (hi : i ∉ calls.map Call.caller) (σ : System ι EngineState (Phase Session)) :
    (run e.calls (calls.flatMap (Call.events e)) σ).phase i = σ.phase i := by
  induction calls generalizing σ with
  | nil => rfl
  | cons c calls ih =>
    rw [List.map_cons, List.mem_cons, not_or] at hi
    rw [List.flatMap_cons, run_append, ih hi.2, Call.events, run_task]
    exact Function.update_of_ne hi.1 _ _

/-- Calls that do not overlap are the calls of a sequence. -/
theorem calls_in_turn (e : ConnectionEngine) (calls : List (Call ι Session))
    (hcallers : (calls.map Call.caller).Nodup) (σ : System ι EngineState (Phase Session))
    (hstart : ∀ c ∈ calls, σ.phase c.caller = .start e) :
    (run e.calls (calls.flatMap (Call.events e)) σ).shared =
        (runAll e.connect (calls.map Call.answers) σ.shared).2 ∧
      ∀ p ∈ (calls.map Call.caller).zip (runAll e.connect (calls.map Call.answers) σ.shared).1,
        (run e.calls (calls.flatMap (Call.events e)) σ).phase p.1 = .done (verdict p.2) := by
  induction calls generalizing σ with
  | nil => exact ⟨rfl, by simp⟩
  | cons c calls ih =>
    obtain ⟨hfresh, hnodup⟩ := List.nodup_cons.mp hcallers
    obtain ⟨hfirst, hothers⟩ := List.forall_mem_cons.mp hstart
    have hcall := run_call c hfirst
    have hlater : ∀ d ∈ calls, (run e.calls (c.events e) σ).phase d.caller = .start e := by
      intro d hd
      have hne : d.caller ≠ c.caller := fun heq => hfresh (heq ▸ List.mem_map_of_mem hd)
      rw [hcall]
      exact (Function.update_of_ne hne _ _).trans (hothers d hd)
    obtain ⟨hshared, hdone⟩ := ih hnodup (run e.calls (c.events e) σ) hlater
    rw [List.flatMap_cons, run_append, List.map_cons, List.map_cons, runAll_cons]
    rw [show (run e.calls (c.events e) σ).shared = (e.connect c.answers σ.shared).2 by rw [hcall]]
      at hshared hdone
    constructor
    · exact hshared
    · intro p hp
      rw [List.zip_cons_cons, List.mem_cons] at hp
      obtain rfl | hp := hp
      · -- the calls after it do not touch what it returned
        rw [phase_run_calls hfresh, hcall]
        exact Function.update_self _ _ _
      · exact hdone p hp

def twoCalls : List (Call Bool Unit) :=
  [⟨false, dialing (.error (.connect .localNetworkFailure "")), dialing (.ok ()) 0⟩,
    ⟨true, dialing (.ok ()), dialing (.ok ()) 0⟩]

theorem twoCalls_in_turn :
    (twoCalls.map Call.caller).Nodup ∧
      (run sampleEngine.calls (twoCalls.flatMap (Call.events sampleEngine))
          ⟨.new, fun _ => .start sampleEngine⟩).shared =
        (runAll sampleEngine.connect (twoCalls.map Call.answers) .new).2 := by
  have hnodup : (twoCalls.map Call.caller).Nodup := by decide
  have hall := calls_in_turn sampleEngine twoCalls hnodup ⟨.new, fun _ => .start sampleEngine⟩
    (fun _ _ => rfl)
  exact ⟨hnodup, hall.1⟩

end Serial

section Termination

variable {Session : Type} {e : ConnectionEngine}

def Phase.InBudget (e : ConnectionEngine) : Phase Session → Prop
  | .ticked n _ | .cleared n _ | .dialing n _ _ | .failed n _ _ _ | .recorded n _ _ _ =>
    n < e.maxAttempts
  | .waiting .. | .connected .. | .scored .. | .done _ => True

def Phase.remaining (e : ConnectionEngine) : Phase Session → Nat
  | .waiting n _ => 6 * (e.maxAttempts - n) + 1
  | .ticked n _ => 6 * (e.maxAttempts - n)
  | .cleared n _ => 6 * (e.maxAttempts - n) - 1
  | .dialing n _ _ => 6 * (e.maxAttempts - n) - 2
  | .failed n _ _ _ => 6 * (e.maxAttempts - n) - 3
  | .recorded n _ _ _ => 6 * (e.maxAttempts - n) - 4
  | .connected _ _ _ => 2
  | .scored _ _ _ => 1
  | .done _ => 0

theorem Advances.remaining {a : Attempt Session} {s t : EngineState} {p q : Phase Session}
    (h : Advances e a s p q t) (hp : p.InBudget e) :
    q.InBudget e ∧ q.remaining e ≤ p.remaining e - 1 := by
  cases h with
  | tick hn => exact ⟨hn, by simp [Phase.remaining]⟩
  | clear | dial | fail | record => exact ⟨hp, Nat.le_refl _⟩
  | @connect n tick choice session =>
    have hn : n < e.maxAttempts := hp
    exact ⟨trivial, by simp only [Phase.remaining]; omega⟩
  | @again n tick choice cause =>
    have hn : n < e.maxAttempts := hp
    exact ⟨trivial, by simp only [Phase.remaining]; omega⟩
  | exhausted | suppressed | noCandidates | score | succeed | rest =>
    exact ⟨trivial, by simp [Phase.remaining]⟩

private theorem done_of_remaining {p : Phase Session} (hp : p.InBudget e)
    (hzero : p.remaining e = 0) : ∃ result, p = .done result := by
  cases p with
  | done result => exact ⟨result, rfl⟩
  | connected | scored => simp [Phase.remaining] at hzero
  | waiting n lastErr => simp [Phase.remaining] at hzero
  | ticked n | cleared n | dialing n | failed n | recorded n =>
    have hn : n < e.maxAttempts := hp
    simp only [Phase.remaining] at hzero
    omega

variable {ι : Type} [DecidableEq ι]

/-- A call returns after at most six steps of its own for each attempt and one more. -/
theorem connect_returns (e : ConnectionEngine) (σ : System ι EngineState (Phase Session)) (i : ι)
    (hstart : σ.phase i = .start e) (es : List (Event ι (Attempt Session) Empty))
    (hsteps : 6 * e.maxAttempts + 1 ≤ steps i es) :
    ∃ result, (run e.calls es σ).phase i = .done result := by
  have hbudget : (σ.phase i).InBudget e ∧ (σ.phase i).remaining e ≤ 6 * e.maxAttempts + 1 := by
    rw [hstart, Phase.start]
    split_ifs
    · exact ⟨trivial, Nat.zero_le _⟩
    · exact ⟨trivial, by simp [Phase.remaining]⟩
  obtain ⟨hend, hrank⟩ := rank_run (fun a p s => (advances e a p s).remaining) es hbudget.1
  exact done_of_remaining hend (by omega)

/-- Two calls that take their steps in turn. -/
theorem connect_returns_alternating :
    25 ≤ steps false ((List.replicate 25 [false, true]).flatten.map fun i =>
        (.task i (dialing (.ok ()) 0) : Event Bool (Attempt Unit) Empty)) ∧
      ∃ result, (run sampleEngine.calls ((List.replicate 25 [false, true]).flatten.map fun i =>
        .task i (dialing (.ok ()) 0)) ⟨.new, fun _ => .start sampleEngine⟩).phase false =
          .done result := by
  have hsteps : 25 ≤ steps false ((List.replicate 25 [false, true]).flatten.map fun i =>
      (.task i (dialing (.ok ()) 0) : Event Bool (Attempt Unit) Empty)) := by
    decide
  exact ⟨hsteps, connect_returns sampleEngine ⟨.new, fun _ => .start sampleEngine⟩ false rfl _ hsteps⟩

end Termination

section Accounts

variable {Session : Type} {e : ConnectionEngine}

def GuardCall.checked : GuardCall → Option UInt64
  | record .. => none
  | shouldSuppressSwitching tick => some tick

def GuardCall.told : GuardCall → Option (UInt64 × Bool)
  | record tick success => some (tick, success)
  | shouldSuppressSwitching _ => none

def Observation.said : Observation → Candidate × Option FailureCategory
  | success c => (c, none)
  | failure c category .. => (c, some category)

/-- What the score board is told of a failure: nothing, if its cause is local. -/
def signal (choice : Choice) (cause : TransportError) :
    Multiset (Candidate × Option FailureCategory) :=
  if cause.category.isRemoteSignal then {(choice.1, some cause.category)} else 0

namespace Phase

def unchecked : Phase Session → Multiset UInt64
  | .ticked _ tick => {tick}
  | _ => 0

def unrecorded : Phase Session → Multiset (UInt64 × Bool)
  | .connected tick _ _ | .scored tick _ _ => {(tick, true)}
  | .failed _ tick _ _ => {(tick, false)}
  | _ => 0

def unscored : Phase Session → Multiset (Candidate × Option FailureCategory)
  | .connected _ choice _ => {(choice.1, none)}
  | .failed _ _ choice cause | .recorded _ _ choice cause => signal choice cause
  | _ => 0

/-- The tick of the attempt that the guard let through and was not told the outcome of. -/
def passed : Phase Session → Option UInt64
  | .cleared _ tick | .dialing _ tick _ | .connected tick _ _ | .scored tick _ _
  | .failed _ tick _ _ => some tick
  | _ => none

end Phase

namespace ConnectionEngine

def takes (e : ConnectionEngine) (_ : Attempt Session) : Phase Session → EngineState → Multiset UInt64
  | .waiting n _, s => if n < e.maxAttempts then {s.tick} else 0
  | _, _ => 0

def checks (_ : Attempt Session) : Phase Session → EngineState → Multiset UInt64
  | .ticked _ tick, _ => {tick}
  | _, _ => 0

def outcomes (a : Attempt Session) : Phase Session → EngineState → Multiset (UInt64 × Bool)
  | .dialing _ tick choice, _ => {(tick, (a.dial choice.2).isOk)}
  | _, _ => 0

def records (_ : Attempt Session) : Phase Session → EngineState → Multiset (UInt64 × Bool)
  | .scored tick _ _, _ => {(tick, true)}
  | .failed _ tick _ _, _ => {(tick, false)}
  | _, _ => 0

def signals (a : Attempt Session) :
    Phase Session → EngineState → Multiset (Candidate × Option FailureCategory)
  | .dialing _ _ choice, _ =>
    match a.dial choice.2 with
    | .ok _ => {(choice.1, none)}
    | .error cause => signal choice cause
  | _, _ => 0

def scores (_ : Attempt Session) :
    Phase Session → EngineState → Multiset (Candidate × Option FailureCategory)
  | .connected _ choice _, _ => {(choice.1, none)}
  | .recorded _ _ choice cause, _ => signal choice cause
  | _, _ => 0

end ConnectionEngine

section Steps

variable {a : Attempt Session} {s t : EngineState} {p q : Phase Session} (h : Advances e a s p q t)
include h

theorem Advances.unchecked :
    q.unchecked + ConnectionEngine.checks a p s = p.unchecked + e.takes a p s := by
  cases h <;> simp [Phase.unchecked, ConnectionEngine.checks, ConnectionEngine.takes, *]

theorem Advances.unrecorded :
    q.unrecorded + ConnectionEngine.records a p s =
      p.unrecorded + ConnectionEngine.outcomes a p s := by
  cases h <;>
    simp [Phase.unrecorded, ConnectionEngine.records, ConnectionEngine.outcomes, *]

theorem Advances.unscored :
    q.unscored + ConnectionEngine.scores a p s = p.unscored + ConnectionEngine.signals a p s := by
  cases h <;> simp [Phase.unscored, ConnectionEngine.scores, ConnectionEngine.signals, *]

theorem Advances.counter : (e.takes a p s = {s.tick} ∧ t.tick = s.tick + 1) ∨
    (e.takes a p s = 0 ∧ t.tick = s.tick) := by
  cases h with
  | tick hn => exact .inl ⟨if_pos hn, rfl⟩
  | exhausted hn => exact .inr ⟨if_neg hn, rfl⟩
  | suppressed | clear | noCandidates | dial | connect | fail | score | succeed | record | again
  | rest => exact .inr ⟨rfl, rfl⟩

/-- The calls of the guard that a step makes. -/
theorem Advances.guard : ∃ calls : List GuardCall, t.shutdownGuard = s.shutdownGuard.after calls ∧
    Multiset.filterMap GuardCall.checked calls = ConnectionEngine.checks a p s ∧
    Multiset.filterMap GuardCall.told calls = ConnectionEngine.records a p s ∧
    (∀ tick ok, .record tick ok ∈ calls → p.passed = some tick) ∧
    (∀ tick, q.passed = some tick →
      p.passed = some tick ∨ .shouldSuppressSwitching tick ∈ calls) := by
  cases h with
  | @suppressed n tick g hcheck =>
    refine ⟨[.shouldSuppressSwitching tick], ?_, rfl, rfl, by simp, by simp [Phase.passed]⟩
    exact congrArg Prod.snd hcheck.symm
  | @clear n tick g hcheck =>
    refine ⟨[.shouldSuppressSwitching tick], ?_, rfl, rfl, by simp, by simp [Phase.passed]⟩
    exact congrArg Prod.snd hcheck.symm
  | @succeed tick choice session =>
    refine ⟨[.record tick true], rfl, rfl, rfl, ?_, by simp [Phase.passed]⟩
    simp +contextual [Phase.passed]
  | @record n tick choice cause =>
    refine ⟨[.record tick false], rfl, rfl, rfl, ?_, by simp [Phase.passed]⟩
    simp +contextual [Phase.passed]
  | tick | exhausted | noCandidates | dial | connect | fail | score | again | rest =>
    exact ⟨[], rfl, rfl, rfl, by simp, by simp [Phase.passed]⟩

/-- The observations that a step makes. -/
theorem Advances.board : ∃ history : History,
    t.scores = history.foldr Observation.observe s.scores ∧
      (history.map Observation.said : Multiset _) = ConnectionEngine.scores a p s := by
  cases h with
  | @score tick choice session => exact ⟨[.success choice.1], rfl, rfl⟩
  | @again n tick choice cause =>
    cases hremote : cause.category.isRemoteSignal with
    | true =>
      refine ⟨[.failure choice.1 cause.category a.failedAt a.jitter], ?_, ?_⟩
      · simp [Observation.observe]
      · simp [Observation.said, ConnectionEngine.scores, signal, hremote]
    | false =>
      refine ⟨[], ?_, ?_⟩
      · simp
      · simp [ConnectionEngine.scores, signal, hremote]
  | tick | exhausted | suppressed | clear | noCandidates | dial | connect | fail | succeed | record
  | rest => exact ⟨[], rfl, rfl⟩

end Steps

section Runs

variable {ι : Type} [DecidableEq ι] {σ : System ι EngineState (Phase Session)}

private theorem passed_act {i j : ι} {a : Attempt Session} {calls : List GuardCall} {tick : UInt64}
    (hpassed : ∀ tick, (e.calls.step a (σ.phase i) σ.shared).1.passed = some tick →
      (σ.phase i).passed = some tick ∨ .shouldSuppressSwitching tick ∈ calls)
    (hj : ((act e.calls σ (.task i a)).phase j).passed = some tick) :
    (∃ j, (σ.phase j).passed = some tick) ∨ .shouldSuppressSwitching tick ∈ calls := by
  by_cases hij : j = i
  · rw [hij, phase_act_self] at hj
    obtain hold | hmem := hpassed tick hj
    · exact .inl ⟨i, hold⟩
    · exact .inr hmem
  · rw [phase_act_of_ne hij] at hj
    exact .inl ⟨j, hj⟩

private theorem guard_run (es : List (Event ι (Attempt Session) Empty)) :
    ∃ calls : List GuardCall,
      (run e.calls es σ).shared.shutdownGuard = σ.shared.shutdownGuard.after calls ∧
      Multiset.filterMap GuardCall.checked calls = total e.calls ConnectionEngine.checks es σ ∧
      Multiset.filterMap GuardCall.told calls = total e.calls ConnectionEngine.records es σ ∧
      ∀ before tick ok after, calls = before ++ .record tick ok :: after →
        .shouldSuppressSwitching tick ∈ before ∨ ∃ i, (σ.phase i).passed = some tick := by
  induction es generalizing σ with
  | nil => exact ⟨[], rfl, rfl, rfl, by simp⟩
  | cons ev es ih =>
    cases ev with
    | env b => exact b.elim
    | task i a =>
      have hpath := advances e a (σ.phase i) σ.shared
      obtain ⟨first, hguard, hchecked, htold, hrecord, hpassed⟩ := hpath.guard
      obtain ⟨later, hguards, hchecks, htolds, hordered⟩ := ih (σ := act e.calls σ (.task i a))
      refine ⟨first ++ later, ?_, ?_, ?_, ?_⟩
      · rw [run_cons, hguards, ShutdownGuard.after_append, ← hguard]
        rfl
      · rw [← Multiset.coe_add, Multiset.filterMap_add, hchecked, hchecks]
        rfl
      · rw [← Multiset.coe_add, Multiset.filterMap_add, htold, htolds]
        rfl
      · intro before tick ok after hsplit
        have hlater : ∀ rest, later = rest ++ .record tick ok :: after →
            .shouldSuppressSwitching tick ∈ first ++ rest ∨ ∃ j, (σ.phase j).passed = some tick := by
          intro rest hrest
          obtain hmem | ⟨j, hj⟩ := hordered rest tick ok after hrest
          · exact .inl (List.mem_append_right _ hmem)
          · obtain hold | hmem := passed_act hpassed hj
            · exact .inr hold
            · exact .inl (List.mem_append_left _ hmem)
        obtain ⟨rest, rfl, hrest⟩ | ⟨rest, rfl, hrest⟩ := List.append_eq_append_iff.mp hsplit
        · exact hlater rest hrest
        · cases rest with
          | nil =>
            have hnil := hlater [] hrest.symm
            rwa [List.append_nil, List.append_nil] at hnil
          | cons c rest =>
            obtain ⟨rfl, -⟩ := List.cons.inj hrest
            exact .inr ⟨i, hrecord tick ok (by simp)⟩

theorem board_run (es : List (Event ι (Attempt Session) Empty)) :
    ∃ history : History,
      (run e.calls es σ).shared.scores = history.foldr Observation.observe σ.shared.scores ∧
      (history.map Observation.said : Multiset _) = total e.calls ConnectionEngine.scores es σ := by
  induction es generalizing σ with
  | nil => exact ⟨[], rfl, rfl⟩
  | cons ev es ih =>
    cases ev with
    | env b => exact b.elim
    | task i a =>
      obtain ⟨first, hboard, hsaid⟩ := (advances e a (σ.phase i) σ.shared).board
      obtain ⟨later, hboards, hsaids⟩ := ih (σ := act e.calls σ (.task i a))
      refine ⟨later ++ first, ?_, ?_⟩
      · rw [run_cons, hboards, List.foldr_append, ← hboard]
        rfl
      · rw [List.map_append, ← Multiset.coe_add, hsaid, hsaids, add_comm]
        rfl

private theorem board_eq_foldr (history : History) :
    history.board = history.foldr Observation.observe .new := by
  induction history with
  | nil => rfl
  | cons o older ih => rw [History.board, ih, List.foldr_cons]

private theorem nodup_takes {es : List (Event ι (Attempt Session) Empty)}
    (hno : σ.shared.tick.toNat + es.length < 2 ^ 64) :
    (total e.calls e.takes es σ).Nodup ∧
      ∀ tick ∈ total e.calls e.takes es σ, σ.shared.tick.toNat ≤ tick.toNat := by
  induction es generalizing σ with
  | nil => simp [total]
  | cons ev es ih =>
    cases ev with
    | env b => exact b.elim
    | task i a =>
      rw [List.length_cons] at hno
      rw [total_cons, reading]
      obtain ⟨htakes, htick⟩ | ⟨htakes, htick⟩ := (advances e a (σ.phase i) σ.shared).counter
      · have hnext : (act e.calls σ (.task i a)).shared.tick.toNat = σ.shared.tick.toNat + 1 := by
          rw [← toNat_succ (by omega), ← htick]
          rfl
        obtain ⟨hnodup, hge⟩ := ih (σ := act e.calls σ (.task i a)) (by omega)
        rw [htakes, Multiset.singleton_add, Multiset.nodup_cons]
        have hfresh : σ.shared.tick ∉ total e.calls e.takes es (act e.calls σ (.task i a)) := by
          intro hmem
          have hle := hge _ hmem
          omega
        refine ⟨⟨hfresh, hnodup⟩, ?_⟩
        intro tick htaken
        obtain rfl | hlater := Multiset.mem_cons.mp htaken
        · exact Nat.le_refl _
        · have hle := hge tick hlater
          omega
      · have hnext : (act e.calls σ (.task i a)).shared.tick = σ.shared.tick := htick
        have hrest := ih (σ := act e.calls σ (.task i a)) (by rw [hnext]; omega)
        rw [htakes, zero_add]
        rwa [hnext] at hrest

end Runs

variable {ι : Type} [DecidableEq ι] [Fintype ι]

def ConnectionEngine.fresh (e : ConnectionEngine) : System ι EngineState (Phase Session) :=
  ⟨.new, fun _ => .start e⟩

/-- What the engine was told in a run that starts with a new one: `calls` by the guard, in their order,
and `history` by the score board. -/
structure Accounted (e : ConnectionEngine) (es : List (Event ι (Attempt Session) Empty))
    (calls : List GuardCall) (history : History) : Prop where
  guard : (run e.calls es e.fresh).shared.shutdownGuard = (ShutdownGuard.new 8 (3 / 4) 90).after calls
  board : (run e.calls es e.fresh).shared.scores = history.board
  /-- A tick that was taken was used for one check, or is about to be. -/
  checked : Multiset.filterMap GuardCall.checked calls +
    ∑ i, ((run e.calls es e.fresh).phase i).unchecked = total e.calls e.takes es e.fresh
  distinct : (calls.filterMap GuardCall.checked).Nodup
  /-- The outcome of each dial was recorded once, or is about to be. -/
  recorded : Multiset.filterMap GuardCall.told calls +
    ∑ i, ((run e.calls es e.fresh).phase i).unrecorded =
      total e.calls ConnectionEngine.outcomes es e.fresh
  ordered : ∀ before tick ok after, calls = before ++ .record tick ok :: after →
    .shouldSuppressSwitching tick ∈ before
  /-- And so was what it says of its candidate. -/
  observed : (history.map Observation.said : Multiset _) +
    ∑ i, ((run e.calls es e.fresh).phase i).unscored =
      total e.calls ConnectionEngine.signals es e.fresh

theorem sum_run {M : Type} [AddCommMonoid M] [IsCancelAdd M] {load : Phase Session → M}
    {gain loss : Attempt Session → Phase Session → EngineState → M}
    (hstep : ∀ a p s, load (e.calls.step a p s).1 + loss a p s = load p + gain a p s)
    (hstart : load (.start e) = 0) (es : List (Event ι (Attempt Session) Empty)) :
    total e.calls loss es e.fresh + ∑ i, load ((run e.calls es e.fresh).phase i) =
      total e.calls gain es e.fresh := by
  have hrun : held (fun _ => (0 : M)) load (run e.calls es e.fresh) + total e.calls loss es e.fresh =
      held (fun _ => (0 : M)) load e.fresh + total e.calls gain es e.fresh :=
    held_run (by simpa using hstep) (fun b => b.elim) es e.fresh
  have hzero : ∑ i : ι, load ((e.fresh (ι := ι)).phase i) = 0 :=
    Finset.sum_eq_zero fun i _ => hstart
  rw [held, held, hzero, zero_add, zero_add, zero_add] at hrun
  rw [← hrun, add_comm]

/-- No order of the steps loses an outcome, counts one twice or confuses two attempts. -/
theorem calls_accounted (e : ConnectionEngine) (es : List (Event ι (Attempt Session) Empty))
    (hno : es.length < 2 ^ 64) : ∃ calls history, Accounted e es calls history := by
  obtain ⟨calls, hguard, hchecked, htold, hordered⟩ := guard_run (e := e) (σ := e.fresh) es
  obtain ⟨history, hboard, hsaid⟩ := board_run (e := e) (σ := e.fresh) es
  have hstart : (Phase.start e : Phase Session).unchecked = 0 ∧
      (Phase.start e : Phase Session).unrecorded = 0 ∧
      (Phase.start e : Phase Session).unscored = 0 ∧
      (Phase.start e : Phase Session).passed = none := by
    unfold Phase.start
    split_ifs <;> exact ⟨rfl, rfl, rfl, rfl⟩
  have hticks := sum_run (fun a p s => (advances e a p s).unchecked) hstart.1 es
  have hzero : (e.fresh : System ι EngineState (Phase Session)).shared.tick.toNat = 0 := rfl
  have hdistinct := (nodup_takes (e := e) (show _ + es.length < 2 ^ 64 by rw [hzero]; omega)).1
  rw [← hchecked] at hticks
  refine ⟨calls, history, hguard, ?_, hticks, ?_, ?_, ?_, ?_⟩
  · rw [board_eq_foldr]
    exact hboard
  · rw [← hticks] at hdistinct
    exact Multiset.coe_nodup.mp (Multiset.nodup_of_le (Multiset.le_add_right _ _) hdistinct)
  · rw [htold]
    exact sum_run (fun a p s => (advances e a p s).unrecorded) hstart.2.1 es
  · intro before tick ok after hsplit
    obtain hmem | ⟨i, hi⟩ := hordered before tick ok after hsplit
    · exact hmem
    · rw [show (e.fresh.phase i).passed = none from hstart.2.2.2] at hi
      cases hi
  · rw [hsaid]
    exact sum_run (fun a p s => (advances e a p s).unscored) hstart.2.2.1 es

/-- Two calls that dial one relay at the same time. -/
theorem calls_accounted_overlapping : ∃ calls history,
    Accounted sampleEngine ([false, true, false, true, false, true, true, false].map fun i =>
      (.task i (dialing (.ok ()) 0) : Event Bool (Attempt Unit) Empty)) calls history :=
  calls_accounted sampleEngine _ (by decide)

end Accounts

end Vpn1.Engine
