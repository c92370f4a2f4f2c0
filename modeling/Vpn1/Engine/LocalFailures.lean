import Vpn1.Engine.Connect

/-! Whether failures of the local network are held against remote paths. -/

namespace Vpn1.Engine

open Stepwise

variable {Session : Type}

/-- The attempt of an engine that does not observe failures of the local network. -/
def attemptUnobserved (all : List Choice) (a : Attempt Session) (s : EngineState) :
    Pass Session × EngineState :=
  let r := attempt all a s
  match r.1.seen with
  | .failed _ e => if e.category.isRemoteSignal then r else (r.1, s.check.2)
  | _ => r

def ConnectionEngine.connectUnobserved (e : ConnectionEngine) (answers : Nat → Attempt Session) :
    EngineState → List (Pass Session) × EngineState :=
  e.loop (attemptUnobserved e.candidates) answers

private theorem attemptUnobserved_eq (all : List Choice) (a : Attempt Session) (s : EngineState) :
    attemptUnobserved all a s = attemptTelling false all a s := by
  unfold attemptUnobserved
  rw [attempt_eq]
  unfold attemptTelling
  dsimp only
  cases hseen : seeNext all a s.check.1 s.scores with
  | suppressed => rfl
  | noCandidates => rfl
  | connected choice session => rfl
  | failed choice e =>
    cases hremote : e.category.isRemoteSignal <;>
      simp [EngineState.check, hremote, ScoreBoard.settle, ScoreBoard.observeFailure,
        ShutdownGuard.told]

section Watch

/-- An engine beside the guard it would have if that were not told of failures of the local network;
`clean` as long as the two called for the same cooldowns. -/
structure Watched where
  state : EngineState
  remote : ShutdownGuard
  clean : Bool

/-- The window is not at the threshold, or would be without failures of the local network. -/
def Watched.armedRemotely (w : Watched) : Bool :=
  w.state.shutdownGuard.cooldownUntil.isSome || !w.state.shutdownGuard.armed || w.remote.armed

def watch (tellLocal : Bool) (all : List Choice) (a : Attempt Session) (w : Watched) :
    Pass Session × Watched :=
  let r := attempt all a w.state
  (r.1, ⟨r.2, w.remote.told tellLocal r.1, w.clean && w.armedRemotely⟩)

/-- An engine that went through the same turns with the other guard. -/
structure Coupled (w : Watched) (t : EngineState) : Prop where
  clean : w.clean = true
  state : t = { w.state with shutdownGuard := w.remote }
  guard : w.state.shutdownGuard.Outweighs w.remote

theorem Coupled.armedRemotely_iff {w : Watched} {t : EngineState} (h : Coupled w t) :
    w.armedRemotely = true ↔ w.state.check.1 = t.check.1 := by
  have harmed := h.guard.armed
  simp only [h.state, EngineState.check, Watched.armedRemotely,
    ShutdownGuard.shouldSuppressSwitching, ← h.guard.cooldownUntil]
  cases hcool : w.state.shutdownGuard.cooldownUntil with
  | some u =>
    dsimp only
    split_ifs <;> simp [ShutdownGuard.arm, ShutdownGuard.armed, ShutdownGuard.release]
  | none =>
    cases hg : w.state.shutdownGuard.armed <;> cases hr : w.remote.armed <;>
      simp_all [ShutdownGuard.arm]

theorem Coupled.told {w : Watched} {t : EngineState} (h : Coupled w t) (tellLocal : Bool)
    (p : Pass Session) (htick : p.tick = w.state.tick) (hcheck : w.state.check.1 = t.check.1) :
    (w.state.shutdownGuard.told true p).Outweighs (w.remote.told tellLocal p) := by
  have hguard : ((w.state.shutdownGuard.shouldSuppressSwitching p.tick).2).Outweighs
      ((w.remote.shouldSuppressSwitching p.tick).2) := by
    refine (h.guard.shouldSuppressSwitching p.tick).2 ?_
    rw [htick]
    simpa [EngineState.check, h.state] using hcheck
  unfold ShutdownGuard.told
  cases p.seen with
  | suppressed => exact hguard
  | noCandidates => exact hguard
  | connected choice session => exact hguard.record p.tick true
  | failed choice e =>
    cases htell : tellLocal || e.category.isRemoteSignal with
    | true => simpa [htell] using hguard.record p.tick false
    | false => simpa [htell] using hguard.record_failure p.tick

private theorem watch_lockstep (tellLocal : Bool) (all : List Choice) :
    Lockstep (watch tellLocal all : Attempt Session → _) (attemptTelling tellLocal all) Coupled
      Watched.clean where
  up h := h.clean
  agree {w t} a h := by
    have hcheck := h.armedRemotely_iff
    simp only [watch, attempt_eq, attemptTelling, h.clean, Bool.true_and]
    rw [hcheck]
    constructor
    · intro hpass
      have hseen : seeNext all a w.state.check.1 w.state.scores =
          seeNext all a t.check.1 t.scores := congrArg Pass.seen hpass
      rw [Bool.eq_iff_iff, ← seeNext_eq_suppressed_iff, hseen, seeNext_eq_suppressed_iff]
    · intro hbits
      rw [hbits]
      simp [h.state]
  keep {w t} a h hclean := by
    have hcheck : w.state.check.1 = t.check.1 := by
      rw [← h.armedRemotely_iff]
      simpa [watch, h.clean] using hclean
    refine ⟨hclean, ?_, ?_⟩
    · simp only [watch, attempt_eq, attemptTelling, hcheck]
      simp [h.state]
    · simp only [watch, attempt_eq, attemptTelling]
      exact h.told tellLocal _ rfl hcheck
  down {w} a hw := by simp [watch, hw]

end Watch

section Runs

variable (e : ConnectionEngine)

/-- No check of these calls, and of the one after them, meets a window that is at the threshold only
because of the local failures of the first. -/
def Untriggered (s : EngineState) (calls : List (Nat → Attempt Session))
    (later : Nat → Attempt Session) : Prop :=
  let w := (runAll (e.loop (watch false e.candidates)) calls ⟨s, s.shutdownGuard, true⟩).2
  (e.loop (watch true e.candidates) later w).2.clean = true

def Pass.category? (p : Pass Session) : Option FailureCategory :=
  match p.seen with
  | .failed _ cause => some cause.category
  | _ => none

/-- What a turn adds to the scores if its failure is not held against anyone. -/
def Pass.credit (b : ScoreBoard) (p : Pass Session) : ScoreBoard :=
  match p.seen with
  | .connected choice _ => b.observeSuccess choice.1
  | _ => b

def Pass.AtMostLocal (p : Pass Session) : Prop :=
  ∀ c, p.category? = some c → c = .localNetworkFailure

private theorem attempt_scores (all : List Choice) (a : Attempt Session) (s : EngineState)
    (hlocal : (attempt all a s).1.AtMostLocal) :
    (attempt all a s).2.scores = (attempt all a s).1.credit s.scores := by
  rw [attempt_eq] at hlocal ⊢
  simp only [attemptTelling, Pass.AtMostLocal, Pass.category?, Pass.credit] at hlocal ⊢
  cases hseen : seeNext all a s.check.1 s.scores with
  | suppressed => rfl
  | noCandidates => rfl
  | connected choice session => rfl
  | failed choice cause =>
    simp only [hseen] at hlocal
    simp [ScoreBoard.settle, ScoreBoard.observeFailure, hlocal _ rfl, FailureCategory.isRemoteSignal]

private theorem connect_scores (answers : Nat → Attempt Session) (s : EngineState)
    (hlocal : ∀ p ∈ (e.connect answers s).1, p.AtMostLocal) :
    (e.connect answers s).2.scores = (e.connect answers s).1.foldl Pass.credit s.scores :=
  runWhile_foldl (attempt_scores e.candidates) _ _ s hlocal

private theorem connectAll_scores (calls : List (Nat → Attempt Session)) (s : EngineState)
    (hlocal : ∀ passes ∈ (runAll e.connect calls s).1, ∀ p ∈ passes, p.AtMostLocal) :
    (runAll e.connect calls s).2.scores =
      (runAll e.connect calls s).1.flatten.foldl Pass.credit s.scores := by
  rw [List.foldl_flatten]
  exact runWhile_foldl (connect_scores e) _ _ s hlocal

private theorem watch_state (tellLocal : Bool) (all : List Choice) (a : Attempt Session)
    (w : Watched) :
    attempt all a w.state = Prod.map id Watched.state (watch tellLocal all a w) := rfl

private theorem connect_watch (tellLocal : Bool) (answers : Nat → Attempt Session) (w : Watched) :
    e.connect answers w.state =
      Prod.map id Watched.state (e.loop (watch tellLocal e.candidates) answers w) :=
  runWhile_map Watched.state (watch_state tellLocal e.candidates) _ _ w

private theorem loop_lockstep {step : Attempt Session → EngineState → Pass Session × EngineState}
    {watched : Attempt Session → Watched → Pass Session × Watched}
    (h : Lockstep watched step Coupled Watched.clean) :
    Lockstep (e.loop watched) (e.loop step) Coupled Watched.clean where
  up := h.up
  agree _ := (h.run Pass.retries).agree _
  keep _ := (h.run Pass.retries).keep _
  down _ := (h.run Pass.retries).down _

private theorem connect_lockstep :
    Lockstep (e.loop (watch true e.candidates : Attempt Session → _)) e.connect Coupled
      Watched.clean := by
  refine loop_lockstep e ?_
  rw [show attempt e.candidates = attemptTelling true e.candidates from
    funext fun a => funext (attempt_eq _ a)]
  exact watch_lockstep true e.candidates

private theorem connectUnobserved_lockstep :
    Lockstep (e.loop (watch false e.candidates : Attempt Session → _)) e.connectUnobserved Coupled
      Watched.clean := by
  refine loop_lockstep e ?_
  rw [show attemptUnobserved e.candidates = attemptTelling false e.candidates from
    funext fun a => funext (attemptUnobserved_eq _ a)]
  exact watch_lockstep false e.candidates

/-- Local failures change no score; and calls, with a later one, go as if they had not been observed
exactly if no cooldown is due to them. -/
theorem local_failures_unobserved_iff (s : EngineState) (calls : List (Nat → Attempt Session))
    (later : Nat → Attempt Session) :
    ((∀ passes ∈ (runAll e.connect calls s).1, ∀ p ∈ passes, p.AtMostLocal) →
      (runAll e.connect calls s).2.scores =
        (runAll e.connect calls s).1.flatten.foldl Pass.credit s.scores) ∧
    ((runAll e.connect calls s).1 = (runAll e.connectUnobserved calls s).1 ∧
        (e.connect later (runAll e.connect calls s).2).1 =
          (e.connect later (runAll e.connectUnobserved calls s).2).1 ↔
      Untriggered e s calls later) := by
  refine ⟨connectAll_scores e calls s, ?_⟩
  have hactual : runAll e.connect calls s = Prod.map id Watched.state
      (runAll (e.loop (watch false e.candidates)) calls ⟨s, s.shutdownGuard, true⟩) :=
    runWhile_map Watched.state (fun answers w => connect_watch e false answers w) _ calls
      ⟨s, s.shutdownGuard, true⟩
  have hstart : Coupled ⟨s, s.shutdownGuard, true⟩ s := ⟨rfl, rfl, .refl _⟩
  have hcalls := (connectUnobserved_lockstep e).run fun _ : List (Pass Session) => true
  have hlater : Lockstep (e.loop (watch true e.candidates : Attempt Session → _)) e.connect Coupled
      Watched.clean := connect_lockstep e
  have hagree := hcalls.agree calls hstart
  have hkeep := hcalls.keep calls hstart
  simp only [hactual, Prod.map_fst, Prod.map_snd, id, Untriggered, connect_watch e true later]
  unfold runAll
  generalize runWhile (e.loop (watch false e.candidates)) (fun _ => true) calls
    ⟨s, s.shutdownGuard, true⟩ = r at hagree hkeep ⊢
  rw [hagree]
  constructor
  · rintro ⟨hclean, hsame⟩
    exact (hlater.agree later (hkeep hclean)).mp hsame
  · intro hclean
    have hfirst : r.2.clean = true := by
      by_contra hfirst
      rw [hlater.down later (Bool.eq_false_iff.mpr hfirst)] at hclean
      cases hclean
    exact ⟨hfirst, (hlater.agree later (hkeep hfirst)).mpr hclean⟩

end Runs

section Sample

def networkUnreachable : TransportError := .connect .localNetworkFailure "network unreachable"

/-- Two calls while the local network is down, with the default budget of attempts. -/
def offlineCalls : List (Nat → Attempt Unit) :=
  [dialing (.error networkUnreachable), dialing (.error networkUnreachable)]

/-- After them the engine does not dial a relay that can be reached. -/
theorem offline_calls_suppress :
    (runAll sampleEngine.connect offlineCalls .new).1.flatten.map Pass.category? =
        List.replicate 8 (some .localNetworkFailure) ∧
      verdict (sampleEngine.connect (dialing (.ok ()))
        (runAll sampleEngine.connect offlineCalls .new).2).1 = .error .possibleShutdown ∧
      verdict (sampleEngine.connect (dialing (.ok ()))
        (runAll sampleEngine.connectUnobserved offlineCalls .new).2).1 =
          .ok (⟨"direct-tls"⟩, ()) := by
  refine ⟨?_, ?_, ?_⟩ <;> decide +kernel

end Sample

end Vpn1.Engine
