import Vpn1.Engine.Connect
import Vpn1.Engine.Scores
import Vpn1.Trust.Ceremony

/-! Which of the endpoints an engine was given it dials, and whose score a dial counts for. Candidates
are told apart by transport and id, endpoints also by address and pin. -/

namespace Vpn1.Engine

open Stepwise Trust

variable {Session Address : Type}

structure Endpoint (Address : Type) where
  id : EndpointId
  address : Address
  providerTag : String
  pinnedCertSha256 : List UInt8
  deriving DecidableEq

section Engine

variable (parseAddress : String → Option Address)

/-- By a parser of socket addresses. -/
def parseEndpoint (d : EndpointDescriptor) : Option (Endpoint Address) := do
  let address ← parseAddress d.address
  let hash ← hexDecode d.certSha256Hex
  if hash.length = 32 then some ⟨⟨d.id⟩, address, d.providerTag, hash⟩ else none

def ConnectionEngine.new (transports : List TransportId) (endpoints : List EndpointDescriptor) :
    ConnectionEngine where
  transports := transports
  endpoints := endpoints.filter fun d => (parseEndpoint parseAddress d).isSome

/-- The states of an engine between two turns, in any run of calls. -/
inductive Reached (Session : Type) (e : ConnectionEngine) : EngineState → Prop
  | new : Reached Session e .new
  | attempt {s : EngineState} (a : Attempt Session) (h : Reached Session e s) :
      Reached Session e (attempt e.candidates a s).2

def Seen.dialed : Seen Session → Option Choice
  | .connected choice _ => some choice
  | .failed choice _ => some choice
  | _ => none

/-- Every descriptor that parses, over a registered transport, is dialed if the draws are right. -/
def EveryEndpointDialed (Session : Type) (transports : List TransportId)
    (endpoints : List EndpointDescriptor) : Prop :=
  ∀ d ∈ endpoints, (parseEndpoint parseAddress d).isSome = true → ⟨d.transport⟩ ∈ transports →
    ∀ answers : Nat → Attempt Session, ∃ draws : Nat → Draw,
      ∃ p ∈ ((ConnectionEngine.new parseAddress transports endpoints).connect
          (fun n => { answers n with draw := draws n }) .new).1,
        ∃ choice, p.seen.dialed = some choice ∧ choice.1.transport = ⟨d.transport⟩ ∧
          parseEndpoint parseAddress choice.2 = parseEndpoint parseAddress d

def JudgedAlone (Session : Type) (e : ConnectionEngine) : Prop :=
  ∀ s, Reached Session e s → ∀ (a : Attempt Session) (dialed : Choice),
    (attempt e.candidates a s).1.seen.dialed = some dialed → ∀ other ∈ e.candidates,
      parseEndpoint parseAddress other.2 ≠ parseEndpoint parseAddress dialed.2 →
        (attempt e.candidates a s).2.scores.scoreOf other.1 = s.scores.scoreOf other.1

/-- The candidates that go by one transport and id stand for one endpoint. -/
def OneEndpointEach (e : ConnectionEngine) : Prop :=
  ∀ x ∈ e.candidates, ∀ y ∈ e.candidates, x.1 = y.1 →
    parseEndpoint parseAddress x.2 = parseEndpoint parseAddress y.2

end Engine

section Selection

variable {e : ConnectionEngine} {parseAddress : String → Option Address}

theorem mem_candidates {choice : Choice} : choice ∈ e.candidates ↔
    choice.2 ∈ e.endpoints ∧ ⟨knownTransportIdStr choice.2.transport⟩ ∈ e.transports ∧
      choice.1 = ⟨⟨knownTransportIdStr choice.2.transport⟩, ⟨choice.2.id⟩⟩ := by
  obtain ⟨c, d⟩ := choice
  simp only [ConnectionEngine.candidates, List.mem_filterMap]
  constructor
  · rintro ⟨d', hd, hsome⟩
    split_ifs at hsome with hreg
    obtain ⟨rfl, rfl⟩ := Prod.mk.inj (Option.some.inj hsome)
    exact ⟨hd, hreg, rfl⟩
  · rintro ⟨hd, hreg, rfl⟩
    exact ⟨d, hd, if_pos hreg⟩

private theorem knownTransportIdStr_idem (s : String) :
    knownTransportIdStr (knownTransportIdStr s) = knownTransportIdStr s := by
  by_cases hdirect : s = "direct-tls"
  · subst hdirect
    decide
  · by_cases hquic : s = "noise-quic"
    · subst hquic
      decide
    · simp [knownTransportIdStr, hdirect, hquic]

/-- What is picked is the first choice that goes by its candidate. -/
theorem find?_of_pick {a : Attempt Session} {b : ScoreBoard} {all : List Choice} {choice : Choice}
    (h : pick all a b = some choice) : (all.find? fun x => x.1 = choice.1) = some choice := by
  obtain ⟨chosen, -, hfind⟩ := Option.bind_eq_some_iff.mp h
  have hkey : choice.1 = chosen := by simpa using List.find?_some hfind
  rwa [hkey]

private theorem exists_pick {all : List Choice} {choice : Choice} (hmem : choice ∈ all)
    (a : Attempt Session) {b : ScoreBoard}
    (hfree : (b.scoreOf choice.1).isQuarantined a.selectAt = false) :
    ∃ draw picked, pick all { a with draw := draw } b = some picked ∧ picked ∈ all ∧
      picked.1 = choice.1 := by
  have hkey : choice.1 ∈ b.eligible (all.map Prod.fst) a.selectAt :=
    ScoreBoard.mem_eligible.mpr ⟨List.mem_map_of_mem hmem, hfree⟩
  obtain ⟨draw, hselect⟩ := ScoreBoard.exists_selectNext hkey
  have hpick : pick all { a with draw := draw } b = all.find? fun x => x.1 = choice.1 := by
    simp only [pick, hselect, Option.bind_some]
  cases hfind : all.find? fun x => x.1 = choice.1 with
  | none =>
    have hnone := List.find?_eq_none.mp hfind choice hmem
    simp at hnone
  | some picked =>
    have hsame := List.find?_some hfind
    refine ⟨draw, picked, hpick.trans hfind, List.mem_of_find?_eq_some hfind, ?_⟩
    simpa using hsame

private theorem dialed_eq_pick {all : List Choice} {a : Attempt Session} {suppress : Bool}
    {b : ScoreBoard} :
    (seeNext all a suppress b).dialed = if suppress then none else pick all a b := by
  unfold seeNext
  cases suppress with
  | true => rfl
  | false =>
    simp only [Bool.false_eq_true, if_false]
    cases pick all a b with
    | none => rfl
    | some choice =>
      dsimp only
      cases a.dial choice.2 <;> rfl

private theorem attempt_scoreOf {all : List Choice} {a : Attempt Session} {s : EngineState}
    {dialed : Choice} (hdialed : (attempt all a s).1.seen.dialed = some dialed) {c : Candidate}
    (hne : c ≠ dialed.1) : (attempt all a s).2.scores.scoreOf c = s.scores.scoreOf c := by
  rw [attempt_eq] at hdialed ⊢
  simp only [attemptTelling] at hdialed ⊢
  cases hseen : seeNext all a s.check.1 s.scores with
  | suppressed | noCandidates => simp [hseen, Seen.dialed] at hdialed
  | connected choice session =>
    obtain rfl : choice = dialed := by simpa [hseen, Seen.dialed] using hdialed
    exact Observation.observe_of_ne (o := .success choice.1) hne.symm _
  | failed choice cause =>
    obtain rfl : choice = dialed := by simpa [hseen, Seen.dialed] using hdialed
    exact Observation.observe_of_ne (o := .failure choice.1 cause.category a.failedAt a.jitter)
      hne.symm _

private theorem dialed_new (all : List Choice) (a : Attempt Session) :
    (attempt all a .new).1.seen.dialed = pick all a .new := by
  have hcheck : EngineState.new.check.1 = false := rfl
  rw [attempt_eq, attemptTelling, dialed_eq_pick, hcheck]
  rfl

private theorem exists_first_pick {choice : Choice} (hmem : choice ∈ e.candidates)
    (a : Attempt Session) :
    ∃ draw picked, pick e.candidates { a with draw := draw } .new = some picked ∧
      picked ∈ e.candidates ∧ picked.1 = choice.1 :=
  exists_pick hmem a rfl

private theorem dialed_first {a : Attempt Session} {s : EngineState} {dialed : Choice}
    (h : (attempt e.candidates a s).1.seen.dialed = some dialed) :
    (e.candidates.find? fun x => x.1 = dialed.1) = some dialed := by
  rw [attempt_eq] at h
  simp only [attemptTelling, dialed_eq_pick] at h
  split_ifs at h
  exact find?_of_pick h

theorem dialed_mem {a : Attempt Session} {s : EngineState} {dialed : Choice}
    (h : (attempt e.candidates a s).1.seen.dialed = some dialed) : dialed ∈ e.candidates :=
  List.mem_of_find?_eq_some (dialed_first h)

private theorem exists_of_mem_connect {answers : Nat → Attempt Session} {s : EngineState}
    {p : Pass Session}
    (hp : p ∈ (e.connect answers s).1) : ∃ a t, p = (attempt e.candidates a t).1 := by
  obtain ⟨a, -, t, hpass⟩ := exists_of_mem_runWhile hp
  exact ⟨a, t, hpass⟩

private theorem first_pass_mem (hne : e.candidates ≠ []) (hmax : e.maxAttempts = 4)
    (answers : Nat → Attempt Session) (s : EngineState) :
    (attempt e.candidates (answers 0) s).1 ∈ (e.connect answers s).1 := by
  have hempty : e.candidates.isEmpty = false := by simpa using hne
  have hrange : (List.range 4).map answers = [answers 0, answers 1, answers 2, answers 3] := rfl
  rw [ConnectionEngine.connect, ConnectionEngine.loop, hempty, hmax]
  simp only [Bool.false_eq_true, if_false, hrange, runWhile]
  split_ifs <;> exact List.mem_cons_self

end Selection

section Used

variable {parseAddress : String → Option Address} {transports : List TransportId}
  {endpoints : List EndpointDescriptor}

private theorem usable_mem_candidates {d : EndpointDescriptor} (hd : d ∈ endpoints)
    (hparse : (parseEndpoint parseAddress d).isSome = true) (hreg : ⟨d.transport⟩ ∈ transports)
    (hknown : knownTransportIdStr d.transport = d.transport) :
    (⟨⟨d.transport⟩, ⟨d.id⟩⟩, d) ∈ (ConnectionEngine.new parseAddress transports endpoints).candidates :=
  mem_candidates.mpr ⟨List.mem_filter.mpr ⟨hd, hparse⟩, by rwa [hknown], by rw [hknown]⟩

private theorem judgedAlone_of_oneEndpointEach {e : ConnectionEngine}
    (hone : OneEndpointEach parseAddress e) : JudgedAlone parseAddress Session e := by
  intro s _ a dialed hdialed other hother hne
  refine attempt_scoreOf hdialed fun hkey => hne ?_
  exact hone other hother dialed (dialed_mem hdialed) hkey

private theorem deadAttempt_scores {all : List Choice} {draw : Draw} {picked : Choice}
    (hpick : pick all (deadAttempt draw : Attempt Session) .new = some picked) :
    ((attempt all (deadAttempt draw : Attempt Session) .new).2.scores.scoreOf
      picked.1).totalAttempts = 1 := by
  have hseen : seeNext all (deadAttempt draw : Attempt Session) EngineState.new.check.1
      EngineState.new.scores = .failed picked (.connect .tcpTimeout "") := by
    have hopen : EngineState.new.check.1 = false := rfl
    have hscores : (EngineState.new : EngineState).scores = .new := rfl
    unfold seeNext
    rw [hopen, hscores, hpick]
    rfl
  rw [attempt_eq]
  simp only [attemptTelling, hseen, ScoreBoard.settle, ScoreBoard.observeFailure,
    TransportError.category, FailureCategory.isRemoteSignal, if_true, Function.update_self]
  rfl

private theorem oneEndpointEach_of_judgedAlone {e : ConnectionEngine}
    (halone : JudgedAlone parseAddress Session e) : OneEndpointEach parseAddress e := by
  intro x hx y hy hkey
  obtain ⟨draw, picked, hpick, hmem, hpicked⟩ :=
    exists_first_pick hx (deadAttempt .first : Attempt Session)
  change pick e.candidates (deadAttempt draw) .new = some picked at hpick
  have hsame : ∀ other ∈ e.candidates, other.1 = picked.1 →
      parseEndpoint parseAddress other.2 = parseEndpoint parseAddress picked.2 := by
    intro other hother hotherKey
    by_contra hne
    have hdialed := (dialed_new e.candidates (deadAttempt draw : Attempt Session)).trans hpick
    have hscore := halone .new .new _ picked hdialed other hother hne
    rw [hotherKey] at hscore
    have hattempts := deadAttempt_scores hpick
    rw [hscore] at hattempts
    cases hattempts
  rw [hsame x hx hpicked.symm, hsame y hy (hkey.symm.trans hpicked.symm)]

private theorem everyEndpointDialed_of_oneEndpointEach
    (hknown : ∀ d ∈ endpoints, (parseEndpoint parseAddress d).isSome = true →
      ⟨d.transport⟩ ∈ transports → knownTransportIdStr d.transport = d.transport)
    (hone : OneEndpointEach parseAddress (.new parseAddress transports endpoints)) :
    EveryEndpointDialed parseAddress Session transports endpoints := by
  intro d hd hparse hreg answers
  have hmem := usable_mem_candidates hd hparse hreg (hknown d hd hparse hreg)
  obtain ⟨draw, picked, hpick, hpicked, hkey⟩ := exists_first_pick hmem (answers 0)
  refine ⟨fun _ => draw, _, first_pass_mem (List.ne_nil_of_mem hmem) rfl _ _, picked, ?_, ?_, ?_⟩
  · exact (dialed_new _ _).trans hpick
  · rw [hkey]
  · exact hone picked hpicked _ hmem hkey

private theorem known_of_everyEndpointDialed
    (hdialed : EveryEndpointDialed parseAddress Session transports endpoints)
    {d : EndpointDescriptor} (hd : d ∈ endpoints)
    (hparse : (parseEndpoint parseAddress d).isSome = true) (hreg : ⟨d.transport⟩ ∈ transports) :
    knownTransportIdStr d.transport = d.transport := by
  obtain ⟨draws, p, hp, choice, hchoice, htransport, -⟩ :=
    hdialed d hd hparse hreg fun _ => deadAttempt .first
  obtain ⟨a, t, rfl⟩ := exists_of_mem_connect hp
  obtain ⟨-, -, hkey⟩ := mem_candidates.mp (dialed_mem hchoice)
  rw [hkey] at htransport
  have hname : knownTransportIdStr choice.2.transport = d.transport :=
    TransportId.mk.inj htransport
  rw [← hname, knownTransportIdStr_idem]

/-- Every usable endpoint can be dialed and is judged by its own outcomes exactly if the engine knows
the names of the transports and no two endpoints go by one transport and id. -/
theorem endpoints_used_iff (parseAddress : String → Option Address) (transports : List TransportId)
    (endpoints : List EndpointDescriptor) :
    EveryEndpointDialed parseAddress Session transports endpoints ∧
        JudgedAlone parseAddress Session (.new parseAddress transports endpoints) ↔
      (∀ d ∈ endpoints, (parseEndpoint parseAddress d).isSome = true →
          ⟨d.transport⟩ ∈ transports → knownTransportIdStr d.transport = d.transport) ∧
        OneEndpointEach parseAddress (.new parseAddress transports endpoints) := by
  constructor
  · intro ⟨hdialed, halone⟩
    exact ⟨fun d hd hparse hreg => known_of_everyEndpointDialed hdialed hd hparse hreg,
      oneEndpointEach_of_judgedAlone halone⟩
  · intro ⟨hknown, hone⟩
    exact ⟨everyEndpointDialed_of_oneEndpointEach hknown hone,
      judgedAlone_of_oneEndpointEach hone⟩

end Used

section Sample

def relay (address : String) : EndpointDescriptor :=
  ⟨"relay-1", "direct-tls", address, "", [], String.ofList (List.replicate 64 '0')⟩

def twoRelays : ConnectionEngine :=
  .new some [⟨"direct-tls"⟩] [relay "192.0.2.1:443", relay "192.0.2.2:443"]

/-- Whatever is drawn and whatever the dials come to, only the first relay is ever dialed. -/
theorem second_relay_never_dialed :
    (parseEndpoint some (relay "192.0.2.2:443")).isSome = true ∧
      ∀ (answers : Nat → Attempt Unit) (s : EngineState), ∀ p ∈ (twoRelays.connect answers s).1,
        ∀ choice, p.seen.dialed = some choice → choice.2 = relay "192.0.2.1:443" := by
  refine ⟨by decide, ?_⟩
  intro answers s p hp choice hchoice
  obtain ⟨a, t, rfl⟩ := exists_of_mem_connect hp
  have hcandidates : twoRelays.candidates =
      [(⟨⟨"direct-tls"⟩, ⟨"relay-1"⟩⟩, relay "192.0.2.1:443"),
        (⟨⟨"direct-tls"⟩, ⟨"relay-1"⟩⟩, relay "192.0.2.2:443")] := by decide
  have hfirst := dialed_first hchoice
  have hmem := dialed_mem hchoice
  rw [hcandidates] at hfirst hmem
  have hkey : choice.1 = ⟨⟨"direct-tls"⟩, ⟨"relay-1"⟩⟩ := by
    rcases List.mem_cons.mp hmem with rfl | hmem
    · rfl
    · obtain rfl := List.mem_singleton.mp hmem
      rfl
  rw [hkey, List.find?_cons_of_pos (by simp)] at hfirst
  rw [← Option.some.inj hfirst]

end Sample

end Vpn1.Engine
