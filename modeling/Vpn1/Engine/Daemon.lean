import Vpn1.Engine.Concurrent
import Vpn1.Engine.Endpoints

/-! `client-daemon` from the bundle it fetches to the sessions it uses: the two transports pin the
certificate of the relay, and sort what goes wrong on the network into categories. -/

namespace Vpn1.Engine

open Interleave Trust

section Transports

/-- `std::io::ErrorKind`, as far as it is told apart. -/
inductive ErrorKind
  | connectionRefused
  | timedOut
  | connectionReset
  | networkUnreachable
  | hostUnreachable
  | networkDown
  | addrNotAvailable
  | other
  deriving DecidableEq, Repr

def classifyConnectIoError : ErrorKind → FailureCategory
  | .connectionRefused => .endpointUnreachable
  | .timedOut => .tcpTimeout
  | .connectionReset => .tcpReset
  | .networkUnreachable | .hostUnreachable | .networkDown | .addrNotAvailable => .localNetworkFailure
  | .other => .generalRouteFailure

/-- `quinn::ConnectionError`; a certificate that is refused is one of the others. -/
inductive ConnectionError
  | timedOut
  | connectionClosed
  | applicationClosed
  | other
  deriving DecidableEq, Repr

def classifyConnectionError : ConnectionError → FailureCategory
  | .timedOut => .handshakeTimeout
  | .connectionClosed | .applicationClosed => .endpointUnreachable
  | .other => .quicFailure

/-- What a peer shows in a handshake: a certificate, and a signature on the message that the handshake
calls for. The text is that of the library, should it refuse. -/
structure Presented where
  certificate : List UInt8
  message : List UInt8
  signature : List UInt8
  refusal : String

inductive TcpConnect
  | timedOut
  | failed (kind : ErrorKind) (detail : String)
  | connected

inductive TlsHandshake
  | timedOut
  | failed (detail : String)
  | presented (p : Presented)

inductive QuicHandshake
  | timedOut
  | failed (cause : ConnectionError) (detail : String)
  | presented (p : Presented)

/-- How the network and the local sockets behave during a dial, whoever controls them. A step that
only fails with a text has it here. -/
structure Net (Address : Type) where
  tcp : Address → TcpConnect
  tls : Address → TlsHandshake
  bindUdp : Address → Option String
  quicConfig : Option String
  connectWith : Address → Option String
  quic : Address → QuicHandshake
  openBi : Address → Option String

/-- A session: the transport, where it was dialed and what the peer has shown in its handshake. -/
structure Link (Address : Type) where
  transport : TransportId
  address : Address
  peer : Presented

/-- What is used of `sha2` and `rustls`: whether a signature on a message is one by the key of a
certificate is for `verify_tls12_signature` and `verify_tls13_signature` to say. -/
structure Crypto where
  sha256 : List UInt8 → List UInt8
  verifySignature (message certificate signature : List UInt8) : Bool

variable {Address : Type} (crypto : Crypto)

/-- The pin takes the place of a certificate authority. -/
def verifyServerCert (expected certificate : List UInt8) : Bool :=
  crypto.sha256 certificate = expected

def verifyTlsSignature (p : Presented) : Bool :=
  crypto.verifySignature p.message p.certificate p.signature

/-- `PinnedCertVerifier` in a handshake. -/
def pinnedCertVerifier (expected : List UInt8) (p : Presented) : Bool :=
  verifyServerCert crypto expected p.certificate && verifyTlsSignature crypto p

def directTls : TransportId := ⟨"direct-tls"⟩

def noiseQuic : TransportId := ⟨"noise-quic"⟩

def connectStream (net : Net Address) (e : Endpoint Address) :
    Except TransportError (Link Address) :=
  match net.tcp e.address with
  | .timedOut => .error (.connect .tcpTimeout "tcp connect timed out")
  | .failed kind detail => .error (.connect (classifyConnectIoError kind) detail)
  | .connected =>
    match net.tls e.address with
    | .timedOut => .error (.connect .handshakeTimeout "tls handshake timed out")
    | .failed detail => .error (.connect .tlsFailure detail)
    | .presented p =>
      if pinnedCertVerifier crypto e.pinnedCertSha256 p then
        .ok ⟨directTls, e.address, p⟩
      else .error (.connect .tlsFailure p.refusal)

def connectQuic (net : Net Address) (e : Endpoint Address) :
    Except TransportError (Link Address) :=
  match net.bindUdp e.address with
  | some text =>
    .error (.connect .udpUnavailable ("failed to bind local UDP socket: " ++ text))
  | none =>
    match net.quicConfig with
    | some text => .error (.connect .quicFailure ("invalid quic tls config: " ++ text))
    | none =>
      match net.connectWith e.address with
      | some text => .error (.connect .quicFailure text)
      | none =>
        match net.quic e.address with
        | .timedOut => .error (.connect .handshakeTimeout "quic handshake timed out")
        | .failed cause detail => .error (.connect (classifyConnectionError cause) detail)
        | .presented p =>
          if pinnedCertVerifier crypto e.pinnedCertSha256 p then
            match net.openBi e.address with
            | some text => .error (.connect .quicFailure text)
            | none => .ok ⟨noiseQuic, e.address, p⟩
          else .error (.connect (classifyConnectionError .other) p.refusal)

/-- `default_transports` -/
def defaultTransports : List TransportId := [directTls, noiseQuic]

variable (parseAddress : String → Option Address)

def buildEngine (endpoints : List EndpointDescriptor) : ConnectionEngine :=
  .new parseAddress defaultTransports endpoints

/-- What the engine dials for a candidate: the endpoint that was parsed when it was built, over the
transport of its descriptor. -/
def dialOver (net : Net Address) (d : EndpointDescriptor) : Except TransportError (Link Address) :=
  match parseEndpoint parseAddress d with
  | none => .error (.connect .generalRouteFailure "")
  | some e =>
    if knownTransportIdStr d.transport = directTls.name then connectStream crypto net e
    else connectQuic crypto net e

end Transports

section Authenticity

variable {Address : Type} {crypto : Crypto}
  {parseAddress : String → Option Address} {endpoints : List EndpointDescriptor}

theorem transport_of_candidate {choice : Choice}
    (hchoice : choice ∈ (buildEngine parseAddress endpoints).candidates) :
    choice.2 ∈ endpoints ∧ choice.1.transport = ⟨choice.2.transport⟩ ∧
      (choice.2.transport = "direct-tls" ∨ choice.2.transport = "noise-quic") := by
  obtain ⟨hmem, hregistered, hkey⟩ := mem_candidates.mp hchoice
  have hgiven : choice.2 ∈ endpoints := (List.mem_filter.mp hmem).1
  have hname : choice.2.transport = "direct-tls" ∨ choice.2.transport = "noise-quic" := by
    by_contra hother
    rw [not_or] at hother
    have hempty : knownTransportIdStr choice.2.transport = "" := by
      simp [knownTransportIdStr, hother.1, hother.2]
    rw [hempty] at hregistered
    simp [buildEngine, ConnectionEngine.new, defaultTransports, directTls, noiseQuic]
      at hregistered
  have hknown : knownTransportIdStr choice.2.transport = choice.2.transport := by
    rcases hname with hdirect | hquic
    · rw [hdirect]; rfl
    · rw [hquic]; rfl
  rw [hkey, hknown]
  exact ⟨hgiven, rfl, hname⟩

variable {ι : Type} [DecidableEq ι]

/-- The attempts of a run dial over networks of this kind, a new one for every attempt. -/
def DialsOver (crypto : Crypto) (parseAddress : String → Option Address)
    (kind : Net Address → Prop) (es : List (Event ι (Attempt (Link Address)) Empty)) : Prop :=
  ∀ i a, .task i a ∈ es → ∃ net, kind net ∧ a.dial = dialOver crypto parseAddress net

def daemonRun (parseAddress : String → Option Address) (endpoints : List EndpointDescriptor)
    (es : List (Event ι (Attempt (Link Address)) Empty)) :
    System ι EngineState (Phase (Link Address)) :=
  run (buildEngine parseAddress endpoints).calls es (buildEngine parseAddress endpoints).fresh

theorem mem_of_pick {Session : Type} {all : List Choice} {a : Attempt Session} {b : ScoreBoard}
    {choice : Choice} (h : pick all a b = some choice) : choice ∈ all :=
  List.mem_of_find?_eq_some (find?_of_pick h)

def relayDescriptor : EndpointDescriptor :=
  ⟨"relay-1", "direct-tls", "192.0.2.1:443", "provider", [],
    "0700000000000000000000000000000000000000000000000000000000000000"⟩

def sampleCrypto : Crypto where
  sha256 bytes := (bytes ++ List.replicate 32 0).take 32
  verifySignature message certificate signature := signature == certificate ++ message

def samplePeer : Presented := ⟨[7], [1, 2], [7, 1, 2], ""⟩

def tcpNet (tcp : TcpConnect) : Net String where
  tcp _ := tcp
  tls _ := .presented samplePeer
  bindUdp _ := none
  quicConfig := none
  connectWith _ := none
  quic _ := .timedOut
  openBi _ := none

/-- The steps of one attempt, with the clock and the draws of the other samples. -/
def oneCall (net : Net String) : List (Event Unit (Attempt (Link String)) Empty) :=
  let other := dialing (.ok ()) 0
  List.replicate 6 (.task () ⟨other.selectAt, other.draw, dialOver sampleCrypto some net, other.failedAt,
    other.jitter⟩)

private theorem oneCall_dialsOver {kind : Net String → Prop} {net : Net String} (hnet : kind net) :
    DialsOver sampleCrypto some kind (oneCall net) := by
  intro i a ha
  obtain ⟨-, ha⟩ := List.mem_replicate.mp ha
  obtain ⟨-, rfl⟩ := Event.task.inj ha
  exact ⟨net, hnet, rfl⟩

end Authenticity

section Outage

variable {Address : Type} {crypto : Crypto}
  {parseAddress : String → Option Address} {endpoints : List EndpointDescriptor}

def ErrorKind.isLocal : ErrorKind → Bool
  | .networkUnreachable | .hostUnreachable | .networkDown | .addrNotAvailable => true
  | _ => false

/-- The host is cut off: no TCP connection can be begun, and no QUIC handshake gets an answer. -/
structure Net.Down (net : Net Address) : Prop where
  tcp : ∀ address, ∃ kind detail, net.tcp address = .failed kind detail ∧ kind.isLocal = true
  quic : ∀ address p, net.quic address ≠ .presented p

/-- `noise-quic` knows no local failures. -/
theorem connectQuic_error {net : Net Address} {e : Endpoint Address} {cause : TransportError}
    (h : connectQuic crypto net e = .error cause) : cause.category.isRemoteSignal = true := by
  have hclassify : ∀ c, (classifyConnectionError c).isRemoteSignal = true := by
    intro c
    cases c <;> rfl
  unfold connectQuic at h
  split at h
  · obtain rfl := Except.error.inj h
    rfl
  split at h
  · obtain rfl := Except.error.inj h
    rfl
  split at h
  · obtain rfl := Except.error.inj h
    rfl
  split at h
  · obtain rfl := Except.error.inj h
    rfl
  · obtain rfl := Except.error.inj h
    exact hclassify _
  · split_ifs at h
    · split at h
      · obtain rfl := Except.error.inj h
        rfl
      · cases h
    · obtain rfl := Except.error.inj h
      rfl

private theorem connectQuic_down {net : Net Address} (hdown : net.Down) (e : Endpoint Address) :
    ∃ cause, connectQuic crypto net e = .error cause := by
  unfold connectQuic
  split
  · exact ⟨_, rfl⟩
  split
  · exact ⟨_, rfl⟩
  split
  · exact ⟨_, rfl⟩
  split
  · exact ⟨_, rfl⟩
  · exact ⟨_, rfl⟩
  · next p hp => exact absurd hp (hdown.quic _ p)

private theorem connectStream_down {net : Net Address} (hdown : net.Down) (e : Endpoint Address) :
    ∃ detail, connectStream crypto net e = .error (.connect .localNetworkFailure detail) := by
  obtain ⟨kind, detail, htcp, hlocal⟩ := hdown.tcp e.address
  refine ⟨detail, ?_⟩
  rw [connectStream, htcp]
  cases kind with
  | networkUnreachable | hostUnreachable | networkDown | addrNotAvailable => rfl
  | connectionRefused | timedOut | connectionReset | other => cases hlocal

private theorem dialOver_down {net : Net Address} (hdown : net.Down) {choice : Choice}
    (hchoice : choice ∈ (buildEngine parseAddress endpoints).candidates) :
    ∃ cause, dialOver crypto parseAddress net choice.2 = .error cause ∧
      cause.category.isRemoteSignal = decide (choice.1.transport = noiseQuic) := by
  obtain ⟨-, htransport, hname⟩ := transport_of_candidate hchoice
  obtain ⟨hmem, -, -⟩ := mem_candidates.mp hchoice
  have hparses : (parseEndpoint parseAddress choice.2).isSome = true := (List.mem_filter.mp hmem).2
  obtain ⟨e, hparse⟩ := Option.isSome_iff_exists.mp hparses
  rw [htransport]
  unfold dialOver
  simp only [hparse]
  rcases hname with hdirect | hquic
  · obtain ⟨detail, hfails⟩ : ∃ detail, connectStream crypto net e = .error (.connect _ detail) :=
      connectStream_down hdown e
    rw [hdirect, if_pos (by decide)]
    have hremote : decide (TransportId.mk "direct-tls" = noiseQuic) = false := by decide
    exact ⟨_, hfails, hremote.symm⟩
  · obtain ⟨cause, hfails⟩ : ∃ cause, connectQuic crypto net e = .error cause :=
      connectQuic_down hdown e
    rw [hquic, if_neg (by decide)]
    exact ⟨cause, hfails, by rw [connectQuic_error hfails]; decide⟩

def Phase.Offered (e : ConnectionEngine) : Phase (Link Address) → Prop
  | .dialing _ _ choice => choice ∈ e.candidates
  | _ => True

theorem Advances.offered {e : ConnectionEngine} {a : Attempt (Link Address)} {s t : EngineState}
    {p q : Phase (Link Address)} (h : Advances e a s p q t) : q.Offered e := by
  cases h with
  | dial hpick => exact mem_of_pick hpick
  | tick | exhausted | suppressed | clear | noCandidates | connect | fail | score | succeed | record
  | again | rest => trivial

def quicDialed (_ : Attempt (Link Address)) : Phase (Link Address) → EngineState → Multiset Candidate
  | .dialing _ _ choice, _ => if choice.1.transport = noiseQuic then {choice.1} else 0
  | _, _ => 0

private theorem signals_down {a : Attempt (Link Address)} {net : Net Address} (hdown : net.Down)
    (hdial : a.dial = dialOver crypto parseAddress net) {p : Phase (Link Address)} {s : EngineState}
    (hp : p.Offered (buildEngine parseAddress endpoints)) :
    (ConnectionEngine.signals a p s).map Prod.fst = quicDialed a p s ∧
      ∀ x ∈ ConnectionEngine.signals a p s, x.1.transport = noiseQuic ∧ x.2.isSome = true := by
  cases p with
  | dialing n tick choice =>
    obtain ⟨cause, hfails, hremote⟩ := dialOver_down hdown hp
    rw [ConnectionEngine.signals, hdial, hfails]
    simp only [signal, hremote, quicDialed, decide_eq_true_eq]
    split_ifs with hquic
    · simp [hquic]
    · simp
  | waiting | ticked | cleared | connected | scored | failed | recorded | done =>
    simp [ConnectionEngine.signals, quicDialed]

variable {ι : Type} [DecidableEq ι] {es : List (Event ι (Attempt (Link Address)) Empty)}
  {σ : System ι EngineState (Phase (Link Address))}

private theorem offered_act {e : ConnectionEngine} (hσ : ∀ j, (σ.phase j).Offered e) (i : ι)
    (a : Attempt (Link Address)) (j : ι) : ((act e.calls σ (.task i a)).phase j).Offered e :=
  forall_phase_act _ hσ (advances e a (σ.phase i) σ.shared).offered j

private theorem total_signals_down (hdown : DialsOver crypto parseAddress Net.Down es)
    (hσ : ∀ j, (σ.phase j).Offered (buildEngine parseAddress endpoints)) :
    (total (buildEngine parseAddress endpoints).calls ConnectionEngine.signals es σ).map Prod.fst =
        total (buildEngine parseAddress endpoints).calls quicDialed es σ ∧
      ∀ x ∈ total (buildEngine parseAddress endpoints).calls ConnectionEngine.signals es σ,
        x.1.transport = noiseQuic ∧ x.2.isSome = true := by
  induction es generalizing σ with
  | nil => exact ⟨rfl, by simp [total]⟩
  | cons ev es ih =>
    cases ev with
    | env b => exact b.elim
    | task i a =>
      obtain ⟨net, hnet, hdial⟩ := hdown i a List.mem_cons_self
      obtain ⟨hfirst, hquic⟩ := signals_down (s := σ.shared) hnet hdial (hσ i)
      obtain ⟨hmap, hmem⟩ := ih (fun j b hb => hdown j b (List.mem_cons_of_mem _ hb))
        (offered_act hσ i a)
      rw [total_cons, total_cons, Multiset.map_add, hmap]
      refine ⟨congrArg (· + _) hfirst, fun x hx => ?_⟩
      rcases Multiset.mem_add.mp hx with hx | hx
      · exact hquic x hx
      · exact hmem x hx

theorem Observation.said_fst (o : Observation) : o.said.1 = o.candidate := by
  cases o <;> rfl

private theorem scoreOf_foldr_observe {history : History} {c : Candidate} (b : ScoreBoard)
    (hnone : ∀ o ∈ history, o.said.1 ≠ c) :
    (history.foldr Observation.observe b).scoreOf c = b.scoreOf c := by
  induction history with
  | nil => rfl
  | cons o older ih =>
    obtain ⟨hne, hrest⟩ := List.forall_mem_cons.mp hnone
    rw [o.said_fst] at hne
    rw [List.foldr_cons, Observation.observe_of_ne hne]
    exact ih hrest

/-- What the score board has heard when the host was cut off for the events `es`: `history`, of which
`blames` is what the dials of that time say. -/
structure Blamed [Fintype ι] (e : ConnectionEngine)
    (es : List (Event ι (Attempt (Link Address)) Empty))
    (σ : System ι EngineState (Phase (Link Address))) (history : History)
    (blames : Multiset (Candidate × Option FailureCategory)) : Prop where
  board : (run e.calls es σ).shared.scores = history.foldr Observation.observe σ.shared.scores
  /-- Each dial over QUIC that has ended is a failure of the relay that was dialed. -/
  relays : blames.map Prod.fst = total e.calls quicDialed es σ
  failures : ∀ x ∈ blames, x.1.transport = noiseQuic ∧ x.2.isSome = true
  /-- The board has heard of all of these, but for what calls are still to tell it, and of nothing
  else, but for what they had to tell it before. -/
  told : (history.map Observation.said : Multiset _) + ∑ i, ((run e.calls es σ).phase i).unscored =
    ∑ i, (σ.phase i).unscored + blames
  /-- No other transport is touched, unless a call had something to tell of it before. -/
  others : ∀ c, c.transport ≠ noiseQuic → (∀ i, ∀ x ∈ (σ.phase i).unscored, x.1 ≠ c) →
    (run e.calls es σ).shared.scores.scoreOf c = σ.shared.scores.scoreOf c

/-- From whatever the daemon has been through: while the host is cut off, every dial over QUIC is held
against the relay that was dialed, once, and no dial over `direct-tls` is held against its own. -/
theorem local_outage_blames_quic [Fintype ι] (endpoints : List EndpointDescriptor)
    (past es : List (Event ι (Attempt (Link Address)) Empty))
    (hdown : DialsOver crypto parseAddress Net.Down es) :
    ∃ history blames, Blamed (buildEngine parseAddress endpoints) es
      (daemonRun parseAddress endpoints past) history blames := by
  obtain ⟨σ, hσ⟩ : ∃ σ, σ = daemonRun parseAddress endpoints past := ⟨_, rfl⟩
  have hoffered : ∀ j, (σ.phase j).Offered (buildEngine parseAddress endpoints) := by
    have halways : Always (buildEngine parseAddress endpoints).calls
        (fun τ => ∀ j, (τ.phase j).Offered (buildEngine parseAddress endpoints)) past
        (buildEngine parseAddress endpoints).fresh := by
      apply always_of_act
      · intro ev _ τ hτ
        cases ev with
        | env b => exact b.elim
        | task i a => exact offered_act hτ i a
      · intro j
        unfold ConnectionEngine.fresh Phase.start
        split_ifs <;> trivial
    rw [hσ]
    exact halways.last
  rw [← hσ]
  obtain ⟨history, hboard, hsaid⟩ := board_run (e := buildEngine parseAddress endpoints) (σ := σ) es
  obtain ⟨hrelays, hquic⟩ := total_signals_down hdown hoffered
  have hheld : held (fun _ => (0 : Multiset (Candidate × Option FailureCategory))) Phase.unscored
        (run (buildEngine parseAddress endpoints).calls es σ) +
          total (buildEngine parseAddress endpoints).calls ConnectionEngine.scores es σ =
      held (fun _ => 0) Phase.unscored σ +
        total (buildEngine parseAddress endpoints).calls ConnectionEngine.signals es σ :=
    held_run (by simpa using fun a p s => (advances _ a p s).unscored) (fun b => b.elim) es σ
  have htold : (history.map Observation.said : Multiset _) +
      ∑ i, ((run (buildEngine parseAddress endpoints).calls es σ).phase i).unscored =
        ∑ i, (σ.phase i).unscored +
          total (buildEngine parseAddress endpoints).calls ConnectionEngine.signals es σ := by
    rw [held, held, zero_add, zero_add, ← hsaid, add_comm] at hheld
    exact hheld
  refine ⟨history, _, hboard, hrelays, hquic, htold, ?_⟩
  intro c hc hpending
  rw [hboard]
  apply scoreOf_foldr_observe
  intro o ho heq
  have hmem : o.said ∈ ∑ i, (σ.phase i).unscored +
      total (buildEngine parseAddress endpoints).calls ConnectionEngine.signals es σ := by
    rw [← htold]
    exact Multiset.mem_add.mpr (.inl (List.mem_map_of_mem ho))
  rcases Multiset.mem_add.mp hmem with hbefore | hsince
  · obtain ⟨i, -, hi⟩ := Multiset.mem_sum.mp hbefore
    exact hpending i _ hi heq
  · exact hc (heq ▸ (hquic _ hsince).1)

/-- An attempt over QUIC on a host in flight mode, by a daemon that had not dialed before. -/
theorem flightMode_blames_quic :
    ∃ history blames,
      Blamed (buildEngine some [{ relayDescriptor with transport := "noise-quic" }])
        (oneCall (tcpNet (.failed .networkDown "")))
        (daemonRun some [{ relayDescriptor with transport := "noise-quic" }] []) history blames ∧
      blames.map Prod.fst = {⟨noiseQuic, ⟨"relay-1"⟩⟩} := by
  have hdown : (tcpNet (.failed .networkDown "")).Down :=
    ⟨fun _ => ⟨.networkDown, "", rfl, rfl⟩, fun _ _ h => by cases h⟩
  obtain ⟨history, blames, hblamed⟩ := local_outage_blames_quic
    [{ relayDescriptor with transport := "noise-quic" }] [] _ (oneCall_dialsOver hdown)
  exact ⟨history, blames, hblamed, hblamed.relays⟩

end Outage

end Vpn1.Engine
