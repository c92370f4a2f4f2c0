import Vpn1.Lib.Interleave
import Vpn1.Relay.Framing
import Vpn1.Relay.IdleTimeout

/-! The connection slots of a relay's TLS listener: who gets one, and when it is given back. Each
connection is a task of its own; what happens between two of its waits is one step. Times are in ticks
of one clock. -/

namespace Vpn1.Relay

open Chunked Interleave

section Model

inductive Role
  | combined
  | egress
  | ingress
  deriving DecidableEq

/-- The durations in milliseconds. -/
structure RelayLimits where
  maxConnections : Nat := 256
  idleTimeout : Nat := 120000
  dialTimeout : Nat := 8000
  handshakeTimeout : Nat := 10000

inductive ErrorKind
  | connectionAborted
  | connectionReset
  | interrupted
  | wouldBlock
  | other
  deriving DecidableEq

structure AcceptError where
  kind : ErrorKind
  rawOsError : Option Nat

def isTransientAcceptError (e : AcceptError) : Bool :=
  e.kind ≠ .other || e.rawOsError = some 24 || e.rawOsError = some 23

inductive Ended
  | capReached
  | tlsAcceptFailed
  | tlsHandshakeTimedOut
  | headerTimedOut
  | headerFailed (e : IoError)
  | dialTimedOut
  | dialFailed
  | writeFailed
  | copied
  | copyFailed
  | idleTimeout
  deriving DecidableEq

/-- Where a connection is, with the deadline of the timer that runs. -/
inductive Stage
  | queued
  | handshaking (deadline : Nat)
  | reading (deadline : Nat) (received : List Chunk)
  | dialing (deadline : Nat) (host : String) (port : UInt16)
  | writing (since : Nat) (host : String) (port : UInt16)
  | copying (deadline : Nat) (before activity : UInt64)
  | closed (why : Ended)

structure Answer where
  /-- The handshake, the dial, the write or the copy is over, well or not. -/
  ready : Option Bool
  received : List Chunk
  eof : Bool
  /-- The reads and writes of the copy. -/
  polls : List Poll

structure Listener where
  now : Nat
  /-- The permits of the semaphore. -/
  available : Nat
  listening : Bool

/-- What ends a session gives its permit back. -/
def Listener.finish (s : Listener) (why : Ended) : Stage × Listener :=
  (.closed why, { s with available := s.available + 1 })

/-- `timeout` around something that is not over yet. -/
def Listener.await (s : Listener) (deadline : Nat) (why : Ended) (stage : Stage) : Stage × Listener :=
  if deadline ≤ s.now then s.finish why else (stage, s)

/-- One poll of a connection. What a timer guards is polled before the timer. -/
def RelayLimits.poll (limits : RelayLimits) (role : Role) (a : Answer) (stage : Stage) (s : Listener) :
    Stage × Listener :=
  match stage with
  | .queued =>
    if s.listening then
      if s.available = 0 then (.closed .capReached, s)
      else (.handshaking (s.now + limits.handshakeTimeout), { s with available := s.available - 1 })
    else (.queued, s)
  | .handshaking deadline =>
    match a.ready with
    | some true => (.reading (s.now + limits.idleTimeout) [], s)
    | some false => s.finish .tlsAcceptFailed
    | none => s.await deadline .tlsHandshakeTimedOut (.handshaking deadline)
  | .reading deadline received =>
    match readDestination (received ++ a.received) with
    | .ok ((host, port), _) => (.dialing (s.now + limits.dialTimeout) host port, s)
    | .error .unexpectedEof =>
      if a.eof then s.finish (.headerFailed .unexpectedEof)
      else s.await deadline .headerTimedOut (.reading deadline (received ++ a.received))
    | .error e => s.finish (.headerFailed e)
  | .dialing deadline host port =>
    match a.ready with
    | some true =>
      match role with
      | .ingress => (.writing s.now host port, s)
      | _ => (.copying (s.now + limits.idleTimeout) 0 0, s)
    | some false => s.finish .dialFailed
    | none => s.await deadline .dialTimedOut (.dialing deadline host port)
  | .writing since host port =>
    -- no timer runs here
    match writeDestination host port, a.ready with
    | .ok _, some true => (.copying (s.now + limits.idleTimeout) 0 0, s)
    | .ok _, none => (.writing since host port, s)
    | _, _ => s.finish .writeFailed
  | .copying deadline before activity =>
    let activity := a.polls.foldl track activity
    match a.ready with
    | some true => s.finish .copied
    | some false => s.finish .copyFailed
    | none =>
      if deadline ≤ s.now then
        if activity = before then s.finish .idleTimeout
        else (.copying (s.now + limits.idleTimeout) activity activity, s)
      else (.copying deadline before activity, s)
  | .closed why => (.closed why, s)

inductive Outside
  | tick
  | acceptFailed (e : AcceptError)

def Listener.outside (s : Listener) : Outside → Listener
  | .tick => { s with now := s.now + 1 }
  | .acceptFailed e => { s with listening := s.listening && isTransientAcceptError e }

def RelayLimits.serveTlsOn (limits : RelayLimits) (role : Role) :
    Program Listener Stage Answer Outside where
  step := limits.poll role
  env b s := s.outside b

def RelayLimits.up {ι : Type} (limits : RelayLimits) : System ι Listener Stage :=
  ⟨⟨0, limits.maxConnections, true⟩, fun _ => .queued⟩

end Model

section Steps

def Stage.live : Stage → Bool
  | .queued | .closed _ => false
  | _ => true

/-- What one poll of a connection can do. -/
inductive Polls (limits : RelayLimits) (role : Role) (a : Answer) (s : Listener) :
    Stage → Stage → Listener → Prop
  | refuse (hlistening : s.listening = true) (hfull : s.available = 0) :
      Polls limits role a s .queued (.closed .capReached) s
  | enter (hlistening : s.listening = true) (hfree : s.available ≠ 0) :
      Polls limits role a s .queued (.handshaking (s.now + limits.handshakeTimeout))
        { s with available := s.available - 1 }
  | ignore (hdeaf : s.listening = false) : Polls limits role a s .queued .queued s
  | finish {stage why} (hlive : stage.live = true) (hwait : ∀ since host port,
        stage = .writing since host port → (writeDestination host port).isOk = false ∨ a.ready.isSome) :
      Polls limits role a s stage (.closed why) { s with available := s.available + 1 }
  | waitHandshake {deadline} :
      Polls limits role a s (.handshaking deadline) (.handshaking deadline) s
  | waitHeader {deadline received} :
      Polls limits role a s (.reading deadline received) (.reading deadline (received ++ a.received)) s
  | waitDial {deadline host port} :
      Polls limits role a s (.dialing deadline host port) (.dialing deadline host port) s
  | waitWrite {since host port} :
      Polls limits role a s (.writing since host port) (.writing since host port) s
  | waitCopy {deadline before activity} :
      Polls limits role a s (.copying deadline before activity)
        (.copying deadline before (a.polls.foldl track activity)) s
  | shaken {deadline} :
      Polls limits role a s (.handshaking deadline) (.reading (s.now + limits.idleTimeout) []) s
  | header {deadline received host port} :
      Polls limits role a s (.reading deadline received)
        (.dialing (s.now + limits.dialTimeout) host port) s
  | dialed {deadline host port} :
      Polls limits role a s (.dialing deadline host port)
        (.copying (s.now + limits.idleTimeout) 0 0) s
  | hop {deadline host port} (hrole : role = .ingress) :
      Polls limits role a s (.dialing deadline host port) (.writing s.now host port) s
  | written {since host port} (hready : a.ready.isSome) :
      Polls limits role a s (.writing since host port) (.copying (s.now + limits.idleTimeout) 0 0) s
  | window {deadline before activity} (hmoved : a.polls.foldl track activity ≠ before) :
      Polls limits role a s (.copying deadline before activity)
        (.copying (s.now + limits.idleTimeout) (a.polls.foldl track activity)
          (a.polls.foldl track activity)) s
  | rest {why} : Polls limits role a s (.closed why) (.closed why) s

variable {limits : RelayLimits} {role : Role}

theorem Polls.await {a : Answer} {s : Listener} {stage next : Stage} {deadline : Nat} {why : Ended}
    (hlive : stage.live = true) (htimed : ∀ since host port, stage ≠ .writing since host port)
    (hnext : Polls limits role a s stage next s) :
    Polls limits role a s stage (s.await deadline why next).1 (s.await deadline why next).2 := by
  unfold Listener.await Listener.finish
  split_ifs
  · exact .finish hlive fun since host port hwriting => absurd hwriting (htimed since host port)
  · exact hnext

theorem polls (limits : RelayLimits) (role : Role) (a : Answer) (stage : Stage) (s : Listener) :
    Polls limits role a s stage ((limits.serveTlsOn role).step a stage s).1
      ((limits.serveTlsOn role).step a stage s).2 := by
  simp only [RelayLimits.serveTlsOn]
  cases stage with
  | queued =>
    rw [RelayLimits.poll]
    split_ifs with hlistening hfull
    · exact .refuse hlistening hfull
    · exact .enter hlistening hfull
    · exact .ignore (Bool.eq_false_of_not_eq_true hlistening)
  | handshaking deadline =>
    rw [RelayLimits.poll]
    split
    · exact .shaken
    · exact .finish rfl (by simp)
    · exact .await rfl (by simp) .waitHandshake
  | reading deadline received =>
    rw [RelayLimits.poll]
    split
    · exact .header
    · split_ifs
      · exact .finish rfl (by simp)
      · exact .await rfl (by simp) .waitHeader
    · exact .finish rfl (by simp)
  | dialing deadline host port =>
    unfold RelayLimits.poll
    dsimp only
    split
    · split
      · exact .hop rfl
      · exact .dialed
    · exact .finish rfl (by simp)
    · exact .await rfl (by simp) .waitDial
  | writing since host port =>
    rw [RelayLimits.poll]
    split
    · next hready => exact .written (by rw [hready]; rfl)
    · exact .waitWrite
    · next hother =>
      apply Polls.finish rfl
      intro since host port hstage
      cases hstage
      cases hwrite : writeDestination host port with
      | error e => exact .inl rfl
      | ok sent =>
        cases hready : a.ready with
        | none => exact absurd hready (hother sent hwrite)
        | some ok => exact .inr rfl
  | copying deadline before activity =>
    rw [RelayLimits.poll]
    split
    · exact .finish rfl (by simp)
    · exact .finish rfl (by simp)
    · split_ifs with hdue hsame
      · exact .finish rfl (by simp)
      · exact .window hsame
      · exact .waitCopy
  | closed why => exact .rest

end Steps

section Capacity

variable {limits : RelayLimits} {role : Role} {ι : Type} [DecidableEq ι] [Fintype ι]

def Stage.permits (stage : Stage) : Nat := if stage.live then 1 else 0

theorem Polls.permits {a : Answer} {s t : Listener} {p q : Stage} (h : Polls limits role a s p q t) :
    t.available + q.permits = s.available + p.permits := by
  cases h with
  | enter hlistening hfree =>
    have hone : s.available - 1 + 1 = s.available := by omega
    exact hone
  | finish hlive =>
    simp only [Stage.permits, hlive, if_true]
    exact Nat.add_zero _
  | refuse | ignore | waitHandshake | waitHeader | waitDial | waitWrite | waitCopy | shaken | header
  | dialed | hop | written | window | rest => rfl

def inUse (σ : System ι Listener Stage) : Nat := ∑ i, (σ.phase i).permits

private theorem available_add_inUse (limits : RelayLimits) (role : Role)
    (es : List (Event ι Answer Outside))
    (σ : System ι Listener Stage) :
    (run (limits.serveTlsOn role) es σ).shared.available + inUse (run (limits.serveTlsOn role) es σ) =
      σ.shared.available + inUse σ := by
  have hrun : held Listener.available Stage.permits (run (limits.serveTlsOn role) es σ) +
      total (limits.serveTlsOn role) (fun _ _ _ => 0) es σ =
        held Listener.available Stage.permits σ +
          total (limits.serveTlsOn role) (fun _ _ _ => 0) es σ := by
    apply held_run
    · intro a p s
      exact (polls limits role a p s).permits
    · intro b s
      cases b <;> rfl
  exact Nat.add_right_cancel hrun

def survives : Event ι Answer Outside → Bool
  | .env (.acceptFailed e) => isTransientAcceptError e
  | _ => true

omit [Fintype ι] in
theorem Polls.listening {a : Answer} {s t : Listener} {p q : Stage} (h : Polls limits role a s p q t) :
    t.listening = s.listening := by
  cases h <;> rfl

omit [Fintype ι] in
private theorem listening_run (limits : RelayLimits) (role : Role)
    (es : List (Event ι Answer Outside)) (σ : System ι Listener Stage) :
    (run (limits.serveTlsOn role) es σ).shared.listening =
      (σ.shared.listening && es.all survives) := by
  induction es generalizing σ with
  | nil => simp [run]
  | cons e es ih =>
    rw [run_cons, ih, List.all_cons, ← Bool.and_assoc]
    congr 1
    cases e with
    | task i a =>
      rw [show survives (.task i a : Event ι Answer Outside) = true from rfl, Bool.and_true]
      exact (polls limits role a (σ.phase i) σ.shared).listening
    | env b =>
      cases b with
      | tick => exact (Bool.and_true _).symm
      | acceptFailed e => rfl

/-- At any time of any run the permits add up; a connection is dropped exactly if as many as the limit
allows are served; and the listener is up exactly while no accept failed for good. -/
theorem slots_exact (limits : RelayLimits) (role : Role) (es : List (Event ι Answer Outside)) :
    (run (limits.serveTlsOn role) es limits.up).shared.available +
        inUse (run (limits.serveTlsOn role) es limits.up) = limits.maxConnections ∧
      (∀ i a, (run (limits.serveTlsOn role) es limits.up).phase i = .queued → es.all survives = true →
        ((run (limits.serveTlsOn role) (es ++ [.task i a]) limits.up).phase i = .closed .capReached ↔
          inUse (run (limits.serveTlsOn role) es limits.up) = limits.maxConnections)) ∧
      (run (limits.serveTlsOn role) es limits.up).shared.listening = es.all survives := by
  have hsum := available_add_inUse limits role es limits.up
  have hlistening := listening_run limits role es limits.up
  have hnone : inUse (limits.up (ι := ι)) = 0 := Finset.sum_eq_zero fun i _ => rfl
  rw [hnone, Nat.add_zero, show (limits.up (ι := ι)).shared.available = limits.maxConnections from rfl]
    at hsum
  refine ⟨hsum, ?_, hlistening.trans (Bool.true_and _)⟩
  intro i a hqueued hup
  rw [run_concat, phase_act_self]
  rw [hup] at hlistening
  generalize run (limits.serveTlsOn role) es limits.up = τ at hqueued hsum hlistening ⊢
  have hpath := polls limits role a (τ.phase i) τ.shared
  generalize (limits.serveTlsOn role).step a (τ.phase i) τ.shared = r at hpath ⊢
  obtain ⟨q, t⟩ := r
  rw [hqueued] at hpath
  cases hpath with
  | refuse hlistening hfull =>
    constructor
    · intro _
      omega
    · intro _
      rfl
  | enter hlistening hfree =>
    constructor
    · intro hclosed
      cases hclosed
    · intro hfull
      omega
  | ignore hdeaf =>
    rw [hdeaf] at hlistening
    cases hlistening
  | finish hlive => cases hlive

end Capacity

section Recovery

variable {limits : RelayLimits} {role : Role} {late write : Nat}

namespace Stage

/-- The time by which it is polled, if no timer is `late` by more and no header takes longer than
`write`. -/
def expiry (late write : Nat) : Stage → Nat
  | handshaking deadline | reading deadline _ | dialing deadline _ _ | copying deadline _ _ =>
    deadline + late
  | writing since _ _ => since + write
  | queued | closed _ => 0

/-- The time that the stages behind it can take when no bytes are copied. -/
def allowance (limits : RelayLimits) (late write : Nat) : Stage → Nat
  | handshaking _ => limits.idleTimeout + late + (limits.dialTimeout + late) + write +
      (limits.idleTimeout + late)
  | reading _ _ => limits.dialTimeout + late + write + (limits.idleTimeout + late)
  | dialing _ _ _ => write + (limits.idleTimeout + late)
  | writing _ _ _ => limits.idleTimeout + late
  | copying _ before activity => if activity = before then 0 else limits.idleTimeout + late
  | queued | closed _ => 0

def Timely (limits : RelayLimits) (now : Nat) : Stage → Prop
  | handshaking deadline => deadline ≤ now + limits.handshakeTimeout
  | reading deadline _ => deadline ≤ now + limits.idleTimeout
  | dialing deadline _ _ => deadline ≤ now + limits.dialTimeout
  | writing since _ _ => since ≤ now
  | copying deadline _ _ => deadline ≤ now + limits.idleTimeout
  | queued | closed _ => True

end Stage

/-- How long a connection that copies no bytes can keep its slot. -/
def RelayLimits.lifetime (limits : RelayLimits) (late write : Nat) : Nat :=
  limits.handshakeTimeout + late +
    (limits.idleTimeout + late + (limits.dialTimeout + late) + write + (limits.idleTimeout + late))

theorem foldl_track_silent {ps : List Poll} (h : ∀ p ∈ ps, p.moved = false) (c : UInt64) :
    ps.foldl track c = c := by
  rw [Trace.foldl_track, Trace.countP_moved_eq_zero h]
  exact UInt64.add_zero c

section Step

variable {a : Answer} {s t : Listener} {p q : Stage}

theorem Polls.timely (h : Polls limits role a s p q t) (hp : p.Timely limits s.now) :
    q.Timely limits t.now := by
  cases h with
  | enter | shaken | header | dialed | hop | written | window => exact Nat.le_refl _
  | waitHandshake | waitHeader | waitDial | waitWrite | waitCopy => exact hp
  | refuse | ignore | finish | rest => trivial

theorem Polls.allowance (h : Polls limits role a s p q t) (late write : Nat)
    (hsilent : ∀ poll ∈ a.polls, poll.moved = false) (hp : p.live = true) (hq : q.live = true) :
    max t.now (q.expiry late write) + q.allowance limits late write ≤
      max s.now (p.expiry late write) + p.allowance limits late write := by
  have hnow : ∀ d, s.now ≤ max s.now d := fun d => Nat.le_max_left _ _
  cases h with
  | refuse | ignore | enter | rest => cases hp
  | finish => cases hq
  | waitHandshake | waitHeader | waitDial | waitWrite => exact Nat.le_refl _
  | waitCopy =>
    simp only [foldl_track_silent hsilent]
    exact Nat.le_refl _
  | shaken | header | dialed | hop =>
    simp only [Stage.expiry, Stage.allowance, if_true]
    omega
  | written =>
    simp only [Stage.expiry, Stage.allowance, if_true]
    omega
  | window hmoved =>
    rw [foldl_track_silent hsilent] at hmoved
    simp only [Stage.expiry, Stage.allowance, if_true, if_neg hmoved, foldl_track_silent hsilent]
    omega

end Step

variable {ι : Type} [DecidableEq ι]

def ticks (es : List (Event ι Answer Outside)) : Nat :=
  es.countP fun
    | .env .tick => true
    | _ => false

def Silent (es : List (Event ι Answer Outside)) : Prop :=
  ∀ i a, .task i a ∈ es → ∀ poll ∈ a.polls, poll.moved = false

/-- The clock does not run ahead of the timers, nor of the headers that are written. -/
def InTime (late write : Nat) (σ : System ι Listener Stage) : Event ι Answer Outside → Prop
  | .env .tick => ∀ i, (σ.phase i).live = true → σ.shared.now < (σ.phase i).expiry late write
  | _ => True

private theorem closed_run {σ : System ι Listener Stage} {i : ι} {why : Ended}
    (hσ : σ.phase i = .closed why) (es : List (Event ι Answer Outside)) :
    (run (limits.serveTlsOn role) es σ).phase i = .closed why := by
  induction es generalizing σ with
  | nil => exact hσ
  | cons e es ih =>
    apply ih
    cases e with
    | env b => exact hσ
    | task j a =>
      by_cases hj : i = j
      · rw [← hj, phase_act_self, hσ]
        rfl
      · rw [phase_act_of_ne hj, hσ]

theorem Polls.live_or_closed {a : Answer} {s t : Listener} {p q : Stage}
    (h : Polls limits role a s p q t) (hp : p.live = true) : q.live = true ∨ ∃ why, q = .closed why := by
  cases h with
  | refuse | ignore | enter | rest => cases hp
  | finish => exact .inr ⟨_, rfl⟩
  | waitHandshake | waitHeader | waitDial | waitWrite | waitCopy | shaken | header | dialed | hop
  | written | window => exact .inl rfl

theorem Polls.now {a : Answer} {s t : Listener} {p q : Stage} (h : Polls limits role a s p q t) :
    t.now = s.now := by
  cases h <;> rfl

private theorem closed_or_in_time {es : List (Event ι Answer Outside)} {σ : System ι Listener Stage}
    {i : ι} {deadline : Nat} (hsilent : Silent es)
    (hontime : Along (limits.serveTlsOn role) (InTime late write) es σ)
    (hσ : (σ.phase i).live = true) (hbound : max σ.shared.now ((σ.phase i).expiry late write) +
      (σ.phase i).allowance limits late write ≤ deadline) :
    (∃ why, (run (limits.serveTlsOn role) es σ).phase i = .closed why) ∨
      σ.shared.now + ticks es ≤ deadline := by
  induction es generalizing σ with
  | nil =>
    right
    rw [ticks, List.countP_nil]
    omega
  | cons e es ih =>
    have hrest : Silent es := fun j a hmem => hsilent j a (List.mem_cons_of_mem _ hmem)
    rw [run_cons]
    cases e with
    | task j a =>
      have hpath := polls limits role a (σ.phase j) σ.shared
      have hnow : (act (limits.serveTlsOn role) σ (.task j a)).shared.now = σ.shared.now := hpath.now
      have hticks : ticks (.task j a :: es) = ticks es := by simp [ticks]
      rw [hticks, ← hnow]
      by_cases hj : i = j
      · subst hj
        have hphase : (act (limits.serveTlsOn role) σ (.task i a)).phase i =
            ((limits.serveTlsOn role).step a (σ.phase i) σ.shared).1 := phase_act_self i a
        rcases hpath.live_or_closed hσ with hlive | ⟨why, hclosed⟩
        · have hless := hpath.allowance late write (hsilent i a List.mem_cons_self) hσ hlive
          apply ih hrest hontime.2
          · rw [hphase]
            exact hlive
          · rw [hphase]
            exact hless.trans hbound
        · exact .inl ⟨why, closed_run (hphase.trans hclosed) es⟩
      · apply ih hrest hontime.2
        · rwa [phase_act_of_ne hj]
        · rwa [phase_act_of_ne hj, hnow]
    | env b =>
      cases b with
      | tick =>
        have htimer := hontime.1 i hσ
        have hticks : ticks (.env .tick :: es) = ticks es + 1 := by simp [ticks]
        have hnow : (act (limits.serveTlsOn role) σ (.env .tick)).shared.now = σ.shared.now + 1 := rfl
        have hnext := ih (σ := act (limits.serveTlsOn role) σ (.env .tick)) hrest hontime.2 hσ ?_
        · rw [hnow] at hnext
          rw [hticks]
          exact hnext.imp_right fun hle => by omega
        · rw [hnow]
          show max (σ.shared.now + 1) ((σ.phase i).expiry late write) +
            (σ.phase i).allowance limits late write ≤ deadline
          omega
      | acceptFailed e =>
        have hticks : ticks (.env (.acceptFailed e) :: es) = ticks es := by simp [ticks]
        rw [hticks]
        exact ih (σ := act (limits.serveTlsOn role) σ (.env (.acceptFailed e))) hrest hontime.2 hσ hbound

private theorem timely_run (limits : RelayLimits) (role : Role)
    (past : List (Event ι Answer Outside))
    {σ : System ι Listener Stage} (hσ : ∀ i, (σ.phase i).Timely limits σ.shared.now) (i : ι) :
    ((run (limits.serveTlsOn role) past σ).phase i).Timely limits
      (run (limits.serveTlsOn role) past σ).shared.now := by
  induction past generalizing σ with
  | nil => exact hσ i
  | cons e past ih =>
    apply ih
    cases e with
    | task j a =>
      have hpath := polls limits role a (σ.phase j) σ.shared
      have hnow : (act (limits.serveTlsOn role) σ (.task j a)).shared.now = σ.shared.now := hpath.now
      have hmoved := hpath.timely (hσ j)
      rw [hpath.now] at hmoved
      rw [hnow]
      exact forall_phase_act (fun p : Stage => p.Timely limits σ.shared.now) hσ hmoved
    | env b =>
      intro j
      cases b with
      | acceptFailed e => exact hσ j
      | tick =>
        have hbefore := hσ j
        show (σ.phase j).Timely limits (σ.shared.now + 1)
        generalize σ.phase j = p at hbefore ⊢
        cases p with
        | queued | closed => trivial
        | handshaking | reading | dialing | writing | copying =>
          simp only [Stage.Timely] at hbefore ⊢
          omega

theorem Stage.Timely.bound {stage : Stage} {now : Nat} (h : stage.Timely limits now)
    (hlive : stage.live = true) (late write : Nat) :
    max now (stage.expiry late write) + stage.allowance limits late write ≤
      now + limits.lifetime late write := by
  cases stage with
  | queued | closed => cases hlive
  | handshaking | reading | dialing | writing =>
    simp only [Stage.Timely, Stage.expiry, Stage.allowance, RelayLimits.lifetime] at h ⊢
    omega
  | copying deadline before activity =>
    simp only [Stage.Timely, Stage.expiry, Stage.allowance, RelayLimits.lifetime] at h ⊢
    split_ifs <;> omega

/-- Whatever a relay has been through: once no bytes are copied for the lifetime of a connection, every
connection that was accepted before has ended. The bound rests on the timers alone, but for the header
that an ingress writes, on which no timer runs. -/
theorem slots_recover (limits : RelayLimits) (role : Role) (past es : List (Event ι Answer Outside))
    (late write : Nat)
    (hontime : Along (limits.serveTlsOn role) (InTime late write) es
      (run (limits.serveTlsOn role) past limits.up))
    (hsilent : Silent es) (hticks : limits.lifetime late write < ticks es) (i : ι)
    (hi : (run (limits.serveTlsOn role) past limits.up).phase i ≠ .queued) :
    ∃ why, (run (limits.serveTlsOn role) (past ++ es) limits.up).phase i = .closed why := by
  have htimely := timely_run limits role past (σ := limits.up) (fun j => by trivial) i
  rw [run_append]
  generalize run (limits.serveTlsOn role) past limits.up = τ at htimely hontime hi ⊢
  cases hstage : τ.phase i with
  | queued => exact absurd hstage hi
  | closed why => exact ⟨why, closed_run hstage es⟩
  | handshaking | reading | dialing | writing | copying =>
    have hlive : (τ.phase i).live = true := by rw [hstage]; rfl
    have hbound := htimely.bound hlive late write
    rcases closed_or_in_time hsilent hontime hlive hbound with hclosed | hle
    · exact hclosed
    · omega

def tightLimits : RelayLimits := ⟨1, 1, 1, 1⟩

def noAnswer : Answer := ⟨none, [], false, []⟩

/-- The slot that a silent peer took is given back. -/
theorem silent_peer_ended :
    (run (tightLimits.serveTlsOn .combined) [.task () noAnswer] tightLimits.up).phase () =
        .handshaking 1 ∧
      ∃ why, (run (tightLimits.serveTlsOn .combined) ([.task () noAnswer] ++
        (.env .tick :: .task () noAnswer :: List.replicate 4 (.env .tick))) tightLimits.up).phase () =
          .closed why := by
  refine ⟨rfl, slots_recover tightLimits .combined [.task () noAnswer] _ 0 0 ?_ ?_ (by decide) () ?_⟩
  · refine ⟨?_, trivial, ?_, ?_, ?_, ?_, trivial⟩
    all_goals
      intro i
      decide +revert
  · intro i a hmem
    obtain rfl : a = noAnswer := by simpa using hmem
    simp [noAnswer]
  · intro hqueued
    cases hqueued

end Recovery

section Stalled

variable {limits : RelayLimits} {role : Role} {ι : Type} [DecidableEq ι]

def Stage.stalled : Stage → Bool
  | .writing _ host port => (writeDestination host port).isOk
  | _ => false

def Stalls (σ : System ι Listener Stage) : Event ι Answer Outside → Prop
  | .task i a => (σ.phase i).live = true → a.ready = none
  | .env _ => True

theorem Polls.stalled {a : Answer} {s t : Listener} {p q : Stage} (h : Polls limits role a s p q t)
    (hfull : s.available = 0) (hp : p.live = true → p.stalled = true ∧ a.ready = none) :
    t.available = 0 ∧ q.live = p.live ∧ (q.live = true → q.stalled = true) := by
  cases h with
  | refuse | ignore | rest => exact ⟨hfull, rfl, fun hlive => by cases hlive⟩
  | enter hlistening hfree => exact absurd hfull hfree
  | waitWrite => exact ⟨hfull, rfl, fun hlive => (hp hlive).1⟩
  | written hready =>
    rw [(hp rfl).2] at hready
    cases hready
  | finish hlive hwait =>
    obtain ⟨hstalled, hpending⟩ := hp hlive
    cases p with
    | writing since host port =>
      rcases hwait since host port rfl with hrefused | hready
      · rw [Stage.stalled, hrefused] at hstalled
        cases hstalled
      · rw [hpending] at hready
        cases hready
    | queued | closed | handshaking | reading | dialing | copying => cases hstalled
  | waitHandshake | waitHeader | waitDial | waitCopy | shaken | header | dialed | hop | window =>
    cases (hp rfl).1

/-- Nothing ends a wait for the next hop: while it stalls the connections that have all the slots,
nobody else is served, however much time passes. -/
theorem stalled_hop_starves (limits : RelayLimits) (role : Role) (σ : System ι Listener Stage)
    (hfull : σ.shared.available = 0)
    (hstalled : ∀ i, (σ.phase i).live = true → (σ.phase i).stalled = true)
    (es : List (Event ι Answer Outside)) (hes : Along (limits.serveTlsOn role) Stalls es σ) :
    (run (limits.serveTlsOn role) es σ).shared.available = 0 ∧
      ∀ i, ((run (limits.serveTlsOn role) es σ).phase i).live = (σ.phase i).live := by
  induction es generalizing σ with
  | nil => exact ⟨hfull, fun i => rfl⟩
  | cons e es ih =>
    rw [run_cons]
    cases e with
    | env b =>
      have hfull' : (act (limits.serveTlsOn role) σ (.env b)).shared.available = 0 := by
        cases b <;> exact hfull
      exact ih (act (limits.serveTlsOn role) σ (.env b)) hfull' hstalled hes.2
    | task j a =>
      have hpath := polls limits role a (σ.phase j) σ.shared
      obtain ⟨hfull', hsame, hstays⟩ :=
        hpath.stalled hfull fun hlive => ⟨hstalled j hlive, hes.1 hlive⟩
      have hall := forall_phase_act (fun p : Stage => p.live = true → p.stalled = true) hstalled hstays
      obtain ⟨hend, hlives⟩ := ih (act (limits.serveTlsOn role) σ (.task j a)) hfull' hall hes.2
      refine ⟨hend, fun i => ?_⟩
      rw [hlives i]
      by_cases hi : i = j
      · rw [hi, phase_act_self, hsame]
      · rw [phase_act_of_ne hi]

/-- An ingress with one slot: the first peer is through to the next hop, which takes no header. -/
def stalledIngress : System (Fin 2) Listener Stage :=
  run (tightLimits.serveTlsOn .ingress)
    [.task 0 noAnswer, .task 0 { noAnswer with ready := some true },
      .task 0 { noAnswer with received := [⟨[1, 0, 1, 97, 0, 80], by decide⟩] },
      .task 0 { noAnswer with ready := some true }]
    tightLimits.up

theorem stalledIngress_starves :
    (stalledIngress.phase 0).stalled = true ∧
      (run (tightLimits.serveTlsOn .ingress) (List.replicate 9 (.env .tick) ++ [.task 1 noAnswer])
        stalledIngress).shared.available = 0 := by
  refine ⟨by decide +kernel, (stalled_hop_starves tightLimits .ingress stalledIngress ?_ ?_ _ ?_).1⟩
  · decide +kernel
  · decide +kernel
  · refine ⟨trivial, trivial, trivial, trivial, trivial, trivial, trivial, trivial, trivial, ?_, trivial⟩
    intro _
    rfl

end Stalled

end Vpn1.Relay
