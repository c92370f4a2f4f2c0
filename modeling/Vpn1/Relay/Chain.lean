import Vpn1.Relay.Slots
import Vpn1.Relay.Socks

/-! From the SOCKS front end over any number of ingress relays to the one that dials the destination:
what a client asks for is what is dialed, and what it sends is what arrives, wherever the network cuts
the streams. -/

namespace Vpn1.Relay

open Chunked

section Model

inductive Dial
  | destination (host : String) (port : UInt16)
  | nextHop
  deriving DecidableEq

/-- `handle_stream` until it copies: what it dials, and what it writes there first. -/
def handleStream (role : Role) : Reader IoError (Dial × List UInt8) := do
  let (host, port) ← readDestination
  match role with
  | .combined | .egress => return (.destination host port, [])
  | .ingress =>
    match writeDestination host port with
    | .ok sent => return (.nextHop, sent)
    | .error e => throw e

/-- `handle_client` with a session: the bytes that the tunnel is given. -/
def clientSends (s : List Chunk) : Except SocksError (Except IoError (List UInt8)) := do
  let ((host, port), rest) ← handleClient s
  return (writeDestination host port).map (· ++ bytes rest)

/-- A stream goes through relays of these roles and ends up at a destination. The network between two
relays keeps the bytes and cuts them as it likes. -/
inductive Delivers : List Role → List Chunk → String → UInt16 → List UInt8 → Prop
  | exit {role : Role} {s rest : List Chunk} {host : String} {port : UInt16}
      (h : handleStream role s = .ok ((.destination host port, []), rest)) :
      Delivers [role] s host port (bytes rest)
  | hop {role : Role} {roles : List Role} {s rest next : List Chunk} {sent payload : List UInt8}
      {host : String} {port : UInt16}
      (h : handleStream role s = .ok ((.nextHop, sent), rest)) (hnet : bytes next = sent ++ bytes rest)
      (hnext : Delivers roles next host port payload) :
      Delivers (role :: roles) s host port payload

end Model

section Hops

variable {s rest : List Chunk} {host : String} {port : UInt16}

private theorem handleStream_exit {role : Role} (hrole : role ≠ .ingress) :
    handleStream role s = .ok ((.destination host port, []), rest) ↔
      readDestination s = .ok ((host, port), rest) := by
  constructor
  · intro h
    obtain ⟨⟨host', port'⟩, t, hread, h⟩ := bind_eq_ok.mp h
    cases role with
    | ingress => exact absurd rfl hrole
    | combined | egress =>
      cases pure_eq_ok.mp h
      exact hread
  · intro hread
    rw [handleStream, bind_of_ok hread]
    cases role with
    | ingress => exact absurd rfl hrole
    | combined | egress => rfl

theorem handleStream_ingress {dial : Dial} {sent : List UInt8}
    (h : handleStream .ingress s = .ok ((dial, sent), rest)) :
    dial = .nextHop ∧ sent ++ bytes rest = bytes s := by
  obtain ⟨⟨host, port⟩, t, hread, h⟩ := bind_eq_ok.mp h
  obtain ⟨header, hencode, hbytes⟩ := (readDestination_eq_ok hread).encode
  have hwrite : writeDestination host port = .ok header := by rw [writeDestination, hencode]
  simp only [hwrite] at h
  cases pure_eq_ok.mp h
  exact ⟨rfl, hbytes.symm⟩

private theorem exists_handleStream_ingress (hread : readDestination s = .ok ((host, port), rest)) :
    ∃ sent, handleStream .ingress s = .ok ((.nextHop, sent), rest) := by
  obtain ⟨header, hencode, -⟩ := (readDestination_eq_ok hread).encode
  refine ⟨header, ?_⟩
  rw [handleStream, bind_of_ok hread]
  simp only [writeDestination, hencode]
  rfl

private theorem handleStream_nextHop {role : Role} {sent : List UInt8}
    (h : handleStream role s = .ok ((.nextHop, sent), rest)) : role = .ingress := by
  obtain ⟨⟨host, port⟩, t, -, h⟩ := bind_eq_ok.mp h
  cases role with
  | ingress => rfl
  | combined | egress => cases pure_eq_ok.mp h

end Hops

section Chain

/-- Ingress relays, and behind them one that dials the destination. -/
def Route (roles : List Role) : Prop :=
  ∃ k last, roles = List.replicate k .ingress ++ [last] ∧ last ≠ .ingress

private theorem route_cons (roles : List Role) : Route roles → Route (.ingress :: roles) := by
  rintro ⟨k, last, rfl, hlast⟩
  exact ⟨k + 1, last, rfl, hlast⟩

theorem Delivers.route_and_begins {roles : List Role} {s : List Chunk} {host : String} {port : UInt16}
    {payload : List UInt8} (h : Delivers roles s host port payload) :
    Route roles ∧ Begins (bytes s) host port payload := by
  induction h with
  | @exit role s rest host port h =>
    have hrole : role ≠ .ingress := by
      rintro rfl
      cases (handleStream_ingress h).1
    exact ⟨⟨0, role, rfl, hrole⟩, readDestination_eq_ok ((handleStream_exit hrole).mp h)⟩
  | hop h hnet _ ih =>
    obtain rfl := handleStream_nextHop h
    have hsame := (handleStream_ingress h).2
    rw [hnet, hsame] at ih
    exact ⟨route_cons _ ih.1, ih.2⟩

private theorem delivers_of_begins {k : Nat} {last : Role} (hlast : last ≠ .ingress)
    {s : List Chunk}
    {host : String} {port : UInt16} {payload : List UInt8} (h : Begins (bytes s) host port payload) :
    Delivers (List.replicate k .ingress ++ [last]) s host port payload := by
  obtain ⟨rest, hread, hpayload⟩ := exists_readDestination h
  induction k with
  | zero =>
    rw [← hpayload]
    exact .exit ((handleStream_exit hlast).mpr hread)
  | succ k ih =>
    obtain ⟨sent, hsent⟩ := exists_handleStream_ingress hread
    -- the network may as well leave the stream as the client cut it
    exact .hop hsent (handleStream_ingress hsent).2.symm ih

theorem delivers_iff {roles : List Role} {s : List Chunk} {host : String} {port : UInt16}
    {payload : List UInt8} :
    Delivers roles s host port payload ↔ Route roles ∧ Begins (bytes s) host port payload := by
  constructor
  · exact Delivers.route_and_begins
  · rintro ⟨⟨k, last, rfl, hlast⟩, h⟩
    exact delivers_of_begins hlast h

theorem Begins.unique {bs rest rest' : List UInt8} {host host' : String} {port port' : UInt16}
    (h : Begins bs host port rest) (h' : Begins bs host' port' rest') :
    host = host' ∧ port = port' ∧ rest = rest' := by
  have hdecode := (decode_of_begins h).symm.trans (decode_of_begins h')
  simp only [Except.ok.injEq, Option.some.injEq, Prod.mk.injEq] at hdecode
  obtain ⟨rfl, rfl, -⟩ := hdecode
  obtain ⟨header, hencode, rfl⟩ := h.encode
  obtain ⟨header', hencode', hsplit⟩ := h'.encode
  rw [hencode] at hencode'
  cases hencode'
  exact ⟨rfl, rfl, List.append_cancel_left hsplit⟩

/-- What a client of the front end asks for is dialed, and what it sends then arrives there, over any
route that ends in a relay for it, and over no other. -/
theorem tunnel_exact (s : List Chunk) (request : Request) (payload : List UInt8)
    (hs : bytes s = request.encode ++ payload) :
    ∃ sent, clientSends s = .ok (.ok sent) ∧
      ∀ (wire : List Chunk) (roles : List Role) (host : String) (port : UInt16)
        (arrived : List UInt8), bytes wire = sent →
          (Delivers roles wire host port arrived ↔ Route roles ∧ host = request.address.host ∧
            port = request.port ∧ arrived = payload) := by
  obtain ⟨rest, haccepted, rfl⟩ := exists_handleClient request hs
  obtain ⟨header, hencode⟩ := exists_encode request.address.encodable request.port
  refine ⟨header ++ bytes rest, ?_, ?_⟩
  · have hwrite : writeDestination request.address.host request.port = .ok header := by
      rw [writeDestination, hencode]
    rw [clientSends, haccepted]
    show Except.ok ((writeDestination _ _).map (· ++ bytes rest)) = _
    rw [hwrite]
    rfl
  · intro wire roles host port arrived hwire
    have hbegins : Begins (bytes wire) request.address.host request.port (bytes rest) := by
      rw [hwire]
      exact begins_of_encode hencode
    rw [delivers_iff]
    constructor
    · rintro ⟨hroute, h⟩
      exact ⟨hroute, h.unique hbegins⟩
    · rintro ⟨hroute, rfl, rfl, rfl⟩
      exact ⟨hroute, hbegins⟩

def sampleRequest : Request := ⟨⟨[0], by decide⟩, 0, .domain ⟨"ab", by decide⟩, 80⟩

def sampleClient : List Chunk :=
  [⟨[5, 1, 0, 5, 1, 0, 3, 2, 97], by decide⟩, ⟨[98, 0, 80, 71], by decide⟩]

def sampleWire : List Chunk := [⟨[1, 0], by decide⟩, ⟨[2, 97, 98, 0, 80, 71], by decide⟩]

theorem sampleRequest_exact :
    clientSends sampleClient = .ok (.ok (bytes sampleWire)) ∧
      Delivers [.ingress, .egress] sampleWire "ab" 80 [71] ∧
      ¬ Delivers [.ingress] sampleWire "ab" 80 [71] := by
  have hsends : clientSends sampleClient = .ok (.ok (bytes sampleWire)) := by decide +kernel
  obtain ⟨sent, hsent, hdelivers⟩ := tunnel_exact sampleClient sampleRequest [71] (by decide +kernel)
  have hwire : bytes sampleWire = sent := Except.ok.inj (Except.ok.inj (hsends.symm.trans hsent))
  refine ⟨hsends, ?_, ?_⟩
  · exact (hdelivers _ _ _ _ _ hwire).mpr ⟨⟨1, .egress, rfl, by decide⟩, rfl, rfl, rfl⟩
  · intro h
    obtain ⟨⟨k, last, hroles, hlast⟩, -⟩ := (hdelivers _ _ _ _ _ hwire).mp h
    cases k with
    | zero =>
      cases hroles
      exact hlast rfl
    | succ k => cases k <;> cases hroles

end Chain

end Vpn1.Relay
