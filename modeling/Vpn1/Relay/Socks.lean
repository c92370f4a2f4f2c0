import Vpn1.Lib.Utf8
import Vpn1.Relay.Framing

/-! The SOCKS front end of the client, up to the destination it accepts, and the texts of numeric
addresses. Every accepted destination has a header, and the header is exact from end to end. -/

namespace Vpn1.Relay

open Bytes Chunked

section Addresses

/-- The text of `Ipv4Addr`. -/
def ipv4Text (octets : List UInt8) : List Char :=
  ['.'].intercalate (octets.map fun b => Nat.toDigits 10 b.toNat)

structure Span where
  start : Nat
  len : Nat

/-- One turn of the search for the longest run: the longest so far, and the current one. -/
def Span.scan (found : Span × Span) (indexed : Nat × Nat) : Span × Span :=
  let (longest, current) := found
  let (i, segment) := indexed
  if segment = 0 then
    let current : Span := ⟨if current.len = 0 then i else current.start, current.len + 1⟩
    (if current.len > longest.len then current else longest, current)
  else (longest, ⟨0, 0⟩)

def longestZeroes (segments : List Nat) : Span :=
  ((segments.zipIdx.map Prod.swap).foldl Span.scan (⟨0, 0⟩, ⟨0, 0⟩)).1

def segmentsText (segments : List Nat) : List Char :=
  [':'].intercalate (segments.map (Nat.toDigits 16))

/-- The text of `Ipv6Addr`: a mapped address ends in its IPv4 text, and else the longest run of zero
segments is left out. -/
def ipv6Text (octets : List UInt8) : List Char :=
  let segments := (List.range 8).map fun i => ofBigEndian ((octets.drop (2 * i)).take 2)
  if segments.take 6 = [0, 0, 0, 0, 0, 0xffff] then
    "::ffff:".toList ++ ipv4Text (octets.drop 12)
  else
    let zeroes := longestZeroes segments
    if zeroes.len > 1 then
      segmentsText (segments.take zeroes.start) ++ "::".toList ++
        segmentsText (segments.drop (zeroes.start + zeroes.len))
    else segmentsText segments

end Addresses

section Model

/-- What ends a session before it is connected, with the reply that is sent first. -/
inductive SocksError
  | unexpectedEof
  | unsupportedVersion (ver : UInt8)
  | onlyConnect (reply : List UInt8) (cmd : UInt8)
  | invalidDomainName
  | unsupportedAddress (reply : List UInt8) (atyp : UInt8)
  deriving DecidableEq

def greet : Reader SocksError (List UInt8) := do
  let ver ← readU8 .unexpectedEof
  if ver ≠ 0x05 then throw (.unsupportedVersion ver)
  else
    let nmethods ← readU8 .unexpectedEof
    let _methods ← readExact .unexpectedEof nmethods.toNat
    return [0x05, 0x00]

def readHost (atyp : UInt8) : Reader SocksError String :=
  if atyp = 0x01 then do
    let buf ← readExact .unexpectedEof 4
    return String.ofList (ipv4Text buf)
  else if atyp = 0x03 then do
    let len ← readU8 .unexpectedEof
    let buf ← readExact .unexpectedEof len.toNat
    match fromUtf8 buf with
    | some host => return host
    | none => throw .invalidDomainName
  else if atyp = 0x04 then do
    let buf ← readExact .unexpectedEof 16
    return String.ofList (ipv6Text buf)
  else throw (.unsupportedAddress [0x05, 0x08, 0x00, 0x01, 0, 0, 0, 0, 0, 0] atyp)

def readRequest : Reader SocksError (String × UInt16) := do
  let ver ← readU8 .unexpectedEof
  let cmd ← readU8 .unexpectedEof
  let _rsv ← readU8 .unexpectedEof
  let atyp ← readU8 .unexpectedEof
  if ver ≠ 0x05 ∨ cmd ≠ 0x01 then
    throw (.onlyConnect [0x05, 0x07, 0x00, 0x01, 0, 0, 0, 0, 0, 0] cmd)
  else
    let host ← readHost atyp
    let port ← readU16 .unexpectedEof
    return (host, port)

/-- `handle_client` until it connects. -/
def handleClient : Reader SocksError (String × UInt16) := do
  let _reply ← greet
  readRequest

end Model

section Bounds

private theorem asBytes_ofList (cs : List Char) : asBytes (String.ofList cs) = Utf8.bytes cs := by
  rw [asBytes, String.toByteArray_ofList, List.utf8Encode]
  simp [Utf8.bytes]

private theorem length_asBytes_ofList_le (cs : List Char) :
    (asBytes (String.ofList cs)).length ≤ 4 * cs.length := by
  rw [asBytes_ofList]
  induction cs with
  | nil => exact Nat.zero_le _
  | cons c cs ih =>
    have hchar := c.utf8Size_le_four
    rw [Utf8.bytes_cons, List.length_append, String.length_utf8EncodeChar, List.length_cons]
    omega

private theorem length_intercalate_le (sep : Char) {parts : List (List Char)} {k : Nat}
    (h : ∀ p ∈ parts, p.length ≤ k) :
    ([sep].intercalate parts).length ≤ (k + 1) * parts.length := by
  induction parts with
  | nil => exact Nat.zero_le _
  | cons p parts ih =>
    obtain ⟨hp, hrest⟩ := List.forall_mem_cons.mp h
    have hnext := ih hrest
    rw [List.length_cons, Nat.mul_succ]
    cases parts with
    | nil =>
      rw [List.intercalate_singleton]
      omega
    | cons q parts =>
      rw [List.intercalate_cons_cons, List.length_append, List.length_append, List.length_singleton]
      omega

private theorem length_ipv4Text_le {octets : List UInt8} (h : octets.length ≤ 4) :
    (ipv4Text octets).length ≤ 16 := by
  have hdigits : ∀ p ∈ octets.map (fun b => Nat.toDigits 10 b.toNat), p.length ≤ 3 := by
    intro p hp
    obtain ⟨b, -, rfl⟩ := List.mem_map.mp hp
    have hlt := b.toNat_lt
    exact (Nat.length_toDigits_le_iff (by decide) (by decide)).mpr (by omega)
  have hle := length_intercalate_le '.' hdigits
  rw [List.length_map] at hle
  rw [ipv4Text]
  omega

theorem length_segmentsText_le {segments : List Nat} (h : ∀ n ∈ segments, n < 65536) :
    (segmentsText segments).length ≤ 5 * segments.length := by
  have hdigits : ∀ p ∈ segments.map (Nat.toDigits 16), p.length ≤ 4 := by
    intro p hp
    obtain ⟨n, hn, rfl⟩ := List.mem_map.mp hp
    exact (Nat.length_toDigits_le_iff (by decide) (by decide)).mpr (h n hn)
  have hle := length_intercalate_le ':' hdigits
  rwa [List.length_map] at hle

private theorem length_ipv6Text_le {octets : List UInt8} (h : octets.length = 16) :
    (ipv6Text octets).length ≤ 42 := by
  obtain ⟨segments, hsegments⟩ : ∃ segments, segments = (List.range 8).map fun i =>
      ofBigEndian ((octets.drop (2 * i)).take 2) := ⟨_, rfl⟩
  have hcount : segments.length = 8 := by rw [hsegments, List.length_map, List.length_range]
  have hsmall : ∀ n ∈ segments, n < 65536 := by
    intro n hn
    rw [hsegments] at hn
    obtain ⟨i, -, rfl⟩ := List.mem_map.mp hn
    have hlt := ofBigEndian_lt ((octets.drop (2 * i)).take 2)
    have hwidth : 256 ^ ((octets.drop (2 * i)).take 2).length ≤ 256 ^ 2 :=
      Nat.pow_le_pow_right (by decide) (List.length_take_le _ _)
    omega
  unfold ipv6Text
  rw [← hsegments]
  dsimp only
  split_ifs with hmapped hrun
  · have hlast : (octets.drop 12).length ≤ 4 := by
      rw [List.length_drop]
      omega
    have hipv4 := length_ipv4Text_le hlast
    rw [List.length_append]
    have hfront : "::ffff:".toList.length = 7 := by decide
    omega
  · obtain ⟨start, len⟩ := longestZeroes segments
    have hbefore : ∀ n ∈ segments.take start, n < 65536 :=
      fun n hn => hsmall n (List.mem_of_mem_take hn)
    have hbehind : ∀ n ∈ segments.drop (start + len), n < 65536 :=
      fun n hn => hsmall n (List.mem_of_mem_drop hn)
    have hleft := length_segmentsText_le hbefore
    have hright := length_segmentsText_le hbehind
    have hfront : "::".toList.length = 2 := by decide
    rw [List.length_take] at hleft
    rw [List.length_drop] at hright
    dsimp only
    rw [List.length_append, List.length_append]
    omega
  · have hall := length_segmentsText_le hsmall
    omega

def Encodable (host : String) : Prop := (asBytes host).length ≤ maxHostLen

private theorem encodable_ofList {cs : List Char} (h : cs.length ≤ 42) : Encodable
    (String.ofList cs) := by
  have hle := length_asBytes_ofList_le cs
  rw [Encodable, maxHostLen]
  omega

end Bounds

section Requests

inductive Address
  | ipv4 (octets : { octets : List UInt8 // octets.length = 4 })
  | domain (name : { name : String // (asBytes name).length ≤ 255 })
  | ipv6 (octets : { octets : List UInt8 // octets.length = 16 })

namespace Address

def atyp : Address → UInt8
  | ipv4 _ => 0x01
  | domain _ => 0x03
  | ipv6 _ => 0x04

def encode : Address → List UInt8
  | ipv4 octets | ipv6 octets => octets.1
  | domain name => UInt8.ofNat (asBytes name.1).length :: asBytes name.1

def host : Address → String
  | ipv4 octets => String.ofList (ipv4Text octets.1)
  | domain name => name.1
  | ipv6 octets => String.ofList (ipv6Text octets.1)

theorem encodable (address : Address) : Encodable address.host := by
  cases address with
  | ipv4 octets =>
    have hle := length_ipv4Text_le octets.2.le
    exact encodable_ofList (by omega)
  | domain name => exact name.2
  | ipv6 octets => exact encodable_ofList (length_ipv6Text_le octets.2)

end Address

structure Request where
  methods : { methods : List UInt8 // methods.length ≤ 255 }
  reserved : UInt8
  address : Address
  port : UInt16

def Request.encode (r : Request) : List UInt8 :=
  0x05 :: UInt8.ofNat r.methods.1.length :: (r.methods.1 ++
    (0x05 :: 0x01 :: r.reserved :: r.address.atyp ::
      (r.address.encode ++ bigEndian 2 r.port.toNat)))

private theorem toNat_ofNat_length {bs : List UInt8} (h : bs.length ≤ 255) :
    (UInt8.ofNat bs.length).toNat = bs.length :=
  UInt8.toNat_ofNat_of_lt' (Nat.lt_succ_of_le h)

private theorem ofNat_length_eq {bs : List UInt8} {n : UInt8} (h : bs.length = n.toNat) :
    UInt8.ofNat bs.length = n := by
  rw [h, UInt8.ofNat_toNat]

private theorem exists_readHost (address : Address) {s : List Chunk} {rest : List UInt8}
    (h : bytes s = address.encode ++ rest) :
    ∃ s', readHost address.atyp s = .ok (address.host, s') ∧ bytes s' = rest := by
  cases address with
  | ipv4 octets =>
    obtain ⟨s', hread, hrest⟩ := exists_readExact SocksError.unexpectedEof h
    rw [Address.encode, octets.2] at hread
    exact ⟨s', bind_of_ok hread, hrest⟩
  | domain name =>
    obtain ⟨s₁, hlen, h₁⟩ := exists_readU8 SocksError.unexpectedEof h
    obtain ⟨s₂, hname, h₂⟩ := exists_readExact SocksError.unexpectedEof h₁
    refine ⟨s₂, (bind_of_ok hlen).trans ?_, h₂⟩
    rw [toNat_ofNat_length name.2, bind_of_ok hname, fromUtf8_asBytes]
    rfl
  | ipv6 octets =>
    obtain ⟨s', hread, hrest⟩ := exists_readExact SocksError.unexpectedEof h
    rw [Address.encode, octets.2] at hread
    exact ⟨s', bind_of_ok hread, hrest⟩

private theorem readHost_eq_ok {atyp : UInt8} {s s' : List Chunk} {host : String}
    (h : readHost atyp s = .ok (host, s')) :
    ∃ address : Address, address.atyp = atyp ∧ address.host = host ∧
      bytes s = address.encode ++ bytes s' := by
  unfold readHost at h
  split_ifs at h with hipv4 hdomain hipv6
  · obtain ⟨buf, t, hbuf, hpure⟩ := bind_eq_ok.mp h
    cases pure_eq_ok.mp hpure
    obtain ⟨hlength, hbytes⟩ := readExact_eq_ok hbuf
    exact ⟨.ipv4 ⟨buf, hlength⟩, hipv4.symm, rfl, hbytes⟩
  · obtain ⟨len, t, hlen, h⟩ := bind_eq_ok.mp h
    obtain ⟨buf, t', hbuf, h⟩ := bind_eq_ok.mp h
    obtain ⟨hlength, hbytes⟩ := readExact_eq_ok hbuf
    have hlt := len.toNat_lt
    cases hutf8 : fromUtf8 buf with
    | none =>
      rw [hutf8] at h
      exact absurd h throw_ne_ok
    | some name =>
      rw [hutf8] at h
      cases pure_eq_ok.mp h
      obtain rfl := asBytes_of_fromUtf8 hutf8
      refine ⟨.domain ⟨host, by omega⟩, hdomain.symm, rfl, ?_⟩
      rw [readU8_eq_ok hlen, hbytes, Address.encode, ofNat_length_eq hlength, List.cons_append]
  · obtain ⟨buf, t, hbuf, hpure⟩ := bind_eq_ok.mp h
    cases pure_eq_ok.mp hpure
    obtain ⟨hlength, hbytes⟩ := readExact_eq_ok hbuf
    exact ⟨.ipv6 ⟨buf, hlength⟩, hipv6.symm, rfl, hbytes⟩
  · exact absurd h throw_ne_ok

/-- A request is read to its end, and the destination is the one it asks for. -/
theorem exists_handleClient (request : Request) {s : List Chunk} {rest : List UInt8}
    (h : bytes s = request.encode ++ rest) :
    ∃ s', handleClient s = .ok ((request.address.host, request.port), s') ∧ bytes s' = rest := by
  simp only [Request.encode, List.cons_append, List.append_assoc] at h
  obtain ⟨s₁, hver, h₁⟩ := exists_readU8 SocksError.unexpectedEof h
  obtain ⟨s₂, hcount, h₂⟩ := exists_readU8 SocksError.unexpectedEof h₁
  obtain ⟨s₃, hmethods, h₃⟩ := exists_readExact SocksError.unexpectedEof h₂
  obtain ⟨s₄, hver', h₄⟩ := exists_readU8 SocksError.unexpectedEof h₃
  obtain ⟨s₅, hcmd, h₅⟩ := exists_readU8 SocksError.unexpectedEof h₄
  obtain ⟨s₆, hrsv, h₆⟩ := exists_readU8 SocksError.unexpectedEof h₅
  obtain ⟨s₇, hatyp, h₇⟩ := exists_readU8 SocksError.unexpectedEof h₆
  obtain ⟨s₈, hhost, h₈⟩ := exists_readHost request.address h₇
  obtain ⟨s₉, hport, h₉⟩ := exists_readU16 SocksError.unexpectedEof h₈
  have hgreet : greet s = .ok ([0x05, 0x00], s₃) := by
    rw [greet, bind_of_ok hver, if_neg (not_ne_iff.mpr rfl), bind_of_ok hcount,
      toNat_ofNat_length request.methods.2]
    exact bind_of_ok hmethods
  refine ⟨s₉, ?_, h₉⟩
  rw [handleClient, bind_of_ok hgreet, readRequest, bind_of_ok hver', bind_of_ok hcmd,
    bind_of_ok hrsv, bind_of_ok hatyp, if_neg (by decide), bind_of_ok hhost]
  exact bind_of_ok hport

private theorem handleClient_eq_ok {s s' : List Chunk} {host : String} {port : UInt16}
    (h : handleClient s = .ok ((host, port), s')) :
    ∃ request : Request, request.address.host = host ∧ request.port = port ∧
      bytes s = request.encode ++ bytes s' := by
  obtain ⟨reply, s₁, hgreet, h⟩ := bind_eq_ok.mp h
  obtain ⟨ver, s₂, hver, hgreet⟩ := bind_eq_ok.mp hgreet
  by_cases hold : ver ≠ 0x05
  · rw [if_pos hold] at hgreet
    exact absurd hgreet throw_ne_ok
  rw [if_neg hold] at hgreet
  obtain ⟨count, s₃, hcount, hgreet⟩ := bind_eq_ok.mp hgreet
  obtain ⟨methods, s₄, hmethods, hgreet⟩ := bind_eq_ok.mp hgreet
  cases pure_eq_ok.mp hgreet
  obtain ⟨ver', s₅, hver', h⟩ := bind_eq_ok.mp h
  obtain ⟨cmd, s₆, hcmd, h⟩ := bind_eq_ok.mp h
  obtain ⟨rsv, s₇, hrsv, h⟩ := bind_eq_ok.mp h
  obtain ⟨atyp, s₈, hatyp, h⟩ := bind_eq_ok.mp h
  by_cases hconnect : ver' ≠ 0x05 ∨ cmd ≠ 0x01
  · rw [if_pos hconnect] at h
    exact absurd h throw_ne_ok
  rw [if_neg hconnect] at h
  obtain ⟨name, s₉, hhost, h⟩ := bind_eq_ok.mp h
  obtain ⟨p, s₁₀, hport, h⟩ := bind_eq_ok.mp h
  cases pure_eq_ok.mp h
  obtain ⟨address, rfl, rfl, haddress⟩ := readHost_eq_ok hhost
  obtain ⟨hlength, hbytes⟩ := readExact_eq_ok hmethods
  have hlt := count.toNat_lt
  obtain ⟨rfl, rfl⟩ : ver' = 0x05 ∧ cmd = 0x01 := by
    rwa [not_or, not_ne_iff, not_ne_iff] at hconnect
  obtain rfl : ver = 0x05 := not_ne_iff.mp hold
  refine ⟨⟨⟨methods, by omega⟩, rsv, address, port⟩, rfl, rfl, ?_⟩
  rw [readU8_eq_ok hver, readU8_eq_ok hcount, hbytes, readU8_eq_ok hver', readU8_eq_ok hcmd,
    readU8_eq_ok hrsv, readU8_eq_ok hatyp, haddress, readU16_eq_ok hport, Request.encode,
    ofNat_length_eq hlength]
  simp only [List.cons_append, List.append_assoc]

private theorem handleClient_encodable {s s' : List Chunk} {host : String} {port : UInt16}
    (h : handleClient s = .ok ((host, port), s')) : Encodable host := by
  obtain ⟨request, rfl, -, -⟩ := handleClient_eq_ok h
  exact request.address.encodable

end Requests

section Exactness

theorem exists_encode {host : String} (h : Encodable host) (port : UInt16) :
    ∃ header, encodeDestination host port = .ok header := ⟨_, if_neg (not_lt.mpr h)⟩

theorem decode_encode {host : String} {port : UInt16} {header : List UInt8}
    (h : encodeDestination host port = .ok header) (rest : List UInt8) :
    decodeDestination (header ++ rest) = .ok (some (host, port, header.length)) := by
  rw [decode_of_begins (begins_of_encode h), length_of_encode h]

private theorem encode_of_decode {buf : List UInt8} {host : String} {port : UInt16} {n : Nat}
    (h : decodeDestination buf = .ok (some (host, port, n))) :
    encodeDestination host port = .ok (buf.take n) ∧ n ≤ buf.length := by
  obtain ⟨hn, hbegins⟩ := begins_of_decode h
  obtain ⟨header, hencode, hbuf⟩ := hbegins.encode
  have hlength := length_of_encode hencode
  have htake : buf.take n = header := by
    rw [hbuf, List.take_append_of_le_length (by omega), List.take_of_length_le (by omega)]
  constructor
  · rw [htake, hencode]
  · have hwhole := congrArg List.length hbuf
    rw [List.length_append] at hwhole
    omega

/-- A stream is read exactly if some part of it that has come is decoded, and the read ends with the
header. -/
theorem readDestination_iff (s : List Chunk) (host : String) (port : UInt16) :
    (∃ s', readDestination s = .ok ((host, port), s')) ↔
      ∃ front n, front <+: bytes s ∧ decodeDestination front = .ok (some (host, port, n)) := by
  constructor
  · rintro ⟨s', h⟩
    exact ⟨bytes s, _, List.prefix_rfl, decode_of_begins (readDestination_eq_ok h)⟩
  · rintro ⟨front, n, ⟨more, hmore⟩, h⟩
    have hwhole : decodeDestination (bytes s) = .ok (some (host, port, n)) := by
      rw [← hmore, decode_append (by rw [h]; simp), h]
    obtain ⟨s', hread, -⟩ := exists_readDestination (begins_of_decode hwhole).2
    exact ⟨s', hread⟩

private theorem readDestination_consumes {s s' : List Chunk} {host : String} {port : UInt16}
    (h : readDestination s = .ok ((host, port), s')) {front : List UInt8} {n : Nat}
    (hdecode : decodeDestination front = .ok (some (host, port, n))) :
    bytes s' = (bytes s).drop n := by
  obtain ⟨hn, -⟩ := begins_of_decode hdecode
  obtain ⟨header, hencode, hbytes⟩ := (readDestination_eq_ok h).encode
  rw [hbytes, hn, ← length_of_encode hencode, List.drop_left]

/-- The framing of destinations from the front end to the last relay. -/
theorem framing_exact :
    (∀ (host : String) (port : UInt16) (rest : List UInt8), (asBytes host).length ≤ 255 →
      ∃ header, encodeDestination host port = .ok header ∧
        decodeDestination (header ++ rest) = .ok (some (host, port, header.length))) ∧
    (∀ buf more, decodeDestination buf ≠ .ok none →
      decodeDestination (buf ++ more) = decodeDestination buf) ∧
    (∀ buf host port n, decodeDestination buf = .ok (some (host, port, n)) →
      encodeDestination host port = .ok (buf.take n) ∧ n ≤ buf.length) ∧
    (∀ s host port,
      ((∃ s', readDestination s = .ok ((host, port), s')) ↔
        ∃ front n, front <+: bytes s ∧ decodeDestination front = .ok (some (host, port, n))) ∧
      ∀ s', readDestination s = .ok ((host, port), s') →
        (∀ front n, front <+: bytes s → decodeDestination front = .ok (some (host, port, n)) →
          bytes s' = (bytes s).drop n) ∧
        ∃ sent, forwardDestination s = .ok (sent, s') ∧ sent ++ bytes s' = bytes s) ∧
    (∀ s s' host port, handleClient s = .ok ((host, port), s') →
      ∃ header, encodeDestination host port = .ok header) := by
  refine ⟨?_, ?_, ?_, ?_, ?_⟩
  · intro host port rest hshort
    obtain ⟨header, hencode⟩ := exists_encode hshort port
    exact ⟨header, hencode, decode_encode hencode rest⟩
  · intro buf more hanswer
    exact decode_append hanswer more
  · intro buf host port n hdecode
    exact encode_of_decode hdecode
  · intro s host port
    constructor
    · exact readDestination_iff s host port
    · intro s' hread
      constructor
      · intro front n _ hdecode
        exact readDestination_consumes hread hdecode
      · exact forwardDestination_of_read hread
  · intro s s' host port haccepted
    exact exists_encode (handleClient_encodable haccepted) port

end Exactness

end Vpn1.Relay
