import Vpn1.Lib.Chunked

/-! The header that names a destination at the beginning of a stream: its encoder, the decoder on a
buffer, and the reader on a stream. All three agree on which bytes are a header. -/

namespace Vpn1.Relay

open Bytes Chunked

section Model

def version : UInt8 := 1

def maxHostLen : Nat := 255

inductive FramingError
  | unsupportedVersion (v : UInt8)
  | hostTooLong (n : Nat)
  | invalidUtf8
  deriving DecidableEq

def FramingError.message : FramingError → String
  | .unsupportedVersion v => s!"unsupported framing version {v}"
  | .hostTooLong n => s!"host length {n} exceeds max {maxHostLen}"
  | .invalidUtf8 => "host is not valid utf-8"

inductive IoError
  | unexpectedEof
  | invalidData (message : String)
  | invalidInput (message : String)
  deriving DecidableEq

/-- `str::as_bytes`. -/
def asBytes (host : String) : List UInt8 := host.toByteArray.data.toList

/-- `String::from_utf8`. -/
def fromUtf8 (bs : List UInt8) : Option String := String.fromUTF8? ⟨bs.toArray⟩

def encodeDestination (host : String) (port : UInt16) : Except FramingError (List UInt8) :=
  let hostBytes := asBytes host
  if hostBytes.length > maxHostLen then .error (.hostTooLong hostBytes.length)
  else .ok (version :: (bigEndian 2 hostBytes.length ++ (hostBytes ++ bigEndian 2 port.toNat)))

/-- Nothing yet, if the buffer is too short. -/
def decodeDestination (buf : List UInt8) :
    Except FramingError (Option (String × UInt16 × Nat)) :=
  match buf with
  | [] => .ok none
  | v :: more =>
    if v ≠ version then .error (.unsupportedVersion v)
    else
      match more with
      | hi :: lo :: body =>
        let hostLen := ofBigEndian [hi, lo]
        if hostLen > maxHostLen then .error (.hostTooLong hostLen)
        else
          let needed := 3 + hostLen + 2
          if buf.length < needed then .ok none
          else
            match fromUtf8 (body.take hostLen) with
            | none => .error .invalidUtf8
            | some host =>
              let port := UInt16.ofNat (ofBigEndian ((body.drop hostLen).take 2))
              .ok (some (host, port, needed))
      | _ => .ok none

def readDestination : Reader IoError (String × UInt16) := do
  let v ← readU8 .unexpectedEof
  if v ≠ version then throw (.invalidData (FramingError.unsupportedVersion v).message)
  else
    let len ← readU16 .unexpectedEof
    let hostLen := len.toNat
    if hostLen > maxHostLen then throw (.invalidData (FramingError.hostTooLong hostLen).message)
    else
      let hostBuf ← readExact .unexpectedEof hostLen
      match fromUtf8 hostBuf with
      | none => throw (.invalidData FramingError.invalidUtf8.message)
      | some host =>
        let port ← readU16 .unexpectedEof
        return (host, port)

def writeDestination (host : String) (port : UInt16) : Except IoError (List UInt8) :=
  match encodeDestination host port with
  | .ok buf => .ok buf
  | .error e => .error (.invalidInput e.message)

/-- `handle_stream` of an ingress, until bytes are copied: the header is read from the client and
written to the next hop. -/
def forwardDestination : Reader IoError (List UInt8) := do
  let (host, port) ← readDestination
  match writeDestination host port with
  | .ok sent => return sent
  | .error e => throw e

end Model

section Utf8

@[simp] theorem fromUtf8_asBytes (host : String) : fromUtf8 (asBytes host) = some host := by
  simp [fromUtf8, asBytes, String.fromUTF8?, host.isValidUTF8, String.fromUTF8]

theorem asBytes_of_fromUtf8 {bs : List UInt8} {host : String} (h : fromUtf8 bs = some host) :
    asBytes host = bs := by
  unfold fromUtf8 String.fromUTF8? at h
  split at h
  · cases h
    rfl
  · cases h

end Utf8

section Header

/-- A stream or a buffer that begins with the header of a destination. -/
structure Begins (bs : List UInt8) (host : String) (port : UInt16) (rest : List UInt8) : Prop where
  short : (asBytes host).length ≤ maxHostLen
  eq : bs = version ::
    (bigEndian 2 (asBytes host).length ++ (asBytes host ++ (bigEndian 2 port.toNat ++ rest)))

theorem Begins.encode {bs rest : List UInt8} {host : String} {port : UInt16}
    (h : Begins bs host port rest) :
    ∃ header, encodeDestination host port = .ok header ∧ bs = header ++ rest := by
  refine ⟨_, if_neg (not_lt.mpr h.short), ?_⟩
  rw [h.eq]
  simp

theorem begins_of_encode {header rest : List UInt8} {host : String} {port : UInt16}
    (h : encodeDestination host port = .ok header) : Begins (header ++ rest) host port rest := by
  unfold encodeDestination at h
  dsimp only at h
  split_ifs at h with hlong
  cases h
  exact ⟨not_lt.mp hlong, by simp⟩

theorem length_of_encode {header : List UInt8} {host : String} {port : UInt16}
    (h : encodeDestination host port = .ok header) :
    header.length = 3 + (asBytes host).length + 2 := by
  unfold encodeDestination at h
  dsimp only at h
  split_ifs at h
  cases h
  simp only [List.length_cons, List.length_append, length_bigEndian]
  omega

private theorem ofBigEndian_length {host : String} (h : (asBytes host).length ≤ maxHostLen) :
    ofBigEndian (bigEndian 2 (asBytes host).length) = (asBytes host).length := by
  have hlt : (asBytes host).length < 256 ^ 2 := lt_of_le_of_lt h (by decide)
  rw [ofBigEndian_bigEndian, Nat.mod_eq_of_lt hlt]

private theorem bigEndian_two_eq (n : Nat) : ∃ hi lo, bigEndian 2 n = [hi, lo] :=
  List.length_eq_two.mp (length_bigEndian 2 n)

theorem decode_of_begins {bs rest : List UInt8} {host : String} {port : UInt16}
    (h : Begins bs host port rest) :
    decodeDestination bs = .ok (some (host, port, 3 + (asBytes host).length + 2)) := by
  obtain ⟨hshort, rfl⟩ := h
  have hlen := ofBigEndian_length hshort
  obtain ⟨hi, lo, htwo⟩ := bigEndian_two_eq (asBytes host).length
  have hport : (bigEndian 2 port.toNat ++ rest).take 2 = bigEndian 2 port.toNat := by
    rw [List.take_append_of_le_length (by simp), List.take_of_length_le (by simp)]
  have hvalue : UInt16.ofNat (ofBigEndian (bigEndian 2 port.toNat)) = port := by
    have hlt : port.toNat < 256 ^ 2 := port.toNat_lt
    rw [ofBigEndian_bigEndian, Nat.mod_eq_of_lt hlt, UInt16.ofNat_toNat]
  rw [htwo] at hlen ⊢
  simp only [decodeDestination, List.cons_append, List.nil_append, ne_eq, not_true_eq_false,
    if_false, hlen, if_neg (not_lt.mpr hshort)]
  rw [if_neg (by simp; omega)]
  simp [hport, hvalue]

private theorem decode_eq_some {bs : List UInt8} {host : String} {port : UInt16} {n : Nat}
    (h : decodeDestination bs = .ok (some (host, port, n))) :
    ∃ hi lo body, bs = version :: hi :: lo :: body ∧ ofBigEndian [hi, lo] ≤ maxHostLen ∧
      ofBigEndian [hi, lo] + 2 ≤ body.length ∧
      fromUtf8 (body.take (ofBigEndian [hi, lo])) = some host ∧
      port = UInt16.ofNat (ofBigEndian ((body.drop (ofBigEndian [hi, lo])).take 2)) ∧
      n = 3 + ofBigEndian [hi, lo] + 2 := by
  unfold decodeDestination at h
  split at h
  · cases h
  next v more =>
    split at h
    · cases h
    next hversion =>
      split at h
      next hi lo body =>
        dsimp only at h
        split at h
        · cases h
        next hfits =>
          split at h
          · cases h
          next hneeded =>
            split at h
            · cases h
            next host' hutf8 =>
              cases h
              simp only [List.length_cons] at hneeded
              exact ⟨hi, lo, body, by rw [not_ne_iff.mp hversion], not_lt.mp hfits, by omega, hutf8,
                rfl, rfl⟩
      · cases h

theorem begins_of_decode {bs : List UInt8} {host : String} {port : UInt16} {n : Nat}
    (h : decodeDestination bs = .ok (some (host, port, n))) :
    n = 3 + (asBytes host).length + 2 ∧ Begins bs host port (bs.drop n) := by
  obtain ⟨hi, lo, body, rfl, hfits, hneeded, hutf8, rfl, rfl⟩ := decode_eq_some h
  have hbytes := asBytes_of_fromUtf8 hutf8
  have hlength : (asBytes host).length = ofBigEndian [hi, lo] := by
    rw [hbytes, List.length_take]
    omega
  have htwo : bigEndian 2 (ofBigEndian [hi, lo]) = [hi, lo] := bigEndian_ofBigEndian [hi, lo]
  have hpair : ((body.drop (ofBigEndian [hi, lo])).take 2).length = 2 := by
    rw [List.length_take, List.length_drop]
    omega
  have hport := bigEndian_toNat_ofNat hpair
  have hdrop : (version :: hi :: lo :: body).drop (3 + ofBigEndian [hi, lo] + 2) =
      (body.drop (ofBigEndian [hi, lo])).drop 2 := by
    have hsum : 3 + ofBigEndian [hi, lo] + 2 = ofBigEndian [hi, lo] + 2 + 1 + 1 + 1 := by omega
    rw [hsum, List.drop_succ_cons, List.drop_succ_cons, List.drop_succ_cons, List.drop_drop]
  refine ⟨by rw [hlength], hlength.trans_le hfits, ?_⟩
  rw [hlength, htwo, hport, hbytes, hdrop, List.take_append_drop, List.take_append_drop]
  rfl

/-- More bytes do not change an answer. -/
theorem decode_append {buf : List UInt8} (h : decodeDestination buf ≠ .ok none)
    (more : List UInt8) : decodeDestination (buf ++ more) = decodeDestination buf := by
  rcases buf with _ | ⟨v, tail⟩
  · exact absurd rfl h
  by_cases hversion : v = version
  · subst hversion
    rcases tail with _ | ⟨hi, _ | ⟨lo, body⟩⟩
    · exact absurd rfl h
    · exact absurd rfl h
    simp only [decodeDestination, List.cons_append, ne_eq, not_true_eq_false, if_false,
      List.length_cons, List.length_append] at h ⊢
    by_cases hlong : ofBigEndian [hi, lo] > maxHostLen
    · rw [if_pos hlong, if_pos hlong]
    · rw [if_neg hlong] at h ⊢
      rw [if_neg hlong]
      by_cases hneeded : body.length + 1 + 1 + 1 < 3 + ofBigEndian [hi, lo] + 2
      · rw [if_pos hneeded] at h
        exact absurd rfl h
      · have henough : ofBigEndian [hi, lo] ≤ body.length := by omega
        rw [if_neg hneeded, if_neg (by omega), List.take_append_of_le_length henough,
          List.drop_append_of_le_length henough,
          List.take_append_of_le_length (by rw [List.length_drop]; omega)]
  · simp [decodeDestination, hversion]

end Header

section Stream

/-- A stream is read exactly if it begins with a header. -/
theorem readDestination_eq_ok {s s' : List Chunk} {host : String} {port : UInt16}
    (h : readDestination s = .ok ((host, port), s')) : Begins (bytes s) host port (bytes s') := by
  obtain ⟨v, s₁, hv, h⟩ := bind_eq_ok.mp h
  by_cases hversion : v = version
  · rw [if_neg (not_ne_iff.mpr hversion)] at h
    obtain ⟨len, s₂, hlen, h⟩ := bind_eq_ok.mp h
    by_cases hfits : len.toNat ≤ maxHostLen
    · rw [if_neg (not_lt.mpr hfits)] at h
      obtain ⟨hostBuf, s₃, hhost, h⟩ := bind_eq_ok.mp h
      cases hutf8 : fromUtf8 hostBuf with
      | none =>
        rw [hutf8] at h
        exact absurd h throw_ne_ok
      | some name =>
        rw [hutf8] at h
        obtain ⟨port', s₄, hport, h⟩ := bind_eq_ok.mp h
        cases pure_eq_ok.mp h
        obtain ⟨hlength, hbytes⟩ := readExact_eq_ok hhost
        have hsame := asBytes_of_fromUtf8 hutf8
        rw [← hsame] at hlength
        refine ⟨hlength.trans_le hfits, ?_⟩
        rw [readU8_eq_ok hv, readU16_eq_ok hlen, hbytes, readU16_eq_ok hport, hlength, ← hsame,
          hversion]
    · rw [if_pos (not_le.mp hfits)] at h
      exact absurd h throw_ne_ok
  · rw [if_pos hversion] at h
    exact absurd h throw_ne_ok

theorem exists_readDestination {s : List Chunk} {host : String} {port : UInt16}
    {rest : List UInt8} (h : Begins (bytes s) host port rest) :
    ∃ s', readDestination s = .ok ((host, port), s') ∧ bytes s' = rest := by
  obtain ⟨hshort, heq⟩ := h
  have hlt : (asBytes host).length < 2 ^ 16 := lt_of_le_of_lt hshort (by decide)
  have hlen : (UInt16.ofNat (asBytes host).length).toNat = (asBytes host).length :=
    UInt16.toNat_ofNat_of_lt' hlt
  rw [← hlen] at heq
  obtain ⟨s₁, hv, h₁⟩ := exists_readU8 IoError.unexpectedEof heq
  obtain ⟨s₂, hl, h₂⟩ := exists_readU16 IoError.unexpectedEof h₁
  obtain ⟨s₃, hh, h₃⟩ := exists_readExact IoError.unexpectedEof h₂
  obtain ⟨s₄, hp, h₄⟩ := exists_readU16 IoError.unexpectedEof h₃
  refine ⟨s₄, ?_, h₄⟩
  rw [readDestination, bind_of_ok hv, if_neg (not_ne_iff.mpr rfl), bind_of_ok hl,
    hlen, if_neg (not_lt.mpr hshort), bind_of_ok hh, fromUtf8_asBytes]
  exact bind_of_ok hp

/-- The ingress sends on what it read. -/
theorem forwardDestination_of_read {s s' : List Chunk} {host : String} {port : UInt16}
    (h : readDestination s = .ok ((host, port), s')) :
    ∃ sent, forwardDestination s = .ok (sent, s') ∧ sent ++ bytes s' = bytes s := by
  obtain ⟨header, hencode, hbytes⟩ := (readDestination_eq_ok h).encode
  refine ⟨header, ?_, hbytes.symm⟩
  rw [forwardDestination, bind_of_ok h]
  simp only [writeDestination, hencode]
  rfl

end Stream

end Vpn1.Relay
