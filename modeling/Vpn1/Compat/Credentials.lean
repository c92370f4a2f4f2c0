import Mathlib.Tactic.IntervalCases
import Vpn1.Compat.Model
import Vpn1.Lib.Utf8

/-! Checks on REALITY key material. Curve arithmetic is a parameter; the encodings around it are
modelled as the code reads them. -/

namespace Vpn1.Compat

def base64Value (c : Char) : Option Nat :=
  if 'A' ≤ c ∧ c ≤ 'Z' then some (c.toNat - 65)
  else if 'a' ≤ c ∧ c ≤ 'z' then some (c.toNat - 97 + 26)
  else if '0' ≤ c ∧ c ≤ '9' then some (c.toNat - 48 + 52)
  else if c = '-' then some 62
  else if c = '_' then some 63
  else none

def base64Char (n : Nat) : Char :=
  if n < 26 then Char.ofNat (n + 65)
  else if n < 52 then Char.ofNat (n - 26 + 97)
  else if n < 62 then Char.ofNat (n - 52 + 48)
  else if n = 62 then '-'
  else '_'

/-- Sextets to bytes without padding: a lone last sextet and non-zero spare bits are refused. -/
def decodeSextets : List Nat → Option (List Nat)
  | [] => some []
  | [_] => none
  | [a, b] => if b % 16 = 0 then some [a * 4 + b / 16] else none
  | [a, b, c] => if c % 4 = 0 then some [a * 4 + b / 16, b % 16 * 16 + c / 4] else none
  | a :: b :: c :: d :: rest =>
    (decodeSextets rest).map fun bytes =>
      (a * 4 + b / 16) :: (b % 16 * 16 + c / 4) :: (c % 4 * 64 + d) :: bytes

def encodeSextets : List Nat → List Nat
  | [] => []
  | [x] => [x / 4, x % 4 * 16]
  | [x, y] => [x / 4, x % 4 * 16 + y / 16, y % 16 * 4]
  | x :: y :: z :: rest =>
    (x / 4) :: (x % 4 * 16 + y / 16) :: (y % 16 * 4 + z / 64) :: (z % 64) :: encodeSextets rest

/-- `URL_SAFE_NO_PAD.decode`. -/
def base64Decode (s : String) : Option (List Nat) :=
  (s.toList.mapM base64Value).bind decodeSextets

/-- `URL_SAFE_NO_PAD.encode`. -/
def base64Encode (bytes : List Nat) : String :=
  String.ofList ((encodeSextets bytes).map base64Char)

inductive CredentialError
  | privateNotBase64
  | privateLength (bytes : Nat)
  | publicEmpty
  | publicNotBase64
  | publicLength (bytes : Nat)
  | shortIdEmpty
  | shortIdTooLong (digits : Nat)
  | shortIdNotHex (shortId : String)
  | notCorresponding
  deriving DecidableEq, Repr

def hexDigit (n : Nat) : Char :=
  if n < 10 then Char.ofNat (n + 48) else Char.ofNat (n - 10 + 97)

/-- `hex::encode`. -/
def hexEncode (bytes : List UInt8) : String :=
  String.ofList (bytes.flatMap fun b => [hexDigit (b.toNat / 16), hexDigit (b.toNat % 16)])

def generateShortId (bytes : Vector UInt8 4) : String := hexEncode bytes.toList

/-- A UUID out of 16 random bytes: version 4, variant of RFC 4122. -/
def generateUuidV4 (random : Vector UInt8 16) : String :=
  let bytes := ((random.set 6 (random[6] &&& 0x0f ||| 0x40)).set 8
    (random[8] &&& 0x3f ||| 0x80)).toList
  hexEncode (bytes.take 4) ++ "-" ++ hexEncode ((bytes.drop 4).take 2) ++ "-" ++
    hexEncode ((bytes.drop 6).take 2) ++ "-" ++ hexEncode ((bytes.drop 8).take 2) ++ "-" ++
    hexEncode (bytes.drop 10)

def generateHysteria2Password (bytes : Vector UInt8 24) : String := hexEncode bytes.toList

def generateSubscriptionToken (bytes : Vector UInt8 20) : String :=
  base64Encode (bytes.toList.map UInt8.toNat)

def encodeRealityKey (bytes : Vector UInt8 32) : String :=
  base64Encode (bytes.toList.map UInt8.toNat)

def generateHysteria2ObfsPassword (bytes : Vector UInt8 24) : String := hexEncode bytes.toList

/-- `mulBaseClamped` is X25519 scalar multiplication of the base point. -/
def deriveRealityPublicKey (mulBaseClamped : List Nat → List Nat) (privateKey : String) :
    Except CredentialError String :=
  match base64Decode (trim privateKey) with
  | none => .error .privateNotBase64
  | some decoded =>
    if decoded.length = 32 then .ok (base64Encode (mulBaseClamped decoded))
    else .error (.privateLength decoded.length)

def validateRealityPublicKeyShape (publicKey : String) : Except CredentialError Unit :=
  if trim publicKey = "" then .error .publicEmpty
  else match base64Decode (trim publicKey) with
    | none => .error .publicNotBase64
    | some decoded => if decoded.length = 32 then .ok () else .error (.publicLength decoded.length)

def isAsciiHexDigit (c : Char) : Bool :=
  ('0' ≤ c && c ≤ '9') || ('a' ≤ c && c ≤ 'f') || ('A' ≤ c && c ≤ 'F')

def validateRealityShortId (shortId : String) : Except CredentialError Unit :=
  if trim shortId = "" then .error .shortIdEmpty
  else if 8 < (trim shortId).utf8ByteSize then .error (.shortIdTooLong (trim shortId).utf8ByteSize)
  else if (trim shortId).toList.all isAsciiHexDigit then .ok ()
  else .error (.shortIdNotHex (trim shortId))

def validateRealityKeypair (mulBaseClamped : List Nat → List Nat)
    (privateKey publicKey : String) : Except CredentialError Unit :=
  match validateRealityPublicKeyShape publicKey with
  | .error e => .error e
  | .ok () =>
    match deriveRealityPublicKey mulBaseClamped privateKey with
    | .error e => .error e
    | .ok derived => if derived = trim publicKey then .ok () else .error .notCorresponding

/-- An accepted pair has a well-shaped public half, and it is the one derived. -/
theorem validateRealityKeypair_ok {mul : List Nat → List Nat} {priv pub : String} :
    validateRealityKeypair mul priv pub = .ok () ↔
      validateRealityPublicKeyShape pub = .ok () ∧
        deriveRealityPublicKey mul priv = .ok (trim pub) := by
  unfold validateRealityKeypair
  cases validateRealityPublicKeyShape pub with
  | error e => simp
  | ok u =>
    cases deriveRealityPublicKey mul priv with
    | error e => simp
    | ok derived => by_cases h : derived = trim pub <;> simp [h]

@[simp] theorem validateRealityPublicKeyShape_trim (pub : String) :
    validateRealityPublicKeyShape (trim pub) = validateRealityPublicKeyShape pub := by
  simp [validateRealityPublicKeyShape]

@[simp] theorem deriveRealityPublicKey_trim (mul : List Nat → List Nat) (priv : String) :
    deriveRealityPublicKey mul (trim priv) = deriveRealityPublicKey mul priv := by
  simp [deriveRealityPublicKey]

private theorem isAsciiHexDigit_hexDigit {n : Nat} (hn : n < 16) : isAsciiHexDigit
    (hexDigit n) = true := by
  interval_cases n <;> decide

theorem isAsciiHexDigit_of_mem_hexEncode {bytes : List UInt8} {c : Char}
    (hc : c ∈ (hexEncode bytes).toList) : isAsciiHexDigit c = true := by
  simp only [hexEncode, String.toList_ofList, List.mem_flatMap, List.mem_cons, List.not_mem_nil,
    or_false] at hc
  obtain ⟨b, -, rfl | rfl⟩ := hc
  · exact isAsciiHexDigit_hexDigit (by have := b.toNat_lt; omega)
  · exact isAsciiHexDigit_hexDigit (by omega)

theorem length_toList_hexEncode (bytes : List UInt8) :
    (hexEncode bytes).toList.length = 2 * bytes.length := by
  simp [hexEncode, List.length_flatMap, Nat.mul_comm]

theorem length_encodeSextets (bytes : List Nat) :
    (encodeSextets bytes).length = (4 * bytes.length + 2) / 3 := by
  induction bytes using encodeSextets.induct with
  | case1 => rfl
  | case2 => simp [encodeSextets]
  | case3 => simp [encodeSextets]
  | case4 x y z rest ih =>
    simp only [encodeSextets, List.length_cons, ih]
    omega

theorem lt_of_mem_encodeSextets {bytes : List Nat} (hbytes : ∀ b ∈ bytes, b < 256) :
    ∀ n ∈ encodeSextets bytes, n < 64 := by
  induction bytes using encodeSextets.induct with
  | case1 => simp [encodeSextets]
  | case2 x =>
    simp only [List.mem_singleton, forall_eq] at hbytes
    simp only [encodeSextets, List.forall_mem_cons, List.not_mem_nil, false_imp_iff, implies_true,
      and_true]
    omega
  | case3 x y =>
    simp only [List.forall_mem_cons, List.not_mem_nil, false_imp_iff, implies_true,
      and_true] at hbytes
    simp only [encodeSextets, List.forall_mem_cons, List.not_mem_nil, false_imp_iff, implies_true,
      and_true]
    omega
  | case4 x y z rest ih =>
    simp only [List.forall_mem_cons] at hbytes
    simp only [encodeSextets, List.forall_mem_cons]
    refine ⟨?_, ?_, ?_, ?_, ih hbytes.2.2.2⟩ <;> omega

theorem lt_of_isAsciiHexDigit {c : Char} (hc : isAsciiHexDigit c = true) : c.toNat < 128 := by
  simp only [isAsciiHexDigit, Bool.or_eq_true, Bool.and_eq_true, decide_eq_true_eq] at hc
  have hnine : c ≤ '9' → c.toNat ≤ 57 := id
  have hsmall : c ≤ 'f' → c.toNat ≤ 102 := id
  have hlarge : c ≤ 'F' → c.toNat ≤ 70 := id
  rcases hc with (hc | hc) | hc
  · exact Nat.lt_of_le_of_lt (hnine hc.2) (by decide)
  · exact Nat.lt_of_le_of_lt (hsmall hc.2) (by decide)
  · exact Nat.lt_of_le_of_lt (hlarge hc.2) (by decide)

/-- A UUID is hex digits and dashes. -/
theorem of_mem_generateUuidV4 {random : Vector UInt8 16} {c : Char}
    (hc : c ∈ (generateUuidV4 random).toList) : isAsciiHexDigit c = true ∨ c = '-' := by
  simp only [generateUuidV4, String.toList_append, List.mem_append] at hc
  have hdash : c ∈ "-".toList → isAsciiHexDigit c = true ∨ c = '-' := fun hmem =>
    .inr (List.mem_singleton.mp hmem)
  have hhex : ∀ group, c ∈ (hexEncode group).toList → isAsciiHexDigit c = true ∨ c = '-' :=
    fun group hmem => .inl (isAsciiHexDigit_of_mem_hexEncode hmem)
  rcases hc with (((((((hc | hc) | hc) | hc) | hc) | hc) | hc) | hc) | hc
  exacts [hhex _ hc, hdash hc, hhex _ hc, hdash hc, hhex _ hc, hdash hc, hhex _ hc, hdash hc,
    hhex _ hc]

private theorem isWhiteSpace_of_isAsciiHexDigit {c : Char} (hc : isAsciiHexDigit c = true) :
    isWhiteSpace c = false :=
  Utf8.ascii_forall (P := fun c => isAsciiHexDigit c = true → isWhiteSpace c = false) (by decide)
    (lt_of_isAsciiHexDigit hc) hc

/-- Hex digits have no white space to strip. -/
@[simp] theorem trim_hexEncode (bytes : List UInt8) : trim (hexEncode bytes) = hexEncode bytes :=
  trim_eq_self fun _ hc => isWhiteSpace_of_isAsciiHexDigit (isAsciiHexDigit_of_mem_hexEncode hc)

private theorem all_isSome_of_mapM {α β : Type} {f : α → Option β} {l : List α} {ys : List β}
    (h : l.mapM f = some ys) : l.all (fun x => (f x).isSome) = true := by
  induction l generalizing ys with
  | nil => rfl
  | cons x l ih =>
    simp only [List.mapM_cons, Option.bind_eq_bind, Option.bind_eq_some_iff, Option.pure_def] at h
    obtain ⟨y, hy, zs, hzs, -⟩ := h
    simp [hy, ih hzs]

/-- A key that passes the check is written in base64. -/
theorem all_base64_of_publicKeyShape {pub : String}
    (h : validateRealityPublicKeyShape pub = .ok ()) :
    (trim pub).toList.all (fun c => (base64Value c).isSome) = true := by
  unfold validateRealityPublicKeyShape base64Decode at h
  cases hvalues : (trim pub).toList.mapM base64Value with
  | none =>
    simp only [hvalues, Option.bind_none] at h
    split_ifs at h
  | some values => exact all_isSome_of_mapM hvalues

/-- A short id that passes the check is written in hex digits. -/
theorem all_hex_of_shortId {sid : String} (h : validateRealityShortId sid = .ok ()) :
    (trim sid).toList.all isAsciiHexDigit = true := by
  unfold validateRealityShortId at h
  by_contra hhex
  rw [if_neg hhex] at h
  split_ifs at h

theorem generateHysteria2ObfsPassword_ne_empty (bytes : Vector UInt8 24) :
    generateHysteria2ObfsPassword bytes ≠ "" := by
  intro hempty
  have hlen := congrArg (fun s => s.toList.length) hempty
  simp [generateHysteria2ObfsPassword, hexEncode, List.length_flatMap] at hlen

end Vpn1.Compat
