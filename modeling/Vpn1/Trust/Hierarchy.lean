import Mathlib.Data.Finset.Basic
import Vpn1.Lib.Bytes

/-! The signing hierarchy: keys, certificates, and the revocation lists a release key signs.
Ed25519 itself is a parameter; what is signed is modelled byte by byte. -/

namespace Vpn1.Trust

structure PublicKey where
  bytes : Vector UInt8 32
  deriving DecidableEq, Repr

abbrev SecretKey := Vector UInt8 32

abbrev Signature := Vector UInt8 64

/-- `crypto::verify`, with a malformed key answered like a bad signature. -/
abbrev Verifier := PublicKey → List UInt8 → Signature → Bool

/-- A signature scheme: what a key signs verifies under its public half. -/
structure Scheme where
  publicKey : SecretKey → PublicKey
  sign : SecretKey → List UInt8 → Signature
  verify : Verifier
  verify_sign : ∀ key message, verify (publicKey key) message (sign key message) = true

/-- `u64::to_be_bytes`. -/
def toBeBytes (n : UInt64) : List UInt8 := Bytes.bigEndian 8 n.toNat

@[simp] theorem length_toBeBytes (n : UInt64) : (toBeBytes n).length = 8 := Bytes.length_bigEndian _ _

theorem toBeBytes_inj {n m : UInt64} (h : toBeBytes n = toBeBytes m) : n = m :=
  UInt64.toNat_inj.mp (Bytes.bigEndian_inj n.toNat_lt m.toNat_lt h)

private theorem exists_toBeBytes (l : List UInt8) (h : l.length = 8) : ∃ n, toBeBytes n = l := by
  refine ⟨UInt64.ofNat (Bytes.ofBigEndian l), ?_⟩
  have hlt := Bytes.ofBigEndian_lt l
  rw [h] at hlt
  rw [toBeBytes, UInt64.toNat_ofNat_of_lt' hlt, ← h, Bytes.bigEndian_ofBigEndian]

theorem PublicKey.toList_inj {k l : PublicKey} (h : k.bytes.toList = l.bytes.toList) : k = l := by
  obtain ⟨⟨a⟩⟩ := k
  obtain ⟨⟨b⟩⟩ := l
  simpa using h

theorem PublicKey.exists_toList (l : List UInt8) (h : l.length = 32) :
    ∃ key : PublicKey, key.bytes.toList = l :=
  ⟨⟨l.toArray, by simpa using h⟩, by simp⟩

structure KeyCertificate where
  childKey : PublicKey
  issuedAt : UInt64
  signature : Signature
  deriving DecidableEq, Repr

namespace KeyCertificate

def signingBytes (childKey : PublicKey) (issuedAt : UInt64) : List UInt8 :=
  childKey.bytes.toList ++ toBeBytes issuedAt

def issue (scheme : Scheme) (parent : SecretKey) (childKey : PublicKey) (issuedAt : UInt64) :
    KeyCertificate :=
  ⟨childKey, issuedAt, scheme.sign parent (signingBytes childKey issuedAt)⟩

def verifyAgainst (verify : Verifier) (cert : KeyCertificate) (parent : PublicKey) : Bool :=
  verify parent (signingBytes cert.childKey cert.issuedAt) cert.signature

theorem signingBytes_inj {k l : PublicKey} {s t : UInt64}
    (h : signingBytes k s = signingBytes l t) : k = l ∧ s = t := by
  obtain ⟨hkey, htime⟩ := List.append_inj h (by simp)
  exact ⟨PublicKey.toList_inj hkey, toBeBytes_inj htime⟩

@[simp] theorem verifyAgainst_issue (scheme : Scheme) (parent : SecretKey) (childKey : PublicKey)
    (issuedAt : UInt64) :
    (issue scheme parent childKey issuedAt).verifyAgainst scheme.verify (scheme.publicKey parent) =
      true :=
  scheme.verify_sign _ _

end KeyCertificate

structure TrustRoot where
  rootPublicKey : PublicKey
  deriving DecidableEq, Repr

/-- The text of a malformed payload is the decoder's and is left out. -/
inductive ConfigError
  | invalidSignature
  | invalidCertChain
  | expired (expiredAt now : UInt64)
  | notYetValid (issuedAt now : UInt64)
  | unsupportedSchemaVersion (version : UInt32)
  | revokedKey
  | malformedPayload
  deriving DecidableEq, Repr

structure RevocationList where
  revoked : Finset PublicKey
  deriving DecidableEq

namespace RevocationList

def empty : RevocationList := ⟨∅⟩

def fromKeys (keys : List PublicKey) : RevocationList := ⟨keys.toFinset⟩

def contains (list : RevocationList) (key : PublicKey) : Bool := decide (key ∈ list.revoked)

@[simp] theorem contains_empty (key : PublicKey) : empty.contains key = false := by
  simp [contains, empty]

@[simp] theorem contains_fromKeys (keys : List PublicKey) (key : PublicKey) :
    (fromKeys keys).contains key = decide (key ∈ keys) := by
  simp [contains, fromKeys]

end RevocationList

structure SignedRevocationList where
  issuedAt : UInt64
  revokedKeys : List PublicKey
  releaseKeyCert : KeyCertificate
  signature : Signature
  deriving DecidableEq, Repr

namespace SignedRevocationList

def signingBytes (revokedKeys : List PublicKey) (issuedAt : UInt64) : List UInt8 :=
  toBeBytes issuedAt ++ revokedKeys.flatMap (·.bytes.toList)

def issue (scheme : Scheme) (releaseKey : SecretKey) (releaseKeyCert : KeyCertificate)
    (revokedKeys : List PublicKey) (issuedAt : UInt64) : SignedRevocationList :=
  ⟨issuedAt, revokedKeys, releaseKeyCert,
    scheme.sign releaseKey (signingBytes revokedKeys issuedAt)⟩

def verify (verifier : Verifier) (list : SignedRevocationList) (trustRoot : TrustRoot) :
    Except ConfigError RevocationList :=
  if !list.releaseKeyCert.verifyAgainst verifier trustRoot.rootPublicKey then
    .error .invalidCertChain
  else if !verifier list.releaseKeyCert.childKey (signingBytes list.revokedKeys list.issuedAt)
      list.signature then .error .invalidSignature
  else .ok (.fromKeys list.revokedKeys)

theorem signingBytes_inj {ks ls : List PublicKey} {s t : UInt64}
    (h : signingBytes ks s = signingBytes ls t) : ks = ls ∧ s = t := by
  obtain ⟨htime, hkeys⟩ := List.append_inj h (by simp)
  refine ⟨Bytes.flatMap_inj (n := 32) (by decide) (fun key => by simp) ?_ hkeys, toBeBytes_inj htime⟩
  exact fun _ _ => PublicKey.toList_inj

theorem verify_ok_iff {verifier : Verifier} {list : SignedRevocationList} {trustRoot : TrustRoot}
    {revoked : RevocationList} :
    list.verify verifier trustRoot = .ok revoked ↔
      list.releaseKeyCert.verifyAgainst verifier trustRoot.rootPublicKey = true ∧
        verifier list.releaseKeyCert.childKey (signingBytes list.revokedKeys list.issuedAt)
          list.signature = true ∧
        revoked = .fromKeys list.revokedKeys := by
  unfold verify
  cases list.releaseKeyCert.verifyAgainst verifier trustRoot.rootPublicKey with
  | false => simp
  | true =>
    cases verifier list.releaseKeyCert.childKey (signingBytes list.revokedKeys list.issuedAt)
      list.signature with
    | false => simp
    | true => simpa using eq_comm

end SignedRevocationList

/-- The bytes of a certificate are those of a list that revokes one key. -/
theorem exists_list_of_certificate (childKey : PublicKey) (issuedAt : UInt64) :
    ∃ key time, SignedRevocationList.signingBytes [key] time =
      KeyCertificate.signingBytes childKey issuedAt := by
  obtain ⟨time, htime⟩ := exists_toBeBytes (childKey.bytes.toList.take 8) (by simp)
  obtain ⟨key, hkey⟩ := PublicKey.exists_toList
    (childKey.bytes.toList.drop 8 ++ toBeBytes issuedAt) (by simp)
  refine ⟨key, time, ?_⟩
  simp only [SignedRevocationList.signingBytes, KeyCertificate.signingBytes, List.flatMap_cons,
    List.flatMap_nil, List.append_nil, htime, hkey]
  rw [← List.append_assoc, List.take_append_drop]

end Vpn1.Trust
