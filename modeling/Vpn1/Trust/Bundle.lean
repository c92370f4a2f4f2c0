import Mathlib.Data.UInt
import Mathlib.Tactic.DeriveCountable
import Vpn1.Trust.Hierarchy

/-! Signed relay bundles: signing, and verification up to the pinned root. -/

namespace Vpn1.Trust

structure EndpointDescriptor where
  id : String
  transport : String
  address : String
  providerTag : String
  capabilities : List String
  certSha256Hex : String
  deriving DecidableEq, Repr

structure RelayBundlePayload where
  schemaVersion : UInt32
  issuedAt : UInt64
  expiresAt : UInt64
  nonce : String
  endpoints : List EndpointDescriptor
  deriving DecidableEq, Repr

def currentSchemaVersion : UInt32 := 1

def supportedSchemaVersions : List UInt32 := [1]

/-- A bundle as it is received or cached, with nothing about it checked. -/
structure SignedBundle where
  payloadBytes : List UInt8
  bundleSignature : Signature
  bundleSigningKey : PublicKey
  bundleKeyCert : KeyCertificate
  releaseKeyCert : KeyCertificate
  deriving DecidableEq, Repr

/-- `json` is how `serde_json` writes and reads payloads. -/
def SignedBundle.sign (scheme : Scheme) (json : Codec RelayBundlePayload)
    (payload : RelayBundlePayload) (bundleKey : SecretKey)
    (bundleKeyCert releaseKeyCert : KeyCertificate) : SignedBundle where
  payloadBytes := json.encode payload
  bundleSignature := scheme.sign bundleKey (json.encode payload)
  bundleSigningKey := scheme.publicKey bundleKey
  bundleKeyCert := bundleKeyCert
  releaseKeyCert := releaseKeyCert

/-- The checks on the certificates, the revoked keys and the signature, in the order they are made. -/
def checkChain (verify : Verifier) (bundle : SignedBundle) (trustRoot : TrustRoot)
    (revoked : RevocationList) : Except ConfigError Unit :=
  if !bundle.releaseKeyCert.verifyAgainst verify trustRoot.rootPublicKey then
    .error .invalidCertChain
  else if revoked.contains bundle.releaseKeyCert.childKey then .error .revokedKey
  else if !bundle.bundleKeyCert.verifyAgainst verify bundle.releaseKeyCert.childKey then
    .error .invalidCertChain
  else if bundle.bundleKeyCert.childKey ≠ bundle.bundleSigningKey then .error .invalidCertChain
  else if revoked.contains bundle.bundleSigningKey then .error .revokedKey
  else if !verify bundle.bundleSigningKey bundle.payloadBytes bundle.bundleSignature then
    .error .invalidSignature
  else .ok ()

def checkPayload (payload : RelayBundlePayload) (now : UInt64) :
    Except ConfigError RelayBundlePayload :=
  if payload.schemaVersion ∉ supportedSchemaVersions then
    .error (.unsupportedSchemaVersion payload.schemaVersion)
  else if now < payload.issuedAt then .error (.notYetValid payload.issuedAt now)
  else if payload.expiresAt ≤ now then .error (.expired payload.expiresAt now)
  else .ok payload

def verifyBundle (verify : Verifier) (json : Codec RelayBundlePayload) (bundle : SignedBundle)
    (trustRoot : TrustRoot) (revoked : RevocationList) (now : UInt64) :
    Except ConfigError RelayBundlePayload :=
  match checkChain verify bundle trustRoot revoked with
  | .error e => .error e
  | .ok () =>
    match json.decode bundle.payloadBytes with
    | none => .error .malformedPayload
    | some payload => checkPayload payload now

/-- The certificates lead from the pinned root to the key that signed the payload, and no key on
the way is revoked. -/
structure Chained (verify : Verifier) (bundle : SignedBundle) (trustRoot : TrustRoot)
    (revoked : RevocationList) : Prop where
  release : bundle.releaseKeyCert.verifyAgainst verify trustRoot.rootPublicKey = true
  releaseNotRevoked : revoked.contains bundle.releaseKeyCert.childKey = false
  bundleKey : bundle.bundleKeyCert.verifyAgainst verify bundle.releaseKeyCert.childKey = true
  signingKey : bundle.bundleKeyCert.childKey = bundle.bundleSigningKey
  signingKeyNotRevoked : revoked.contains bundle.bundleSigningKey = false
  signature : verify bundle.bundleSigningKey bundle.payloadBytes bundle.bundleSignature = true

/-- A payload that may be used at `now`. -/
structure Current (payload : RelayBundlePayload) (now : UInt64) : Prop where
  version : payload.schemaVersion ∈ supportedSchemaVersions
  issued : payload.issuedAt ≤ now
  unexpired : now < payload.expiresAt

section

variable {verify : Verifier} {json : Codec RelayBundlePayload} {bundle : SignedBundle}
  {trustRoot : TrustRoot} {revoked : RevocationList} {now : UInt64} {payload p : RelayBundlePayload}

theorem checkChain_ok_iff :
    checkChain verify bundle trustRoot revoked = .ok () ↔
      Chained verify bundle trustRoot revoked := by
  unfold checkChain
  constructor
  · intro h
    split_ifs at h with h1 h2 h3 h4 h5 h6
    simp only [Bool.not_eq_true', Bool.not_eq_false, Bool.not_eq_true, ne_eq, not_not]
      at h1 h2 h3 h4 h5 h6
    exact ⟨h1, h2, h3, h4, h5, h6⟩
  · intro h
    simp [h.release, h.releaseNotRevoked, h.bundleKey, h.signingKey, h.signingKeyNotRevoked,
      h.signature]

theorem checkPayload_ok_iff :
    checkPayload payload now = .ok p ↔ p = payload ∧ Current payload now := by
  unfold checkPayload
  constructor
  · intro h
    split_ifs at h with hversion hissued hexpired
    have hp := Except.ok.inj h
    have hlo : payload.issuedAt ≤ now := UInt64.not_lt.mp hissued
    have hhi : now < payload.expiresAt := UInt64.not_le.mp hexpired
    exact ⟨hp.symm, hversion, hlo, hhi⟩
  · intro h
    obtain ⟨rfl, hcurrent⟩ := h
    have hissued : ¬ now < p.issuedAt := UInt64.not_lt.mpr hcurrent.issued
    have hexpired : ¬ p.expiresAt ≤ now := UInt64.not_le.mpr hcurrent.unexpired
    rw [if_neg (not_not.mpr hcurrent.version), if_neg hissued, if_neg hexpired]

/-- A bundle is accepted exactly if its chain, its payload and the time are right. -/
theorem verifyBundle_ok_iff :
    verifyBundle verify json bundle trustRoot revoked now = .ok p ↔
      Chained verify bundle trustRoot revoked ∧ json.decode bundle.payloadBytes = some p ∧
        Current p now := by
  unfold verifyBundle
  cases hchain : checkChain verify bundle trustRoot revoked with
  | error e =>
    have hnot : ¬ Chained verify bundle trustRoot revoked := by
      rw [← checkChain_ok_iff, hchain]
      simp
    simp [hnot]
  | ok u =>
    have hyes : Chained verify bundle trustRoot revoked := checkChain_ok_iff.mp hchain
    cases hdecode : json.decode bundle.payloadBytes with
    | none => simp
    | some payload =>
      simp only [hyes, true_and, Option.some.injEq]
      rw [checkPayload_ok_iff]
      constructor
      · intro h
        obtain ⟨rfl, hcurrent⟩ := h
        exact ⟨rfl, hcurrent⟩
      · intro h
        obtain ⟨rfl, hcurrent⟩ := h
        exact ⟨rfl, hcurrent⟩

end

section Issuing

variable (scheme : Scheme) (json : Codec RelayBundlePayload)

/-- A payload signed under a chain that was issued from the root down. -/
def issueBundle (root release bundleKey : SecretKey) (releasedAt certifiedAt : UInt64)
    (payload : RelayBundlePayload) : SignedBundle :=
  .sign scheme json payload bundleKey
    (.issue scheme release (scheme.publicKey bundleKey) certifiedAt)
    (.issue scheme root (scheme.publicKey release) releasedAt)

theorem chained_issueBundle_iff (root release bundleKey : SecretKey)
    (releasedAt certifiedAt : UInt64) (payload : RelayBundlePayload) (revoked : RevocationList) :
    Chained scheme.verify (issueBundle scheme json root release bundleKey releasedAt certifiedAt
        payload) ⟨scheme.publicKey root⟩ revoked ↔
      revoked.contains (scheme.publicKey release) = false ∧
        revoked.contains (scheme.publicKey bundleKey) = false := by
  constructor
  · intro h
    exact ⟨h.releaseNotRevoked, h.signingKeyNotRevoked⟩
  · intro h
    exact ⟨KeyCertificate.verifyAgainst_issue _ _ _ _, h.1,
      KeyCertificate.verifyAgainst_issue _ _ _ _, rfl, h.2, scheme.verify_sign _ _⟩

end Issuing

/-- What ideal signatures make of an accepted bundle: the holder of the root key certified a release
key, its holder certified a bundle key, and the holder of that one signed the payload. -/
def SignedUnder (Signed : PublicKey → List UInt8 → Prop) (json : Codec RelayBundlePayload)
    (trustRoot : TrustRoot) (revoked : RevocationList) (p : RelayBundlePayload) : Prop :=
  ∃ release bundleKey releasedAt certifiedAt bytes,
    Signed trustRoot.rootPublicKey (KeyCertificate.signingBytes release releasedAt) ∧
    Signed release (KeyCertificate.signingBytes bundleKey certifiedAt) ∧
    Signed bundleKey bytes ∧ json.decode bytes = some p ∧
    revoked.contains release = false ∧ revoked.contains bundleKey = false

/-- Verification accepts exactly the right bundles; what it accepts was signed under the root by
unrevoked keys; and a payload signed under an issued chain is returned unchanged exactly at the
times of its window, given that its version is supported and neither key is revoked. -/
theorem verifyBundle_exact (json : Codec RelayBundlePayload) :
    (∀ verify bundle trustRoot revoked now p,
      verifyBundle verify json bundle trustRoot revoked now = .ok p ↔
        Chained verify bundle trustRoot revoked ∧ json.decode bundle.payloadBytes = some p ∧
          Current p now) ∧
    (∀ verify (Signed : PublicKey → List UInt8 → Prop),
      (∀ key message signature, verify key message signature = true → Signed key message) →
      ∀ bundle trustRoot revoked now p,
        verifyBundle verify json bundle trustRoot revoked now = .ok p →
        SignedUnder Signed json trustRoot revoked p) ∧
    (∀ scheme root release bundleKey releasedAt certifiedAt payload revoked now,
      verifyBundle scheme.verify json
          (issueBundle scheme json root release bundleKey releasedAt certifiedAt payload)
          ⟨scheme.publicKey root⟩ revoked now = .ok payload ↔
        revoked.contains (scheme.publicKey release) = false ∧
          revoked.contains (scheme.publicKey bundleKey) = false ∧ Current payload now) := by
  refine ⟨fun _ _ _ _ _ _ => verifyBundle_ok_iff, ?_, ?_⟩
  · intro verify Signed hideal bundle trustRoot revoked now p h
    obtain ⟨hchain, hdecode, -⟩ := verifyBundle_ok_iff.mp h
    have hbundle := hideal _ _ _ hchain.bundleKey
    rw [hchain.signingKey] at hbundle
    exact ⟨_, _, _, _, _, hideal _ _ _ hchain.release, hbundle, hideal _ _ _ hchain.signature,
      hdecode, hchain.releaseNotRevoked, hchain.signingKeyNotRevoked⟩
  · intro scheme root release bundleKey releasedAt certifiedAt payload revoked now
    have hdecode : json.decode (issueBundle scheme json root release bundleKey releasedAt
        certifiedAt payload).payloadBytes = some payload := json.decode_encode payload
    rw [verifyBundle_ok_iff, chained_issueBundle_iff, hdecode]
    simp [and_assoc]

section Sample

/-- A scheme to try things with: a signature is its key and a checksum of the message. -/
def sampleScheme : Scheme where
  publicKey key := ⟨key⟩
  sign key message := key ++ Vector.replicate 32 message.sum
  verify key message signature := decide (signature = key.bytes ++ Vector.replicate 32 message.sum)
  verify_sign key message := by simp

def futurePayload : RelayBundlePayload := ⟨2, 100, 200, "n", []⟩

deriving instance Countable for EndpointDescriptor

deriving instance Countable for RelayBundlePayload

/-- A payload of a schema version that is not supported can be signed under a good chain, and is
not returned inside its window. -/
theorem signed_payload_refused :
    ∃ json : Codec RelayBundlePayload,
      verifyBundle sampleScheme.verify json
        (issueBundle sampleScheme json (.replicate 32 1) (.replicate 32 2) (.replicate 32 3) 1 2
          futurePayload) ⟨sampleScheme.publicKey (.replicate 32 1)⟩ .empty 150 =
        .error (.unsupportedSchemaVersion 2) := by
  obtain ⟨json⟩ := Framed.nonempty RelayBundlePayload
  refine ⟨json.toCodec, ?_⟩
  have hchain := checkChain_ok_iff.mpr ((chained_issueBundle_iff sampleScheme json.toCodec
    (.replicate 32 1) (.replicate 32 2) (.replicate 32 3) 1 2 futurePayload .empty).mpr
    ⟨RevocationList.contains_empty _, RevocationList.contains_empty _⟩)
  have hdecode : json.decode (issueBundle sampleScheme json.toCodec (.replicate 32 1)
      (.replicate 32 2) (.replicate 32 3) 1 2 futurePayload).payloadBytes = some futurePayload :=
    json.decode_encode futurePayload
  have hversion : checkPayload futurePayload 150 = .error (.unsupportedSchemaVersion 2) := by decide
  unfold verifyBundle
  rw [hchain, hdecode]
  exact hversion

end Sample

end Vpn1.Trust
