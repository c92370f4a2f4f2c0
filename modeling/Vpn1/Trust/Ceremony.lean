import Mathlib.Data.List.Sort
import Vpn1.Lib.Fallible
import Vpn1.Compat.Credentials
import Vpn1.Trust.Client

/-! `vpn-keytool` and the rendezvous service: two programs that check different parts of one chain
of key files, and the revocation lists that one writes and the other serves. -/

namespace Vpn1.Trust

section Files

def hexValue (c : Char) : Option Nat :=
  if '0' ≤ c ∧ c ≤ '9' then some (c.toNat - 48)
  else if 'a' ≤ c ∧ c ≤ 'f' then some (c.toNat - 97 + 10)
  else if 'A' ≤ c ∧ c ≤ 'F' then some (c.toNat - 65 + 10)
  else none

def hexPairs : List Char → Option (List UInt8)
  | [] => some []
  | [_] => none
  | a :: b :: rest => do
    return UInt8.ofNat ((← hexValue a) * 16 + (← hexValue b)) :: (← hexPairs rest)

/-- `hex::decode`. -/
def hexDecode (s : String) : Option (List UInt8) := hexPairs s.toList

inductive KeyFileError
  | unreadable
  | insecurePermissions
  | badHex
  | badLength
  | badPoint
  | badJson
  deriving DecidableEq, Repr

def keyBytes (s : String) : Except KeyFileError (Vector UInt8 32) :=
  match hexDecode (Compat.trim s) with
  | none => .error .badHex
  | some bytes =>
    if h : bytes.length = 32 then .ok ⟨bytes.toArray, by simpa using h⟩ else .error .badLength

private theorem hexValue_hexDigit {n : Nat} (hn : n < 16) : hexValue
    (Compat.hexDigit n) = some n := by
  interval_cases n <;> decide

private theorem hexPairs_encode (bytes : List UInt8) :
    hexPairs (bytes.flatMap fun b =>
      [Compat.hexDigit (b.toNat / 16), Compat.hexDigit (b.toNat % 16)]) = some bytes := by
  induction bytes with
  | nil => rfl
  | cons b bytes ih =>
    have hb : b.toNat < 256 := b.toNat_lt
    have hhigh := hexValue_hexDigit (n := b.toNat / 16) (by omega)
    have hlow := hexValue_hexDigit (n := b.toNat % 16) (by omega)
    have hsum : b.toNat / 16 * 16 + b.toNat % 16 = b.toNat := by omega
    simp only [List.flatMap_cons, List.cons_append, List.nil_append, hexPairs, hhigh, hlow, ih,
      Option.bind_eq_bind, Option.bind_some, Option.pure_def, hsum, UInt8.ofNat_toNat]

private theorem keyBytes_hexEncode (key : Vector UInt8 32) :
    keyBytes (Compat.hexEncode key.toList) = .ok key := by
  have hdecode : hexDecode (Compat.hexEncode key.toList) = some key.toList := by
    unfold hexDecode Compat.hexEncode
    rw [String.toList_ofList, hexPairs_encode]
  unfold keyBytes
  rw [Compat.trim_hexEncode, hdecode]
  simp [Vector.toList]

structure CertFile where
  publicKey : PublicKey
  cert : KeyCertificate
  deriving DecidableEq, Repr

/-- The readers of the files: `serde_json` on strings, certificate files and revocation lists, and
the point decompression of `VerifyingKey::from_bytes`. -/
structure Readers where
  string : List UInt8 → Option String
  certFile : List UInt8 → Option CertFile
  lists : Codec SignedRevocationList
  wellFormed : PublicKey → Bool

/-- A private key file: its mode, and its text if it can be read as one. -/
structure KeyFile where
  mode : BitVec 9
  text : Option String
  deriving DecidableEq, Repr

/-- `KeyPair::load_from_file`. -/
def KeyFile.load (file : KeyFile) : Except KeyFileError SecretKey :=
  if file.mode &&& 0o077 ≠ 0 then .error .insecurePermissions
  else match file.text with
    | none => .error .unreadable
    | some s => keyBytes s

variable (readers : Readers)

/-- `PublicKey::from_hex`. -/
def Readers.fromHex (s : String) : Except KeyFileError PublicKey :=
  match keyBytes s with
  | .error e => .error e
  | .ok bytes => if readers.wellFormed ⟨bytes⟩ then .ok ⟨bytes⟩ else .error .badPoint

def Readers.readCertFile (bytes : List UInt8) : Except KeyFileError CertFile :=
  match readers.certFile bytes with
  | none => .error .badJson
  | some file => .ok file

/-- `root.pub`: the hex of the root key as a JSON string. -/
def Readers.readRootPub (bytes : List UInt8) : Except KeyFileError PublicKey :=
  match readers.string bytes with
  | none => .error .badJson
  | some s => readers.fromHex s

end Files

section Chain

inductive KeytoolError
  | file (cause : KeyFileError)
  | wrongPair
  | releaseNotChained
  | bundleNotChained
  deriving DecidableEq, Repr

/-- `verify-chain`. The bundle certificate is checked against the key that stands beside the release
certificate, not against the key the certificate is for. -/
def verifyChain (verify : Verifier) (readers : Readers) (rootPub releaseCert : List UInt8)
    (bundleCert : Option (List UInt8)) : Except KeytoolError Unit := do
  let root ← (readers.readRootPub rootPub).mapError .file
  let release ← (readers.readCertFile releaseCert).mapError .file
  if !release.cert.verifyAgainst verify root then .error .releaseNotChained
  else match bundleCert with
    | none => .ok ()
    | some bytes => do
      let bundle ← (readers.readCertFile bytes).mapError .file
      if !bundle.cert.verifyAgainst verify release.publicKey then .error .bundleNotChained
      else .ok ()

structure RelayPoolEntry where
  id : String
  transport : String
  address : String
  providerTag : String
  capabilities : List String
  certSha256Hex : String
  deriving DecidableEq, Repr

def RelayPoolEntry.toEndpoint (e : RelayPoolEntry) : EndpointDescriptor :=
  ⟨e.id, e.transport, e.address, e.providerTag, e.capabilities, e.certSha256Hex⟩

structure AppState where
  bundleKey : SecretKey
  bundleKeyCert : KeyCertificate
  releaseKeyCert : KeyCertificate
  ttlSecs : UInt64

inductive StartError
  | file (cause : KeyFileError)
  | notCertified
  deriving DecidableEq, Repr

/-- The start of the service on persisted keys. The key of `bundle.key` is compared with the key that
stands beside the bundle certificate. -/
def startRendezvous (scheme : Scheme) (readers : Readers) (bundleKey : KeyFile)
    (bundleCert releaseCert : List UInt8) (ttlSecs : UInt64) : Except StartError AppState := do
  let key ← bundleKey.load.mapError .file
  let bundle ← (readers.readCertFile bundleCert).mapError .file
  if bundle.publicKey ≠ scheme.publicKey key then .error .notCertified
  else
    let release ← (readers.readCertFile releaseCert).mapError .file
    .ok ⟨key, bundle.cert, release.cert, ttlSecs⟩

/-- `UnixSeconds::saturating_add_secs`. -/
def saturatingAdd (now secs : UInt64) : UInt64 :=
  UInt64.ofNat (min (now.toNat + secs.toNat) (2 ^ 64 - 1))

/-- What `get_relay_bundle` signs for one request; `subset` are the entries it drew. -/
def AppState.relayBundle (scheme : Scheme) (json : Codec RelayBundlePayload) (state : AppState)
    (subset : List RelayPoolEntry) (nonce : String) (now : UInt64) : SignedBundle :=
  .sign scheme json
    ⟨currentSchemaVersion, now, saturatingAdd now state.ttlSecs, nonce,
      subset.map (·.toEndpoint)⟩
    state.bundleKey state.bundleKeyCert state.releaseKeyCert

variable {scheme : Scheme} {readers : Readers} {rootPub releaseCert bundleCert : List UInt8}
  {key : KeyFile} {ttlSecs : UInt64} {state : AppState}

theorem verifyChain_ok_iff {verify : Verifier} :
    verifyChain verify readers rootPub releaseCert (some bundleCert) = .ok () ↔
      ∃ root release bundle, readers.readRootPub rootPub = .ok root ∧
        readers.certFile releaseCert = some release ∧ readers.certFile bundleCert = some bundle ∧
        release.cert.verifyAgainst verify root = true ∧
        bundle.cert.verifyAgainst verify release.publicKey = true := by
  unfold verifyChain Readers.readCertFile
  cases hroot : readers.readRootPub rootPub with
  | error e => simp
  | ok root =>
    cases hrelease : readers.certFile releaseCert with
    | none => simp
    | some release =>
      cases hchain : release.cert.verifyAgainst verify root with
      | false => simp [hchain]
      | true =>
        cases hbundle : readers.certFile bundleCert with
        | none => simp [hchain, hbundle]
        | some bundle =>
          cases hsigned : bundle.cert.verifyAgainst verify release.publicKey with
          | false => simp [hchain, hbundle, hsigned]
          | true => simp [hchain, hbundle, hsigned]

theorem startRendezvous_ok_iff :
    startRendezvous scheme readers key bundleCert releaseCert ttlSecs = .ok state ↔
      ∃ secret bundle release, key.load = .ok secret ∧
        readers.certFile bundleCert = some bundle ∧ readers.certFile releaseCert = some release ∧
        bundle.publicKey = scheme.publicKey secret ∧
        state = ⟨secret, bundle.cert, release.cert, ttlSecs⟩ := by
  unfold startRendezvous Readers.readCertFile
  cases hkey : key.load with
  | error e => simp
  | ok secret =>
    cases hbundle : readers.certFile bundleCert with
    | none => simp
    | some bundle =>
      by_cases hpair : bundle.publicKey = scheme.publicKey secret
      · cases hrelease : readers.certFile releaseCert with
        | none => simp [hpair]
        | some release => simp [hpair, eq_comm]
      · simp [hpair]

theorem chained_relayBundle_iff (json : Codec RelayBundlePayload) (root : PublicKey)
    (subset : List RelayPoolEntry) (nonce : String) (now : UInt64) :
    Chained scheme.verify (state.relayBundle scheme json subset nonce now) ⟨root⟩ .empty ↔
      state.releaseKeyCert.verifyAgainst scheme.verify root = true ∧
        state.bundleKeyCert.verifyAgainst scheme.verify state.releaseKeyCert.childKey = true ∧
        state.bundleKeyCert.childKey = scheme.publicKey state.bundleKey := by
  constructor
  · intro h
    exact ⟨h.release, h.bundleKey, h.signingKey⟩
  · intro h
    exact ⟨h.1, RevocationList.contains_empty _, h.2.1, h.2.2, RevocationList.contains_empty _,
      scheme.verify_sign _ _⟩

/-- With a chain that `verify-chain` accepts and a service that starts on it, every bundle the
service signs passes the checks on chain and signature exactly when the bundle certificate is
signed by the key the release certificate is for, and is itself for the key that stands beside it.
It is enough that both files name the key their certificate is for. -/
theorem checkedChain_usable_iff (scheme : Scheme) (json : Codec RelayBundlePayload)
    (readers : Readers) (rootPub releaseCert bundleCert : List UInt8) (key : KeyFile)
    (ttlSecs : UInt64) (state : AppState)
    (hchecked : verifyChain scheme.verify readers rootPub releaseCert (some bundleCert) = .ok ())
    (hstart : startRendezvous scheme readers key bundleCert releaseCert ttlSecs = .ok state) :
    ∃ root release bundle, readers.readRootPub rootPub = .ok root ∧
      readers.certFile releaseCert = some release ∧ readers.certFile bundleCert = some bundle ∧
      ((∀ subset nonce now,
          checkChain scheme.verify (state.relayBundle scheme json subset nonce now) ⟨root⟩ .empty =
            .ok ()) ↔
        bundle.cert.verifyAgainst scheme.verify release.cert.childKey = true ∧
          bundle.cert.childKey = bundle.publicKey) ∧
      (release.publicKey = release.cert.childKey → bundle.publicKey = bundle.cert.childKey →
        bundle.cert.verifyAgainst scheme.verify release.cert.childKey = true ∧
          bundle.cert.childKey = bundle.publicKey) := by
  obtain ⟨root, release, bundle, hroot, hrelease, hbundle, hchain, hsigned⟩ :=
    verifyChain_ok_iff.mp hchecked
  obtain ⟨secret, bundle', release', -, hbundle', hrelease', hpair, rfl⟩ :=
    startRendezvous_ok_iff.mp hstart
  obtain rfl : bundle = bundle' := Option.some.inj (hbundle.symm.trans hbundle')
  obtain rfl : release = release' := Option.some.inj (hrelease.symm.trans hrelease')
  refine ⟨root, release, bundle, hroot, hrelease, hbundle, ?_, ?_⟩
  · constructor
    · intro hall
      have hone := checkChain_ok_iff.mp (hall [] "" 0)
      obtain ⟨-, hcert, hchild⟩ := (chained_relayBundle_iff json root [] "" 0).mp hone
      exact ⟨hcert, hchild.trans hpair.symm⟩
    · intro hcond subset nonce now
      rw [checkChain_ok_iff, chained_relayBundle_iff]
      exact ⟨hchain, hcond.1, hcond.2.trans hpair⟩
  · intro hreleaseKey hbundleKey
    exact ⟨hreleaseKey ▸ hsigned, hbundleKey.symm⟩

section Sample

def sampleHex (b : UInt8) : String := Compat.hexEncode (Vector.replicate 32 b).toList

theorem keyBytes_sampleHex (b : UInt8) : keyBytes (sampleHex b) = .ok (.replicate 32 b) :=
  keyBytes_hexEncode _

theorem verifyAgainst_sample (parent : SecretKey) (child : PublicKey) (time : UInt64) :
    (KeyCertificate.issue sampleScheme parent child time).verifyAgainst sampleScheme.verify ⟨parent⟩ =
      true :=
  KeyCertificate.verifyAgainst_issue sampleScheme parent child time

def releaseFile : CertFile :=
  ⟨⟨.replicate 32 2⟩, .issue sampleScheme (.replicate 32 1) ⟨.replicate 32 2⟩ 1⟩

def mislabelledFile : CertFile :=
  ⟨⟨.replicate 32 9⟩, .issue sampleScheme (.replicate 32 1) ⟨.replicate 32 2⟩ 1⟩

/-- The key 1 certified by a holder of `parent`. -/
def bundleFile (parent : UInt8) : CertFile :=
  ⟨⟨.replicate 32 1⟩, .issue sampleScheme (.replicate 32 parent) ⟨.replicate 32 1⟩ 2⟩

def sampleReaders (release bundle : CertFile) (lists : Codec SignedRevocationList) : Readers where
  string _ := some (sampleHex 1)
  certFile bytes := if bytes = [0] then some release else some bundle
  lists := lists
  wellFormed _ := true

def sampleKeyFile (b : UInt8) : KeyFile := ⟨0o600, some (sampleHex b)⟩

theorem load_sampleKeyFile (b : UInt8) : (sampleKeyFile b).load = .ok (.replicate 32 b) := by
  simp [KeyFile.load, sampleKeyFile, keyBytes_sampleHex]

private theorem readRootPub_sample (release bundle : CertFile)
    (lists : Codec SignedRevocationList) :
    (sampleReaders release bundle lists).readRootPub [] = .ok ⟨.replicate 32 1⟩ := by
  simp [Readers.readRootPub, Readers.fromHex, sampleReaders, keyBytes_sampleHex]

deriving instance Countable for SignedRevocationList

/-- The files that the ceremony itself writes are usable. -/
theorem checkedChain_usable_sample :
    ∃ (json : Codec RelayBundlePayload) (lists : Codec SignedRevocationList) (state : AppState),
      startRendezvous sampleScheme (sampleReaders releaseFile (bundleFile 2) lists) (sampleKeyFile 1)
        [1] [0] 900 = .ok state ∧
      ∀ subset nonce now, checkChain sampleScheme.verify
        (state.relayBundle sampleScheme json subset nonce now) ⟨⟨.replicate 32 1⟩⟩ .empty =
          .ok () := by
  obtain ⟨json⟩ := Framed.nonempty RelayBundlePayload
  obtain ⟨lists⟩ := Framed.nonempty SignedRevocationList
  let readers := sampleReaders releaseFile (bundleFile 2) lists.toCodec
  have hroot : readers.readRootPub [] = .ok ⟨.replicate 32 1⟩ := readRootPub_sample _ _ _
  have hload := load_sampleKeyFile 1
  have hchecked : verifyChain sampleScheme.verify readers [] [0] (some [1]) = .ok () :=
    verifyChain_ok_iff.mpr ⟨_, releaseFile, bundleFile 2, hroot, rfl, rfl, verifyAgainst_sample _ _ _,
      verifyAgainst_sample _ _ _⟩
  have hstart : startRendezvous sampleScheme readers (sampleKeyFile 1) [1] [0] 900 =
      .ok ⟨.replicate 32 1, (bundleFile 2).cert, releaseFile.cert, 900⟩ :=
    startRendezvous_ok_iff.mpr ⟨_, bundleFile 2, releaseFile, hload, rfl, rfl, rfl, rfl⟩
  obtain ⟨root, release, bundle, hroot', hrelease, hbundle, husable, henough⟩ :=
    checkedChain_usable_iff sampleScheme json.toCodec readers [] [0] [1] (sampleKeyFile 1) 900 _
      hchecked hstart
  obtain rfl : (⟨.replicate 32 1⟩ : PublicKey) = root := Except.ok.inj (hroot.symm.trans hroot')
  obtain rfl : releaseFile = release := Option.some.inj hrelease
  obtain rfl : bundleFile 2 = bundle := Option.some.inj hbundle
  exact ⟨json.toCodec, lists.toCodec, _, hstart, husable.mpr (henough rfl rfl)⟩

/-- A release certificate beside another key, and a bundle certificate signed by that other key: the
tool accepts the chain, the service starts, and no bundle it signs is accepted. -/
theorem mislabelled_chain_unusable :
    ∃ (json : Codec RelayBundlePayload) (lists : Codec SignedRevocationList) (state : AppState),
      verifyChain sampleScheme.verify (sampleReaders mislabelledFile (bundleFile 9) lists) [] [0]
        (some [1]) = .ok () ∧
      startRendezvous sampleScheme (sampleReaders mislabelledFile (bundleFile 9) lists)
        (sampleKeyFile 1) [1] [0] 900 = .ok state ∧
      ∀ subset nonce now, checkChain sampleScheme.verify
        (state.relayBundle sampleScheme json subset nonce now) ⟨⟨.replicate 32 1⟩⟩ .empty =
          .error .invalidCertChain := by
  obtain ⟨json⟩ := Framed.nonempty RelayBundlePayload
  obtain ⟨lists⟩ := Framed.nonempty SignedRevocationList
  have hroot : (sampleReaders mislabelledFile (bundleFile 9) lists.toCodec).readRootPub [] =
      .ok ⟨.replicate 32 1⟩ := readRootPub_sample _ _ _
  have hload := load_sampleKeyFile 1
  refine ⟨json.toCodec, lists.toCodec,
    ⟨.replicate 32 1, (bundleFile 9).cert, mislabelledFile.cert, 900⟩, ?_, ?_, ?_⟩
  · exact verifyChain_ok_iff.mpr
      ⟨_, mislabelledFile, bundleFile 9, hroot, rfl, rfl, verifyAgainst_sample _ _ _,
        verifyAgainst_sample _ _ _⟩
  · exact startRendezvous_ok_iff.mpr
      ⟨_, bundleFile 9, mislabelledFile, hload, rfl, rfl, rfl, rfl⟩
  · intro subset nonce now
    have hrelease : mislabelledFile.cert.verifyAgainst sampleScheme.verify ⟨.replicate 32 1⟩ =
        true := verifyAgainst_sample _ _ _
    have hbundle : (bundleFile 9).cert.verifyAgainst sampleScheme.verify
        mislabelledFile.cert.childKey = false := by decide
    simp [checkChain, AppState.relayBundle, SignedBundle.sign, hrelease, hbundle]

end Sample

end Chain

section Revoking

/-- `sort_by_key(|k| k.0)`: byte arrays compare lexicographically. -/
def sortKeys (keys : List PublicKey) : List PublicKey :=
  keys.mergeSort fun k l => decide (k.bytes.toList ≤ l.bytes.toList)

/-- `dedup_by_key(|k| k.0)`: of equal neighbours one is kept. -/
def dedupKeys : List PublicKey → List PublicKey
  | [] => []
  | [k] => [k]
  | k :: l :: rest => if k = l then dedupKeys (l :: rest) else k :: dedupKeys (l :: rest)

theorem mem_dedupKeys {key : PublicKey} : ∀ keys, key ∈ dedupKeys keys ↔ key ∈ keys
  | [] => by simp [dedupKeys]
  | [k] => by simp [dedupKeys]
  | k :: l :: rest => by
    have ih : key ∈ dedupKeys (l :: rest) ↔ key ∈ l :: rest := mem_dedupKeys (l :: rest)
    unfold dedupKeys
    split_ifs with hkl
    · rw [ih, hkl]
      simp
    · rw [List.mem_cons, ih, ← List.mem_cons]

theorem mem_sortKeys {key : PublicKey} {keys : List PublicKey} :
    key ∈ sortKeys keys ↔ key ∈ keys := List.mem_mergeSort

/-- One run of `revoke-issue`, without the list it carries forward. -/
structure RevokeRun where
  releaseKey : KeyFile
  releaseCert : List UInt8
  revoke : List String
  now : UInt64
  deriving DecidableEq, Repr

variable (scheme : Scheme) (readers : Readers)

def RevokeRun.named (run : RevokeRun) : Except KeyFileError (List PublicKey) :=
  run.revoke.mapM readers.fromHex

/-- `revoke-issue`; `existing` is the list whose entries are carried forward. -/
def revokeIssue (existing : Option (List UInt8)) (run : RevokeRun) :
    Except KeytoolError SignedRevocationList := do
  let key ← run.releaseKey.load.mapError .file
  let release ← (readers.readCertFile run.releaseCert).mapError .file
  if release.publicKey ≠ scheme.publicKey key then .error .wrongPair
  else
    let prior ← match existing with
      | none => Except.ok []
      | some bytes => match readers.lists.decode bytes with
        | none => .error (.file .badJson)
        | some list => .ok list.revokedKeys
    let named ← (run.named readers).mapError .file
    .ok (.issue scheme key release.cert (dedupKeys (sortKeys (prior ++ named))) run.now)

/-- The file the service serves after a run; a run that fails writes nothing. -/
def publish (served : Option (List UInt8)) (run : RevokeRun) : Option (List UInt8) :=
  match revokeIssue scheme readers served run with
  | .ok list => some (readers.lists.encode list)
  | .error _ => served

/-- `/v1/revocation-list` after a history in which every run carries the latest list forward. -/
def served (runs : List RevokeRun) : Option (List UInt8) := runs.foldl (publish scheme readers) none

def servedKeys (served : Option (List UInt8)) : List PublicKey :=
  ((served.bind readers.lists.decode).map (·.revokedKeys)).getD []

/-- The keys named by the runs of a history that succeeded, from a served list on. -/
def namedFrom : Option (List UInt8) → List RevokeRun → List PublicKey
  | _, [] => []
  | served, run :: runs =>
    (if (revokeIssue scheme readers served run).isOk then
      ((run.named readers).toOption).getD [] else []) ++
      namedFrom (publish scheme readers served run) runs

variable {scheme readers}

/-- What a run of `revoke-issue` that succeeds has read and signed. -/
theorem revokeIssue_eq_ok {existing : Option (List UInt8)} {run : RevokeRun}
    {list : SignedRevocationList} (h : revokeIssue scheme readers existing run = .ok list) :
    ∃ secret release named, run.releaseKey.load = .ok secret ∧
      readers.readCertFile run.releaseCert = .ok release ∧
      release.publicKey = scheme.publicKey secret ∧ run.named readers = .ok named ∧
      list = .issue scheme secret release.cert
        (dedupKeys (sortKeys (servedKeys readers existing ++ named))) run.now := by
  obtain ⟨secret, hsecret, h⟩ := Fallible.bind_eq_ok.mp h
  obtain ⟨release, hrelease, h⟩ := Fallible.bind_eq_ok.mp h
  split_ifs at h with hpair
  -- the list that is carried forward is the one that can be read, if there is one
  obtain ⟨named, hnamed, h⟩ : ∃ named, (run.named readers).mapError KeytoolError.file = .ok named ∧
      Except.ok (.issue scheme secret release.cert
        (dedupKeys (sortKeys (servedKeys readers existing ++ named))) run.now) =
          (.ok list : Except KeytoolError SignedRevocationList) := by
    cases existing with
    | none =>
      obtain ⟨prior, hprior, h⟩ := Fallible.bind_eq_ok.mp h
      cases hprior
      exact Fallible.bind_eq_ok.mp h
    | some bytes =>
      cases hdecode : readers.lists.decode bytes with
      | none => simp [hdecode] at h
      | some old =>
        have hserved : servedKeys readers (some bytes) = old.revokedKeys := by
          simp [servedKeys, hdecode]
        simp only [hdecode] at h
        obtain ⟨prior, hprior, h⟩ := Fallible.bind_eq_ok.mp h
        cases hprior
        rw [hserved]
        exact Fallible.bind_eq_ok.mp h
  exact ⟨secret, release, named, Fallible.mapError_eq_ok.mp hsecret, Fallible.mapError_eq_ok.mp hrelease,
    not_not.mp hpair, Fallible.mapError_eq_ok.mp hnamed, (Except.ok.inj h).symm⟩

/-- The keys of an issued list are those carried forward and those named. -/
theorem mem_revokeIssue {existing : Option (List UInt8)} {run : RevokeRun}
    {list : SignedRevocationList} (h : revokeIssue scheme readers existing run = .ok list)
    (key : PublicKey) :
    key ∈ list.revokedKeys ↔ key ∈ servedKeys readers existing ∨
      key ∈ ((run.named readers).toOption).getD [] := by
  obtain ⟨secret, release, named, -, -, -, hnamed, rfl⟩ := revokeIssue_eq_ok h
  rw [hnamed]
  simp [SignedRevocationList.issue, mem_dedupKeys, mem_sortKeys, Except.toOption]

theorem mem_servedKeys_publish (served : Option (List UInt8)) (run : RevokeRun) (key : PublicKey) :
    key ∈ servedKeys readers (publish scheme readers served run) ↔
      key ∈ servedKeys readers served ∨
        key ∈ (if (revokeIssue scheme readers served run).isOk then
          ((run.named readers).toOption).getD [] else []) := by
  unfold publish
  cases hrun : revokeIssue scheme readers served run with
  | error e => simp
  | ok list =>
    rw [if_pos (by rfl), ← mem_revokeIssue hrun]
    simp [servedKeys]

theorem mem_servedKeys_foldl (served : Option (List UInt8)) (runs : List RevokeRun)
    (key : PublicKey) :
    key ∈ servedKeys readers (runs.foldl (publish scheme readers) served) ↔
      key ∈ servedKeys readers served ∨ key ∈ namedFrom scheme readers served runs := by
  induction runs generalizing served with
  | nil => simp [namedFrom]
  | cons run runs ih =>
    rw [List.foldl_cons, ih, mem_servedKeys_publish, namedFrom, List.mem_append, or_assoc]

end Revoking

section Daemon

open RendezvousClient

/-- What `client-daemon --rendezvous-url` hands to its engine. It looks at no revocation list: the
set it passes in is empty. -/
def daemonEndpoints (client : RendezvousClient) (cache : Cache) (call : Call) :
    Except ClientError (List EndpointDescriptor) :=
  (client.getBundle cache { call with revoked := .empty }).1.map (·.endpoints)

/-- The endpoints that the daemon hands on come from a bundle that verifies under the pinned root
with nothing revoked. A call that passes the verified set of the served list returns bundles whose
two keys are absent from it; and that list has every key revoked so far. -/
theorem revocation_reaches_caller (scheme : Scheme) (readers : Readers) (client : RendezvousClient)
    (runs : List RevokeRun) (cache : Cache) (call : Call) :
    (∀ endpoints, daemonEndpoints client cache call = .ok endpoints →
      ∃ bundle p, client.consulted cache call = some bundle ∧
        client.verifyBundle bundle .empty call.now = .ok p ∧ endpoints = p.endpoints) ∧
    (∀ list p, (served scheme readers runs).bind readers.lists.decode = some list →
      list.verify client.verify client.trustRoot = .ok call.revoked →
      (client.getBundle cache call).1 = .ok p →
      ∃ bundle, client.consulted cache call = some bundle ∧
        client.verifyBundle bundle call.revoked call.now = .ok p ∧
        bundle.releaseKeyCert.childKey ∉ list.revokedKeys ∧
        bundle.bundleSigningKey ∉ list.revokedKeys) ∧
    (∀ key, key ∈ servedKeys readers (served scheme readers runs) ↔
      key ∈ namedFrom scheme readers none runs) := by
  refine ⟨?_, ?_, ?_⟩
  · intro endpoints h
    unfold daemonEndpoints at h
    cases hget : (client.getBundle cache { call with revoked := .empty }).1 with
    | error e => simp [hget, Except.map] at h
    | ok p =>
      obtain ⟨bundle, hbundle, hp, -⟩ := consulted_of_ok hget
      simp only [hget, Except.map, Except.ok.injEq] at h
      exact ⟨bundle, p, hbundle, hp, h.symm⟩
  · intro list p _ hlist hget
    obtain ⟨bundle, hbundle, hp, -⟩ := consulted_of_ok hget
    obtain ⟨-, -, hrevoked⟩ := SignedRevocationList.verify_ok_iff.mp hlist
    have hchain := (verifyBundle_ok_iff.mp hp).1
    have hrelease := hchain.releaseNotRevoked
    have hsigning := hchain.signingKeyNotRevoked
    rw [hrevoked, RevocationList.contains_fromKeys, decide_eq_false_iff_not] at hrelease hsigning
    exact ⟨bundle, hbundle, hp, hrelease, hsigning⟩
  · intro key
    rw [served, mem_servedKeys_foldl]
    simp [servedKeys]

def revokeBundleKey : RevokeRun where
  releaseKey := sampleKeyFile 2
  releaseCert := [0]
  revoke := [sampleHex 3]
  now := 120

def bundleKeyList : SignedRevocationList :=
  .issue sampleScheme (.replicate 32 2) releaseFile.cert [⟨.replicate 32 3⟩] 120

theorem revokeIssue_bundleKey (lists : Codec SignedRevocationList) :
    revokeIssue sampleScheme (sampleReaders releaseFile releaseFile lists) none revokeBundleKey =
      .ok bundleKeyList := by
  have hload : revokeBundleKey.releaseKey.load = .ok (.replicate 32 2) := load_sampleKeyFile 2
  have hcert : (sampleReaders releaseFile releaseFile lists).readCertFile
      revokeBundleKey.releaseCert = .ok releaseFile := rfl
  have hnamed : revokeBundleKey.named (sampleReaders releaseFile releaseFile lists) =
      .ok [⟨.replicate 32 3⟩] := by
    simp [RevokeRun.named, revokeBundleKey, Readers.fromHex, keyBytes_sampleHex, sampleReaders, pure,
      Except.pure]
  have hkeys : ∀ k : PublicKey, dedupKeys (sortKeys [k]) = [k] := by simp [sortKeys, dedupKeys]
  have hpair : releaseFile.publicKey = sampleScheme.publicKey (.replicate 32 2) := rfl
  unfold revokeIssue
  simp [hload, hcert, hnamed, hkeys, hpair, bundleKeyList]
  rfl

/-- The key of a bundle is on the list that is served and verifies, and the daemon hands the
endpoints of the bundle to its engine. -/
theorem revoked_bundle_reaches_engine :
    ∃ (readers : Readers) (client : RendezvousClient) (call : Call) (list : SignedRevocationList),
      (served sampleScheme readers [revokeBundleKey]).bind readers.lists.decode = some list ∧
      list.verify client.verify client.trustRoot = .ok (.fromKeys [⟨.replicate 32 3⟩]) ∧
      call.fetched = some (sampleBundle client.payloads) ∧
      (sampleBundle client.payloads).bundleSigningKey ∈ list.revokedKeys ∧
      daemonEndpoints client none call = .ok samplePayload.endpoints := by
  obtain ⟨payloads⟩ := Framed.nonempty RelayBundlePayload
  obtain ⟨bundles⟩ := Framed.nonempty SignedBundle
  obtain ⟨lists⟩ := Framed.nonempty SignedRevocationList
  let readers := sampleReaders releaseFile releaseFile lists.toCodec
  let client : RendezvousClient :=
    ⟨⟨⟨.replicate 32 1⟩⟩, sampleScheme.verify, payloads.toCodec, bundles⟩
  let call : Call := ⟨some (sampleBundle payloads.toCodec), .empty, 150, 150, .done, true, true⟩
  have hissue : revokeIssue sampleScheme readers none revokeBundleKey = .ok bundleKeyList :=
    revokeIssue_bundleKey lists.toCodec
  have hserved : (served sampleScheme readers [revokeBundleKey]).bind readers.lists.decode =
      some bundleKeyList := by
    simp [served, publish, hissue]
  have hlist : bundleKeyList.verify sampleScheme.verify ⟨⟨.replicate 32 1⟩⟩ =
      .ok (.fromKeys [⟨.replicate 32 3⟩]) := by
    refine SignedRevocationList.verify_ok_iff.mpr ⟨verifyAgainst_sample _ _ _, ?_, rfl⟩
    exact sampleScheme.verify_sign (.replicate 32 2) _
  have hverify : client.verifyBundle (sampleBundle payloads.toCodec) .empty 150 =
      .ok samplePayload := verifyBundle_sampleBundle payloads.toCodec
  have hget : (client.getBundle none call).1 = .ok samplePayload :=
    ok_of_consulted rfl hverify fun _ => rfl
  refine ⟨readers, client, call, bundleKeyList, hserved, hlist, rfl, List.mem_singleton_self _, ?_⟩
  unfold daemonEndpoints
  rw [show { call with revoked := .empty } = call from rfl, hget]
  rfl

end Daemon

end Vpn1.Trust
