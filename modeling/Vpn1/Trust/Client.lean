import Vpn1.Trust.Bundle

/-! The rendezvous client: fetch, verify and cache a bundle, or fall back to the cached one. -/

namespace Vpn1.Trust

/-- `std::fs::write` on the cache file: opening truncates it, and a write that fails has put some
of the bytes in place. -/
inductive CacheWrite
  | done
  | notOpened
  | cut (written : Nat)
  deriving DecidableEq, Repr

/-- One call of `get_bundle`: what the source answers, the set passed in, the clock as the bundle is
verified and as the call returns, and how the operations on the cache go. -/
structure Call where
  fetched : Option SignedBundle
  revoked : RevocationList
  now : UInt64
  returned : UInt64
  write : CacheWrite
  found : Bool
  read : Bool
  deriving DecidableEq

inductive ClientError
  | verify (cause : ConfigError)
  | noCache
  | io
  | cacheCorrupt
  deriving DecidableEq, Repr

/-- The contents of the cache file, if there is one. -/
abbrev Cache := Option (List UInt8)

/-- `payloads` and `bundles` are how `serde_json` writes and reads the two types. -/
structure RendezvousClient where
  trustRoot : TrustRoot
  verify : Verifier
  payloads : Codec RelayBundlePayload
  bundles : Framed SignedBundle

namespace RendezvousClient

variable (client : RendezvousClient)

def verifyBundle (bundle : SignedBundle) (revoked : RevocationList) (now : UInt64) :
    Except ConfigError RelayBundlePayload :=
  Trust.verifyBundle client.verify client.payloads bundle client.trustRoot revoked now

def writeCache (cache : Cache) (bundle : SignedBundle) :
    CacheWrite → Except ClientError Unit × Cache
  | .done => (.ok (), some (client.bundles.encode bundle))
  | .notOpened => (.error .io, cache)
  | .cut n => (.error .io, some ((client.bundles.encode bundle).take n))

def readCache (cache : Cache) (call : Call) : Except ClientError SignedBundle :=
  match if call.found then cache else none with
  | none => .error .noCache
  | some bytes =>
    if !call.read then .error .io
    else match client.bundles.decode bytes with
      | none => .error .cacheCorrupt
      | some bundle => .ok bundle

def getBundle (cache : Cache) (call : Call) : Except ClientError RelayBundlePayload × Cache :=
  match call.fetched with
  | some bundle =>
    match client.verifyBundle bundle call.revoked call.now with
    | .error e => (.error (.verify e), cache)
    | .ok payload =>
      let (written, cache) := client.writeCache cache bundle call.write
      (written.map fun _ => payload, cache)
  | none =>
    match client.readCache cache call with
    | .error e => (.error e, cache)
    | .ok bundle => ((client.verifyBundle bundle call.revoked call.now).mapError .verify, cache)

def steps (cache : Cache) : List Call → List (Cache × Call)
  | [] => []
  | call :: calls => (cache, call) :: steps (client.getBundle cache call).2 calls

def after (cache : Cache) : List Call → Cache
  | [] => cache
  | call :: calls => after (client.getBundle cache call).2 calls

def cached (cache : Cache) : Option SignedBundle := cache.bind client.bundles.decode

def consulted (cache : Cache) (call : Call) : Option SignedBundle :=
  match call.fetched with
  | some bundle => some bundle
  | none => (client.readCache cache call).toOption

/-- What a call may do: return a payload that is verified and in its window, and replace a bundle in
the cache by one that is verified. -/
structure Safe (cache : Cache) (call : Call) : Prop where
  returned : ∀ p, (client.getBundle cache call).1 = .ok p →
    (∃ bundle, client.verifyBundle bundle call.revoked call.now = .ok p) ∧
      p.issuedAt ≤ call.returned ∧ call.returned < p.expiresAt
  kept : ∀ old, client.cached cache = some old →
    ∃ new, client.cached (client.getBundle cache call).2 = some new ∧
      (new = old ∨ ∃ p, client.verifyBundle new call.revoked call.now = .ok p)

/-- A write over a cached bundle that begins also puts all its bytes in place, and the window that
was open when the bundle was verified is still open when the call returns. -/
structure Whole (cache : Cache) (call : Call) : Prop where
  write : ∀ bundle p n, call.fetched = some bundle →
    client.verifyBundle bundle call.revoked call.now = .ok p → call.write = .cut n →
    (client.cached cache).isSome = true → (client.bundles.encode bundle).length ≤ n
  clock : ∀ bundle p, client.consulted cache call = some bundle →
    client.verifyBundle bundle call.revoked call.now = .ok p →
    (call.fetched.isSome = true → call.write = .done) →
    p.issuedAt ≤ call.returned ∧ call.returned < p.expiresAt

section

variable {client : RendezvousClient} {cache : Cache} {call : Call}

/-- Every way a call returns, with the cache it leaves. -/
inductive Path (client : RendezvousClient) (cache : Cache) (call : Call) :
    Except ClientError RelayBundlePayload → Cache → Prop
  | refused {bundle : SignedBundle} {e : ConfigError} (hfetched : call.fetched = some bundle)
      (he : client.verifyBundle bundle call.revoked call.now = .error e) :
      Path client cache call (.error (.verify e)) cache
  | stored {bundle : SignedBundle} {p : RelayBundlePayload} (hfetched : call.fetched = some bundle)
      (hp : client.verifyBundle bundle call.revoked call.now = .ok p) (hwrite : call.write = .done) :
      Path client cache call (.ok p) (some (client.bundles.encode bundle))
  | notStored {bundle : SignedBundle} {p : RelayBundlePayload}
      (hfetched : call.fetched = some bundle)
      (hp : client.verifyBundle bundle call.revoked call.now = .ok p)
      (hwrite : call.write = .notOpened) : Path client cache call (.error .io) cache
  | torn {bundle : SignedBundle} {p : RelayBundlePayload} {n : Nat}
      (hfetched : call.fetched = some bundle)
      (hp : client.verifyBundle bundle call.revoked call.now = .ok p)
      (hwrite : call.write = .cut n) :
      Path client cache call (.error .io) (some ((client.bundles.encode bundle).take n))
  | unread {e : ClientError} (hfetched : call.fetched = none)
      (he : client.readCache cache call = .error e) : Path client cache call (.error e) cache
  | fallback {bundle : SignedBundle} (hfetched : call.fetched = none)
      (hread : client.readCache cache call = .ok bundle) :
      Path client cache call
        ((client.verifyBundle bundle call.revoked call.now).mapError .verify) cache

private theorem getBundle_path (client : RendezvousClient) (cache : Cache) (call : Call) :
    Path client cache call (client.getBundle cache call).1 (client.getBundle cache call).2 := by
  unfold getBundle
  cases hfetched : call.fetched with
  | some bundle =>
    dsimp only
    cases hverify : client.verifyBundle bundle call.revoked call.now with
    | error e => exact .refused hfetched hverify
    | ok p =>
      cases hwrite : call.write with
      | done => exact .stored hfetched hverify hwrite
      | notOpened => exact .notStored hfetched hverify hwrite
      | cut n => exact .torn hfetched hverify hwrite
  | none =>
    dsimp only
    cases hread : client.readCache cache call with
    | error e => exact .unread hfetched hread
    | ok bundle => exact .fallback hfetched hread

/-- A returned payload was verified, in the bundle the call looked at. -/
theorem consulted_of_ok {p : RelayBundlePayload} (h : (client.getBundle cache call).1 = .ok p) :
    ∃ bundle, client.consulted cache call = some bundle ∧
      client.verifyBundle bundle call.revoked call.now = .ok p ∧
      (call.fetched.isSome = true → call.write = .done) := by
  have hpath := getBundle_path client cache call
  rw [h] at hpath
  generalize (client.getBundle cache call).2 = left at hpath
  generalize hr : (Except.ok p : Except ClientError RelayBundlePayload) = r at hpath
  cases hpath with
  | refused => cases hr
  | notStored => cases hr
  | torn => cases hr
  | unread => cases hr
  | stored hfetched hp hwrite =>
    cases hr
    exact ⟨_, by simp [consulted, hfetched], hp, fun _ => hwrite⟩
  | @fallback bundle hfetched hread =>
    cases hverify : client.verifyBundle bundle call.revoked call.now with
    | error e => simp [hverify, Except.mapError] at hr
    | ok q =>
      simp only [hverify, Except.mapError, Except.ok.injEq] at hr
      exact ⟨bundle, by simp [consulted, hfetched, hread, Except.toOption], hr ▸ hverify,
        by simp [hfetched]⟩

/-- What a call returns once the bundle it looks at is verified and stored. -/
theorem ok_of_consulted {bundle : SignedBundle} {p : RelayBundlePayload}
    (hbundle : client.consulted cache call = some bundle)
    (hp : client.verifyBundle bundle call.revoked call.now = .ok p)
    (hwrite : call.fetched.isSome = true → call.write = .done) :
    (client.getBundle cache call).1 = .ok p := by
  unfold consulted at hbundle
  unfold getBundle
  cases hfetched : call.fetched with
  | some b =>
    simp only [hfetched, Option.some.injEq] at hbundle
    have hdone : call.write = .done := hwrite (by simp [hfetched])
    simp [hbundle, hp, hdone, writeCache, Except.map]
  | none =>
    simp only [hfetched] at hbundle
    cases hread : client.readCache cache call with
    | error e => simp [hread, Except.toOption] at hbundle
    | ok b =>
      simp only [hread, Except.toOption, Option.some.injEq] at hbundle
      simp [hbundle, hp, Except.mapError]

@[simp] theorem cached_encode (bundle : SignedBundle) :
    client.cached (some (client.bundles.encode bundle)) = some bundle := by
  simp [cached]

private theorem cached_take (bundle : SignedBundle) (n : Nat) :
    client.cached (some ((client.bundles.encode bundle).take n)) =
      if (client.bundles.encode bundle).length ≤ n then some bundle else none := by
  unfold cached
  split_ifs with hn
  · simp [List.take_of_length_le hn]
  · exact client.bundles.decode_take bundle n (by omega)

private theorem safe_iff_whole : client.Safe cache call ↔ client.Whole cache call := by
  constructor
  · intro hsafe
    constructor
    · intro bundle p n hfetched hp hwrite hcached
      obtain ⟨old, hold⟩ := Option.isSome_iff_exists.mp hcached
      obtain ⟨new, hnew, -⟩ := hsafe.kept old hold
      have hleft : (client.getBundle cache call).2 =
          some ((client.bundles.encode bundle).take n) := by
        simp [getBundle, hfetched, hp, hwrite, writeCache]
      rw [hleft, cached_take] at hnew
      by_contra hshort
      simp [hshort] at hnew
    · intro bundle p hbundle hp hwrite
      exact (hsafe.returned p (ok_of_consulted hbundle hp hwrite)).2
  · intro hwhole
    constructor
    · intro p h
      obtain ⟨bundle, hbundle, hp, hwrite⟩ := consulted_of_ok h
      exact ⟨⟨bundle, hp⟩, hwhole.clock bundle p hbundle hp hwrite⟩
    · intro old hold
      have hpath := getBundle_path client cache call
      generalize (client.getBundle cache call).1 = r at hpath
      generalize (client.getBundle cache call).2 = left at hpath ⊢
      cases hpath with
      | refused => exact ⟨old, hold, .inl rfl⟩
      | notStored => exact ⟨old, hold, .inl rfl⟩
      | unread => exact ⟨old, hold, .inl rfl⟩
      | fallback => exact ⟨old, hold, .inl rfl⟩
      | stored _ hp => exact ⟨_, cached_encode _, .inr ⟨_, hp⟩⟩
      | torn hfetched hp hwrite =>
        have hlen := hwhole.write _ _ _ hfetched hp hwrite (by simp [hold])
        exact ⟨_, by rw [cached_take, if_pos hlen], .inr ⟨_, hp⟩⟩

private theorem cached_after {calls : List Call} (hold : (client.cached cache).isSome = true)
    (hsafe : ∀ s ∈ client.steps cache calls, client.Safe s.1 s.2) :
    (client.cached (client.after cache calls)).isSome = true := by
  induction calls generalizing cache with
  | nil => exact hold
  | cons call calls ih =>
    obtain ⟨hhead, htail⟩ := List.forall_mem_cons.mp hsafe
    obtain ⟨old, hcached⟩ := Option.isSome_iff_exists.mp hold
    obtain ⟨new, hnew, -⟩ := hhead.kept old hcached
    exact ih (by simp [hnew]) htail

/-- In any run from any cache: every payload returned was verified under the pinned root with the
set passed in; every call is safe exactly when its write and its clock allow it; and if they all
do, a bundle stays in the cache throughout. -/
theorem run_safe_iff (client : RendezvousClient) (cache : Cache) (calls : List Call) :
    (∀ s ∈ client.steps cache calls, ∀ p, (client.getBundle s.1 s.2).1 = .ok p →
      ∃ bundle, client.consulted s.1 s.2 = some bundle ∧
        client.verifyBundle bundle s.2.revoked s.2.now = .ok p) ∧
    ((∀ s ∈ client.steps cache calls, client.Safe s.1 s.2) ↔
      ∀ s ∈ client.steps cache calls, client.Whole s.1 s.2) ∧
    ((∀ s ∈ client.steps cache calls, client.Whole s.1 s.2) →
      (client.cached cache).isSome = true →
        (client.cached (client.after cache calls)).isSome = true) := by
  refine ⟨?_, ?_, ?_⟩
  · intro s _ p h
    obtain ⟨bundle, hbundle, hp, -⟩ := consulted_of_ok h
    exact ⟨bundle, hbundle, hp⟩
  · exact forall₂_congr fun _ _ => safe_iff_whole
  · intro hwhole hold
    exact cached_after hold fun s hs => safe_iff_whole.mpr (hwhole s hs)

end

section Sample

deriving instance Countable for PublicKey

deriving instance Countable for KeyCertificate

deriving instance Countable for SignedBundle

def samplePayload : RelayBundlePayload := ⟨1, 100, 200, "n", []⟩

def sampleBundle (json : Codec RelayBundlePayload) : SignedBundle :=
  issueBundle sampleScheme json (.replicate 32 1) (.replicate 32 2) (.replicate 32 3) 1 2
    samplePayload

theorem verifyBundle_sampleBundle (json : Codec RelayBundlePayload) :
    Trust.verifyBundle sampleScheme.verify json (sampleBundle json)
      ⟨sampleScheme.publicKey (.replicate 32 1)⟩ .empty 150 = .ok samplePayload := by
  have hchain := (chained_issueBundle_iff sampleScheme json (.replicate 32 1) (.replicate 32 2)
    (.replicate 32 3) 1 2 samplePayload .empty).mpr
    ⟨RevocationList.contains_empty _, RevocationList.contains_empty _⟩
  exact verifyBundle_ok_iff.mpr ⟨hchain, json.decode_encode _, by decide, by decide, by decide⟩

/-- A good bundle arrives while another is cached, and its write stops after the file is opened:
the cache is empty, and the next outage finds nothing to fall back to. -/
theorem cut_write_loses_cache :
    ∃ (client : RendezvousClient) (cache : Cache) (call : Call),
      (client.cached cache).isSome = true ∧
      client.verifyBundle (sampleBundle client.payloads) call.revoked call.now = .ok samplePayload ∧
      call.fetched = some (sampleBundle client.payloads) ∧
      client.cached (client.getBundle cache call).2 = none ∧ ¬ client.Safe cache call := by
  obtain ⟨payloads⟩ := Framed.nonempty RelayBundlePayload
  obtain ⟨bundles⟩ := Framed.nonempty SignedBundle
  let client : RendezvousClient :=
    ⟨⟨sampleScheme.publicKey (.replicate 32 1)⟩, sampleScheme.verify, payloads.toCodec, bundles⟩
  let bundle := sampleBundle payloads.toCodec
  let call : Call := ⟨some bundle, .empty, 150, 150, .cut 0, true, true⟩
  have hcached : client.cached (some (bundles.encode bundle)) = some bundle := cached_encode bundle
  have hverify : client.verifyBundle bundle .empty 150 = .ok samplePayload :=
    verifyBundle_sampleBundle payloads.toCodec
  have hleft : (client.getBundle (some (bundles.encode bundle)) call).2 =
      some ((bundles.encode bundle).take 0) := by
    simp [getBundle, call, hverify, writeCache, client]
  have hpositive : 0 < (bundles.encode bundle).length := by
    by_contra hzero
    have hnil : bundles.encode bundle = [] := List.eq_nil_of_length_eq_zero (by omega)
    have hother : bundles.encode { bundle with payloadBytes := 0 :: bundle.payloadBytes } ≠ [] := by
      intro hempty
      have hsame := bundles.decode_encode { bundle with payloadBytes := 0 :: bundle.payloadBytes }
      rw [hempty, ← hnil, bundles.decode_encode] at hsame
      have hbytes := congrArg SignedBundle.payloadBytes (Option.some.inj hsame)
      simp at hbytes
    have hcut := bundles.decode_take _ 0 (List.length_pos_iff.mpr hother)
    rw [List.take_zero, ← hnil, bundles.decode_encode] at hcut
    cases hcut
  have hnone : client.cached (client.getBundle (some (bundles.encode bundle)) call).2 = none := by
    rw [hleft]
    exact bundles.decode_take bundle 0 hpositive
  refine ⟨client, some (bundles.encode bundle), call, by simp [hcached], hverify, rfl, hnone, ?_⟩
  intro hsafe
  obtain ⟨new, hnew, -⟩ := hsafe.kept bundle hcached
  rw [hnone] at hnew
  cases hnew

end Sample

end RendezvousClient

end Vpn1.Trust
