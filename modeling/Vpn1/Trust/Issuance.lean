import Vpn1.Trust.Hierarchy

/-! What the holders of the root and release keys have issued, and what is accepted as issued by
them. Certificates and revocation lists are signed without a tag that tells them apart. -/

namespace Vpn1.Trust

/-- One call of an `issue` function: the key that signed, and the object that came out. -/
inductive Issued
  | certificate (parent : PublicKey) (cert : KeyCertificate)
  | revocationList (release : PublicKey) (list : SignedRevocationList)
  deriving DecidableEq

/-- The message and the signature that a call has put into the world. -/
def Issued.signed : Issued → PublicKey × List UInt8 × Signature
  | .certificate parent cert =>
    (parent, KeyCertificate.signingBytes cert.childKey cert.issuedAt, cert.signature)
  | .revocationList release list =>
    (release, SignedRevocationList.signingBytes list.revokedKeys list.issuedAt, list.signature)

/-- The release keys: those with a certificate that the root accepts. -/
def Certified (verify : Verifier) (root key : PublicKey) : Prop :=
  ∃ cert : KeyCertificate, cert.childKey = key ∧ cert.verifyAgainst verify root = true

/-- Ideal signatures: under the root and the release keys exactly what was issued verifies. Nothing
is said of other keys, whose holders may sign what they like. -/
def Ideal (verify : Verifier) (root : PublicKey) (history : List Issued) : Prop :=
  ∀ key, key = root ∨ Certified verify root key → ∀ message signature,
    verify key message signature = true ↔ (key, message, signature) ∈ history.map Issued.signed

def IssuedCertificate (history : List Issued) (parent childKey : PublicKey) (issuedAt : UInt64) :
    Prop :=
  ∃ cert : KeyCertificate, .certificate parent cert ∈ history ∧ cert.childKey = childKey ∧
    cert.issuedAt = issuedAt

def IssuedList (history : List Issued) (release : PublicKey) (revokedKeys : List PublicKey)
    (issuedAt : UInt64) : Prop :=
  ∃ list : SignedRevocationList, .revocationList release list ∈ history ∧
    list.revokedKeys = revokedKeys ∧ list.issuedAt = issuedAt

/-- What is accepted was issued as what it is accepted for. -/
structure Unconfused (verify : Verifier) (root : PublicKey) (history : List Issued) : Prop where
  list : ∀ (list : SignedRevocationList) revoked, list.verify verify ⟨root⟩ = .ok revoked →
    IssuedList history list.releaseKeyCert.childKey list.revokedKeys list.issuedAt
  certificate : ∀ (parent : PublicKey) (cert : KeyCertificate),
    parent = root ∨ Certified verify root parent → cert.verifyAgainst verify parent = true →
    IssuedCertificate history parent cert.childKey cert.issuedAt

/-- Where the bytes of a certificate and of a list coincide, both were issued. -/
structure TwinsIssued (verify : Verifier) (root : PublicKey) (history : List Issued) : Prop where
  list : ∀ parent childKey issuedAt, IssuedCertificate history parent childKey issuedAt →
    Certified verify root parent → ∀ revokedKeys time,
    SignedRevocationList.signingBytes revokedKeys time =
      KeyCertificate.signingBytes childKey issuedAt → IssuedList history parent revokedKeys time
  certificate : ∀ release revokedKeys time, IssuedList history release revokedKeys time →
    release = root ∨ Certified verify root release → ∀ childKey issuedAt,
    KeyCertificate.signingBytes childKey issuedAt =
      SignedRevocationList.signingBytes revokedKeys time →
    IssuedCertificate history release childKey issuedAt

section

variable {verify : Verifier} {root : PublicKey} {history : List Issued}

/-- A message that verifies was signed in one of the two forms. -/
theorem Ideal.issued (hideal : Ideal verify root history) {key : PublicKey}
    (hkey : key = root ∨ Certified verify root key) {message : List UInt8} {signature : Signature}
    (h : verify key message signature = true) :
    (∃ childKey issuedAt, IssuedCertificate history key childKey issuedAt ∧
      KeyCertificate.signingBytes childKey issuedAt = message) ∨
    (∃ revokedKeys time, IssuedList history key revokedKeys time ∧
      SignedRevocationList.signingBytes revokedKeys time = message) := by
  have hmem := (hideal key hkey message signature).mp h
  obtain ⟨issued, hissued, hsigned⟩ := List.mem_map.mp hmem
  cases issued with
  | certificate parent cert =>
    simp only [Issued.signed, Prod.mk.injEq] at hsigned
    obtain ⟨rfl, hbytes, -⟩ := hsigned
    exact .inl ⟨_, _, ⟨cert, hissued, rfl, rfl⟩, hbytes⟩
  | revocationList release list =>
    simp only [Issued.signed, Prod.mk.injEq] at hsigned
    obtain ⟨rfl, hbytes, -⟩ := hsigned
    exact .inr ⟨_, _, ⟨list, hissued, rfl, rfl⟩, hbytes⟩

theorem Ideal.verify_certificate (hideal : Ideal verify root history) {parent : PublicKey}
    (hparent : parent = root ∨ Certified verify root parent) {cert : KeyCertificate}
    (h : .certificate parent cert ∈ history) :
    verify parent (KeyCertificate.signingBytes cert.childKey cert.issuedAt) cert.signature = true :=
  (hideal parent hparent _ _).mpr (List.mem_map_of_mem (f := Issued.signed) h)

theorem Ideal.verify_list (hideal : Ideal verify root history) {release : PublicKey}
    (hrelease : release = root ∨ Certified verify root release) {list : SignedRevocationList}
    (h : .revocationList release list ∈ history) :
    verify release (SignedRevocationList.signingBytes list.revokedKeys list.issuedAt)
      list.signature = true :=
  (hideal release hrelease _ _).mpr (List.mem_map_of_mem (f := Issued.signed) h)

private theorem unconfused_of_twins (hideal : Ideal verify root history)
    (htwins : TwinsIssued verify root history) : Unconfused verify root history := by
  constructor
  · intro list revoked haccepted
    obtain ⟨hchain, hsignature, -⟩ := SignedRevocationList.verify_ok_iff.mp haccepted
    have hcertified : Certified verify root list.releaseKeyCert.childKey :=
      ⟨list.releaseKeyCert, rfl, hchain⟩
    rcases hideal.issued (.inr hcertified) hsignature with ⟨child, time, hcert, hbytes⟩ |
      ⟨keys, time, hlist, hbytes⟩
    · exact htwins.list _ _ _ hcert hcertified _ _ hbytes.symm
    · obtain ⟨hkeys, htime⟩ := SignedRevocationList.signingBytes_inj hbytes
      rwa [← hkeys, ← htime]
  · intro parent cert hparent haccepted
    rcases hideal.issued hparent haccepted with ⟨child, time, hcert, hbytes⟩ |
      ⟨keys, time, hlist, hbytes⟩
    · obtain ⟨hchild, htime⟩ := KeyCertificate.signingBytes_inj hbytes
      rwa [← hchild, ← htime]
    · exact htwins.certificate _ _ _ hlist hparent _ _ hbytes.symm

private theorem twins_of_unconfused (hideal : Ideal verify root history)
    (hsafe : Unconfused verify root history) : TwinsIssued verify root history := by
  constructor
  · intro parent child issuedAt hissued hcertified keys time hbytes
    obtain ⟨cert, hcert, rfl, rfl⟩ := hissued
    obtain ⟨chain, rfl, hchain⟩ := hcertified
    -- the signature of the certificate, presented as the signature of a list
    have hverified := hideal.verify_certificate (.inr ⟨chain, rfl, hchain⟩) hcert
    rw [← hbytes] at hverified
    have haccepted : SignedRevocationList.verify verify ⟨time, keys, chain, cert.signature⟩ ⟨root⟩ =
        .ok (.fromKeys keys) :=
      SignedRevocationList.verify_ok_iff.mpr ⟨hchain, hverified, rfl⟩
    exact hsafe.list _ _ haccepted
  · intro release keys time hissued hrelease child issuedAt hbytes
    obtain ⟨list, hlist, rfl, rfl⟩ := hissued
    have hverified := hideal.verify_list hrelease hlist
    rw [← hbytes] at hverified
    exact hsafe.certificate release ⟨child, issuedAt, list.signature⟩ hrelease hverified

/-- Under ideal signatures nothing is accepted for what it was not issued as, exactly when every
certificate and list that share their bytes were both issued. Every certificate shares its bytes
with a list that revokes one key. -/
theorem unconfused_iff_twins (verify : Verifier) (root : PublicKey) (history : List Issued)
    (hideal : Ideal verify root history) :
    (Unconfused verify root history ↔ TwinsIssued verify root history) ∧
    ∀ childKey issuedAt, ∃ key time, SignedRevocationList.signingBytes [key] time =
      KeyCertificate.signingBytes childKey issuedAt :=
  ⟨⟨twins_of_unconfused hideal, unconfused_of_twins hideal⟩, exists_list_of_certificate⟩

end

section Sample

def sampleRoot : PublicKey := ⟨.replicate 32 1⟩

def sampleRelease : PublicKey := ⟨.replicate 32 2⟩

def sampleBundleKey : PublicKey := ⟨.replicate 32 3⟩

def sampleReleaseCert : KeyCertificate := ⟨sampleRelease, 1, .replicate 64 1⟩

def sampleBundleCert : KeyCertificate := ⟨sampleBundleKey, 0x0303030303030303, .replicate 64 2⟩

/-- One certificate for a release key, and one for a bundle key under it. -/
def sampleCeremony : List Issued :=
  [.certificate sampleRoot sampleReleaseCert, .certificate sampleRelease sampleBundleCert]

/-- The verifier that accepts what a history has signed and nothing else. -/
def recorded (history : List Issued) : Verifier := fun key message signature =>
  decide ((key, message, signature) ∈ history.map Issued.signed)

private theorem ideal_recorded (root : PublicKey) (history : List Issued) :
    Ideal (recorded history) root history := fun _ _ _ _ => decide_eq_true_iff

/-- The certificate of a bundle key, read as a list that revokes it. -/
def forgedList : SignedRevocationList :=
  ⟨0x0303030303030303, [sampleBundleKey], sampleReleaseCert, sampleBundleCert.signature⟩

/-- No list was ever issued, and one is accepted. -/
theorem forgedList_accepted :
    Ideal (recorded sampleCeremony) sampleRoot sampleCeremony ∧
    (∀ release keys time, ¬ IssuedList sampleCeremony release keys time) ∧
    forgedList.verify (recorded sampleCeremony) ⟨sampleRoot⟩ = .ok (.fromKeys [sampleBundleKey]) ∧
    ¬ Unconfused (recorded sampleCeremony) sampleRoot sampleCeremony := by
  have hnone : ∀ release keys time, ¬ IssuedList sampleCeremony release keys time := by
    intro release keys time h
    obtain ⟨list, hmem, -⟩ := h
    simp [sampleCeremony] at hmem
  have haccepted : forgedList.verify (recorded sampleCeremony) ⟨sampleRoot⟩ =
      .ok (.fromKeys [sampleBundleKey]) := by decide
  exact ⟨ideal_recorded _ _, hnone, haccepted, fun hsafe => hnone _ _ _ (hsafe.list _ _ haccepted)⟩

/-- The ceremony, and the list that shares its bytes with the certificate of the bundle key. -/
def twinCeremony : List Issued := sampleCeremony ++ [.revocationList sampleRelease forgedList]

private theorem forgedList_bytes :
    SignedRevocationList.signingBytes forgedList.revokedKeys forgedList.issuedAt =
      KeyCertificate.signingBytes sampleBundleCert.childKey sampleBundleCert.issuedAt := by
  decide

/-- The root has certified the release key and nothing else, so it has no certificate of its own. -/
theorem not_certified_root : ¬ Certified (recorded twinCeremony) sampleRoot sampleRoot := by
  rintro ⟨chain, hchild, hchain⟩
  have hsigned : (sampleRoot, KeyCertificate.signingBytes chain.childKey chain.issuedAt,
      chain.signature) ∈ twinCeremony.map Issued.signed := decide_eq_true_iff.mp hchain
  have hbytes : KeyCertificate.signingBytes chain.childKey chain.issuedAt =
      KeyCertificate.signingBytes sampleRelease 1 := by
    have hrelease : sampleRoot ≠ sampleRelease := by decide
    simp only [twinCeremony, sampleCeremony, List.map_cons, List.map_nil,
      Issued.signed, List.cons_append, List.nil_append, List.mem_cons, Prod.mk.injEq, hrelease,
      false_and, List.not_mem_nil, or_false, true_and] at hsigned
    exact hsigned.1
  have hkey := (KeyCertificate.signingBytes_inj hbytes).1
  rw [hchild] at hkey
  exact absurd hkey (by decide)

/-- With the twin issued as well nothing is confused, though a certificate reads as a list. -/
theorem unconfused_twins :
    IssuedCertificate twinCeremony sampleRelease sampleBundleKey 0x0303030303030303 ∧
      Unconfused (recorded twinCeremony) sampleRoot twinCeremony := by
  have hcert : IssuedCertificate twinCeremony sampleRelease sampleBundleKey 0x0303030303030303 :=
    ⟨sampleBundleCert, by decide, rfl, rfl⟩
  have hlist : IssuedList twinCeremony sampleRelease [sampleBundleKey] 0x0303030303030303 :=
    ⟨forgedList, by decide, rfl, rfl⟩
  refine ⟨hcert, (unconfused_iff_twins _ _ _ (ideal_recorded _ _)).1.mpr ⟨?_, ?_⟩⟩
  · rintro parent _ _ ⟨cert, hmem, rfl, rfl⟩ hcertified keys time hbytes
    simp only [twinCeremony, sampleCeremony, List.cons_append, List.nil_append, List.mem_cons,
      Issued.certificate.injEq, reduceCtorEq, List.not_mem_nil, or_false] at hmem
    rcases hmem with ⟨rfl, rfl⟩ | ⟨rfl, rfl⟩
    · exact absurd hcertified not_certified_root
    · rw [← forgedList_bytes] at hbytes
      obtain ⟨rfl, rfl⟩ := SignedRevocationList.signingBytes_inj hbytes
      exact hlist
  · rintro release _ _ ⟨list, hmem, rfl, rfl⟩ _ child time hbytes
    simp only [twinCeremony, sampleCeremony, List.cons_append, List.nil_append, List.mem_cons,
      Issued.revocationList.injEq, reduceCtorEq, List.not_mem_nil, or_false, false_or] at hmem
    obtain ⟨rfl, rfl⟩ := hmem
    rw [forgedList_bytes] at hbytes
    obtain ⟨rfl, rfl⟩ := KeyCertificate.signingBytes_inj hbytes
    exact hcert

end Sample

end Vpn1.Trust
