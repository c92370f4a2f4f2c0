import Vpn1.Trust.Ceremony

/-! Revocation lists that are issued again and again, each carrying the entries of the one before:
they are sorted, only grow, and a bundle that brings a key of the last one is refused. -/

namespace Vpn1.Trust

section Order

/-- The order of `sort_by_key(|k| k.0)`. -/
def PublicKey.Before (k l : PublicKey) : Prop := k.bytes.toList < l.bytes.toList

private theorem sortKeys_pairwise (keys : List PublicKey) :
    (sortKeys keys).Pairwise fun k l => k.bytes.toList ≤ l.bytes.toList := by
  have htrans : ∀ a b c : PublicKey, decide (a.bytes.toList ≤ b.bytes.toList) = true →
      decide (b.bytes.toList ≤ c.bytes.toList) = true →
      decide (a.bytes.toList ≤ c.bytes.toList) = true := by
    intro a b c hab hbc
    simp only [decide_eq_true_eq] at hab hbc ⊢
    exact List.le_trans hab hbc
  have htotal : ∀ a b : PublicKey, (decide (a.bytes.toList ≤ b.bytes.toList) ||
      decide (b.bytes.toList ≤ a.bytes.toList)) = true := by
    intro a b
    simp only [Bool.or_eq_true, decide_eq_true_eq]
    exact List.le_total _ _
  exact (List.pairwise_mergeSort htrans htotal keys).imp of_decide_eq_true

private theorem dedupKeys_pairwise {keys : List PublicKey}
    (h : keys.Pairwise fun k l => k.bytes.toList ≤ l.bytes.toList) :
    (dedupKeys keys).Pairwise PublicKey.Before := by
  induction keys with
  | nil => exact .nil
  | cons k keys ih =>
    obtain ⟨hfirst, hrest⟩ := List.pairwise_cons.mp h
    cases keys with
    | nil => exact List.pairwise_singleton _ _
    | cons l rest =>
      rw [dedupKeys]
      split_ifs with hkl
      · exact ih hrest
      · refine List.pairwise_cons.mpr ⟨fun m hm => ?_, ih hrest⟩
        have hle := hfirst l List.mem_cons_self
        have hne : k.bytes.toList ≠ l.bytes.toList := fun heq => hkl (PublicKey.toList_inj heq)
        have hlt : k.bytes.toList < l.bytes.toList := Std.lt_of_le_of_ne hle hne
        -- what comes later is no smaller than the neighbour
        have hlm : l.bytes.toList ≤ m.bytes.toList := by
          rcases List.mem_cons.mp ((mem_dedupKeys _).mp hm) with rfl | hmem
          · exact List.le_refl _
          · exact List.rel_of_pairwise_cons hrest hmem
        exact Std.lt_of_lt_of_le hlt hlm

end Order

section Chain

variable (scheme : Scheme) (readers : Readers)

/-- Runs of `revoke-issue`, the first one without a list to carry forward and each other one with
the file that was written before it; and the list of the last one. -/
inductive Reissued : List RevokeRun → SignedRevocationList → Prop
  | first {run : RevokeRun} {list : SignedRevocationList} :
    revokeIssue scheme readers none run = .ok list → Reissued [run] list
  | next {runs : List RevokeRun} {run : RevokeRun} {prior list : SignedRevocationList} :
    Reissued runs prior →
    revokeIssue scheme readers (some (readers.lists.encode prior)) run = .ok list →
    Reissued (runs ++ [run]) list

def RevokedIn (runs : List RevokeRun) (key : PublicKey) : Prop :=
  ∃ run ∈ runs, ∃ named, run.named readers = .ok named ∧ key ∈ named

/-- The certificate of a run is the root's for the key that signs. -/
def ReleaseCertified (root : PublicKey) (run : RevokeRun) : Prop :=
  ∃ secret release, run.releaseKey.load = .ok secret ∧
    readers.readCertFile run.releaseCert = .ok release ∧
    release.cert.childKey = scheme.publicKey secret ∧
    release.cert.verifyAgainst scheme.verify root = true

/-- The keys a bundle brings, from the root's child to the one that signed the payload. -/
def SignedBundle.chainKeys (bundle : SignedBundle) : List PublicKey :=
  [bundle.releaseKeyCert.childKey, bundle.bundleKeyCert.childKey, bundle.bundleSigningKey]

variable {scheme readers}

theorem mem_of_revokeIssue {existing : Option (List UInt8)} {run : RevokeRun}
    {list : SignedRevocationList} (h : revokeIssue scheme readers existing run = .ok list)
    (key : PublicKey) :
    key ∈ list.revokedKeys ↔ key ∈ servedKeys readers existing ∨ RevokedIn readers [run] key := by
  obtain ⟨secret, release, named, -, -, -, hnamed, -⟩ := revokeIssue_eq_ok h
  rw [mem_revokeIssue h]
  simp [RevokedIn, hnamed, Except.toOption]

private theorem servedKeys_encode (list : SignedRevocationList) :
    servedKeys readers (some (readers.lists.encode list)) = list.revokedKeys := by
  simp [servedKeys]

private theorem revokedIn_append {runs : List RevokeRun} {run : RevokeRun} {key : PublicKey} :
    RevokedIn readers (runs ++ [run]) key ↔
      RevokedIn readers runs key ∨ RevokedIn readers [run] key := by
  simp only [RevokedIn, List.mem_append, or_and_right, exists_or]

/-- The last list has what any run of the chain has revoked. -/
theorem Reissued.mem_iff {runs : List RevokeRun} {list : SignedRevocationList}
    (h : Reissued scheme readers runs list) (key : PublicKey) :
    key ∈ list.revokedKeys ↔ RevokedIn readers runs key := by
  induction h with
  | first hrun =>
    rw [mem_of_revokeIssue hrun]
    simp [servedKeys]
  | next _ hrun ih => rw [mem_of_revokeIssue hrun, servedKeys_encode, ih, revokedIn_append]

/-- What the last run signed. -/
theorem Reissued.last {runs : List RevokeRun} {list : SignedRevocationList}
    (h : Reissued scheme readers runs list) :
    ∃ run ∈ runs.getLast?, ∃ existing, revokeIssue scheme readers existing run = .ok list := by
  cases h with
  | first hrun => exact ⟨_, rfl, _, hrun⟩
  | next _ hrun => exact ⟨_, List.getLast?_concat, _, hrun⟩

theorem Reissued.sorted {runs : List RevokeRun} {list : SignedRevocationList}
    (h : Reissued scheme readers runs list) : list.revokedKeys.Pairwise PublicKey.Before := by
  obtain ⟨run, -, existing, hrun⟩ := h.last
  obtain ⟨secret, release, named, -, -, -, -, rfl⟩ := revokeIssue_eq_ok hrun
  exact dedupKeys_pairwise (sortKeys_pairwise _)

/-- The list verifies under the root that certified the key it was signed with. -/
theorem Reissued.verify {runs : List RevokeRun} {list : SignedRevocationList} {root : PublicKey}
    (h : Reissued scheme readers runs list)
    (hroot : ∀ run ∈ runs.getLast?, ReleaseCertified scheme readers root run) :
    list.verify scheme.verify ⟨root⟩ = .ok (.fromKeys list.revokedKeys) := by
  obtain ⟨run, hlast, existing, hrun⟩ := h.last
  obtain ⟨secret, release, named, hload, hcert, -, -, rfl⟩ := revokeIssue_eq_ok hrun
  obtain ⟨secret', release', hload', hcert', hchild, hcertified⟩ := hroot run hlast
  obtain rfl := Except.ok.inj (hload.symm.trans hload')
  obtain rfl := Except.ok.inj (hcert.symm.trans hcert')
  rw [SignedRevocationList.verify_ok_iff]
  refine ⟨hcertified, ?_, rfl⟩
  rw [SignedRevocationList.issue, hchild]
  exact scheme.verify_sign _ _

private theorem verifyBundle_revoked {verify : Verifier} {json : Codec RelayBundlePayload}
    {bundle : SignedBundle} {trustRoot : TrustRoot} {revoked : RevocationList} {now : UInt64}
    {key : PublicKey} (hkey : revoked.contains key = true) (hchain : key ∈ bundle.chainKeys)
    (payload : RelayBundlePayload) :
    verifyBundle verify json bundle trustRoot revoked now ≠ .ok payload := by
  intro h
  have hchained := (verifyBundle_ok_iff.mp h).1
  have hsame := hchained.signingKey
  simp only [SignedBundle.chainKeys, List.mem_cons, List.not_mem_nil, or_false] at hchain
  rcases hchain with rfl | rfl | rfl
  · rw [hchained.releaseNotRevoked] at hkey
    exact Bool.false_ne_true hkey
  · rw [hsame, hchained.signingKeyNotRevoked] at hkey
    exact Bool.false_ne_true hkey
  · rw [hchained.signingKeyNotRevoked] at hkey
    exact Bool.false_ne_true hkey

/-- Lists that are issued again only grow, and the last one keeps out every key that was ever
revoked. -/
theorem reissued_lists_grow (scheme : Scheme) (readers : Readers) {runs : List RevokeRun}
    {list : SignedRevocationList} (h : Reissued scheme readers runs list) :
    (∀ key, key ∈ list.revokedKeys ↔ RevokedIn readers runs key) ∧
    list.revokedKeys.Pairwise PublicKey.Before ∧
    ∀ root, (∀ run ∈ runs.getLast?, ReleaseCertified scheme readers root run) →
      ∃ revoked, list.verify scheme.verify ⟨root⟩ = .ok revoked ∧
        (∀ key, revoked.contains key = true ↔ RevokedIn readers runs key) ∧
        ∀ json bundle trustRoot now key, RevokedIn readers runs key → key ∈ bundle.chainKeys →
          ∀ payload, verifyBundle scheme.verify json bundle trustRoot revoked now ≠ .ok payload := by
  refine ⟨h.mem_iff, h.sorted, fun root hroot => ?_⟩
  have hcontains : ∀ key, (RevocationList.fromKeys list.revokedKeys).contains key = true ↔
      RevokedIn readers runs key := by
    intro key
    rw [RevocationList.contains_fromKeys, decide_eq_true_eq, h.mem_iff]
  refine ⟨.fromKeys list.revokedKeys, h.verify hroot, hcontains, ?_⟩
  intro json bundle trustRoot now key hkey hchain payload
  exact verifyBundle_revoked ((hcontains key).mpr hkey) hchain payload

end Chain

section Sample

def revokeSpareKey : RevokeRun := { revokeBundleKey with revoke := [sampleHex 5] }

private theorem revokeIssue_spareKey (lists : Codec SignedRevocationList) :
    ∃ list, revokeIssue sampleScheme (sampleReaders releaseFile releaseFile lists)
      (some (lists.encode bundleKeyList)) revokeSpareKey = .ok list := by
  have hload : revokeSpareKey.releaseKey.load = .ok (.replicate 32 2) := load_sampleKeyFile 2
  have hcert : (sampleReaders releaseFile releaseFile lists).readCertFile
      revokeSpareKey.releaseCert = .ok releaseFile := rfl
  have hnamed : revokeSpareKey.named (sampleReaders releaseFile releaseFile lists) =
      .ok [⟨.replicate 32 5⟩] := by
    simp [RevokeRun.named, revokeSpareKey, Readers.fromHex, keyBytes_sampleHex, sampleReaders, pure,
      Except.pure]
  have hprior : (sampleReaders releaseFile releaseFile lists).lists.decode
      (lists.encode bundleKeyList) = some bundleKeyList := lists.decode_encode _
  have hpair : releaseFile.publicKey = sampleScheme.publicKey (.replicate 32 2) := rfl
  unfold revokeIssue
  simp [hload, hcert, hnamed, hprior, hpair]

/-- After the two runs the sample bundle is refused for the key that the first one revoked. -/
theorem reissued_sample :
    ∃ (readers : Readers) (list : SignedRevocationList) (revoked : RevocationList),
      Reissued sampleScheme readers [revokeBundleKey, revokeSpareKey] list ∧
      list.verify sampleScheme.verify ⟨⟨.replicate 32 1⟩⟩ = .ok revoked ∧
      ∀ json trustRoot now payload,
        verifyBundle sampleScheme.verify json (RendezvousClient.sampleBundle json) trustRoot revoked
          now ≠ .ok payload := by
  obtain ⟨lists⟩ := Framed.nonempty SignedRevocationList
  obtain ⟨list, hspare⟩ := revokeIssue_spareKey lists.toCodec
  have hchain : Reissued sampleScheme (sampleReaders releaseFile releaseFile lists.toCodec)
      [revokeBundleKey, revokeSpareKey] list :=
    .next (.first (revokeIssue_bundleKey lists.toCodec)) hspare
  obtain ⟨-, -, hverify⟩ := reissued_lists_grow sampleScheme _ hchain
  obtain ⟨revoked, hrevoked, -, hrefused⟩ := hverify ⟨.replicate 32 1⟩ (by
    intro run hrun
    cases hrun
    exact ⟨_, _, load_sampleKeyFile 2, rfl, rfl, verifyAgainst_sample _ _ _⟩)
  refine ⟨_, list, revoked, hchain, hrevoked, ?_⟩
  intro json trustRoot now payload
  refine hrefused json (RendezvousClient.sampleBundle json) trustRoot now ⟨.replicate 32 3⟩ ?_ ?_
    payload
  · refine ⟨revokeBundleKey, List.mem_cons_self, [⟨.replicate 32 3⟩], ?_, List.mem_cons_self⟩
    simp [RevokeRun.named, revokeBundleKey, Readers.fromHex, keyBytes_sampleHex, sampleReaders, pure,
      Except.pure]
  · exact List.mem_cons_of_mem _ (List.mem_cons_of_mem _ List.mem_cons_self)

end Sample

end Vpn1.Trust
