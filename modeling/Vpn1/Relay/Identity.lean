import Mathlib.Data.Nat.Bitwise
import Vpn1.Lib.Lockstep

/-! The relay's identity on disk: a certificate that is written over, and a key that is only ever
created. Which calls keep the pair of one identity together. -/

namespace Vpn1.Relay

open Stepwise

variable {ι : Type}

section Model

/-- What is in a file of an identity, which may be a part of it only. -/
structure Stored (ι : Type) where
  identity : ι
  whole : Bool
  deriving DecidableEq

structure KeyFile (ι : Type) extends Stored ι where
  mode : Nat
  deriving DecidableEq

/-- `relay.cert.der` and `relay.key.der`. -/
structure IdentityDir (ι : Type) where
  cert : Option (Stored ι)
  key : Option (KeyFile ι)
  deriving DecidableEq

structure RelayIdentity (ι : Type) where
  certDer : Stored ι
  keyDer : Stored ι
  deriving DecidableEq

inductive IdentityError
  | io
  | looseMode (mode : Nat)
  deriving DecidableEq

/-- A file is written, not opened, or not written to its end. -/
inductive Written
  | done
  | refused
  | cut
  deriving DecidableEq

/-- How the operations of a call go: a file that cannot be looked at counts as absent. The mode of a
new key is what the umask leaves of 0600. -/
structure FileAnswers (ι : Type) where
  generated : ι
  certSeen : Bool
  keySeen : Bool
  metadata : Bool
  readCert : Bool
  readKey : Bool
  createDir : Bool
  writeCert : Written
  createKey : Bool
  umaskLeaves : Nat
  keyWritten : Bool

def loadFromDir (dir : IdentityDir ι) (a : FileAnswers ι) :
    Except IdentityError (Option (RelayIdentity ι)) :=
  match dir.cert, dir.key with
  | some cert, some key =>
    if !a.certSeen || !a.keySeen then .ok none
    else if !a.metadata then .error .io
    else if key.mode &&& 0o077 ≠ 0 then .error (.looseMode key.mode)
    else if !a.readCert || !a.readKey then .error .io
    else .ok (some ⟨cert, key.toStored⟩)
  | _, _ => .ok none

def saveToDir (identity : ι) (dir : IdentityDir ι) (a : FileAnswers ι) :
    Except IdentityError Unit × IdentityDir ι :=
  if !a.createDir then (.error .io, dir)
  else
    match a.writeCert with
    | .refused => (.error .io, dir)
    | .cut => (.error .io, { dir with cert := some ⟨identity, false⟩ })
    | .done =>
      if dir.key.isSome || !a.createKey then (.error .io, { dir with cert := some ⟨identity, true⟩ })
      else
        let mode := 0o600 &&& a.umaskLeaves
        (if a.keyWritten then .ok () else .error .io,
          ⟨some ⟨identity, true⟩, some ⟨⟨identity, a.keyWritten⟩, mode⟩⟩)

def loadOrGenerate (dir : IdentityDir ι) (a : FileAnswers ι) :
    Except IdentityError (RelayIdentity ι) × IdentityDir ι :=
  match loadFromDir dir a with
  | .error e => (.error e, dir)
  | .ok (some identity) => (.ok identity, dir)
  | .ok none =>
    let saved := saveToDir a.generated dir a
    (saved.1.map fun _ => ⟨⟨a.generated, true⟩, ⟨a.generated, true⟩⟩, saved.2)

abbrev CallOutcome (ι : Type) := Except IdentityError (RelayIdentity ι) × IdentityDir ι

def call (a : FileAnswers ι) (dir : IdentityDir ι) : CallOutcome ι × IdentityDir ι :=
  (loadOrGenerate dir a, (loadOrGenerate dir a).2)

def calls (dir : IdentityDir ι) (as : List (FileAnswers ι)) : List (CallOutcome ι) :=
  (runAll call as dir).1

end Model

section Spec

def RelayIdentity.Matching (identity : RelayIdentity ι) : Prop :=
  identity.certDer.whole = true ∧ identity.keyDer = identity.certDer

def OneIdentity (dir : IdentityDir ι) : Prop :=
  ∃ i, (∀ cert ∈ dir.cert, cert = ⟨i, true⟩) ∧ ∀ key ∈ dir.key, key.toStored = ⟨i, true⟩

/-- The identity is stable over some calls, with the pin of a certificate. -/
structure StableIdentity {δ : Type} (certSha256 : Stored ι → δ) (outcomes : List (CallOutcome ι)) :
    Prop where
  matching : ∀ o ∈ outcomes, ∀ identity, o.1 = .ok identity → identity.Matching
  pin : ∀ o ∈ outcomes, ∀ o' ∈ outcomes, ∀ identity identity', o.1 = .ok identity →
    o'.1 = .ok identity' → certSha256 identity.certDer = certSha256 identity'.certDer
  apart : ∀ o ∈ outcomes, ∀ e, o.1 = .error e → ∀ cert ∈ o.2.cert, ∀ key ∈ o.2.key,
    cert.identity = key.identity

def ReplacesCert (dir : IdentityDir ι) (a : FileAnswers ι) : Prop :=
  loadFromDir dir a = .ok none ∧ a.createDir = true ∧ a.writeCert ≠ .refused

/-- A certificate is replaced only if there is no key, and a key that is created is written whole. -/
structure CarefulCall (dir : IdentityDir ι) (a : FileAnswers ι) : Prop where
  keyless : ReplacesCert dir a → dir.key = none
  written : ReplacesCert dir a → a.writeCert = .done → a.createKey = true → a.keyWritten = true

def CarefulCalls : IdentityDir ι → List (FileAnswers ι) → Prop
  | _, [] => True
  | dir, a :: as => CarefulCall dir a ∧ CarefulCalls (loadOrGenerate dir a).2 as

end Spec

section Calls

private theorem loadFromDir_eq_some {dir : IdentityDir ι} {a : FileAnswers ι}
    {identity : RelayIdentity ι} (h : loadFromDir dir a = .ok (some identity)) :
    dir.cert = some identity.certDer ∧ ∃ key, dir.key = some key ∧ key.toStored = identity.keyDer := by
  unfold loadFromDir at h
  split at h
  · next cert key hcert hkey =>
    split_ifs at h
    · cases h
    · cases h
      exact ⟨hcert, key, hkey, rfl⟩
  · cases h

private theorem loadOrGenerate_of_not_replaces {dir : IdentityDir ι} {a : FileAnswers ι}
    (h : ¬ ReplacesCert dir a) :
    (loadOrGenerate dir a).2 = dir ∧ ∀ identity, (loadOrGenerate dir a).1 = .ok identity →
      loadFromDir dir a = .ok (some identity) := by
  unfold loadOrGenerate
  cases hload : loadFromDir dir a with
  | error e => simp
  | ok loaded =>
    cases loaded with
    | some identity => simp
    | none =>
      have hsave : saveToDir a.generated dir a = (.error .io, dir) := by
        unfold saveToDir
        by_cases hdir : a.createDir = true
        · have hrefused : a.writeCert = .refused := by
            by_contra hwrite
            exact h ⟨hload, hdir, hwrite⟩
          rw [hdir, hrefused]
          rfl
        · simp [hdir]
      simp [hsave, Except.map]

private theorem loadOrGenerate_of_replaces {dir : IdentityDir ι} {a : FileAnswers ι}
    (h : ReplacesCert dir a) (hkey : dir.key = none) :
    loadOrGenerate dir a =
      if a.writeCert = .done ∧ a.createKey = true then
        (if a.keyWritten then .ok ⟨⟨a.generated, true⟩, ⟨a.generated, true⟩⟩ else .error .io,
          ⟨some ⟨a.generated, true⟩, some ⟨⟨a.generated, a.keyWritten⟩, 0o600 &&& a.umaskLeaves⟩⟩)
      else (.error .io, ⟨some ⟨a.generated, decide (a.writeCert = .done)⟩, none⟩) := by
  obtain ⟨hload, hdir, hwrite⟩ := h
  unfold loadOrGenerate saveToDir
  rw [hload, hdir, hkey]
  cases hw : a.writeCert with
  | refused => exact absurd hw hwrite
  | cut => simp [Except.map]
  | done =>
    cases hcreate : a.createKey with
    | false => simp [Except.map]
    | true => cases hwritten : a.keyWritten <;> simp [Except.map]

theorem CarefulCall.frozen {dir : IdentityDir ι} {a : FileAnswers ι} (hc : CarefulCall dir a)
    (hkey : dir.key ≠ none) :
    (loadOrGenerate dir a).2 = dir ∧ ∀ identity, (loadOrGenerate dir a).1 = .ok identity →
      loadFromDir dir a = .ok (some identity) :=
  loadOrGenerate_of_not_replaces fun h => hkey (hc.keyless h)

/-- A key in the directory is whole, and so is a certificate beside it, of the same identity. -/
def Together (dir : IdentityDir ι) : Prop :=
  ∀ key ∈ dir.key, key.whole = true ∧ ∀ cert ∈ dir.cert, cert = key.toStored

theorem OneIdentity.together {dir : IdentityDir ι} (h : OneIdentity dir) : Together dir := by
  obtain ⟨i, hcert, hkey⟩ := h
  intro key hk
  have hstored := hkey key hk
  constructor
  · exact congrArg Stored.whole hstored
  · intro cert hc
    rw [hcert cert hc, hstored]

/-- What a careful call does: nothing, or a new pair, or a certificate without a key. -/
theorem CarefulCall.cases {dir : IdentityDir ι} {a : FileAnswers ι} (hc : CarefulCall dir a) :
    ((loadOrGenerate dir a).2 = dir ∧ ∀ identity, (loadOrGenerate dir a).1 = .ok identity →
      loadFromDir dir a = .ok (some identity)) ∨
    loadOrGenerate dir a = (.ok ⟨⟨a.generated, true⟩, ⟨a.generated, true⟩⟩,
      ⟨some ⟨a.generated, true⟩, some ⟨⟨a.generated, true⟩, 0o600 &&& a.umaskLeaves⟩⟩) ∨
    (loadOrGenerate dir a).1 = .error .io ∧ (loadOrGenerate dir a).2.key = none := by
  by_cases hreplaces : ReplacesCert dir a
  · right
    rw [loadOrGenerate_of_replaces hreplaces (hc.keyless hreplaces)]
    by_cases hcreated : a.writeCert = .done ∧ a.createKey = true
    · left
      rw [if_pos hcreated, hc.written hreplaces hcreated.1 hcreated.2]
      rfl
    · right
      rw [if_neg hcreated]
      exact ⟨rfl, rfl⟩
  · left
    exact loadOrGenerate_of_not_replaces hreplaces

theorem Together.call {dir : IdentityDir ι} {a : FileAnswers ι} (h : Together dir)
    (hc : CarefulCall dir a) : Together (loadOrGenerate dir a).2 := by
  rcases hc.cases with ⟨hsame, -⟩ | hnew | ⟨-, hkeyless⟩
  · rw [hsame]
    exact h
  · rw [hnew]
    intro key hk
    cases hk
    refine ⟨rfl, fun cert hcert => ?_⟩
    cases hcert
    rfl
  · intro key hk
    rw [hkeyless] at hk
    cases hk

theorem returned_eq {dir : IdentityDir ι} {a : FileAnswers ι} (hc : CarefulCall dir a)
    {identity : RelayIdentity ι} (h : (loadOrGenerate dir a).1 = .ok identity) :
    (loadOrGenerate dir a).2.cert = some identity.certDer ∧
      ∃ key, (loadOrGenerate dir a).2.key = some key ∧ key.toStored = identity.keyDer := by
  rcases hc.cases with ⟨hsame, hloaded⟩ | hnew | ⟨hfailed, -⟩
  · rw [hsame]
    exact loadFromDir_eq_some (hloaded identity h)
  · rw [hnew] at h ⊢
    cases h
    exact ⟨rfl, _, rfl, rfl⟩
  · rw [hfailed] at h
    cases h

private theorem returned_matching {dir : IdentityDir ι} {a : FileAnswers ι} (ht : Together dir)
    (hc : CarefulCall dir a) {identity : RelayIdentity ι}
    (h : (loadOrGenerate dir a).1 = .ok identity) : identity.Matching := by
  obtain ⟨hcert, key, hkey, hstored⟩ := returned_eq hc h
  obtain ⟨hwhole, hsame⟩ := ht.call hc key hkey
  have hcertDer := hsame _ hcert
  constructor
  · rw [hcertDer]
    exact hwhole
  · rw [← hstored, hcertDer]

end Calls

section Histories

theorem calls_cons (dir : IdentityDir ι) (a : FileAnswers ι) (as : List (FileAnswers ι)) :
    calls dir (a :: as) = loadOrGenerate dir a :: calls (loadOrGenerate dir a).2 as := rfl

private theorem calls_frozen {dir : IdentityDir ι} {as : List (FileAnswers ι)}
    (hc : CarefulCalls dir as)
    (hkey : dir.key ≠ none) {o : CallOutcome ι} (ho : o ∈ calls dir as) {identity : RelayIdentity ι}
    (h : o.1 = .ok identity) : dir.cert = some identity.certDer := by
  induction as with
  | nil => simp [calls, runAll, runWhile] at ho
  | cons a as ih =>
    obtain ⟨hcall, hrest⟩ := hc
    obtain ⟨hsame, -⟩ := hcall.frozen hkey
    rw [calls_cons, hsame] at ho
    rw [hsame] at hrest
    rcases List.mem_cons.mp ho with rfl | hmem
    · have hreturned := (returned_eq hcall h).1
      rwa [hsame] at hreturned
    · exact ih hrest hmem

private theorem calls_matching {dir : IdentityDir ι} {as : List (FileAnswers ι)} (ht : Together dir)
    (hc : CarefulCalls dir as) {o : CallOutcome ι} (ho : o ∈ calls dir as) :
    (∀ identity, o.1 = .ok identity → identity.Matching) ∧ Together o.2 := by
  induction as generalizing dir with
  | nil => simp [calls, runAll, runWhile] at ho
  | cons a as ih =>
    obtain ⟨hcall, hrest⟩ := hc
    rcases List.mem_cons.mp ho with rfl | hmem
    · exact ⟨fun identity h => returned_matching ht hcall h, ht.call hcall⟩
    · exact ih (ht.call hcall) hrest hmem

private theorem calls_one_cert {dir : IdentityDir ι} {as : List (FileAnswers ι)}
    (hc : CarefulCalls dir as) {o o' : CallOutcome ι} (ho : o ∈ calls dir as)
    (ho' : o' ∈ calls dir as) {identity identity' : RelayIdentity ι} (h : o.1 = .ok identity)
    (h' : o'.1 = .ok identity') : identity.certDer = identity'.certDer := by
  induction as generalizing dir with
  | nil => simp [calls, runAll, runWhile] at ho
  | cons a as ih =>
    obtain ⟨hcall, hrest⟩ := hc
    -- after the first identity that is returned the directory does not change
    have hafter {p : CallOutcome ι} {returned first : RelayIdentity ι}
        (hfirst : (loadOrGenerate dir a).1 = .ok first)
        (hp : p ∈ calls (loadOrGenerate dir a).2 as) (hreturned : p.1 = .ok returned) :
        first.certDer = returned.certDer := by
      obtain ⟨hcert, key, hkey, -⟩ := returned_eq hcall hfirst
      have hlater := calls_frozen hrest (by simp [hkey]) hp hreturned
      exact Option.some.inj (hcert.symm.trans hlater)
    rcases List.mem_cons.mp ho with rfl | hmem
    · rcases List.mem_cons.mp ho' with rfl | hmem'
      · rw [Except.ok.inj (h.symm.trans h')]
      · exact hafter h hmem' h'
    · rcases List.mem_cons.mp ho' with rfl | hmem'
      · exact (hafter h' hmem h).symm
      · exact ih hrest hmem hmem'

private theorem stable_of_careful {δ : Type} (certSha256 : Stored ι → δ) {dir : IdentityDir ι}
    {as : List (FileAnswers ι)} (h : OneIdentity dir) (hc : CarefulCalls dir as) :
    StableIdentity certSha256 (calls dir as) where
  matching o ho := (calls_matching h.together hc ho).1
  pin o ho o' ho' identity identity' hi hi' :=
    congrArg certSha256 (calls_one_cert hc ho ho' hi hi')
  apart o ho e _ cert hcert key hkey := by
    rw [((calls_matching h.together hc ho).2 key hkey).2 cert hcert]

def after (dir : IdentityDir ι) (as : List (FileAnswers ι)) : IdentityDir ι := (runAll call as dir).2

private theorem calls_append (dir : IdentityDir ι) (as bs : List (FileAnswers ι)) :
    calls dir (as ++ bs) = calls dir as ++ calls (after dir as) bs := by
  rw [calls, runAll_append]
  rfl

def FileAnswers.smooth (i : ι) : FileAnswers ι where
  generated := i
  certSeen := true
  keySeen := true
  metadata := true
  readCert := true
  readKey := true
  createDir := true
  writeCert := .done
  createKey := true
  umaskLeaves := 0o777
  keyWritten := true

private theorem loadOrGenerate_of_key {dir : IdentityDir ι} {a : FileAnswers ι}
    (h : ReplacesCert dir a) {key : KeyFile ι} (hkey : dir.key = some key) :
    loadOrGenerate dir a =
      (.error .io, ⟨some ⟨a.generated, decide (a.writeCert = .done)⟩, some key⟩) := by
  obtain ⟨hload, hdir, hwrite⟩ := h
  unfold loadOrGenerate saveToDir
  rw [hload, hdir, hkey]
  cases hw : a.writeCert with
  | refused => exact absurd hw hwrite
  | cut => simp [Except.map]
  | done => simp [Except.map]

private theorem load_cut_key (i : ι) (leaves : Nat) (next : ι) :
    loadOrGenerate ⟨some ⟨i, true⟩, some ⟨⟨i, false⟩, 0o600 &&& leaves⟩⟩ (.smooth next) =
      (.ok ⟨⟨i, true⟩, ⟨i, false⟩⟩, ⟨some ⟨i, true⟩, some ⟨⟨i, false⟩, 0o600 &&& leaves⟩⟩) := by
  have hmode : (0o600 &&& leaves) &&& 0o077 = 0 := by
    rw [Nat.and_comm 0o600, Nat.and_assoc]
    exact Nat.and_zero leaves
  simp [loadOrGenerate, loadFromDir, FileAnswers.smooth, hmode]

/-- A call that is not careful, with an identity of its own, or a smooth one after it goes wrong. -/
theorem not_stable_of_careless {δ : Type} (certSha256 : Stored ι → δ) {dir : IdentityDir ι}
    {a : FileAnswers ι} (hnew : ∀ key ∈ dir.key, key.identity ≠ a.generated)
    (hc : ¬ CarefulCall dir a) (before : List (CallOutcome ι)) (next : ι) :
    ¬ StableIdentity certSha256 (before ++ calls dir [a, .smooth next]) := by
  intro hstable
  have hreplaces : ReplacesCert dir a := by
    by_contra hkeeps
    exact hc ⟨fun h => absurd h hkeeps, fun h => absurd h hkeeps⟩
  cases hkey : dir.key with
  | some key =>
    have hcall := loadOrGenerate_of_key hreplaces hkey
    have hmem : loadOrGenerate dir a ∈ before ++ calls dir [a, .smooth next] := by
      simp [calls_cons]
    rw [hcall] at hmem
    have hsame := hstable.apart _ hmem _ rfl _ rfl key rfl
    exact hnew key hkey hsame.symm
  | none =>
    have hcut : a.writeCert = .done ∧ a.createKey = true ∧ a.keyWritten = false := by
      by_contra hwritten
      refine hc ⟨fun _ => hkey, fun _ hdone hcreated => ?_⟩
      cases hw : a.keyWritten with
      | true => rfl
      | false => exact absurd ⟨hdone, hcreated, hw⟩ hwritten
    obtain ⟨hdone, hcreated, hw⟩ := hcut
    have hcall := loadOrGenerate_of_replaces hreplaces hkey
    rw [if_pos ⟨hdone, hcreated⟩, hw] at hcall
    have hmem : loadOrGenerate (loadOrGenerate dir a).2 (.smooth next) ∈
        before ++ calls dir [a, .smooth next] := by
      simp [calls_cons]
    rw [hcall, load_cut_key] at hmem
    have hmatching := (hstable.matching _ hmem _ rfl).2
    exact Bool.false_ne_true (congrArg Stored.whole hmatching)

/-- Careful calls keep the identity stable. After them, the first call that is not careful ends that,
at once or at the next start. -/
theorem identity_stable_while_careful {δ : Type} (certSha256 : Stored ι → δ) (dir : IdentityDir ι)
    (as : List (FileAnswers ι)) (h : OneIdentity dir) (hc : CarefulCalls dir as) :
    StableIdentity certSha256 (calls dir as) ∧
    ∀ a, (∀ key ∈ (after dir as).key, key.identity ≠ a.generated) → ¬ CarefulCall (after dir as) a →
      ∀ next, ¬ StableIdentity certSha256 (calls dir (as ++ [a, .smooth next])) := by
  constructor
  · exact stable_of_careful certSha256 h hc
  · intro a hnew hcareless next
    rw [calls_append]
    exact not_stable_of_careless certSha256 hnew hcareless _ next

end Histories

section Samples

def emptyDir : IdentityDir ℕ := ⟨none, none⟩

/-- The certificate is not written to its end at first; then the relay starts twice. -/
def threeStarts : List (FileAnswers ℕ) :=
  [{ FileAnswers.smooth 1 with writeCert := .cut }, .smooth 2, .smooth 3]

theorem threeStarts_stable :
    StableIdentity id (calls emptyDir threeStarts) ∧
      (calls emptyDir threeStarts).map Prod.fst =
        [.error .io, .ok ⟨⟨2, true⟩, ⟨2, true⟩⟩, .ok ⟨⟨2, true⟩, ⟨2, true⟩⟩] := by
  constructor
  · apply (identity_stable_while_careful id emptyDir threeStarts ?_ ?_).1
    · exact ⟨0, by simp [emptyDir], by simp [emptyDir]⟩
    · refine ⟨⟨fun _ => rfl, fun _ h => ?_⟩, ⟨fun _ => rfl, fun _ _ _ => rfl⟩, ⟨?_, ?_⟩, trivial⟩
      · cases h
      · intro h
        exact absurd h.1 (by decide)
      · intro h
        exact absurd h.1 (by decide)
  · decide

def lostCert : IdentityDir ℕ := ⟨none, some ⟨⟨0, true⟩, 0o600⟩⟩

private theorem calls_lostCert : calls lostCert [.smooth 1, .smooth 2] =
    [(.error .io, ⟨some ⟨1, true⟩, some ⟨⟨0, true⟩, 0o600⟩⟩),
      (.ok ⟨⟨1, true⟩, ⟨0, true⟩⟩, ⟨some ⟨1, true⟩, some ⟨⟨0, true⟩, 0o600⟩⟩)] := by decide

/-- The next start writes another certificate beside the key, and the one after that returns the two
of them. -/
theorem lost_cert_splits :
    OneIdentity lostCert ∧ ¬ StableIdentity id (calls lostCert [.smooth 1, .smooth 2]) := by
  refine ⟨⟨0, by simp [lostCert], by simp [lostCert]⟩, fun h => ?_⟩
  rw [calls_lostCert] at h
  have hmatching := h.matching _ (List.mem_cons_of_mem _ List.mem_cons_self) _ rfl
  exact absurd hmatching.2 (by decide)

end Samples

end Vpn1.Relay
