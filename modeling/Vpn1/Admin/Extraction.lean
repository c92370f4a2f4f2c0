import Mathlib.Data.List.Infix
import Vpn1.Admin.Backup

/-! What `extract_validated_backup` does to the file system it runs on, whatever it is given to
extract. -/

namespace Vpn1.Admin

def TarEntry.node (entry : TarEntry) : Node :=
  if entry.type = .dir then .dir else .file entry.content

def TarEntry.stagedPath? (entry : TarEntry) : Option RelPath :=
  (normalizedArchivePath entry.path).filter (· ≠ [])

/-- `unpack_in`, as far as it is relied on: an entry is written at its own path below the directory,
where directories above it may be made. Nothing is known of an entry whose path is unsafe. -/
structure UnpackIn where
  run : RelPath → TarEntry → Tree → Except Unit Bool × Tree
  makes : RelPath → List RelPath
  makes_ne_nil : ∀ path, ∀ q ∈ makes path, q ≠ []
  makes_above : ∀ path, ∀ q ∈ makes path, q <+: path ∧ q ≠ path
  frame : ∀ dir entry fs path, entry.stagedPath? = some path →
    ∀ p, p ≠ dir ++ path → (∀ q ∈ makes path, p ≠ dir ++ q) → (run dir entry fs).2 p = fs p
  makes_dir : ∀ dir entry fs path, entry.stagedPath? = some path → ∀ q ∈ makes path,
    (run dir entry fs).2 (dir ++ q) = fs (dir ++ q) ∨
      fs (dir ++ q) = none ∧ (run dir entry fs).2 (dir ++ q) = some .dir
  written : ∀ dir entry fs path, entry.stagedPath? = some path →
    (run dir entry fs).1 = .ok true → (run dir entry fs).2 (dir ++ path) = some entry.node

def extractInto (u : UnpackIn) (header : Nat → Bool) (dir : RelPath) (count total : Nat)
    (seen : List RelPath) (entries : List TarEntry) (fs : Tree) : Except ExtractError Unit × Tree :=
  extractLoop header (fun _ => u.run dir) count total seen entries fs

/-- `extract_validated_backup` into a directory. -/
def extractBackupInto (u : UnpackIn) (a : ExtractAnswers) (archive : List TarEntry) (dir : RelPath)
    (fs : Tree) : Except ExtractError Unit × Tree :=
  if a.openArchive then extractInto u a.header dir 0 0 [] archive fs else (.error .notOpened, fs)

structure Admissible (archive : List TarEntry) : Prop where
  count : archive.length ≤ 32
  safe : ∀ entry ∈ archive, (normalizedArchivePath entry.path).isSome = true
  root : ∀ entry ∈ archive, normalizedArchivePath entry.path = some [] → entry.type = .dir
  type : ∀ entry ∈ archive, entry.type = .file ∨ entry.type = .dir
  path : ∀ entry ∈ archive, ∀ path, entry.stagedPath? = some path →
    path = ["deployment.toml"] ∨
      ∃ manifest ∈ backupManifest, path = manifest.1 ∨ path = manifest.1.dropLast
  nodup : (archive.filterMap TarEntry.stagedPath?).Nodup
  size : ∀ entry ∈ archive, entry.stagedPath?.isSome = true → entry.size ≤ 32 * 1024 * 1024
  total : ((archive.filter fun entry => entry.stagedPath?.isSome).map TarEntry.size).sum ≤
    64 * 1024 * 1024

structure Stages (u : UnpackIn) (dir : RelPath) (entries : List TarEntry) (before after : Tree) :
    Prop where
  written : ∀ entry ∈ entries, ∀ path, entry.stagedPath? = some path →
    after (dir ++ path) = some entry.node
  kept : ∀ p, (∀ entry ∈ entries, entry.stagedPath? ≠ some p) →
    after (dir ++ p) = before (dir ++ p) ∨
      before (dir ++ p) = none ∧ after (dir ++ p) = some .dir ∧
        ∃ entry ∈ entries, ∃ path, entry.stagedPath? = some path ∧ p ∈ u.makes path

section Checks

variable {entry : TarEntry} {path : RelPath} {total : Nat} {seen : List RelPath}

theorem stagedPath?_eq_some_iff : entry.stagedPath? = some path ↔
    normalizedArchivePath entry.path = some path ∧ path ≠ [] := by
  simp [TarEntry.stagedPath?, Option.filter_eq_some_iff]

theorem isAllowedBackupPath_iff : isAllowedBackupPath path = true ↔
    path = ["deployment.toml"] ∨ ∃ manifest ∈ backupManifest,
      path = manifest.1 ∨ manifest.1.dropLast ≠ [] ∧ path = manifest.1.dropLast := by
  simp [isAllowedBackupPath, deploymentToml]

structure Passes (total : Nat) (seen : List RelPath) (entry : TarEntry) (path : RelPath) : Prop where
  staged : entry.stagedPath? = some path
  unseen : path ∉ seen
  allowed : isAllowedBackupPath path = true
  type : entry.type ≠ .special
  size : entry.size ≤ maxEntryBytes
  total : total + entry.size ≤ maxTotalBytes

private theorem passes_of_checkEntry (h : checkEntry total seen entry = .ok (some path)) :
    Passes total seen entry path := by
  unfold checkEntry at h
  split at h
  · cases h
  · split_ifs at h
    cases h
  · next other hnil hpath =>
    split_ifs at h with hseen hallowed htype hsize hword htotal
    obtain rfl : other = path := by simpa using h
    have hne : other ≠ [] := hnil
    exact ⟨stagedPath?_eq_some_iff.mpr ⟨hpath, hne⟩, hseen, by simpa using hallowed, htype,
      Nat.not_lt.mp hsize, Nat.not_lt.mp htotal⟩

private theorem root_of_checkEntry (h : checkEntry total seen entry = .ok none) :
    normalizedArchivePath entry.path = some [] ∧ entry.type = .dir := by
  unfold checkEntry at h
  split at h
  · cases h
  · next hpath =>
    split_ifs at h with hdir
    exact ⟨hpath, hdir⟩
  · split_ifs at h
    cases h

private theorem stagedPath?_root (h : normalizedArchivePath entry.path = some []) :
    entry.stagedPath? = none := by
  simp [TarEntry.stagedPath?, h]

end Checks

section Loop

/-- Two ways to unpack that give the same answers on states that correspond make the same loop. -/
theorem extractLoop_sim {σ τ : Type} {r : σ → τ → Prop}
    {p : RelPath → TarEntry → σ → Except Unit Bool × σ}
    {q : RelPath → TarEntry → τ → Except Unit Bool × τ} (header : Nat → Bool)
    (hstep : ∀ {total seen entry path s t}, checkEntry total seen entry = .ok (some path) → r s t →
      (p path entry s).1 = (q path entry t).1 ∧ r (p path entry s).2 (q path entry t).2)
    (entries : List TarEntry) (count total : Nat) (seen : List RelPath) {s : σ} {t : τ}
    (h : r s t) :
    (extractLoop header p count total seen entries s).1 =
        (extractLoop header q count total seen entries t).1 ∧
      r (extractLoop header p count total seen entries s).2
        (extractLoop header q count total seen entries t).2 := by
  induction entries generalizing count total seen s t with
  | nil => exact ⟨rfl, h⟩
  | cons entry rest ih =>
    rw [extractLoop, extractLoop]
    split_ifs
    · exact ⟨rfl, h⟩
    · exact ⟨rfl, h⟩
    · cases hcheck : checkEntry total seen entry with
      | error e => exact ⟨rfl, h⟩
      | ok path? =>
        cases path? with
        | none => exact ih (count + 1) total seen h
        | some path =>
          obtain ⟨hanswer, hnext⟩ := hstep hcheck h
          dsimp only
          generalize p path entry s = x at hanswer hnext ⊢
          generalize q path entry t = y at hanswer hnext ⊢
          obtain ⟨answer, s'⟩ := x
          obtain ⟨answer', t'⟩ := y
          obtain rfl : answer = answer' := hanswer
          cases answer with
          | error e => exact ⟨rfl, hnext⟩
          | ok whole =>
            cases whole with
            | false => exact ⟨rfl, hnext⟩
            | true => exact ih (count + 1) (total + entry.size) (path :: seen) hnext

variable {u : UnpackIn} {header : Nat → Bool} {dir : RelPath} {count total : Nat}
  {seen : List RelPath} {entry : TarEntry} {rest entries : List TarEntry} {fs : Tree}

inductive LoopStep (u : UnpackIn) (header : Nat → Bool) (dir : RelPath) (count total : Nat)
    (seen : List RelPath) (entry : TarEntry) (rest : List TarEntry) (fs : Tree) : Prop
  | refused {e : ExtractError}
      (hrun : extractInto u header dir count total seen (entry :: rest) fs = (.error e, fs))
  | root (hcount : count + 1 ≤ maxEntries) (hroot : normalizedArchivePath entry.path = some [])
      (hdir : entry.type = .dir)
      (hrun : extractInto u header dir count total seen (entry :: rest) fs =
        extractInto u header dir (count + 1) total seen rest fs)
  | unpacked {path : RelPath} (hcount : count + 1 ≤ maxEntries)
      (hpasses : Passes total seen entry path) (hok : (u.run dir entry fs).1 = .ok true)
      (hrun : extractInto u header dir count total seen (entry :: rest) fs =
        extractInto u header dir (count + 1) (total + entry.size) (path :: seen) rest
          (u.run dir entry fs).2)
  | failed {path : RelPath} (hpasses : Passes total seen entry path)
      (hrun : extractInto u header dir count total seen (entry :: rest) fs =
        (.error (.unpack path), (u.run dir entry fs).2))

theorem loopStep (u : UnpackIn) (header : Nat → Bool) (dir : RelPath) (count total : Nat)
    (seen : List RelPath) (entry : TarEntry) (rest : List TarEntry) (fs : Tree) :
    LoopStep u header dir count total seen entry rest fs := by
  have hrun : extractInto u header dir count total seen (entry :: rest) fs = _ :=
    extractLoop.eq_2 header (fun _ => u.run dir) count total seen fs entry rest
  split_ifs at hrun with hheader hcount
  · exact .refused hrun
  · exact .refused hrun
  · rw [Nat.not_lt] at hcount
    cases hcheck : checkEntry total seen entry with
    | error e =>
      rw [hcheck] at hrun
      exact .refused hrun
    | ok checked =>
      rw [hcheck] at hrun
      cases checked with
      | none =>
        obtain ⟨hroot, hdir⟩ := root_of_checkEntry hcheck
        exact .root hcount hroot hdir hrun
      | some path =>
        have hpasses := passes_of_checkEntry hcheck
        dsimp only at hrun
        split at hrun
        · next next hok =>
          have hnext : (u.run dir entry fs).2 = next := congrArg Prod.snd hok
          rw [← hnext] at hrun
          exact .unpacked hcount hpasses (congrArg Prod.fst hok) hrun
        · next answer next _ hfailed =>
          have hnext : (u.run dir entry fs).2 = next := congrArg Prod.snd hfailed
          rw [← hnext] at hrun
          exact .failed hpasses hrun

private theorem run_outside (u : UnpackIn) {path : RelPath} (hpath : entry.stagedPath? = some path)
    (fs : Tree) {p : RelPath} (hp : ∀ q, q ≠ [] → p ≠ dir ++ q) :
    (u.run dir entry fs).2 p = fs p :=
  u.frame dir entry fs path hpath p (hp path (stagedPath?_eq_some_iff.mp hpath).2)
    fun q hq => hp q (u.makes_ne_nil path q hq)

private theorem extractInto_outside (entries : List TarEntry) (count total : Nat)
    (seen : List RelPath) (fs : Tree) {p : RelPath} (hp : ∀ q, q ≠ [] → p ≠ dir ++ q) :
    (extractInto u header dir count total seen entries fs).2 p = fs p := by
  induction entries generalizing count total seen fs with
  | nil => rfl
  | cons entry rest ih =>
    cases loopStep u header dir count total seen entry rest fs with
    | refused hrun => rw [hrun]
    | root _ _ _ hrun => rw [hrun, ih]
    | unpacked _ hpasses _ hrun => rw [hrun, ih, run_outside u hpasses.staged fs hp]
    | failed hpasses hrun => rw [hrun, run_outside u hpasses.staged fs hp]

structure AdmissibleFrom (count total : Nat) (seen : List RelPath) (entries : List TarEntry) :
    Prop where
  count : count + entries.length ≤ max count maxEntries
  safe : ∀ entry ∈ entries, (normalizedArchivePath entry.path).isSome = true
  root : ∀ entry ∈ entries, normalizedArchivePath entry.path = some [] → entry.type = .dir
  type : ∀ entry ∈ entries, entry.type ≠ .special
  allowed : ∀ entry ∈ entries, ∀ path, entry.stagedPath? = some path →
    isAllowedBackupPath path = true
  unseen : ∀ entry ∈ entries, ∀ path, entry.stagedPath? = some path → path ∉ seen
  nodup : (entries.filterMap TarEntry.stagedPath?).Nodup
  size : ∀ entry ∈ entries, entry.stagedPath?.isSome = true → entry.size ≤ maxEntryBytes
  total : total + ((entries.filter fun entry => entry.stagedPath?.isSome).map TarEntry.size).sum ≤
    max total maxTotalBytes

theorem AdmissibleFrom.nil : AdmissibleFrom count total seen [] := by
  constructor <;> simp

theorem AdmissibleFrom.cons_root (hcount : count + 1 ≤ maxEntries)
    (hroot : normalizedArchivePath entry.path = some []) (hdir : entry.type = .dir)
    (h : AdmissibleFrom (count + 1) total seen rest) :
    AdmissibleFrom count total seen (entry :: rest) := by
  have hstaged := stagedPath?_root hroot
  constructor
  · have := h.count
    rw [List.length_cons]
    omega
  · exact List.forall_mem_cons.mpr ⟨by simp [hroot], h.safe⟩
  · exact List.forall_mem_cons.mpr ⟨fun _ => hdir, h.root⟩
  · exact List.forall_mem_cons.mpr ⟨by simp [hdir], h.type⟩
  · exact List.forall_mem_cons.mpr ⟨by simp [hstaged], h.allowed⟩
  · exact List.forall_mem_cons.mpr ⟨by simp [hstaged], h.unseen⟩
  · rw [List.filterMap_cons_none hstaged]
    exact h.nodup
  · exact List.forall_mem_cons.mpr ⟨by simp [hstaged], h.size⟩
  · rw [List.filter_cons_of_neg (by simp [hstaged])]
    exact h.total

theorem AdmissibleFrom.cons_unpacked {path : RelPath} (hcount : count + 1 ≤ maxEntries)
    (hpasses : Passes total seen entry path)
    (h : AdmissibleFrom (count + 1) (total + entry.size) (path :: seen) rest) :
    AdmissibleFrom count total seen (entry :: rest) := by
  have hstaged := hpasses.staged
  obtain ⟨hpath, hne⟩ := stagedPath?_eq_some_iff.mp hstaged
  have hlater : ∀ e ∈ rest, ∀ other, e.stagedPath? = some other → other ≠ path ∧ other ∉ seen :=
    fun e he other hother => not_or.mp (List.mem_cons.not.mp (h.unseen e he other hother))
  constructor
  · have := h.count
    rw [List.length_cons]
    omega
  · exact List.forall_mem_cons.mpr ⟨by simp [hpath], h.safe⟩
  · exact List.forall_mem_cons.mpr ⟨by simp [hpath, hne], h.root⟩
  · exact List.forall_mem_cons.mpr ⟨hpasses.type, h.type⟩
  · refine List.forall_mem_cons.mpr ⟨fun other hother => ?_, h.allowed⟩
    obtain rfl := Option.some.inj (hstaged.symm.trans hother)
    exact hpasses.allowed
  · refine List.forall_mem_cons.mpr ⟨fun other hother => ?_, fun e he other hother =>
      (hlater e he other hother).2⟩
    obtain rfl := Option.some.inj (hstaged.symm.trans hother)
    exact hpasses.unseen
  · rw [List.filterMap_cons_some hstaged, List.nodup_cons]
    refine ⟨fun hmem => ?_, h.nodup⟩
    obtain ⟨e, he, hother⟩ := List.mem_filterMap.mp hmem
    exact (hlater e he path hother).1 rfl
  · exact List.forall_mem_cons.mpr ⟨fun _ => hpasses.size, h.size⟩
  · have hsize := hpasses.total
    have hrest := h.total
    rw [List.filter_cons_of_pos (by simp [hstaged]), List.map_cons, List.sum_cons]
    omega

private theorem admissibleFrom_of_ok
    (hok : (extractInto u header dir count total seen entries fs).1 = .ok ()) :
    AdmissibleFrom count total seen entries := by
  induction entries generalizing count total seen fs with
  | nil => exact .nil
  | cons entry rest ih =>
    cases loopStep u header dir count total seen entry rest fs with
    | refused hrun =>
      rw [hrun] at hok
      cases hok
    | root hcount hroot hdir hrun =>
      rw [hrun] at hok
      exact .cons_root hcount hroot hdir (ih hok)
    | unpacked hcount hpasses _ hrun =>
      rw [hrun] at hok
      exact .cons_unpacked hcount hpasses (ih hok)
    | failed _ hrun =>
      rw [hrun] at hok
      cases hok

theorem Stages.cons_root {before after : Tree} (hroot : entry.stagedPath? = none)
    (h : Stages u dir rest before after) : Stages u dir (entry :: rest) before after := by
  constructor
  · exact List.forall_mem_cons.mpr ⟨by simp [hroot], h.written⟩
  · intro p hp
    rcases h.kept p (List.forall_mem_cons.mp hp).2 with hsame | ⟨hnone, hdir, e, he, hmade⟩
    · exact Or.inl hsame
    · exact Or.inr ⟨hnone, hdir, e, List.mem_cons_of_mem _ he, hmade⟩

theorem Stages.cons_unpacked {before after : Tree} {path : RelPath}
    (hstaged : entry.stagedPath? = some path) (hok : (u.run dir entry before).1 = .ok true)
    (hlater : ∀ e ∈ rest, e.stagedPath? ≠ some path)
    (h : Stages u dir rest (u.run dir entry before).2 after) :
    Stages u dir (entry :: rest) before after := by
  constructor
  · refine List.forall_mem_cons.mpr ⟨fun other hother => ?_, h.written⟩
    obtain rfl := Option.some.inj (hstaged.symm.trans hother)
    have hwritten := u.written dir entry before path hstaged hok
    rcases h.kept path hlater with hsame | ⟨hnone, -⟩
    · rw [hsame, hwritten]
    · rw [hwritten] at hnone
      cases hnone
  · intro p hp
    obtain ⟨hself, hrest⟩ := List.forall_mem_cons.mp hp
    have hne : p ≠ path := fun heq => hself (heq ▸ hstaged)
    -- the entry itself leaves `p` alone or makes a directory of it
    have hstep : (u.run dir entry before).2 (dir ++ p) = before (dir ++ p) ∨
        before (dir ++ p) = none ∧ (u.run dir entry before).2 (dir ++ p) = some .dir ∧
          p ∈ u.makes path := by
      by_cases hmakes : p ∈ u.makes path
      · rcases u.makes_dir dir entry before path hstaged p hmakes with hsame | ⟨hnone, hdir⟩
        · exact Or.inl hsame
        · exact Or.inr ⟨hnone, hdir, hmakes⟩
      · refine Or.inl (u.frame dir entry before path hstaged _ ?_ ?_)
        · exact fun heq => hne (List.append_cancel_left heq)
        · exact fun q hq heq => hmakes (List.append_cancel_left heq ▸ hq)
    rcases h.kept p hrest with hsame | ⟨hnone, hdir, e, he, hmade⟩
    · rw [hsame]
      rcases hstep with hstep | ⟨hnone, hdir, hmakes⟩
      · exact Or.inl hstep
      · exact Or.inr ⟨hnone, hdir, entry, List.mem_cons_self, path, hstaged, hmakes⟩
    · rcases hstep with hstep | ⟨-, hstep, -⟩
      · exact Or.inr ⟨hstep ▸ hnone, hdir, e, List.mem_cons_of_mem _ he, hmade⟩
      · rw [hstep] at hnone
        cases hnone

private theorem stages_of_ok
    (hok : (extractInto u header dir count total seen entries fs).1 = .ok ()) :
    Stages u dir entries fs (extractInto u header dir count total seen entries fs).2 := by
  induction entries generalizing count total seen fs with
  | nil => exact ⟨by simp, fun _ _ => Or.inl rfl⟩
  | cons entry rest ih =>
    cases loopStep u header dir count total seen entry rest fs with
    | refused hrun =>
      rw [hrun] at hok
      cases hok
    | root _ hroot _ hrun =>
      rw [hrun] at hok ⊢
      exact .cons_root (stagedPath?_root hroot) (ih hok)
    | unpacked _ hpasses hunpacked hrun =>
      rw [hrun] at hok ⊢
      have hlater := (admissibleFrom_of_ok hok).unseen
      refine .cons_unpacked hpasses.staged hunpacked (fun e he hsame => ?_) (ih hok)
      exact hlater e he _ hsame List.mem_cons_self
    | failed _ hrun =>
      rw [hrun] at hok
      cases hok

theorem AdmissibleFrom.admissible (h : AdmissibleFrom 0 0 [] entries) : Admissible entries := by
  have hcount : entries.length ≤ 32 := by
    have := h.count
    unfold maxEntries at this
    omega
  have htotal : ((entries.filter fun entry => entry.stagedPath?.isSome).map TarEntry.size).sum ≤
      64 * 1024 * 1024 := by
    have := h.total
    unfold maxTotalBytes at this
    omega
  refine ⟨hcount, h.safe, h.root, fun e he => ?_, fun e he path hpath => ?_, h.nodup, h.size, htotal⟩
  · have htype := h.type e he
    cases hkind : e.type with
    | file => exact Or.inl rfl
    | dir => exact Or.inr rfl
    | special => exact absurd hkind htype
  · rcases isAllowedBackupPath_iff.mp (h.allowed e he path hpath) with htoml | ⟨m, hm, hentry⟩
    · exact Or.inl htoml
    · exact Or.inr ⟨m, hm, hentry.imp_right And.right⟩

end Loop

section Unpacking

variable {dir : RelPath} {fs : Tree} {entry : TarEntry} {path : RelPath}

def Tree.below (fs : Tree) (dir : RelPath) : Tree := fun p => fs (dir ++ p)

def Tree.graft (fs : Tree) (dir : RelPath) (tree : Tree) : Tree := fun p =>
  if dir <+: p ∧ p ≠ dir then tree (p.drop dir.length) else fs p

theorem Tree.graft_append (tree : Tree) {q : RelPath} (hq : q ≠ []) :
    fs.graft dir tree (dir ++ q) = tree q := by
  unfold Tree.graft
  rw [if_pos ⟨List.prefix_append dir q, by simpa using hq⟩, List.drop_left]

theorem Tree.graft_of_ne (tree : Tree) {p : RelPath} (hp : ∀ q, q ≠ [] → p ≠ dir ++ q) :
    fs.graft dir tree p = fs p := by
  unfold Tree.graft
  rw [if_neg]
  rintro ⟨⟨q, rfl⟩, hne⟩
  exact hp q (by simpa using hne) rfl

theorem mem_parents {q : RelPath} : q ∈ parents path ↔ q <+: path ∧ q ≠ path := by
  induction path generalizing q with
  | nil => simp [parents]
  | cons name rest ih =>
    have hparents : parents (name :: rest) = [] :: (parents rest).map (name :: ·) := by
      have hne : rest.inits.map (name :: ·) ≠ [] := by
        rw [ne_eq, ← List.length_eq_zero_iff, List.length_map, List.length_inits]
        omega
      unfold parents
      rw [List.inits_cons, List.dropLast_cons_of_ne_nil hne, List.map_dropLast]
    rw [hparents, List.mem_cons, List.mem_map]
    cases q with
    | nil => simp
    | cons other q =>
      simp only [ih, List.cons_prefix_cons, reduceCtorEq, false_or]
      constructor
      · rintro ⟨a, ⟨hrest, hne⟩, heq⟩
        obtain ⟨rfl, rfl⟩ := List.cons.inj heq
        exact ⟨⟨rfl, hrest⟩, fun hself => hne (List.cons.inj hself).2⟩
      · rintro ⟨⟨rfl, hrest⟩, hne⟩
        exact ⟨q, ⟨hrest, fun hself => hne (hself ▸ rfl)⟩, rfl⟩

theorem unpackIn_place {tree next : Tree} (h : unpackIn tree path entry = some next) :
    (∀ p ∈ parents path, tree.isFile p = false) ∧ next = tree.place path entry.node := by
  unfold unpackIn at h
  by_cases hfile : (parents path).any tree.isFile = true
  · rw [if_pos hfile] at h
    cases h
  rw [if_neg hfile] at h
  refine ⟨fun p hp => ?_, ?_⟩
  · rw [Bool.not_eq_true, List.any_eq_false] at hfile
    simpa using hfile p hp
  · unfold TarEntry.node
    cases htype : entry.type with
    | dir =>
      rw [htype] at h
      dsimp only at h
      split_ifs at h
      exact (Option.some.inj h).symm
    | file | special =>
      rw [htype] at h
      dsimp only at h
      split_ifs at h
      exact (Option.some.inj h).symm

private theorem graft_place_of_ne {p : RelPath} (hp : p ≠ dir ++ path)
    (hmakes : ∀ q ∈ (parents path).filter (· ≠ []), p ≠ dir ++ q) (node : Node) :
    fs.graft dir ((fs.below dir).place path node) p = fs p := by
  by_cases hbelow : ∃ q, q ≠ [] ∧ p = dir ++ q
  · obtain ⟨q, hq, rfl⟩ := hbelow
    have hself : q ≠ path := fun heq => hp (heq ▸ rfl)
    have hparent : q ∉ parents path := fun hmem =>
      hmakes q (List.mem_filter.mpr ⟨hmem, by simpa using hq⟩) rfl
    rw [Tree.graft_append _ hq, Tree.place, if_neg hself, if_neg hparent]
    rfl
  · refine Tree.graft_of_ne _ fun q hq heq => hbelow ⟨q, hq, heq⟩

/-- `unpack_in` as the tar crate has it, with the directories above an entry. -/
def tarUnpackIn (done : RelPath → Bool) : UnpackIn where
  run dir entry fs :=
    match normalizedArchivePath entry.path with
    | none => (.ok false, fs)
    | some path =>
      match if done path then unpackIn (fs.below dir) path entry else none with
      | none => (.error (), fs)
      | some tree => (.ok true, fs.graft dir tree)
  makes path := (parents path).filter (· ≠ [])
  makes_ne_nil path q hq := by
    simpa using (List.mem_filter.mp hq).2
  makes_above path q hq := mem_parents.mp (List.mem_filter.mp hq).1
  frame dir entry fs path hpath p hp hmakes := by
    rw [(stagedPath?_eq_some_iff.mp hpath).1]
    dsimp only
    split
    · rfl
    · next tree htree =>
      split_ifs at htree
      rw [(unpackIn_place htree).2]
      exact graft_place_of_ne hp hmakes _
  makes_dir dir entry fs path hpath q hq := by
    obtain ⟨hparent, hq⟩ := List.mem_filter.mp hq
    rw [(stagedPath?_eq_some_iff.mp hpath).1]
    dsimp only
    split
    · exact Or.inl rfl
    · next tree htree =>
      split_ifs at htree
      obtain ⟨hfile, hplace⟩ := unpackIn_place htree
      have hdir : tree q = some .dir := by
        rw [hplace, Tree.place, if_neg (mem_parents.mp hparent).2, if_pos hparent]
      have hnot := hfile q hparent
      dsimp only
      rw [Tree.graft_append tree (by simpa using hq), hdir]
      unfold Tree.isFile Tree.below at hnot
      cases hold : fs (dir ++ q) with
      | none => exact Or.inr ⟨rfl, rfl⟩
      | some node =>
        rw [hold] at hnot
        cases node with
        | file => cases hnot
        | dir => exact Or.inl rfl
  written dir entry fs path hpath hok := by
    obtain ⟨hnormal, hne⟩ := stagedPath?_eq_some_iff.mp hpath
    rw [hnormal] at hok ⊢
    dsimp only at hok ⊢
    split at hok
    · cases hok
    · next tree htree =>
      split_ifs at htree
      dsimp only
      rw [Tree.graft_append tree hne, (unpackIn_place htree).2, Tree.place, if_pos rfl]

end Unpacking

section Agreement

variable {dir : RelPath} {fs tree : Tree} {entry : TarEntry} {path : RelPath}

structure Mirrors (dir : RelPath) (fs tree : Tree) : Prop where
  same : ∀ p, p ≠ [] → tree p = fs (dir ++ p)
  root : tree.isFile [] = false
  rootBelow : (fs.below dir).isFile [] = false

theorem Mirrors.isFile (h : Mirrors dir fs tree) (p : RelPath) :
    tree.isFile p = (fs.below dir).isFile p := by
  by_cases hp : p = []
  · rw [hp, h.root, h.rootBelow]
  · unfold Tree.isFile
    rw [h.same p hp]
    rfl

theorem Mirrors.unpackIn_isSome (h : Mirrors dir fs tree) (hne : path ≠ []) (entry : TarEntry) :
    (unpackIn tree path entry).isSome = (unpackIn (fs.below dir) path entry).isSome := by
  have hsame : fs.below dir path = tree path := (h.same path hne).symm
  unfold unpackIn
  rw [show tree.isFile = (fs.below dir).isFile from funext h.isFile, hsame]
  cases entry.type with
  | dir =>
    dsimp only
    split_ifs <;> rfl
  | file | special =>
    dsimp only
    split_ifs <;> rfl

theorem Mirrors.place (h : Mirrors dir fs tree) (hne : path ≠ []) (node : Node) :
    Mirrors dir (fs.graft dir ((fs.below dir).place path node)) (tree.place path node) := by
  constructor
  · intro p hp
    rw [Tree.graft_append _ hp, Tree.place, Tree.place, h.same p hp]
    rfl
  · have hroot : [] ∈ parents path := mem_parents.mpr ⟨List.nil_prefix, Ne.symm hne⟩
    unfold Tree.isFile Tree.place
    rw [if_neg (Ne.symm hne), if_pos hroot]
  · have hdir : ∀ q : RelPath, q ≠ [] → dir ++ [] ≠ dir ++ q := by
      intro q hq heq
      exact hq (List.append_cancel_left heq).symm
    have hroot := h.rootBelow
    unfold Tree.isFile Tree.below at hroot ⊢
    rw [Tree.graft_of_ne _ hdir]
    exact hroot

/-- `unpack_in` on a file system does what it does on the staging directory alone. -/
theorem Mirrors.unpack (done : RelPath → Bool) (h : Mirrors dir fs tree)
    (hpath : entry.stagedPath? = some path) :
    ((tarUnpackIn done).run dir entry fs).1 = (unpackStaged done path entry tree).1 ∧
      Mirrors dir ((tarUnpackIn done).run dir entry fs).2 (unpackStaged done path entry tree).2 := by
  obtain ⟨hnormal, hne⟩ := stagedPath?_eq_some_iff.mp hpath
  have hboth := h.unpackIn_isSome hne entry
  simp only [tarUnpackIn, hnormal, unpackStaged]
  by_cases hdone : done path = true
  · rw [if_pos hdone, if_pos hdone]
    cases htree : unpackIn tree path entry with
    | none =>
      rw [htree, Option.isSome_none, eq_comm, Option.isSome_eq_false_iff,
        Option.isNone_iff_eq_none] at hboth
      rw [hboth]
      exact ⟨rfl, h⟩
    | some next =>
      rw [htree, Option.isSome_some, eq_comm, Option.isSome_iff_exists] at hboth
      obtain ⟨below, hbelow⟩ := hboth
      rw [hbelow]
      refine ⟨rfl, ?_⟩
      rw [(unpackIn_place htree).2, (unpackIn_place hbelow).2]
      exact h.place hne _
  · rw [if_neg hdone, if_neg hdone]
    exact ⟨rfl, h⟩

/-- An archive is accepted into an empty directory exactly if it is accepted. -/
theorem extractBackupInto_tar (a : ExtractAnswers) (archive : List TarEntry)
    (hdir : fs dir = some .dir) (hempty : ∀ p, p ≠ [] → fs (dir ++ p) = none) :
    (extractBackupInto (tarUnpackIn a.unpack) a archive dir fs).1 =
        (extractValidatedBackup archive a).map (fun _ => ()) ∧
      ∀ tree, extractValidatedBackup archive a = .ok tree → ∀ p, p ≠ [] →
        (extractBackupInto (tarUnpackIn a.unpack) a archive dir fs).2 (dir ++ p) = tree p := by
  have hmirrors : Mirrors dir fs fun _ => none := by
    refine ⟨fun p hp => (hempty p hp).symm, rfl, ?_⟩
    unfold Tree.isFile Tree.below
    rw [List.append_nil, hdir]
  unfold extractBackupInto extractValidatedBackup
  split_ifs
  · obtain ⟨hresult, hstaged⟩ := extractLoop_sim (r := Mirrors dir) (p := fun _ =>
      (tarUnpackIn a.unpack).run dir) (q := unpackStaged a.unpack) a.header
      (fun hcheck hst => hst.unpack a.unpack (passes_of_checkEntry hcheck).staged) archive 0 0 []
      hmirrors
    unfold extractInto extractEntries
    rw [hresult]
    generalize extractLoop a.header (unpackStaged a.unpack) 0 0 [] archive (fun _ => none) = run
      at hstaged
    obtain ⟨result, staged⟩ := run
    cases result with
    | error e => exact ⟨rfl, nofun⟩
    | ok _ =>
      refine ⟨rfl, fun tree hok p hp => ?_⟩
      obtain rfl : staged = tree := Except.ok.inj hok
      exact (hstaged.same p hp).symm
  · exact ⟨rfl, nofun⟩

end Agreement

/-- Extraction admits nothing but what a backup may hold, and writes nothing else. -/
theorem extraction_admits (u : UnpackIn) (a : ExtractAnswers) (archive : List TarEntry)
    (dir : RelPath) (fs : Tree) (hempty : ∀ p, p ≠ [] → fs (dir ++ p) = none) :
    (∀ p, (∀ q, q ≠ [] → p ≠ dir ++ q) → (extractBackupInto u a archive dir fs).2 p = fs p) ∧
      ((extractBackupInto u a archive dir fs).1 = .ok () →
        Admissible archive ∧
        (∀ entry ∈ archive, ∀ path, entry.stagedPath? = some path →
          (extractBackupInto u a archive dir fs).2 (dir ++ path) = some entry.node) ∧
        (∀ p, p ≠ [] → (∀ entry ∈ archive, entry.stagedPath? ≠ some p) →
          (extractBackupInto u a archive dir fs).2 (dir ++ p) = none ∨
            (extractBackupInto u a archive dir fs).2 (dir ++ p) = some .dir ∧
              ∃ entry ∈ archive, ∃ path, entry.stagedPath? = some path ∧ p ∈ u.makes path ∧
                p <+: path ∧ p ≠ path) ∧
        ((∀ path, u.makes path = []) → ∀ p, p ≠ [] →
          (extractBackupInto u a archive dir fs).2 (dir ++ p) ≠ none →
            ∃ entry ∈ archive, entry.stagedPath? = some p)) := by
  unfold extractBackupInto
  split_ifs
  · refine ⟨fun p hp => extractInto_outside archive 0 0 [] fs hp, fun hok => ?_⟩
    have hstages := stages_of_ok hok
    have hothers : ∀ p, p ≠ [] → (∀ entry ∈ archive, entry.stagedPath? ≠ some p) →
        (extractInto u a.header dir 0 0 [] archive fs).2 (dir ++ p) = none ∨
          (extractInto u a.header dir 0 0 [] archive fs).2 (dir ++ p) = some .dir ∧
            ∃ entry ∈ archive, ∃ path, entry.stagedPath? = some path ∧ p ∈ u.makes path ∧
              p <+: path ∧ p ≠ path := by
      intro p hp hnot
      rcases hstages.kept p hnot with hsame | ⟨-, hisDir, e, he, path, hpath, hmade⟩
      · exact Or.inl (hsame.trans (hempty p hp))
      · exact Or.inr ⟨hisDir, e, he, path, hpath, hmade, u.makes_above path p hmade⟩
    refine ⟨(admissibleFrom_of_ok hok).admissible, hstages.written, hothers, ?_⟩
    intro hmakes p hp hthere
    by_contra hnot
    push Not at hnot
    rcases hothers p hp hnot with hnone | ⟨-, e, -, path, -, hmade, -⟩
    · exact hthere hnone
    · simp [hmakes] at hmade
  · exact ⟨fun _ _ => rfl, nofun⟩

def freshDirectory (dir : RelPath) : Tree := fun p => if p = dir then some .dir else none

/-- An archive with one file in its directory. -/
def usersArchive : List TarEntry :=
  [dirEntry [], dirEntry ["users"], fileEntry (fun _ => 2) (["users", "users.json"], .text "[]")]

/-- It is accepted, and everything said of an accepted archive is true of it. -/
theorem usersArchive_admitted :
    (extractBackupInto (tarUnpackIn fun _ => true) .allDone usersArchive ["tmp", "staging"]
        (freshDirectory ["tmp", "staging"])).1 = .ok () ∧
      Admissible usersArchive ∧
      (extractBackupInto (tarUnpackIn fun _ => true) .allDone usersArchive ["tmp", "staging"]
        (freshDirectory ["tmp", "staging"])).2 ["tmp", "staging", "users", "users.json"] =
          some (.file (.text "[]")) := by
  have hempty : ∀ p, p ≠ [] → freshDirectory ["tmp", "staging"] (["tmp", "staging"] ++ p) = none := by
    intro p hp
    simp [freshDirectory, hp]
  have hok : (extractBackupInto (tarUnpackIn fun _ => true) .allDone usersArchive
      ["tmp", "staging"] (freshDirectory ["tmp", "staging"])).1 = .ok () := by
    decide
  obtain ⟨-, hadmits⟩ := extraction_admits (tarUnpackIn fun _ => true) .allDone usersArchive
    ["tmp", "staging"] (freshDirectory ["tmp", "staging"]) hempty
  obtain ⟨hadmissible, hwritten, -⟩ := hadmits hok
  exact ⟨hok, hadmissible, hwritten (fileEntry (fun _ => 2) (["users", "users.json"], .text "[]"))
    (by simp [usersArchive]) ["users", "users.json"] rfl⟩

end Vpn1.Admin
