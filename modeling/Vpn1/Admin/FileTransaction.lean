import Vpn1.Admin.Material

/-! Replacing a set of state files as one transaction: a `.rotate-bak` of each before anything is
touched, atomic installs, and the way back from the backups. -/

namespace Vpn1.Admin

open Compat Traced

inductive BackupError
  | stale (f : StateFile)
  | io
  deriving DecidableEq, Repr

/-- Copy a file to its `.rotate-bak` sibling; the result is whether there was one. -/
def backupForRotate (f : StateFile) (a : BackupAnswers) : Prog Host Event BackupError Bool := do
  if ← Prog.look (fun h => (h.files (.rotateBak f)).isSome) then Prog.fail (.stale f)
  else
    match ← Prog.look (fun h => h.files (.live f)) with
    | none => pure false
    | some file =>
      require a.openSource .io
      writeFile (.rotateBak f) file.content 0o600 a.write .io
      require a.metadata .io
      setMode (.rotateBak f) file.mode a.chmod .io
      pure true

def discardBackups {ε : Type} (drop : StateFile → Bool) : List StateFile → Prog Host Event ε Unit
  | [] => pure ()
  | f :: fs => do
    discardFile (.rotateBak f) (drop f)
    discardBackups drop fs

/-- Back up every file of a list. A failure removes the backups this attempt has made. -/
def backupAll (a : StateFile → BackupAnswers) (drop : StateFile → Bool) :
    List StateFile → List StateFile → Prog Host Event BackupError (List (StateFile × Bool))
  | _, [] => pure []
  | prepared, f :: fs => do
    match ← Prog.attempt (backupForRotate f (a f)) with
    | .ok existed =>
      let rest ← backupAll a drop (if existed then prepared ++ [f] else prepared) fs
      pure ((f, existed) :: rest)
    | .error e =>
      discardBackups drop prepared
      Prog.fail e

/-- Put `contents` in place of a file, with the mode of the file it replaces. -/
def installRotatedKeyFile {ε : Type} (f : StateFile) (contents : String) (a : InstallAnswers)
    (e : ε) : Prog Host Event ε Unit := do
  writeFile (.rotateTmp f) (.text contents) 0o600 a.write e
  match ← Prog.look (fun h => h.files (.live f)) with
  | some file => setMode (.rotateTmp f) file.mode a.chmod e
  | none => pure ()
  require a.ownership e
  renameFile (.rotateTmp f) (.live f) a.rename e

def InstallAnswers.succeeds (a : InstallAnswers) (existed : Bool) : Bool :=
  a.write == .done && (!existed || a.chmod) && a.ownership && a.rename

/-- Bring one file back: from its backup, or by removing it where there was none. -/
def restoreOne {ε : Type} (f : StateFile) (existed ok : Bool) : Prog Host Event ε Bool := do
  if existed then
    match ← Prog.look (fun h => h.files (.rotateBak f)) with
    | none => pure true
    | some file =>
      if ok then
        Prog.move .io fun h => (h.put (.rotateBak f) none).put (.live f) (some file)
        pure true
      else pure false
  else
    match ← Prog.look (fun h => h.files (.live f)) with
    | none => pure true
    | some _ =>
      if ok then
        Prog.move .io fun h => h.put (.live f) none
        pure true
      else pure false

/-- Bring every file back; the result is whether all of them are. -/
def restoreAll {ε : Type} (restore : StateFile → Bool) :
    List (StateFile × Bool) → Prog Host Event ε Bool
  | [] => pure true
  | (f, existed) :: rest => do
    let one ← restoreOne f existed (restore f)
    let all ← restoreAll restore rest
    pure (one && all)

def bakPaths (fs : List StateFile) : List Path := fs.map .rotateBak

def installPaths (f : StateFile) : List Path := [.rotateTmp f, .live f]

def restorePaths (fs : List StateFile) : List Path := fs.map .live ++ fs.map .rotateBak

section Backup

variable {h : Host}

theorem backupForRotate_wp (f : StateFile) (a : BackupAnswers) (h : Host) :
    Wp (backupForRotate f a) h (fun w t => w = .io ∧ FilesOnly h t [.rotateBak f]) fun r t =>
      FilesOnly h t [.rotateBak f] ∧
        match r with
        | .ok existed => existed = h.exists? f ∧ h.files (.rotateBak f) = none ∧
            t.files (.rotateBak f) = h.files (.live f)
        | .error _ => True := by
  have hbp : Path.rotateBak f ∈ [Path.rotateBak f] := by simp
  have h0 : FilesOnly h h [.rotateBak f] := .refl _ _
  simp only [backupForRotate, wp_bind, wp_look]
  cases hb : h.files (.rotateBak f) with
  | some old => simpa [hb] using h0
  | none =>
    simp only [Option.isSome_none, Bool.false_eq_true, if_false, wp_bind, wp_look]
    cases hf : h.files (.live f) with
    | none => simpa [Host.exists?, hf, hb] using h0
    | some file =>
      simp only [wp_bind, wp_require]
      cases ho : a.openSource with
      | false => simpa using h0
      | true =>
        simp only [if_true]
        apply wp_writeFile
        · exact fun g => ⟨rfl, h0.put hbp⟩
        · intro hw
          cases hm : a.metadata with
          | false => simpa using h0.put hbp
          | true =>
            simp only [if_true]
            apply wp_setMode
            · exact fun g _ => ⟨rfl, (h0.put hbp).put hbp⟩
            · intro g hg _
              have hgc : g.content = file.content := by
                simp only [Host.put_files_same, Option.some.injEq] at hg
                rw [← hg]
              refine wp_pure.mpr ⟨(h0.put hbp).put hbp, ?_⟩
              simp [Host.exists?, hf, hgc]
            · exact fun _ => ⟨h0.put hbp, trivial⟩
        · exact fun _ g => ⟨h0.put hbp, trivial⟩

theorem discardBackups_wp {ε : Type} (drop : StateFile → Bool) (fs gs : List StateFile)
    (hsub : ∀ g ∈ gs, g ∈ fs) {s : Host} (hs : FilesOnly h s (bakPaths fs)) :
    Wp (discardBackups drop gs : Prog Host Event ε Unit) s
      (fun w t => w = .io ∧ FilesOnly h t (bakPaths fs))
      fun r t => r = .ok () ∧ FilesOnly h t (bakPaths fs) := by
  induction gs generalizing s with
  | nil => simpa [discardBackups] using hs
  | cons g gs ih =>
    have hg : Path.rotateBak g ∈ bakPaths fs := List.mem_map_of_mem (hsub g List.mem_cons_self)
    simp only [discardBackups, wp_bind]
    apply wp_discardFile
    · exact fun _ => ⟨rfl, hs.put hg⟩
    · intro file _
      exact ih (fun g hg => hsub g (List.mem_cons_of_mem _ hg)) (hs.put hg)

/-- The backups a transaction holds: of each file that existed, a copy of what it was. -/
structure BackedUp (h t : Host) (entries : List (StateFile × Bool)) : Prop where
  existed : ∀ e ∈ entries, e.2 = h.exists? e.1
  copy : ∀ e ∈ entries, t.files (.rotateBak e.1) = h.files (.live e.1)

theorem BackedUp.of_live {s t : Host} {entries : List (StateFile × Bool)}
    (hb : BackedUp s t entries)
    (hlive : ∀ e ∈ entries, s.files (.live e.1) = h.files (.live e.1)) : BackedUp h t entries where
  existed e he := by
    rw [hb.existed e he, Host.exists?, Host.exists?, hlive e he]
  copy e he := (hb.copy e he).trans (hlive e he)

/-- Backing up touches nothing but backups, and holds a copy of every file when it succeeds. -/
theorem backupAll_wp (a : StateFile → BackupAnswers) (drop : StateFile → Bool)
    (all prepared fs : List StateFile) (hfs : ∀ f ∈ fs, f ∈ all) (hprep : ∀ f ∈ prepared, f ∈ all)
    (hnodup : fs.Nodup) {s : Host} (hs : FilesOnly h s (bakPaths all)) :
    Wp (backupAll a drop prepared fs) s (fun w t => w = .io ∧ FilesOnly h t (bakPaths all))
      fun r t => FilesOnly h t (bakPaths all) ∧
        match r with
        | .ok entries => entries.map Prod.fst = fs ∧ BackedUp h t entries ∧
            ∀ f ∉ fs, t.files (.rotateBak f) = s.files (.rotateBak f)
        | .error _ => True := by
  induction fs generalizing s prepared with
  | nil => exact wp_pure.mpr ⟨hs, rfl, ⟨by simp, by simp⟩, fun _ _ => rfl⟩
  | cons f fs ih =>
    have hbp : Path.rotateBak f ∈ bakPaths all := List.mem_map_of_mem (hfs f List.mem_cons_self)
    have hsub : ∀ p ∈ [Path.rotateBak f], p ∈ bakPaths all := by simpa using hbp
    have hlive : ∀ {t : Host}, FilesOnly h t (bakPaths all) → ∀ g,
        t.files (.live g) = h.files (.live g) := fun ht g => ht.files _ (by simp [bakPaths])
    obtain ⟨hfnot, hnodup⟩ := List.nodup_cons.mp hnodup
    simp only [backupAll, wp_bind, wp_attempt]
    refine (backupForRotate_wp f (a f) s).mono ?_ ?_
    · exact fun w t ht => ⟨ht.1, hs.trans (ht.2.mono hsub)⟩
    · rintro r t ⟨ht, hr⟩
      have ht' := hs.trans (ht.mono hsub)
      cases r with
      | error e =>
        simp only [wp_bind]
        refine (discardBackups_wp drop all prepared hprep ht').mono (fun _ _ hw => hw) ?_
        rintro r u ⟨rfl, hu⟩
        exact wp_fail.mpr ⟨hu, trivial⟩
      | ok existed =>
        obtain ⟨hex, -, hcopy⟩ := hr
        simp only [wp_bind]
        refine (ih (if existed then prepared ++ [f] else prepared)
          (fun g hg => hfs g (List.mem_cons_of_mem _ hg)) ?_ hnodup ht').mono (fun _ _ hw => hw) ?_
        · intro g hg
          split_ifs at hg
          · rcases List.mem_append.mp hg with hg | hg
            · exact hprep g hg
            · exact List.mem_singleton.mp hg ▸ hfs f List.mem_cons_self
          · exact hprep g hg
        · rintro r u ⟨hu, hentries⟩
          cases r with
          | error e => exact ⟨hu, trivial⟩
          | ok entries =>
            obtain ⟨hmap, hbacked, hothers⟩ := hentries
            have hexists : existed = h.exists? f := by
              simp only [hex, Host.exists?, hlive hs]
            have hcopied : u.files (.rotateBak f) = h.files (.live f) := by
              rw [hothers f hfnot, hcopy, hlive hs]
            refine wp_pure.mpr ⟨hu, by simp [hmap], ⟨?_, ?_⟩, ?_⟩
            · exact List.forall_mem_cons.mpr ⟨hexists, hbacked.existed⟩
            · exact List.forall_mem_cons.mpr ⟨hcopied, hbacked.copy⟩
            · intro g hg
              obtain ⟨hgf, hgfs⟩ := not_or.mp (List.mem_cons.not.mp hg)
              rw [hothers g hgfs, ht.files _ (by simpa using hgf)]

end Backup

section Install

/-- An install swaps the file in one step, or leaves it as it was. -/
theorem installRotatedKeyFile_wp {ε : Type} (f : StateFile) (contents : String) (a : InstallAnswers)
    (e : ε) (h : Host) :
    Wp (installRotatedKeyFile f contents a e) h
      (fun w t => w = .io ∧ FilesOnly h t (installPaths f))
      fun r t => FilesOnly h t (installPaths f) ∧
        if a.succeeds (h.exists? f) then r = .ok () ∧ t.content? f = some (.text contents)
        else r = .error e ∧ t.files (.live f) = h.files (.live f) := by
  have htp : Path.rotateTmp f ∈ installPaths f := by simp [installPaths]
  have hlp : Path.live f ∈ installPaths f := by simp [installPaths]
  have h0 : FilesOnly h h (installPaths f) := .refl _ _
  -- what is left once the temporary file is written and has its mode
  have hrest : ∀ s : Host, FilesOnly h s (installPaths f) →
      s.files (.live f) = h.files (.live f) →
      (∃ file, s.files (.rotateTmp f) = some file ∧ file.content = .text contents) →
      (a.succeeds (h.exists? f) = (a.ownership && a.rename)) →
      Wp (do require a.ownership e; renameFile (.rotateTmp f) (.live f) a.rename e) s
        (fun w t => w = .io ∧ FilesOnly h t (installPaths f))
        fun r t => FilesOnly h t (installPaths f) ∧
          if a.succeeds (h.exists? f) then r = .ok () ∧ t.content? f = some (.text contents)
          else r = .error e ∧ t.files (.live f) = h.files (.live f) := by
    rintro s hs hlive ⟨file, hfile, hcontent⟩ hsucc
    simp only [wp_bind, wp_require, hsucc]
    cases ho : a.ownership with
    | false => simp [hs, hlive]
    | true =>
      simp only [if_true]
      apply wp_renameFile
      · exact fun g _ _ => ⟨rfl, (hs.put htp).put hlp⟩
      · intro g hg hren
        obtain rfl : g = file := by simpa [hfile] using hg.symm
        refine ⟨(hs.put htp).put hlp, ?_⟩
        simp [hren, Host.content?, hcontent]
      · rintro (hnone | hren)
        · simp [hfile] at hnone
        · simp [hs, hlive, hren]
  simp only [installRotatedKeyFile, wp_bind]
  apply wp_writeFile
  · exact fun g => ⟨rfl, h0.put htp⟩
  · intro hw
    simp only [wp_look, Host.put_files_of_ne _ _ _ (show Path.live f ≠ .rotateTmp f by simp)]
    cases hf : h.files (.live f) with
    | none =>
      have hsucc : a.succeeds (h.exists? f) = (a.ownership && a.rename) := by
        simp [InstallAnswers.succeeds, Host.exists?, hf, hw]
      simpa [hf] using hrest _ (h0.put htp) (by simp) ⟨_, Host.put_files_same _ _ _, rfl⟩ hsucc
    | some old =>
      simp only [wp_bind]
      apply wp_setMode
      · exact fun g _ => ⟨rfl, (h0.put htp).put htp⟩
      · intro g hg hchmod
        have hcontent : g.content = .text contents := by
          simp only [Host.put_files_same, Option.some.injEq] at hg
          rw [← hg]
        have hsucc : a.succeeds (h.exists? f) = (a.ownership && a.rename) := by
          simp [InstallAnswers.succeeds, hchmod, hw]
        have hlast := hrest
          ((h.put (.rotateTmp f) (some ⟨.text contents, h.openMode (.rotateTmp f) 0o600⟩)).put
            (.rotateTmp f) (some { g with mode := old.mode }))
          ((h0.put htp).put htp) (by simp) ⟨_, Host.put_files_same _ _ _, hcontent⟩ hsucc
        simpa [hf] using hlast
      · rintro (hnone | hchmod)
        · simp at hnone
        · have hsucc : a.succeeds (h.exists? f) = false := by
            simp [InstallAnswers.succeeds, hchmod, Host.exists?, hf]
          simp [hsucc, h0.put htp, hf]
  · intro hw g
    simp [InstallAnswers.succeeds, hw, h0.put htp]

end Install

section Restore

variable {h s : Host}

theorem restoreOne_wp {ε : Type} (f : StateFile) (existed ok : Bool) (s : Host) :
    Wp (restoreOne f existed ok : Prog Host Event ε Bool) s
      (fun w t => w = .io ∧ FilesOnly s t [.live f, .rotateBak f])
      fun r t => FilesOnly s t [.live f, .rotateBak f] ∧ ∃ restored, r = .ok restored ∧
        (restored = true → existed = (s.files (.rotateBak f)).isSome →
          t.files (.live f) = s.files (.rotateBak f) ∨
            existed = false ∧ t.files (.live f) = none) := by
  have hlp : Path.live f ∈ [Path.live f, .rotateBak f] := by simp
  have hbp : Path.rotateBak f ∈ [Path.live f, .rotateBak f] := by simp
  have h0 : FilesOnly s s [.live f, .rotateBak f] := .refl _ _
  simp only [restoreOne]
  cases existed with
  | true =>
    simp only [if_true, wp_bind, wp_look]
    cases hb : s.files (.rotateBak f) with
    | none => simpa using h0
    | some file =>
      cases ok with
      | false => simpa using h0
      | true => simpa using (h0.put hbp).put hlp
  | false =>
    simp only [Bool.false_eq_true, if_false, wp_bind, wp_look]
    cases hf : s.files (.live f) with
    | none => simpa [hf] using h0
    | some file =>
      cases ok with
      | false => simpa using h0
      | true => simpa using h0.put hlp

theorem mem_restorePaths_head (f : StateFile) (rest : List StateFile) :
    ∀ p ∈ [Path.live f, .rotateBak f], p ∈ restorePaths (f :: rest) := by
  simp [restorePaths]

theorem mem_restorePaths_tail (f : StateFile) (rest : List StateFile) :
    ∀ p ∈ restorePaths rest, p ∈ restorePaths (f :: rest) := by
  simp only [restorePaths, List.mem_append, List.map_cons, List.mem_cons]
  rintro p (hp | hp)
  · exact .inl (.inr hp)
  · exact .inr (.inr hp)

/-- Restoring touches the files and their backups, whatever the backups hold. -/
theorem restoreAll_frame {ε : Type} (restore : StateFile → Bool)
    (entries : List (StateFile × Bool)) (s : Host) :
    Wp (restoreAll restore entries : Prog Host Event ε Bool) s (fun w _ => w = .io)
      fun _ t => FilesOnly s t (restorePaths (entries.map Prod.fst)) := by
  induction entries generalizing s with
  | nil => exact wp_pure.mpr (.refl _ _)
  | cons entry rest ih =>
    obtain ⟨f, existed⟩ := entry
    simp only [restoreAll, wp_bind]
    refine (restoreOne_wp f existed (restore f) s).mono (fun _ _ hw => hw.1) ?_
    rintro r t ⟨ht, one, rfl, -⟩
    refine (ih t).mono (fun _ _ hw => hw) fun r u hu => ?_
    have hfiles := (ht.mono (mem_restorePaths_head f _)).trans (hu.mono (mem_restorePaths_tail f _))
    cases r with
    | ok all => exact wp_pure.mpr hfiles
    | error e => exact hfiles

/-- Restoring every file of a transaction brings all of them back, when it says so. -/
theorem restoreAll_wp {ε : Type} (restore : StateFile → Bool) (entries : List (StateFile × Bool))
    (hnodup : (entries.map Prod.fst).Nodup) (hs : BackedUp h s entries) :
    Wp (restoreAll restore entries : Prog Host Event ε Bool) s
      (fun w t => w = .io ∧ FilesOnly s t (restorePaths (entries.map Prod.fst)))
      fun r t => FilesOnly s t (restorePaths (entries.map Prod.fst)) ∧ ∃ restored, r = .ok restored ∧
        (restored = true → ∀ e ∈ entries, t.files (.live e.1) = h.files (.live e.1)) := by
  induction entries generalizing s with
  | nil => simpa [restoreAll] using FilesOnly.refl s _
  | cons entry rest ih =>
    obtain ⟨f, existed⟩ := entry
    obtain ⟨hfnot, hnodup⟩ := List.nodup_cons.mp hnodup
    obtain ⟨hexisted, hrestExisted⟩ := List.forall_mem_cons.mp hs.existed
    obtain ⟨hcopy, hrestCopy⟩ := List.forall_mem_cons.mp hs.copy
    simp only at hfnot hexisted hcopy
    have hhead := mem_restorePaths_head f (rest.map Prod.fst)
    have htail := mem_restorePaths_tail f (rest.map Prod.fst)
    simp only [restoreAll, wp_bind]
    refine (restoreOne_wp f existed (restore f) s).mono ?_ ?_
    · exact fun w t ht => ⟨ht.1, ht.2.mono hhead⟩
    · rintro r t ⟨ht, one, rfl, hone⟩
      have hrest : BackedUp h t rest := by
        refine ⟨hrestExisted, fun e he => ?_⟩
        have hne : e.1 ≠ f := fun hef => hfnot (hef ▸ List.mem_map_of_mem he)
        rw [ht.files _ (by simpa using hne), hrestCopy e he]
      refine (ih hnodup hrest).mono ?_ ?_
      · exact fun w u hu => ⟨hu.1, (ht.mono hhead).trans (hu.2.mono htail)⟩
      · rintro r u ⟨hu, all, rfl, hall⟩
        refine wp_pure.mpr ⟨(ht.mono hhead).trans (hu.mono htail), _, rfl, fun hboth => ?_⟩
        rw [Bool.and_eq_true] at hboth
        refine List.forall_mem_cons.mpr ⟨?_, hall hboth.2⟩
        have hkeep : u.files (.live f) = t.files (.live f) :=
          hu.files _ (by simpa [restorePaths] using hfnot)
        rw [hkeep]
        rcases hone hboth.1 (by rw [hexisted, hcopy]; rfl) with hback | ⟨hno, hgone⟩
        · rw [hback, hcopy]
        · have habsent : h.files (.live f) = none := by
            simpa [hno, Host.exists?] using hexisted.symm
          rw [hgone, habsent]

end Restore

end Vpn1.Admin
