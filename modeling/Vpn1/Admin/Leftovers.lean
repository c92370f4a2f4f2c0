import Vpn1.Admin.Restore
import Vpn1.Admin.RotateAtomicity

/-! Whether a transaction leaves a `.rotate-bak` behind, which would make every later one refuse to
start. -/

namespace Vpn1.Admin

open Compat Traced

def Host.baks (h : Host) : StateFile → Option File := fun f => h.files (.rotateBak f)

def NoBackups (h : Host) : Prop := ∀ f, h.baks f = none

def BackupAnswers.creates (a : BackupAnswers) : Bool := a.openSource && a.write != .notOpened

def BackupAnswers.succeeds (a : BackupAnswers) : Bool :=
  a.openSource && a.write == .done && a.metadata && a.chmod

/-- The first backup that fails, of those in a list, has created its file. -/
def leavesHalf (h : Host) (a : StateFile → BackupAnswers) : List StateFile → Bool
  | [] => false
  | f :: fs =>
    if h.exists? f then
      if (a f).succeeds then leavesHalf h a fs else (a f).creates
    else leavesHalf h a fs

theorem leavesHalf_congr {h t : Host} {a : StateFile → BackupAnswers} {fs : List StateFile}
    (hlive : ∀ f ∈ fs, t.files (.live f) = h.files (.live f)) :
    leavesHalf t a fs = leavesHalf h a fs := by
  induction fs with
  | nil => rfl
  | cons f fs ih =>
    obtain ⟨hf, hfs⟩ := List.forall_mem_cons.mp hlive
    have hexists : t.exists? f = h.exists? f := by simp only [Host.exists?, hf]
    rw [leavesHalf, leavesHalf, hexists, ih hfs]

section Steps

variable {ε : Type} {s : Host}

theorem wp_writeFile_opened {p : Path} {c : Content} {mode : Mode} {a : WriteAnswer} {e : ε}
    {G : Event → Host → Prop} {Q : Except ε Unit → Host → Prop} (hopened : a ≠ .notOpened)
    (hG : ∀ f, G .io (s.put p f))
    (hok : a = .done → Q (.ok ()) (s.put p (some ⟨c, s.openMode p mode⟩)))
    (herr : a ≠ .done → ∀ f, Q (.error e) (s.put p (some f))) :
    Wp (writeFile p c mode a e) s G Q := by
  have hopen : (s.put p (some ⟨.torn, s.openMode p mode⟩)).openMode p mode = s.openMode p mode := by
    simp [Host.openMode]
  have hput : ∀ f g, (s.put p f).put p g = s.put p g := by simp [Host.put]
  cases a with
  | notOpened => exact absurd rfl hopened
  | cut => simpa [writeFile, hG] using herr (by simp) _
  | notSynced => simpa [writeFile, hG, hopen, hput] using herr (by simp) _
  | done => simpa [writeFile, hG, hopen, hput] using hok rfl

theorem backupForRotate_baks (f : StateFile) (a : BackupAnswers) (hs : s.baks f = none) :
    Wp (backupForRotate f a) s (fun _ _ => True) fun r t =>
      (∀ g, t.files (.live g) = s.files (.live g)) ∧ (∀ g, g ≠ f → t.baks g = s.baks g) ∧
        match r with
        | .ok existed => existed = s.exists? f ∧ (existed = true → a.succeeds = true) ∧
            (existed = false → t.baks f = none)
        | .error e => e = .io ∧ s.exists? f = true ∧ a.succeeds = false ∧
            (t.baks f = none ↔ a.creates = false) := by
  have hframe (file : Option File) : (∀ g, (s.put (.rotateBak f) file).files (.live g) =
      s.files (.live g)) ∧ ∀ g, g ≠ f → (s.put (.rotateBak f) file).baks g = s.baks g :=
    ⟨fun g => by simp, fun g hg => by simp [Host.baks, hg]⟩
  have hbak : s.files (.rotateBak f) = none := hs
  unfold backupForRotate
  simp only [wp_bind, wp_look, hbak, Option.isSome_none, Bool.false_eq_true, if_false]
  cases hf : s.files (.live f) with
  | none => simp [Host.exists?, hf, hs]
  | some file =>
    have hexists : s.exists? f = true := by simp [Host.exists?, hf]
    simp only [wp_bind, wp_require]
    cases ho : a.openSource with
    | false => simp [hexists, BackupAnswers.succeeds, BackupAnswers.creates, ho, hs]
    | true =>
      simp only [if_true]
      -- a backup that is opened stays, whatever fails after that
      have hfail (file : File) (hcreates : a.creates = true) (hsucceeds : a.succeeds = false) :
          (∀ g, (s.put (.rotateBak f) (some file)).files (.live g) = s.files (.live g)) ∧
          (∀ g, g ≠ f → (s.put (.rotateBak f) (some file)).baks g = s.baks g) ∧
          BackupError.io = .io ∧ s.exists? f = true ∧ a.succeeds = false ∧
          ((s.put (.rotateBak f) (some file)).baks f = none ↔ a.creates = false) := by
        refine ⟨(hframe _).1, (hframe _).2, rfl, hexists, hsucceeds, ?_⟩
        simp [Host.baks, hcreates]
      by_cases hw : a.write = .notOpened
      · simp [writeFile, hexists, BackupAnswers.succeeds, BackupAnswers.creates, ho, hw, hs]
      have hcreates : a.creates = true := by simp [BackupAnswers.creates, ho, hw]
      apply wp_writeFile_opened hw (fun _ => trivial)
      · intro hdone
        cases hm : a.metadata with
        | false => simpa using hfail _ hcreates (by simp [BackupAnswers.succeeds, hm])
        | true =>
          simp only [if_true]
          apply wp_setMode (fun _ _ => trivial)
          · intro g _ hchmod
            have hsucceeds : a.succeeds = true := by
              simp [BackupAnswers.succeeds, ho, hdone, hm, hchmod]
            have hput : (s.put (.rotateBak f) (some ⟨file.content,
                s.openMode (.rotateBak f) 0o600⟩)).put (.rotateBak f)
                (some { g with mode := file.mode }) =
                s.put (.rotateBak f) (some { g with mode := file.mode }) := by
              simp [Host.put]
            rw [wp_pure, hput]
            exact ⟨(hframe _).1, (hframe _).2, hexists.symm, fun _ => hsucceeds, by simp⟩
          · intro hno
            have hchmod : a.chmod = false := by simpa using hno
            exact hfail _ hcreates (by simp [BackupAnswers.succeeds, hchmod])
      · intro hnot g
        exact hfail g hcreates (by simp [BackupAnswers.succeeds, hnot])

/-- What a backup of `f` means for the backups of `fs` that are to follow. -/
theorem backupForRotate_half (a : StateFile → BackupAnswers) (f : StateFile) (fs : List StateFile)
    (hs : s.baks f = none) :
    Wp (backupForRotate f (a f)) s (fun _ _ => True) fun r t =>
      (∀ g, t.files (.live g) = s.files (.live g)) ∧ (∀ g, g ≠ f → t.baks g = s.baks g) ∧
        match r with
        | .ok existed => existed = s.exists? f ∧ (existed = false → t.baks f = none) ∧
            leavesHalf s a (f :: fs) = leavesHalf t a fs
        | .error e => e = .io ∧ (t.baks f = none ↔ leavesHalf s a (f :: fs) = false) := by
  refine (backupForRotate_baks f (a f) hs).mono (fun _ _ _ => trivial) ?_
  rintro r t ⟨hlive, hothers, hr⟩
  refine ⟨hlive, hothers, ?_⟩
  cases r with
  | error e =>
    obtain ⟨rfl, hexists, hfails, hleft⟩ := hr
    refine ⟨rfl, ?_⟩
    rw [leavesHalf, if_pos hexists, hfails, if_neg Bool.false_ne_true, hleft]
  | ok existed =>
    obtain ⟨hexisted, hsucceeds, habsent⟩ := hr
    refine ⟨hexisted, habsent, ?_⟩
    rw [leavesHalf_congr fun g _ => hlive g, leavesHalf, ← hexisted]
    cases existed with
    | false => rfl
    | true => rw [if_pos rfl, if_pos (hsucceeds rfl)]

theorem noBackups_iff {f : StateFile} (hothers : ∀ g, g ≠ f → s.baks g = none) :
    NoBackups s ↔ s.baks f = none := by
  refine ⟨fun hnone => hnone f, fun hnone g => ?_⟩
  by_cases hg : g = f
  · rw [hg, hnone]
  · exact hothers g hg

/-- There are no backups but those that are known to have been made. -/
theorem baks_of_not_prepared (prepared : List StateFile) {f g : StateFile} {existed : Bool}
    {t : Host} (hs : ∀ g, g ∉ prepared → s.baks g = none)
    (hothers : ∀ g, g ≠ f → t.baks g = s.baks g) (habsent : existed = false → t.baks f = none)
    (hg : g ∉ if existed then prepared ++ [f] else prepared) : t.baks g = none := by
  by_cases hgf : g = f
  · subst hgf
    cases existed with
    | true => simp at hg
    | false => exact habsent rfl
  · rw [hothers g hgf]
    apply hs
    split_ifs at hg
    · exact fun h => hg (List.mem_append_left _ h)
    · exact hg

theorem discardBackups_baks (drop : StateFile → Bool) (gs : List StateFile) :
    Wp (discardBackups drop gs : Prog Host Event ε Unit) s (fun _ _ => True) fun r t =>
      r = .ok () ∧ (∀ f, t.files (.live f) = s.files (.live f)) ∧
        (∀ f ∉ gs, t.baks f = s.baks f) ∧ (∀ f, s.baks f = none → t.baks f = none) ∧
        ∀ f ∈ gs, drop f = true → t.baks f = none := by
  induction gs generalizing s with
  | nil => simp [discardBackups]
  | cons g gs ih =>
    unfold discardBackups
    rw [wp_bind]
    cases hdrop : drop g with
    | false =>
      simp only [discardFile, Bool.false_eq_true, if_false, wp_pure]
      refine ih.mono (fun _ _ _ => trivial) ?_
      rintro r t ⟨rfl, hlive, hothers, hnone, hgone⟩
      refine ⟨rfl, hlive, fun f hf => hothers f fun h => hf (List.mem_cons_of_mem _ h), hnone, ?_⟩
      intro f hf hyes
      rcases List.mem_cons.mp hf with rfl | hf
      · simp [hdrop] at hyes
      · exact hgone f hf hyes
    | true =>
      simp only [discardFile, if_true, wp_move, true_and]
      have hput (f : StateFile) : (s.put (.rotateBak g) none).baks f =
          if f = g then none else s.baks f := by
        by_cases hfg : f = g
        · simp [Host.baks, hfg]
        · simp [Host.baks, hfg]
      refine ih.mono (fun _ _ _ => trivial) ?_
      rintro r t ⟨rfl, hlive, hothers, hnone, hgone⟩
      refine ⟨rfl, fun f => ?_, fun f hf => ?_, fun f hf => hnone f ?_, fun f hf hyes => ?_⟩
      · rw [hlive, Host.put_files_of_ne _ _ _ (by simp)]
      · rw [List.mem_cons, not_or] at hf
        rw [hothers f hf.2, hput, if_neg hf.1]
      · rw [hput, hf]
        split_ifs <;> rfl
      · rcases List.mem_cons.mp hf with rfl | hf
        · exact hnone f (by rw [hput, if_pos rfl])
        · exact hgone f hf hyes

private theorem restoreOne_baks (g : StateFile) (existed ok : Bool) :
    Wp (restoreOne g existed ok : Prog Host Event ε Bool) s (fun _ _ => True) fun r t =>
      (∃ b, r = .ok b) ∧ (∀ f, s.baks f = none → t.baks f = none) ∧
        (existed = true → ok = true → t.baks g = none) := by
  unfold restoreOne
  cases existed with
  | false =>
    simp only [Bool.false_eq_true, if_false, wp_bind, wp_look]
    cases s.files (.live g) with
    | none => simp
    | some file => cases ok <;> simp [Host.baks]
  | true =>
    simp only [if_true, wp_bind, wp_look]
    cases hbak : s.files (.rotateBak g) with
    | none => simp [Host.baks, hbak]
    | some file =>
      cases ok with
      | false => simp
      | true =>
        simp only [if_true, wp_bind, wp_move, true_and, wp_pure]
        refine ⟨⟨true, rfl⟩, fun f hf => ?_, fun _ _ => by simp [Host.baks]⟩
        by_cases hfg : f = g
        · simp [Host.baks, hfg]
        · have hf' : s.files (.rotateBak f) = none := hf
          simp [Host.baks, hfg, hf']

private theorem restoreAll_baks (restore : StateFile → Bool) (entries : List (StateFile × Bool)) :
    Wp (restoreAll restore entries : Prog Host Event ε Bool) s (fun _ _ => True) fun r t =>
      (∃ b, r = .ok b) ∧ (∀ f, s.baks f = none → t.baks f = none) ∧
        ∀ f, (f, true) ∈ entries → restore f = true → t.baks f = none := by
  induction entries generalizing s with
  | nil => simp [restoreAll]
  | cons entry rest ih =>
    obtain ⟨g, existed⟩ := entry
    unfold restoreAll
    rw [wp_bind]
    refine (restoreOne_baks g existed (restore g)).mono (fun _ _ _ => trivial) ?_
    rintro r t ⟨⟨one, rfl⟩, hnone, hback⟩
    dsimp only
    rw [wp_bind]
    refine ih.mono (fun _ _ _ => trivial) ?_
    rintro r u ⟨⟨all, rfl⟩, hnone', hrest⟩
    refine wp_pure.mpr ⟨⟨_, rfl⟩, fun f hf => hnone' f (hnone f hf), fun f hf hyes => ?_⟩
    rcases List.mem_cons.mp hf with heq | hf
    · obtain ⟨rfl, rfl⟩ := Prod.mk.inj heq
      exact hnone' f (hback rfl hyes)
    · exact hrest f hf hyes

/-- Preparing the backups of `fs` on top of those in `prepared`. A failure takes all of them away
again but the one that failed. -/
theorem backupAll_baks (a : StateFile → BackupAnswers) (drop : StateFile → Bool)
    (prepared fs : List StateFile) (hnodup : fs.Nodup) (hdisjoint : ∀ f ∈ fs, f ∉ prepared)
    (hs : ∀ f, f ∉ prepared → s.baks f = none) :
    Wp (backupAll a drop prepared fs) s (fun _ _ => True) fun r t =>
      (∀ g, t.files (.live g) = s.files (.live g)) ∧
        match r with
        | .ok entries => entries.map Prod.fst = fs ∧ (∀ f, (f, true) ∈ entries → s.exists? f = true) ∧
            (∀ f, f ∉ prepared → (f, true) ∉ entries → t.baks f = none) ∧
            leavesHalf s a fs = false
        | .error e => e = .io ∧ ((∀ f, drop f = true) →
            (NoBackups t ↔ leavesHalf s a fs = false)) := by
  induction fs generalizing s prepared with
  | nil =>
    refine wp_pure.mpr ⟨fun _ => rfl, rfl, by simp, fun f hf _ => hs f hf, rfl⟩
  | cons f fs ih =>
    obtain ⟨hfnot, hnodup⟩ := List.nodup_cons.mp hnodup
    obtain ⟨hf, hdisjoint⟩ := List.forall_mem_cons.mp hdisjoint
    unfold backupAll
    rw [wp_bind, wp_attempt]
    refine (backupForRotate_half a f fs (hs f hf)).mono (fun _ _ _ => trivial) ?_
    rintro r t ⟨hlive, hothers, hr⟩
    cases r with
    | error e =>
      obtain ⟨rfl, hleft⟩ := hr
      dsimp only
      rw [wp_bind]
      refine (discardBackups_baks drop prepared).mono (fun _ _ _ => trivial) ?_
      rintro r u ⟨rfl, hlive', hkept, -, hgone⟩
      refine wp_fail.mpr ⟨fun g => (hlive' g).trans (hlive g), rfl, fun hdrop => ?_⟩
      have hfree : ∀ g, g ≠ f → u.baks g = none := by
        intro g hgf
        by_cases hg : g ∈ prepared
        · exact hgone g hg (hdrop g)
        · rw [hkept g hg, hothers g hgf, hs g hg]
      rw [noBackups_iff hfree, hkept f hf, hleft]
    | ok existed =>
      obtain ⟨hexisted, habsent, hhalf⟩ := hr
      dsimp only
      rw [wp_bind]
      have hapart : ∀ g ∈ fs, g ∉ (if existed then prepared ++ [f] else prepared) := by
        intro g hg
        have hgf : g ≠ f := fun h => hfnot (h ▸ hg)
        split_ifs
        · simp [hdisjoint g hg, hgf]
        · exact hdisjoint g hg
      refine (ih _ hnodup hapart fun g hg => baks_of_not_prepared prepared hs hothers habsent hg).mono
        (fun _ _ _ => trivial) ?_
      rintro r u ⟨hlive', hr⟩
      have hlives : ∀ g, u.files (.live g) = s.files (.live g) :=
        fun g => (hlive' g).trans (hlive g)
      cases r with
      | error e =>
        refine ⟨hlives, hr.1, fun hdrop => ?_⟩
        rw [hr.2 hdrop, hhalf]
      | ok entries =>
        obtain ⟨hmap, hexist, hfree, hnone⟩ := hr
        refine wp_pure.mpr ⟨hlives, by simp [hmap], fun g hg => ?_, fun g hg hno => ?_,
          hhalf.trans hnone⟩
        · rcases List.mem_cons.mp hg with heq | hg
          · obtain ⟨rfl, rfl⟩ := Prod.mk.inj heq
            exact hexisted.symm
          · have := hexist g hg
            rwa [Host.exists?, hlive g] at this
        · rw [List.mem_cons, not_or] at hno
          refine hfree g ?_ hno.2
          cases existed with
          | false => exact hg
          | true =>
            have hgf : g ≠ f := fun h => hno.1 (by rw [h])
            simp [hg, hgf]

end Steps

section Quiet

variable {ε ε' α β : Type} {bad : ε → Prop}

/-- `p` touches no backup and does not fail in a `bad` way. -/
def Quiet (bad : ε → Prop) (p : Prog Host Event ε α) : Prop :=
  ∀ s, Wp p s (fun _ _ => True) fun r t => t.baks = s.baks ∧ ∀ e, r = .error e → ¬ bad e

theorem SameExcept.baks {s t : Host} {ps : List Path} (ht : SameExcept s t ps)
    (hps : ∀ f, Path.rotateBak f ∉ ps) : t.baks = s.baks :=
  funext fun f => ht.files _ (hps f)

namespace Quiet

theorem pure (a : α) : Quiet bad (Pure.pure a : Prog Host Event ε α) :=
  fun _ => wp_pure.mpr ⟨rfl, by simp⟩

theorem fail {e : ε} (he : ¬ bad e) : Quiet bad (Prog.fail e : Prog Host Event ε α) :=
  fun _ => wp_fail.mpr ⟨rfl, by simpa using he⟩

theorem look (f : Host → α) : Quiet bad (Prog.look f : Prog Host Event ε α) :=
  fun _ => wp_look.mpr ⟨rfl, by simp⟩

theorem require {e : ε} (ok : Bool) (he : ¬ bad e) : Quiet bad (Admin.require ok e) := by
  cases ok with
  | false => exact fail he
  | true => exact pure ()

theorem bind {p : Prog Host Event ε α} {f : α → Prog Host Event ε β} (hp : Quiet bad p)
    (hf : ∀ a, Quiet bad (f a)) : Quiet bad (p >>= f) := by
  intro s
  rw [wp_bind]
  refine (hp s).mono (fun _ _ _ => trivial) ?_
  rintro r t ⟨ht, hr⟩
  cases r with
  | error e => exact ⟨ht, fun e' he => hr e' (by rw [← Except.error.inj he])⟩
  | ok a => exact (hf a t).mono (fun _ _ _ => trivial) fun r u hu => ⟨hu.1.trans ht, hu.2⟩

theorem attempt {bad' : ε' → Prop} {p : Prog Host Event ε α} (hp : Quiet bad p) :
    Quiet bad' (Prog.attempt p : Prog Host Event ε' (Except ε α)) :=
  fun s => wp_attempt.mpr ((hp s).mono (fun _ _ _ => trivial) fun _ _ ht => ⟨ht.1, by simp⟩)

theorem mapError {bad' : ε' → Prop} {p : Prog Host Event ε α} (g : ε → ε') (hp : Quiet bad p)
    (hg : ∀ e, ¬ bad e → ¬ bad' (g e)) : Quiet bad' (Prog.mapError g p) := by
  intro s
  rw [wp_mapError]
  refine (hp s).mono (fun _ _ _ => trivial) ?_
  rintro r t ⟨ht, hr⟩
  refine ⟨ht, fun e he => ?_⟩
  cases r with
  | ok a => simp at he
  | error e' =>
    rw [← Except.error.inj he]
    exact hg e' (hr e' rfl)

/-- What a rule for `p` says about its frame. -/
theorem of_frame {p : Prog Host Event ε α} (ps : List Path) {G : Host → Event → Host → Prop}
    {Q : Host → Except ε α → Host → Prop} (hp : ∀ s, Wp p s (G s) (Q s))
    (hframe : ∀ s r t, Q s r t → SameExcept s t ps) (hps : ∀ f, Path.rotateBak f ∉ ps)
    (hbad : ∀ s r t, Q s r t → ∀ e, r = .error e → ¬ bad e) : Quiet bad p :=
  fun s => (hp s).mono (fun _ _ _ => trivial) fun r t hr =>
    ⟨(hframe s r t hr).baks hps, hbad s r t hr⟩

end Quiet

variable (site : Site) (inv : Invocation)

private theorem quiet_setMode {e : ε} (f : StateFile) (mode : Mode) (ok : Bool) (he : ¬ bad e) :
    Quiet bad (setMode (.live f) mode ok e) := by
  intro s
  apply wp_setMode
  · exact fun _ _ => trivial
  · exact fun g _ _ => ⟨funext fun f' => by simp [Host.baks], by simp⟩
  · exact fun _ => ⟨rfl, by simpa using he⟩

theorem quiet_install {e : ε} (f : StateFile) (text : String) (a : InstallAnswers)
    (he : ¬ bad e) : Quiet bad (installRotatedKeyFile f text a e) := by
  refine .of_frame (installPaths f) (fun s => installRotatedKeyFile_wp f text a e s)
    (fun _ _ _ h => h.1.toSameExcept) (by simp [installPaths]) ?_
  rintro s r t ⟨-, hr⟩ e' rfl
  split_ifs at hr
  · cases hr.1
  · rwa [Except.error.inj hr.1]

private theorem quiet_installContents (a : StateFile → InstallAnswers)
    (contents : List (StateFile × String)) :
    Quiet (fun _ => False) (installContents a contents) := by
  induction contents with
  | nil => exact .pure ()
  | cons entry rest ih => exact .bind (quiet_install entry.1 entry.2 _ id) fun _ => ih

private theorem quiet_goLive (doc : Json) (apply : ApplyAnswers) (a : LiveAnswers) :
    Quiet (fun _ => False) (goLive inv.pid doc apply a) := by
  refine .of_frame (swapPaths inv.pid) (fun s => goLive_wp inv.pid doc apply a s)
    (fun s r t h => ?_) (by simp [swapPaths]) fun _ _ _ _ _ _ => id
  split_ifs at h
  · exact h.same
  · exact h.2.1.toSameExcept

private theorem quiet_realityForward (plan : RotatePlan) (a : RotateAnswers) :
    Quiet (fun _ => False) (realityForward inv plan a) := by
  refine .bind (quiet_installContents _ _) fun _ => .bind (quiet_goLive inv _ _ _) fun live =>
    .bind (.look _) fun verification => ?_
  split_ifs
  · exact .fail id
  · exact .pure ()

private theorem quiet_obfsForward (plan : RotatePlan) (existed : Bool) (a : ObfsRotateAnswers) :
    Quiet (fun _ => False) (obfsForward inv plan existed a) := by
  have hrest : Quiet (fun _ => False) (do
      let _ ← goLive inv.pid plan.doc a.apply a.live
      pure ()) := .bind (quiet_goLive inv _ _ _) fun _ => .pure ()
  cases existed with
  | true => exact hrest
  | false => exact .bind (.bind (quiet_setMode _ _ _ id) fun _ => .require _ id) fun _ => hrest

def RotateError.backup? : RotateError → Option BackupError
  | .backup cause => some cause
  | _ => none

def RotateError.isBackup (e : RotateError) : Prop := e.backup?.isSome = true

private theorem generateRealityKeypair_isBackup {a : RotateAnswers} {e : RotateError}
    (he : generateRealityKeypair site a = .error e) : ¬ e.isBackup := by
  unfold generateRealityKeypair at he
  split at he
  · rw [← Except.error.inj he]
    exact Bool.false_ne_true
  · split at he
    · rw [← Except.error.inj he]
      exact Bool.false_ne_true
    · cases he

private theorem quiet_generateKeyset (a : InitAnswers) :
    Quiet RotateError.isBackup (generateKeyset site a) := by
  have hopen (fs : List StateFile) : Quiet RotateError.isBackup (openToSubscription a.chmod fs) := by
    induction fs with
    | nil => exact .pure ()
    | cons f fs ih => exact .bind (quiet_setMode _ _ _ Bool.false_ne_true) fun _ => ih
  unfold generateKeyset
  cases hkeys : generateRealityKeypair site a.rotate with
  | error e => exact .fail (generateRealityKeypair_isBackup site hkeys)
  | ok keys =>
    obtain ⟨priv, pub, sid⟩ := keys
    exact .bind ((quiet_installContents _ _).mapError _ fun _ _ => Bool.false_ne_true) fun _ =>
      .bind (hopen _) fun _ => .bind (quiet_install _ _ _ Bool.false_ne_true) fun _ => hopen _

private theorem quiet_restartSingbox (a : RestartAnswer) :
    Quiet bad (restartSingbox a : Prog Host Event ε Bool) :=
  fun _ => wp_restartSingbox (fun _ => trivial) ⟨rfl, by simp⟩

private theorem quiet_restartSubscription (a : RestartAnswer) :
    Quiet bad (restartSubscription a : Prog Host Event ε Bool) :=
  fun _ => wp_restartSubscription (fun _ => trivial) ⟨rfl, by simp⟩

private theorem quiet_recoverService (q : ServiceAnswers) {restart : Prog Host Event ε Bool}
    (hrestart : Quiet bad restart) : Quiet bad (recoverService q restart) := by
  unfold recoverService
  split_ifs
  · exact hrestart
  · exact .pure true

private theorem quiet_copyBack (a : CopyAnswer) : Quiet bad
    (copyBack a : Prog Host Event ε Bool) := by
  refine .of_frame [.live .config] (fun s => copyBack_wp a s) ?_ (by simp) ?_
  · rintro s r t ⟨copied, -, ht⟩
    exact ht.toSameExcept
  · rintro s r t ⟨copied, rfl, -⟩ e he
    cases he

private theorem quiet_regenerate (a : RegenerateAnswers) :
    Quiet (fun _ => False) (regenerateSingboxConfig site inv true a) :=
  .of_frame (renderPaths inv.pid) (fun s => regenerate_wp site inv true a s)
    (fun _ _ _ h => h.frame.same) (by simp [renderPaths, swapPaths, stampPaths])
    fun _ _ _ _ _ _ => id

private theorem quiet_installAll (archive : Archive) (users : List CompatUser)
    (a : RestoreAnswers) : Quiet (fun _ => False) (installAll inv archive users a) := by
  refine .of_frame (savePaths inv.pid ++ restoreTargets.flatMap installPaths)
    (fun s => installAll_wp inv archive users a s) (fun _ _ _ h => h.1.toSameExcept) ?_
    fun _ _ _ _ _ _ => id
  simp [savePaths, installPaths]

end Quiet

section Commands

variable {ε : Type} {s h : Host} (site : Site) (inv : Invocation)

private theorem rollback_baks (entries : List (StateFile × Bool)) (applied : Bool)
    (a : RollbackAnswers) :
    Wp (rollback entries applied a : Prog Host Event ε RollbackReport) s (fun _ _ => True)
      fun r t => (∃ report, r = .ok report) ∧ (∀ f, s.baks f = none → t.baks f = none) ∧
        ∀ f, (f, true) ∈ entries → a.restore f = true → t.baks f = none := by
  unfold rollback
  rw [wp_bind]
  refine (restoreAll_baks a.restore entries).mono (fun _ _ _ => trivial) ?_
  rintro r t ⟨⟨restored, rfl⟩, hnone, hback⟩
  -- nothing that follows the restore fails or touches a backup
  have hrest : Quiet (fun _ : ε => True) (do
      let copied ← if applied then copyBack a.copy else pure true
      let singbox ← recoverService a.singbox (restartSingbox a.singboxRestart)
      let subscription ← recoverService a.subscription (restartSubscription a.subscriptionRestart)
      pure (⟨restored && copied, singbox, subscription⟩ : RollbackReport)) := by
    have hservices (copied : Bool) : Quiet (fun _ : ε => True) (do
        let singbox ← recoverService a.singbox (restartSingbox a.singboxRestart)
        let subscription ← recoverService a.subscription (restartSubscription a.subscriptionRestart)
        pure (⟨restored && copied, singbox, subscription⟩ : RollbackReport)) :=
      .bind (quiet_recoverService _ (quiet_restartSingbox _)) fun _ =>
        .bind (quiet_recoverService _ (quiet_restartSubscription _)) fun _ => .pure _
    cases applied with
    | true => exact .bind (quiet_copyBack a.copy) hservices
    | false => exact .bind (.pure true) hservices
  refine (hrest t).mono (fun _ _ _ => trivial) ?_
  rintro r u ⟨hu, hr⟩
  rw [hu]
  refine ⟨?_, hnone, hback⟩
  cases r with
  | ok report => exact ⟨report, rfl⟩
  | error e => exact absurd trivial (hr e rfl)

private theorem commitOrRollBack_baks {targets : List StateFile} {entries : List (StateFile × Bool)}
    {forward : Prog Host Event RotateStage Unit} (drop : StateFile → Bool) (a : RollbackAnswers)
    (hforward : Quiet (fun _ => False) forward) (htargets : ∀ f, (f, true) ∈ entries → f ∈ targets)
    (hs : ∀ f, (f, true) ∉ entries → s.baks f = none) :
    Wp (commitOrRollBack targets entries forward drop a) s (fun _ _ => True) fun r t =>
      (∀ e, r = .error e → ¬ e.isBackup) ∧ ((∀ f, drop f = true) →
        (∀ f, (f, true) ∈ entries → a.restore f = true) → NoBackups t) := by
  unfold commitOrRollBack
  rw [wp_bind, wp_attempt]
  refine (hforward s).mono (fun _ _ _ => trivial) ?_
  rintro r t ⟨ht, -⟩
  rw [← ht] at hs
  cases r with
  | ok _ =>
    refine (discardBackups_baks drop targets).mono (fun _ _ _ => trivial) ?_
    rintro r u ⟨rfl, -, -, hnone, hgone⟩
    refine ⟨by simp, fun hdrop _ f => ?_⟩
    by_cases hf : (f, true) ∈ entries
    · exact hgone f (htargets f hf) (hdrop f)
    · exact hnone f (hs f hf)
  | error stage =>
    dsimp only
    rw [wp_bind]
    refine (rollback_baks entries stage.configApplied a).mono (fun _ _ _ => trivial) ?_
    rintro r u ⟨⟨report, rfl⟩, hnone, hback⟩
    refine wp_fail.mpr ⟨fun e he => ?_, fun _ hrestore f => ?_⟩
    · rw [← Except.error.inj he]
      exact Bool.false_ne_true
    · by_cases hf : (f, true) ∈ entries
      · exact hback f hf (hrestore f hf)
      · exact hnone f (hs f hf)

structure BackupsGo (h : Host) (drop restore : StateFile → Bool) : Prop where
  dropped : ∀ f, drop f = true
  renamed : ∀ f, h.exists? f = true → restore f = true

/-- What a transaction leaves: `half` says that a backup is reached which fails half-way, `goes` that
no removal or renaming of a backup fails, and `cause` is the error of the backup that stopped it. -/
structure Freed (half : Bool) (goes : Prop) (cause : Option BackupError) (t : Host) : Prop where
  notStale : ∀ f, cause ≠ some (.stale f)
  free : goes → (NoBackups t ↔ half = false)

theorem Freed.of_none {half : Bool} {goes : Prop} {cause : Option BackupError} {t : Host}
    (hhalf : half = false) (hcause : ¬ cause.isSome = true) (ht : goes → NoBackups t) :
    Freed half goes cause t :=
  ⟨fun f hf => hcause (by rw [hf]; rfl), fun hgoes => iff_of_true (ht hgoes) hhalf⟩

def rotateCause : Except RotateError Unit → Option BackupError
  | .ok _ => none
  | .error e => e.backup?

theorem not_isSome_rotateCause {r : Except RotateError Unit}
    (hr : ∀ e, r = .error e → ¬ e.isBackup) : ¬ (rotateCause r).isSome = true := by
  cases r with
  | ok _ => exact Bool.false_ne_true
  | error e => exact hr e rfl

private theorem freed_of_quiet {p : Prog Host Event RotateError Unit} {half : Bool} {goes : Prop}
    (hhalf : half = false) (hp : Quiet RotateError.isBackup p) (hs : NoBackups s) :
    Wp p s (fun _ _ => True) fun r t => Freed half goes (rotateCause r) t := by
  refine (hp s).mono (fun _ _ _ => trivial) ?_
  rintro r t ⟨ht, hr⟩
  exact .of_none hhalf (not_isSome_rotateCause hr) fun _ f => by rw [ht, hs f]

private theorem realityPlan_isBackup {a : RotateAnswers} {e : RotateError}
    (he : realityPlan site h a = .error e) : ¬ e.isBackup := by
  unfold realityPlan at he
  split at he
  · next e' hkeys =>
    rw [← Except.error.inj he]
    exact generateRealityKeypair_isBackup site hkeys
  · split at he
    · rw [← Except.error.inj he]
      exact Bool.false_ne_true
    · cases he

private theorem obfsPlan_isBackup {a : ObfsRotateAnswers} {e : RotateError}
    (he : obfsPlan site h a = .error e) : ¬ e.isBackup := by
  unfold obfsPlan at he
  split at he
  · rw [← Except.error.inj he]
    exact Bool.false_ne_true
  · split at he
    · rw [← Except.error.inj he]
      exact Bool.false_ne_true
    · cases he

def RotateAnswers.keypairGood (site : Site) (a : RotateAnswers) : Bool :=
  a.keypair.any fun pair =>
    (validateRealityKeypair site.mulBaseClamped (trim pair.1) (trim pair.2)).isOk

/-- What a REALITY rotation on `h` needs in order to begin with its backups. -/
def RotateAnswers.ready (site : Site) (inv : Invocation) (h : Host) (a : RotateAnswers) : Bool :=
  h.binaryInstalled && a.keypairGood site && (loadUsers h a.readUsers).isOk && a.stage.passes &&
    (inv.offline || a.singbox.controllable && a.subscription.controllable)

/-- What a rotation of the obfuscation password needs in order to begin with its backup. -/
def ObfsRotateAnswers.ready (site : Site) (inv : Invocation) (h : Host) (a : ObfsRotateAnswers) :
    Bool :=
  h.binaryInstalled && a.createDir && (loadRealityParams site h a.keys).isOk &&
    (loadUsers h a.readUsers).isOk && a.stage.passes &&
    (inv.offline || a.singbox.controllable && a.subscription.controllable)

/-- `init` rotates if it is told to, or if there is a configuration and no key. -/
def InitAnswers.ready (site : Site) (inv : Invocation) (h : Host) (rotate : Bool)
    (a : InitAnswers) : Bool :=
  a.createDirs && (if h.exists? .privateKey then rotate else h.exists? .config) &&
    a.rotate.ready site inv h

def RestoreAnswers.ready (site : Site) (inv : Invocation) (archive : Archive)
    (a : RestoreAnswers) : Bool :=
  (checkArchive site archive a).isOk &&
    (inv.offline || a.singbox.controllable && a.subscription.controllable) && a.createDirs

private theorem realityPlan_isOk (a : RotateAnswers) :
    (realityPlan site h a).isOk = (a.keypairGood site && (loadUsers h a.readUsers).isOk) := by
  unfold realityPlan generateRealityKeypair RotateAnswers.keypairGood
  cases a.keypair with
  | none => rfl
  | some pair =>
    rw [Option.any_some]
    dsimp only
    cases validateRealityKeypair site.mulBaseClamped (trim pair.1) (trim pair.2) with
    | error e => rfl
    | ok _ => cases loadUsers h a.readUsers <;> rfl

private theorem obfsPlan_isOk (a : ObfsRotateAnswers) :
    (obfsPlan site h a).isOk =
      ((loadRealityParams site h a.keys).isOk && (loadUsers h a.readUsers).isOk) := by
  unfold obfsPlan
  cases loadRealityParams site h a.keys with
  | error e => rfl
  | ok reality => cases loadUsers h a.readUsers <;> rfl

private theorem not_isBackup_of_staging {e : RotateError}
    (he : e = .notStaged ∨ e = .checkFailed ∨ e = .unavailable) : ¬ e.isBackup := by
  rcases he with rfl | rfl | rfl <;> exact Bool.false_ne_true

private theorem cmdRealityRotate_freed (a : RotateAnswers) (hclean : NoBackups h) :
    Wp (cmdRealityRotate site inv a) h (fun _ _ => True) fun r t =>
      Freed (a.ready site inv h && leavesHalf h a.backup realityFiles)
        (BackupsGo h a.dropBackup a.rollback.restore) (rotateCause r) t := by
  have hstopped {e : RotateError} {s : Host} (hnot : a.ready site inv h = false)
      (he : ¬ e.isBackup) (hs : s.baks = h.baks) :
      Freed (a.ready site inv h && leavesHalf h a.backup realityFiles)
        (BackupsGo h a.dropBackup a.rollback.restore) (rotateCause (.error e)) s :=
    .of_none (by rw [hnot, Bool.false_and]) he fun _ f => by rw [hs, hclean f]
  unfold cmdRealityRotate
  rw [wp_bind, wp_mark]
  refine ⟨trivial, ?_⟩
  rw [wp_bind, wp_look]
  dsimp only
  refine wp_require_bind (fun hbin => hstopped ?_ Bool.false_ne_true rfl) fun hbin => ?_
  · simp [RotateAnswers.ready, hbin]
  have hready : a.ready site inv h = ((realityPlan site h a).isOk && (a.stage.passes &&
      (inv.offline || a.singbox.controllable && a.subscription.controllable))) := by
    rw [realityPlan_isOk, RotateAnswers.ready, hbin, Bool.true_and, Bool.and_assoc]
  rw [wp_bind, wp_look]
  cases hplan : realityPlan site h a with
  | error e =>
    refine wp_fail.mpr (hstopped ?_ (realityPlan_isBackup site hplan) rfl)
    rw [hready, hplan]
    rfl
  | ok plan =>
    rw [hplan, Fallible.isOk_ok, Bool.true_and] at hready
    refine wp_staged inv (fun _ => trivial) (fun hno e s he hs => ?_) fun hgo s hs => ?_
    · exact hstopped (hready.trans hno) (not_isBackup_of_staging he)
        (hs.toSameExcept.baks (by simp))
    have hbaks : s.baks = h.baks := hs.toSameExcept.baks (by simp)
    have hfiles : ∀ f ∈ realityFiles, s.files (.live f) = h.files (.live f) := fun f hf =>
      hs.files _ (by revert f; decide)
    rw [hready, hgo, wp_bind, wp_mapError, realityPlan_targets hplan]
    refine (backupAll_baks a.backup a.dropBackup [] realityFiles (by decide) (by simp)
      fun f _ => by rw [hbaks, hclean f]).mono (fun _ _ _ => trivial) ?_
    rintro r t ⟨-, hr⟩
    cases r with
    | error e =>
      obtain ⟨rfl, hfree⟩ := hr
      refine ⟨fun f => by simp [rotateCause, RotateError.backup?], ?_⟩
      intro hgoes
      rw [hfree hgoes.dropped, leavesHalf_congr hfiles]
      rfl
    | ok entries =>
      obtain ⟨hnames, hexist, hfree, hwhole⟩ := hr
      rw [leavesHalf_congr hfiles] at hwhole
      refine (commitOrRollBack_baks a.dropBackup a.rollback (quiet_realityForward inv plan a)
        (fun f hf => hnames ▸ List.mem_map_of_mem hf) fun f hf => hfree f (by simp) hf).mono
        (fun _ _ _ => trivial) ?_
      rintro r u ⟨hr, hdone⟩
      refine .of_none hwhole (not_isSome_rotateCause hr) fun hgoes =>
        hdone hgoes.dropped fun f hf => ?_
      have hmem : f ∈ realityFiles := hnames ▸ List.mem_map_of_mem (f := Prod.fst) hf
      exact hgoes.renamed f (by rw [← hexist f hf, Host.exists?, Host.exists?, hfiles f hmem])

/-- Once the password is backed up, the backup goes whether it is installed or not. -/
private theorem installObfs_freed {plan : RotatePlan} {a : ObfsRotateAnswers} {existed half : Bool}
    {goes : Prop} {next : Except Unit Unit → Prog Host Event RotateError Unit}
    (herror : next (.error ()) = do
      if existed then discardFile (.rotateBak .obfsPassword) a.dropBackup else pure ()
      Prog.fail .notInstalled)
    (hok : next (.ok ()) = commitOrRollBack plan.targets [(.obfsPassword, existed)]
      (obfsForward inv plan existed a) (fun _ => a.dropBackup) a.rollback)
    (htargets : plan.targets = [.obfsPassword]) (hhalf : half = false)
    (hs : ∀ f, (f, true) ∉ [(StateFile.obfsPassword, existed)] → s.baks f = none)
    (hdrop : goes → a.dropBackup = true)
    (hrestore : goes → existed = true → a.rollback.restore .obfsPassword = true) :
    Wp (Prog.attempt (installRotatedKeyFile .obfsPassword
        (generateHysteria2ObfsPassword a.password) a.install ()) >>= next) s (fun _ _ => True)
      fun r t => Freed half goes (rotateCause r) t := by
  have hinstall : Quiet (fun _ => False) (installRotatedKeyFile .obfsPassword
      (generateHysteria2ObfsPassword a.password) a.install ()) := quiet_install _ _ _ id
  rw [wp_bind, wp_attempt]
  refine (hinstall s).mono (fun _ _ _ => trivial) ?_
  rintro r u ⟨hu, -⟩
  rw [← hu] at hs
  cases r with
  | error _ =>
    dsimp only
    rw [herror]
    cases existed with
    | false => exact wp_fail.mpr (.of_none hhalf Bool.false_ne_true fun _ f => hs f (by simp))
    | true =>
      simp only [if_true]
      rw [wp_bind]
      cases hd : a.dropBackup with
      | false =>
        refine wp_pure.mpr (wp_fail.mpr (.of_none hhalf Bool.false_ne_true fun hgoes => ?_))
        rw [hdrop hgoes] at hd
        cases hd
      | true =>
        refine wp_move.mpr
          ⟨trivial, wp_fail.mpr (.of_none hhalf Bool.false_ne_true fun _ f => ?_)⟩
        by_cases hf : f = .obfsPassword
        · simp [Host.baks, hf]
        · have hnone : u.files (.rotateBak f) = none := hs f (by simp [hf])
          simp [Host.baks, hf, hnone]
  | ok _ =>
    dsimp only
    rw [hok]
    refine (commitOrRollBack_baks (fun _ => a.dropBackup) a.rollback
      (quiet_obfsForward inv plan existed a) (fun f hf => ?_) hs).mono (fun _ _ _ => trivial) ?_
    · rw [htargets]
      simpa using (Prod.mk.inj (List.mem_singleton.mp hf)).1
    · rintro r v ⟨hr, hdone⟩
      refine .of_none hhalf (not_isSome_rotateCause hr) fun hgoes =>
        hdone (fun _ => hdrop hgoes) fun f hf => ?_
      obtain ⟨rfl, rfl⟩ := Prod.mk.inj (List.mem_singleton.mp hf)
      exact hrestore hgoes rfl

private theorem cmdHysteriaObfsRotate_freed (a : ObfsRotateAnswers) (hclean : NoBackups h) :
    Wp (cmdHysteriaObfsRotate site inv a) h (fun _ _ => True) fun r t =>
      Freed (a.ready site inv h && leavesHalf h (fun _ => a.backup) [.obfsPassword])
        (BackupsGo h (fun _ => a.dropBackup) a.rollback.restore) (rotateCause r) t := by
  have hstopped {e : RotateError} {s : Host} (hnot : a.ready site inv h = false)
      (he : ¬ e.isBackup) (hs : s.baks = h.baks) :
      Freed (a.ready site inv h && leavesHalf h (fun _ => a.backup) [.obfsPassword])
        (BackupsGo h (fun _ => a.dropBackup) a.rollback.restore) (rotateCause (.error e)) s :=
    .of_none (by rw [hnot, Bool.false_and]) he fun _ f => by rw [hs, hclean f]
  unfold cmdHysteriaObfsRotate
  rw [wp_bind, wp_mark]
  refine ⟨trivial, ?_⟩
  rw [wp_bind, wp_look]
  dsimp only
  refine wp_require_bind (fun hbin => hstopped ?_ Bool.false_ne_true rfl) fun hbin => ?_
  · simp [ObfsRotateAnswers.ready, hbin]
  refine wp_require_bind (fun hdir => hstopped ?_ Bool.false_ne_true rfl) fun hdir => ?_
  · simp [ObfsRotateAnswers.ready, hdir]
  have hready : a.ready site inv h = ((obfsPlan site h a).isOk && (a.stage.passes &&
      (inv.offline || a.singbox.controllable && a.subscription.controllable))) := by
    rw [obfsPlan_isOk, ObfsRotateAnswers.ready, hbin, hdir, Bool.true_and, Bool.true_and,
      Bool.and_assoc]
  rw [wp_bind, wp_look]
  cases hplan : obfsPlan site h a with
  | error e =>
    refine wp_fail.mpr (hstopped ?_ (obfsPlan_isBackup site hplan) rfl)
    rw [hready, hplan]
    rfl
  | ok plan =>
    rw [hplan, Fallible.isOk_ok, Bool.true_and] at hready
    have htargets : plan.targets = [.obfsPassword] := by
      rw [RotatePlan.targets, obfsPlan_contents hplan]
      rfl
    refine wp_staged inv (fun _ => trivial) (fun hno e s he hs => ?_) fun hgo s hs => ?_
    · exact hstopped (hready.trans hno) (not_isBackup_of_staging he)
        (hs.toSameExcept.baks (by simp))
    have hfile : s.files (.live .obfsPassword) = h.files (.live .obfsPassword) :=
      hs.files _ (by simp)
    have hhalf : leavesHalf h (fun _ => a.backup) [.obfsPassword] =
        leavesHalf s (fun _ => a.backup) [.obfsPassword] :=
      (leavesHalf_congr (by simpa using hfile)).symm
    have hnone : ∀ f, s.baks f = none := fun f => by
      rw [hs.toSameExcept.baks (by simp), hclean f]
    rw [hready, hgo, Bool.true_and, hhalf, wp_bind, wp_mapError]
    refine (backupForRotate_half (fun _ => a.backup) .obfsPassword [] (hnone _)).mono
      (fun _ _ _ => trivial) ?_
    rintro r t ⟨-, hothers, hr⟩
    cases r with
    | error e =>
      obtain ⟨rfl, hleft⟩ := hr
      refine ⟨fun f => by simp [rotateCause, RotateError.backup?], fun _ => ?_⟩
      rw [noBackups_iff fun f hf => (hothers f hf).trans (hnone f), hleft]
    | ok existed =>
      obtain ⟨hexisted, habsent, hwhole⟩ := hr
      simp only [Except.mapError]
      refine installObfs_freed inv rfl rfl htargets hwhole (fun f hf => ?_)
        (fun hgoes => hgoes.dropped .obfsPassword) fun hgoes hthere => hgoes.renamed _ ?_
      · refine baks_of_not_prepared [] (fun g _ => hnone g) hothers habsent ?_
        cases existed with
        | false => exact List.not_mem_nil
        | true => simpa using hf
      · rw [← hthere, hexisted, Host.exists?, Host.exists?, hfile]

private theorem cmdInit_freed (rotate : Bool) (a : InitAnswers) (hclean : NoBackups h) :
    Wp (cmdInit site inv rotate a) h (fun _ _ => True) fun r t =>
      Freed (a.ready site inv h rotate && leavesHalf h a.rotate.backup realityFiles)
        (BackupsGo h a.rotate.dropBackup a.rotate.rollback.restore) (rotateCause r) t := by
  have hrotate := cmdRealityRotate_freed site inv a.rotate hclean
  unfold cmdInit InitAnswers.ready
  rw [wp_bind, wp_require]
  cases hdirs : a.createDirs with
  | false => exact .of_none rfl Bool.false_ne_true fun _ => hclean
  | true =>
    simp only [if_true, wp_bind, wp_look, Bool.true_and]
    cases h.exists? .privateKey with
    | true =>
      cases rotate with
      | true => simpa using hrotate
      | false =>
        simp only [Bool.false_eq_true, if_false, if_true, wp_bind, wp_look]
        exact freed_of_quiet rfl (.require _ Bool.false_ne_true) hclean
    | false =>
      simp only [Bool.false_eq_true, if_false, wp_bind, wp_look]
      cases h.exists? .config with
      | true => simpa using hrotate
      | false => exact freed_of_quiet rfl (quiet_generateKeyset site a) hclean

end Commands

section Restore

variable {ε : Type} {s h : Host} (site : Site) (inv : Invocation)

def restoreCause : Except RestoreError Unit → Option BackupError
  | .ok _ => none
  | .error e => e.backup?

private theorem undoRestore_baks (entries : List (StateFile × Bool)) (a : RestoreRollbackAnswers) :
    Wp (undoRestore site inv entries a : Prog Host Event ε Bool) s (fun _ _ => True)
      fun r t => (∃ recovered, r = .ok recovered) ∧ (∀ f, s.baks f = none → t.baks f = none) ∧
        ∀ f, (f, true) ∈ entries → a.restore f = true → t.baks f = none := by
  unfold undoRestore
  rw [wp_bind]
  refine (restoreAll_baks a.restore entries).mono (fun _ _ _ => trivial) ?_
  rintro r t ⟨⟨files, rfl⟩, hnone, hback⟩
  have hrest : Quiet (fun _ : ε => True) (do
      let rendered ← Prog.attempt (regenerateSingboxConfig site inv true a.regenerate)
      let subscription ←
        if a.subscription.controllable then restartSubscription a.subscriptionRestart
        else pure inv.offline
      pure (files && rendered.isOk && subscription)) := by
    refine .bind (quiet_regenerate site inv a.regenerate).attempt fun rendered => ?_
    cases a.subscription.controllable with
    | true => exact .bind (quiet_restartSubscription _) fun _ => .pure _
    | false => exact .bind (.pure _) fun _ => .pure _
  refine (hrest t).mono (fun _ _ _ => trivial) ?_
  rintro r u ⟨hu, hr⟩
  rw [hu]
  refine ⟨?_, hnone, hback⟩
  cases r with
  | ok recovered => exact ⟨recovered, rfl⟩
  | error e => exact absurd trivial (hr e rfl)

variable {half : Bool} {goes : Prop} {entries : List (StateFile × Bool)}

theorem failRestore_freed (a : RestoreRollbackAnswers) (stage : RestoreStage) (hhalf : half = false)
    (hs : ∀ f, (f, true) ∉ entries → s.baks f = none)
    (hrestore : goes → ∀ f, (f, true) ∈ entries → a.restore f = true) :
    Wp (failRestore site inv entries a stage) s (fun _ _ => True)
      fun r t => Freed half goes (restoreCause r) t := by
  unfold failRestore
  rw [wp_bind]
  refine (undoRestore_baks site inv entries a).mono (fun _ _ _ => trivial) ?_
  rintro r t ⟨⟨recovered, rfl⟩, hnone, hback⟩
  refine wp_fail.mpr (.of_none hhalf Bool.false_ne_true fun hgoes f => ?_)
  by_cases hf : (f, true) ∈ entries
  · exact hback f hf (hrestore hgoes f hf)
  · exact hnone f (hs f hf)

private theorem loadRestored_freed (a : RestoreAnswers) (hhalf : half = false)
    (hs : ∀ f, (f, true) ∉ entries → s.baks f = none)
    (hdrop : goes → ∀ f, a.dropBackup f = true)
    (hrestore : goes → ∀ f, (f, true) ∈ entries → a.rollback.restore f = true) :
    Wp (loadRestored site inv entries a) s (fun _ _ => True)
      fun r t => Freed half goes (restoreCause r) t := by
  unfold loadRestored
  rw [wp_bind, wp_attempt]
  refine (quiet_regenerate site inv a.regenerate s).mono (fun _ _ _ => trivial) ?_
  rintro r t ⟨ht, -⟩
  rw [← ht] at hs
  cases r with
  | error e => exact failRestore_freed site inv a.rollback _ hhalf hs hrestore
  | ok live =>
    -- the backups go either way, dropped or moved back
    have hend (served : Bool) {u : Host} (hu : ∀ f, (f, true) ∉ entries → u.baks f = none) :
        Wp (if served then discardBackups a.dropBackup ((entries.filter (·.2)).map Prod.fst)
          else failRestore site inv entries a.rollback .restartingSubscription) u (fun _ _ => True)
          fun r t => Freed half goes (restoreCause r) t := by
      cases served with
      | false => exact failRestore_freed site inv a.rollback _ hhalf hu hrestore
      | true =>
        refine (discardBackups_baks a.dropBackup _).mono (fun _ _ _ => trivial) ?_
        rintro r v ⟨rfl, -, -, hnone, hgone⟩
        refine .of_none hhalf Bool.false_ne_true fun hgoes f => ?_
        by_cases hf : (f, true) ∈ entries
        · have hmem : f ∈ (entries.filter (·.2)).map Prod.fst :=
            List.mem_map.mpr ⟨(f, true), List.mem_filter.mpr ⟨hf, rfl⟩, rfl⟩
          exact hgone f hmem (hdrop hgoes f)
        · exact hnone f (hu f hf)
    dsimp only
    cases a.live.controllable with
    | false =>
      simp only [Bool.false_eq_true, if_false]
      rw [wp_bind]
      exact wp_pure.mpr (hend true hs)
    | true =>
      simp only [if_true]
      rw [wp_bind]
      exact wp_restartSubscription (fun _ => trivial) (hend _ hs)

private theorem cmdRestore_freed (archive : Archive) (a : RestoreAnswers) (hclean : NoBackups h) :
    Wp (cmdRestore site inv archive a) h (fun _ _ => True) fun r t =>
      Freed (a.ready site inv archive && leavesHalf h a.backup (.users :: restoreTargets))
        (BackupsGo h a.dropBackup a.rollback.restore) (restoreCause r) t := by
  have huntouched {e : RestoreError} (hnot : a.ready site inv archive = false)
      (he : e.backup? = none) :
      Freed (a.ready site inv archive && leavesHalf h a.backup (.users :: restoreTargets))
        (BackupsGo h a.dropBackup a.rollback.restore) (restoreCause (.error e)) h :=
    .of_none (by rw [hnot, Bool.false_and]) (by simp [restoreCause, he]) fun _ => hclean
  unfold cmdRestore
  cases hcheck : checkArchive site archive a with
  | error e =>
    refine wp_fail.mpr (huntouched ?_ (checkArchive_error hcheck).2)
    rw [RestoreAnswers.ready, hcheck]
    rfl
  | ok users =>
    dsimp only
    refine wp_require_bind (fun hno => huntouched ?_ rfl) fun hservices => ?_
    · rw [RestoreAnswers.ready, hno, Bool.and_false, Bool.false_and]
    refine wp_require_bind (fun hno => huntouched ?_ rfl) fun hdirs => ?_
    · rw [RestoreAnswers.ready, hno, Bool.and_false]
    have hready : a.ready site inv archive = true := by
      rw [RestoreAnswers.ready, hcheck, hservices, hdirs]
      rfl
    rw [hready, Bool.true_and, wp_bind, wp_mapError]
    refine (backupForRotate_half a.backup .users restoreTargets (hclean .users)).mono
      (fun _ _ _ => trivial) ?_
    rintro r t ⟨hlive, hothers, hr⟩
    cases r with
    | error e =>
      obtain ⟨rfl, hleft⟩ := hr
      refine ⟨fun f => by simp [restoreCause, RestoreError.backup?], fun _ => ?_⟩
      rw [noBackups_iff fun f hf => (hothers f hf).trans (hclean f), hleft]
    | ok existed =>
      obtain ⟨hexisted, habsent, hhalf⟩ := hr
      have hprepared : ∀ f, f ∉ (if existed then [StateFile.users] else []) → t.baks f = none :=
        fun f hf => baks_of_not_prepared [] (fun g _ => hclean g) hothers habsent hf
      have hapart : ∀ f ∈ restoreTargets, f ∉ (if existed then [StateFile.users] else []) := by
        cases existed <;> decide
      simp only [Except.mapError]
      rw [wp_bind, wp_mapError]
      refine (backupAll_baks a.backup a.dropBackup _ restoreTargets (by decide) hapart
        hprepared).mono (fun _ _ _ => trivial) ?_
      rintro r u ⟨-, hr⟩
      cases r with
      | error e =>
        obtain ⟨rfl, hleft⟩ := hr
        refine ⟨fun f => by simp [restoreCause, RestoreError.backup?], fun hgoes => ?_⟩
        rw [hleft hgoes.dropped, hhalf]
      | ok entries =>
        obtain ⟨-, hexist, hgone, hwhole⟩ := hr
        rw [← hhalf] at hwhole
        simp only [Except.mapError]
        have hentries : ∀ f, (f, true) ∉ entries ++ [(.users, existed)] → u.baks f = none := by
          intro f hf
          rw [List.mem_append, not_or] at hf
          refine hgone f ?_ hf.1
          cases existed with
          | false => simp
          | true => simpa using hf.2
        have hrestore : BackupsGo h a.dropBackup a.rollback.restore →
            ∀ f, (f, true) ∈ entries ++ [(.users, existed)] → a.rollback.restore f = true := by
          intro hgoes f hf
          apply hgoes.renamed
          rcases List.mem_append.mp hf with hf | hf
          · rw [← hexist f hf, Host.exists?, Host.exists?, hlive f]
          · obtain ⟨rfl, rfl⟩ := Prod.mk.inj (List.mem_singleton.mp hf)
            exact hexisted.symm
        rw [wp_bind, wp_attempt]
        refine (quiet_installAll inv archive users a u).mono (fun _ _ _ => trivial) ?_
        rintro r v ⟨hv, -⟩
        rw [← hv] at hentries
        cases r with
        | error _ => exact failRestore_freed site inv a.rollback _ hwhole hentries hrestore
        | ok _ =>
          exact loadRestored_freed site inv a hwhole hentries (fun hgoes => hgoes.dropped) hrestore

end Restore

section Transactions

/-- The commands that back the files up which they are about to replace. -/
inductive Transaction
  | init (rotate : Bool) (a : InitAnswers)
  | obfsRotate (a : ObfsRotateAnswers)
  | restore (archive : Archive) (a : RestoreAnswers)

namespace Transaction

/-- The error of the backup that stopped a transaction, if one did, and the host it leaves. -/
def run (site : Site) (inv : Invocation) (h : Host) : Transaction → Option BackupError × Host
  | init rotate a =>
    let r := cmdInit site inv rotate a h
    (rotateCause r.result, r.final)
  | obfsRotate a =>
    let r := cmdHysteriaObfsRotate site inv a h
    (rotateCause r.result, r.final)
  | restore archive a =>
    let r := cmdRestore site inv archive a h
    (restoreCause r.result, r.final)

/-- The transaction gets as far as its backups, and the first of them to fail does so after it created
the file. -/
def halfBackup (site : Site) (inv : Invocation) (h : Host) : Transaction → Bool
  | init rotate a => a.ready site inv h rotate && leavesHalf h a.rotate.backup realityFiles
  | obfsRotate a => a.ready site inv h && leavesHalf h (fun _ => a.backup) [.obfsPassword]
  | restore archive a =>
    a.ready site inv archive && leavesHalf h a.backup (.users :: restoreTargets)

def backupsGo (h : Host) : Transaction → Prop
  | init _ a => BackupsGo h a.rotate.dropBackup a.rotate.rollback.restore
  | obfsRotate a => BackupsGo h (fun _ => a.dropBackup) a.rollback.restore
  | restore _ a => BackupsGo h a.dropBackup a.rollback.restore

private theorem run_freed (site : Site) (inv : Invocation) {h : Host} (hclean : NoBackups h)
    (c : Transaction) :
    Freed (c.halfBackup site inv h) (c.backupsGo h) (c.run site inv h).1 (c.run site inv h).2 := by
  cases c with
  | init rotate a => exact (cmdInit_freed site inv rotate a hclean).2
  | obfsRotate a => exact (cmdHysteriaObfsRotate_freed site inv a hclean).2
  | restore archive a => exact (cmdRestore_freed site inv archive a hclean).2

end Transaction

/-- A transaction that starts without backups ends without them, and so its successors are not
refused, unless it comes to a backup that fails half-way. -/
theorem successor_not_refused_iff (site : Site) (inv : Invocation) {h : Host}
    (hclean : NoBackups h) (c : Transaction) (hgoes : c.backupsGo h) :
    (NoBackups (c.run site inv h).2 ∧ ∀ site' inv' (next : Transaction) f,
        (next.run site' inv' (c.run site inv h).2).1 ≠ some (.stale f)) ↔
      c.halfBackup site inv h = false := by
  rw [← (c.run_freed site inv hclean).free hgoes]
  constructor
  · intro hnext
    exact hnext.1
  · intro hnone
    exact ⟨hnone, fun site' inv' next => (next.run_freed site' inv' hnone).notStale⟩

/-- A rotation that cannot give its second backup the mode of the original. -/
def halfBackedUp : Transaction :=
  .init true ⟨true, fun _ => true, .replicate 24 7, { RotateAnswers.clear with
    backup := fun f => ⟨true, .done, true, f != .publicKey⟩ }⟩

def unreadableBackedUp : Transaction :=
  .init true ⟨true, fun _ => true, .replicate 24 7, { RotateAnswers.clear with
    backup := fun f => ⟨f != .publicKey, .done, true, true⟩ }⟩

def clearRotation : Transaction := .init true ⟨true, fun _ => true, .replicate 24 7, .clear⟩

private theorem noBackups_sample : NoBackups sampleHost := fun _ => rfl

theorem successor_not_refused_sample :
    (unreadableBackedUp.run sampleSite ⟨1, false⟩ sampleHost).1 = some .io ∧
      NoBackups (unreadableBackedUp.run sampleSite ⟨1, false⟩ sampleHost).2 :=
  ⟨by decide, ((successor_not_refused_iff sampleSite ⟨1, false⟩ noBackups_sample unreadableBackedUp
    ⟨fun _ => rfl, fun _ _ => rfl⟩).mpr (by decide)).1⟩

/-- The half-made backup stays, and the rotation is refused ever after. -/
theorem half_backup_refuses_successor :
    NoBackups sampleHost ∧ halfBackedUp.backupsGo sampleHost ∧
      (halfBackedUp.run sampleSite ⟨1, false⟩ sampleHost).1 = some .io ∧
      ¬ NoBackups (halfBackedUp.run sampleSite ⟨1, false⟩ sampleHost).2 ∧
      (clearRotation.run sampleSite ⟨2, false⟩
        (halfBackedUp.run sampleSite ⟨1, false⟩ sampleHost).2).1 = some (.stale .publicKey) := by
  refine ⟨noBackups_sample, ⟨fun _ => rfl, fun _ _ => rfl⟩, by decide, fun hnone => ?_, by decide⟩
  exact absurd (hnone .publicKey) (by decide)

end Transactions

end Vpn1.Admin
