import Vpn1.Admin.Apply

/-! What a swap of `config.json` leaves next to it: the temporary file is a copy of the secrets, and
only a rejected document takes it away again. -/

namespace Vpn1.Admin

open Compat Traced

/-- A failed swap left the configuration alone and no temporary file; one that went through put the
new document in place and kept the old one. -/
structure LeavesNoTrace (pid : Nat) (doc : Json) (h : Host) (r : Except CompatError Unit) (t : Host) :
    Prop where
  failed : ∀ e, r = .error e →
    t.files (.live .config) = h.files (.live .config) ∧ t.files (.tmp .config pid) = none
  swapped : r = .ok () → t.content? .config = some (.json doc) ∧
    (h.exists? .config = true → t.content? .configBak = h.content? .config)

/-- A swap that fails before it opens the temporary file, or on the document and can remove it. -/
def ApplyAnswers.clears (a : ApplyAnswers) (stale : Bool) : Bool :=
  if a.createDir && a.write != .notOpened then a.write == .done && !a.check && a.removeTmp
  else !stale

section TemporaryFile

variable {pid : Nat} {h : Host} {a : ApplyAnswers}

/-- Once written, the temporary file goes with a rename, or with a document that is rejected. -/
theorem applyConfigAtomically_tmp (doc : Json) (hdir : a.createDir = true)
    (hopened : a.write ≠ .notOpened) :
    ((applyConfigAtomically pid doc a h).final.files (.tmp .config pid) = none ↔
      a.write = .done ∧ (if a.check then a.succeeds (h.exists? .config) else a.removeTmp)) := by
  have hrun : Wp (applyConfigAtomically pid doc a) h (fun _ _ => True) fun _ t =>
      (t.files (.tmp .config pid) = none ↔
        a.write = .done ∧ (if a.check then a.succeeds (h.exists? .config) else a.removeTmp)) := by
    simp only [applyConfigAtomically, wp_bind, wp_require, hdir, if_true]
    cases hwrite : a.write with
    | notOpened => exact absurd hwrite hopened
    | cut => simp [writeFile]
    | notSynced => simp [writeFile]
    | done =>
      have htp : Path.tmp .config pid ∈ swapPaths pid := by simp [swapPaths]
      apply wp_writeFile
      · exact fun _ => trivial
      · intro _
        have h0 : FilesOnly h h (swapPaths pid) := .refl _ _
        cases hcheck : a.check with
        | false => cases hremove : a.removeTmp <;> simp [discardFile]
        | true =>
          simp only [if_true, wp_bind]
          refine (backupConfig_wp pid (h0.put htp) (by simp) (by simp)).mono
            (fun _ _ _ => trivial) fun r t ht => ?_
          obtain ⟨-, -, htmp, hr⟩ := ht
          have hkept : t.files (.tmp .config pid) =
              some ⟨.json doc, h.openMode (.tmp .config pid) 0o640⟩ := by simpa using htmp
          have hsucceeds : a.succeeds (h.exists? .config) =
              ((!h.exists? .config || a.copyBak == .done && a.chmodBak) && a.ownership &&
                a.rename) := by
            simp [ApplyAnswers.succeeds, hdir, hwrite, hcheck]
          rw [hsucceeds]
          by_cases hbak : (!h.exists? .config || a.copyBak == .done && a.chmodBak) = true
          · rw [if_pos hbak] at hr
            obtain ⟨rfl, -⟩ := hr
            rw [hbak]
            cases hown : a.ownership <;> cases hren : a.rename <;> simp [renameFile, hkept]
          · rw [if_neg hbak] at hr
            obtain rfl := hr
            simp [hbak, hkept]
      · intro hne
        exact absurd rfl hne
  exact hrun.2

private theorem applyConfigAtomically_unopened (doc : Json)
    (hstops : ¬ (a.createDir = true ∧ a.write ≠ .notOpened)) :
    (applyConfigAtomically pid doc a h).final = h := by
  have hrun : Wp (applyConfigAtomically pid doc a) h (fun _ _ => True) fun _ t => t = h := by
    simp only [applyConfigAtomically, wp_bind, wp_require]
    cases hdir : a.createDir with
    | false => simp
    | true =>
      have hwrite : a.write = .notOpened := not_not.mp fun hne => hstops ⟨hdir, hne⟩
      simp [writeFile, hwrite]
  exact hrun.2

/-- A swap leaves no trace exactly if it goes through, fails before it opens the temporary file, or
fails on the document and can remove it. -/
theorem swap_leavesNoTrace_iff (pid : Nat) (doc : Json) (a : ApplyAnswers) (h : Host) :
    LeavesNoTrace pid doc h (applyConfigAtomically pid doc a h).result
        (applyConfigAtomically pid doc a h).final ↔
      a.succeeds (h.exists? .config) = true ∨
        a.clears (h.files (.tmp .config pid)).isSome = true := by
  have hrun := (applyConfigAtomically_wp pid doc a h).2
  dsimp only at hrun
  cases hsucceeds : a.succeeds (h.exists? .config) with
  | true =>
    rw [if_pos hsucceeds] at hrun
    obtain ⟨hok, hswapped⟩ := hrun
    refine iff_of_true ⟨fun e he => ?_, fun _ => ⟨hswapped.config, fun hexists => ?_⟩⟩ (.inl rfl)
    · rw [hok] at he
      cases he
    · rw [hswapped.bak, Host.keptConfig, if_pos hexists]
  | false =>
    rw [hsucceeds, if_neg Bool.false_ne_true] at hrun
    obtain ⟨⟨e, hresult⟩, -, hconfig⟩ := hrun
    have hnoTrace : LeavesNoTrace pid doc h (applyConfigAtomically pid doc a h).result
        (applyConfigAtomically pid doc a h).final ↔
          (applyConfigAtomically pid doc a h).final.files (.tmp .config pid) = none := by
      constructor
      · exact fun hleaves => (hleaves.failed e hresult).2
      · intro hnone
        refine ⟨fun _ _ => ⟨hconfig, hnone⟩, fun hok => ?_⟩
        rw [hresult] at hok
        cases hok
    rw [hnoTrace, or_iff_right (by simp)]
    by_cases hopens : a.createDir = true ∧ a.write ≠ .notOpened
    · rw [applyConfigAtomically_tmp doc hopens.1 hopens.2, hsucceeds]
      cases hcheck : a.check <;> simp [ApplyAnswers.clears, hopens.1, hopens.2, hcheck]
    · rw [applyConfigAtomically_unopened doc hopens]
      have hclears : (a.createDir && a.write != .notOpened) = false := by
        simpa using hopens
      simp [ApplyAnswers.clears, hclears]

def renameFails : ApplyAnswers := ⟨true, .done, true, true, .done, true, true, false⟩

/-- The new configuration, with its keys and passwords, stays behind in the temporary file. -/
theorem rename_failure_leaves_secrets :
    (applyConfigAtomically 1 (.str "private_key") renameFails sampleHost).result = .error .io ∧
      ((applyConfigAtomically 1 (.str "private_key") renameFails sampleHost).final.files
        (.tmp .config 1)).map File.content = some (.json (.str "private_key")) := by
  constructor
  · decide
  · decide

end TemporaryFile

end Vpn1.Admin
