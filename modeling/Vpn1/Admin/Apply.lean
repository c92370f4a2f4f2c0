import Vpn1.Admin.Material

/-! The write-validate-swap of `config.json`, the record of the applied document, and the way back
to `config.json.bak`. -/

namespace Vpn1.Admin

open Compat Traced

/-- Keep the live configuration as `config.json.bak`, if there is one. -/
def backupConfig (a : ApplyAnswers) : Prog Host Event CompatError Unit := do
  if ← Prog.look (·.exists? .config) then
    copyFile (.live .config) (.live .configBak) a.copyBak .io
    setMode (.live .configBak) 0o640 a.chmodBak .io
  else pure ()

def applyConfigAtomically (pid : Nat) (doc : Json) (a : ApplyAnswers) :
    Prog Host Event CompatError Unit := do
  require a.createDir .io
  writeFile (.tmp .config pid) (.json doc) 0o640 a.write .io
  if a.check then
    backupConfig a
    require a.ownership .io
    renameFile (.tmp .config pid) (.live .config) a.rename .io
  else
    discardFile (.tmp .config pid) a.removeTmp
    Prog.fail .configValidationFailed

/-- Every step of the swap succeeds; the backup steps only run over an existing configuration. -/
def ApplyAnswers.succeeds (a : ApplyAnswers) (existed : Bool) : Bool :=
  a.createDir && a.write == .done && a.check && (!existed || a.copyBak == .done && a.chmodBak) &&
    a.ownership && a.rename

def swapPaths (pid : Nat) : List Path := [.tmp .config pid, .live .configBak, .live .config]

/-- What `config.json.bak` holds after a swap: an absent configuration leaves the old one. -/
def Host.keptConfig (h : Host) : Option Content :=
  if h.exists? .config then h.content? .config else h.content? .configBak

/-- `t` is `h` after its configuration was swapped for `doc`. -/
structure Swapped (pid : Nat) (h : Host) (doc : Json) (t : Host) : Prop
    extends FilesOnly h t (swapPaths pid) where
  config : t.content? .config = some (.json doc)
  bak : t.content? .configBak = h.keptConfig

theorem backupConfig_wp (pid : Nat) {a : ApplyAnswers} {h s : Host} (hs : FilesOnly h s (swapPaths pid))
    (hconfig : s.files (.live .config) = h.files (.live .config))
    (hbak : s.files (.live .configBak) = h.files (.live .configBak)) :
    Wp (backupConfig a) s (fun w t => w = .io ∧ FilesOnly h t (swapPaths pid)) fun r t =>
      FilesOnly h t (swapPaths pid) ∧ t.files (.live .config) = h.files (.live .config) ∧
        t.files (.tmp .config pid) = s.files (.tmp .config pid) ∧
        (if !h.exists? .config || a.copyBak == .done && a.chmodBak then
          r = .ok () ∧ t.content? .configBak = h.keptConfig
        else r = .error .io) := by
  have hbp : Path.live .configBak ∈ swapPaths pid := by simp [swapPaths]
  have hex : s.exists? .config = h.exists? .config := by simp [Host.exists?, hconfig]
  simp only [backupConfig, wp_bind, wp_look, hex]
  cases hc : h.exists? .config with
  | false => simp [hs, hconfig, Host.content?, hbak, Host.keptConfig, hc]
  | true =>
    simp only [if_true, wp_bind]
    apply wp_copyFile
    · exact fun f => ⟨rfl, hs.put hbp⟩
    · intro f hf hdone
      apply wp_setMode
      · exact fun g _ => ⟨rfl, (hs.put hbp).put hbp⟩
      · intro g hg hchmod
        have hgf : g = f := by simpa using hg.symm
        have hcf : h.files (.live .config) = some f := by rw [← hconfig, hf]
        refine ⟨(hs.put hbp).put hbp, by simp [hconfig], by simp, ?_⟩
        simp [hdone, hchmod, Host.content?, hcf, hgf, Host.keptConfig, hc]
      · rintro (hnone | hchmod)
        · simp at hnone
        · refine ⟨hs.put hbp, by simp [hconfig], by simp, ?_⟩
          simp [hchmod]
    · rintro (hnone | hcopy) f -
      · simp [Host.exists?, ← hconfig, hnone] at hc
      · refine ⟨hs.put hbp, by simp [hconfig], by simp, ?_⟩
        simp [hcopy]

/-- The swap succeeds exactly when all its steps do, and otherwise leaves `config.json` alone. -/
theorem applyConfigAtomically_wp (pid : Nat) (doc : Json) (a : ApplyAnswers) (h : Host) :
    Wp (applyConfigAtomically pid doc a) h (fun w t => w = .io ∧ FilesOnly h t (swapPaths pid))
      fun r t =>
      if a.succeeds (h.exists? .config) then r = .ok () ∧ Swapped pid h doc t
      else (∃ e, r = .error e) ∧ FilesOnly h t (swapPaths pid) ∧
        t.files (.live .config) = h.files (.live .config) := by
  have htp : Path.tmp .config pid ∈ swapPaths pid := by simp [swapPaths]
  have hcp : Path.live .config ∈ swapPaths pid := by simp [swapPaths]
  have h0 : FilesOnly h h (swapPaths pid) := .refl _ _
  simp only [applyConfigAtomically, wp_bind, wp_require]
  cases hd : a.createDir with
  | false => simp [ApplyAnswers.succeeds, hd, h0]
  | true =>
    simp only [if_true]
    apply wp_writeFile
    · exact fun f => ⟨rfl, h0.put htp⟩
    · intro hw
      cases hk : a.check with
      | false =>
        simp only [Bool.false_eq_true, if_false, wp_bind]
        apply wp_discardFile
        · exact fun f => ⟨rfl, (h0.put htp).put htp⟩
        · intro f _
          have hfail : a.succeeds (h.exists? .config) = false := by simp [ApplyAnswers.succeeds, hk]
          simp only [hfail, Bool.false_eq_true, if_false, wp_fail]
          exact ⟨⟨_, rfl⟩, (h0.put htp).put htp, by simp⟩
      | true =>
        simp only [if_true, wp_bind]
        refine (backupConfig_wp pid (h0.put htp) (by simp) (by simp)).mono (fun _ _ ht => ht) ?_
        rintro r t ⟨ht, hconfig, htmp, hr⟩
        split_ifs at hr with hb
        · obtain ⟨rfl, hbak⟩ := hr
          simp only [wp_require]
          cases ho : a.ownership with
          | false => simp [ApplyAnswers.succeeds, ho, ht, hconfig]
          | true =>
            simp only [if_true]
            have htf : t.files (.tmp .config pid) =
                some ⟨.json doc, h.openMode (.tmp .config pid) 0o640⟩ := by simpa using htmp
            apply wp_renameFile
            · exact fun f _ _ => ⟨rfl, (ht.put htp).put hcp⟩
            · intro f hf hren
              have hfe : f = ⟨.json doc, h.openMode (.tmp .config pid) 0o640⟩ := by
                simpa [htf] using hf.symm
              have hsucc : a.succeeds (h.exists? .config) = true := by
                simp [ApplyAnswers.succeeds, hd, hw, hk, ho, hren, hb]
              rw [if_pos hsucc]
              refine ⟨rfl, ⟨(ht.put htp).put hcp, ?_, ?_⟩⟩
              · simp [Host.content?, hfe]
              · simpa [Host.content?] using hbak
            · rintro (hnone | hren)
              · simp [htf] at hnone
              · simp [ApplyAnswers.succeeds, hren, ht, hconfig]
        · subst hr
          have hfail : a.succeeds (h.exists? .config) = false := by
            simp only [ApplyAnswers.succeeds]
            simp only [Bool.not_eq_true] at hb
            simp [hb]
          simp [hfail, ht, hconfig]
    · intro hw f
      simp [ApplyAnswers.succeeds, hw, h0.put htp]

/-- Record `doc` as the configuration verified live. -/
def commitAppliedConfigStamp {ε : Type} (pid : Nat) (doc : Json) (a : StampAnswers) (e : ε) :
    Prog Host Event ε Unit := do
  writeFile (.tmp .appliedStamp pid) (.digest doc) 0o600 a.write e
  renameFile (.tmp .appliedStamp pid) (.live .appliedStamp) a.rename e

def stampPaths (pid : Nat) : List Path := [.tmp .appliedStamp pid, .live .appliedStamp]

theorem commitAppliedConfigStamp_wp {ε : Type} (pid : Nat) (doc : Json) (a : StampAnswers) (e : ε)
    (h : Host) :
    Wp (commitAppliedConfigStamp pid doc a e) h
      (fun w t => w = .io ∧ FilesOnly h t (stampPaths pid))
      fun r t => FilesOnly h t (stampPaths pid) ∧
        if a.write == .done && a.rename then
          r = .ok () ∧ t.content? .appliedStamp = some (.digest doc)
        else r = .error e ∧ t.content? .appliedStamp = h.content? .appliedStamp := by
  have htp : Path.tmp .appliedStamp pid ∈ stampPaths pid := by simp [stampPaths]
  have hsp : Path.live .appliedStamp ∈ stampPaths pid := by simp [stampPaths]
  have h0 : FilesOnly h h (stampPaths pid) := .refl _ _
  simp only [commitAppliedConfigStamp, wp_bind]
  apply wp_writeFile
  · exact fun f => ⟨rfl, h0.put htp⟩
  · intro hw
    apply wp_renameFile
    · exact fun f _ _ => ⟨rfl, ((h0.put htp).put htp).put hsp⟩
    · intro f hf hren
      have hfe : f.content = .digest doc := by
        have : some f = _ := hf.symm
        simp only [Host.put_files_same, Option.some.injEq] at this
        rw [this]
      exact ⟨((h0.put htp).put htp).put hsp, by simp [hw, hren, Host.content?, hfe]⟩
    · rintro (hnone | hren)
      · simp at hnone
      · exact ⟨h0.put htp, by simp [hren, Host.content?]⟩
  · intro hw f
    exact ⟨h0.put htp, by simp [hw, Host.content?]⟩

/-- `backup.exists() && std::fs::copy(&backup, &target).is_ok()`. -/
def copyBack {ε : Type} (a : CopyAnswer) : Prog Host Event ε Bool := do
  match ← Prog.attempt (copyFile (.live .configBak) (.live .config) a ()) with
  | .ok () => pure true
  | .error () => pure false

/-- What copying `config.json.bak` back leaves: the backup in place, or `config.json` untouched or
torn. -/
structure CopiedBack (a : CopyAnswer) (h : Host) (copied : Bool) (t : Host) : Prop
    extends FilesOnly h t [.live .config] where
  outcome :
    (copied = true ∧ (h.content? .configBak).isSome = true ∧ a = .done ∧
      t.content? .config = h.content? .configBak) ∨
    (copied = false ∧ ((h.content? .configBak).isSome = false ∨ a ≠ .done) ∧
      (t.content? .config = h.content? .config ∨ t.content? .config = some .torn))

theorem copyBack_wp {ε : Type} (a : CopyAnswer) (h : Host) :
    Wp (copyBack a : Prog Host Event ε Bool) h
      (fun w t => w = .io ∧ FilesOnly h t [.live .config])
      fun r t => ∃ copied, r = .ok copied ∧ CopiedBack a h copied t := by
  have hcp : Path.live .config ∈ [Path.live .config] := by simp
  have h0 : FilesOnly h h [.live .config] := .refl _ _
  simp only [copyBack, wp_bind, wp_attempt]
  apply wp_copyFile
  · exact fun f => ⟨rfl, h0.put hcp⟩
  · intro f hf hdone
    refine wp_pure.mpr ⟨_, rfl, h0.put hcp, .inl ⟨rfl, ?_, hdone, ?_⟩⟩
    · simp [Host.content?, hf]
    · simp [Host.content?, hf]
  · intro hfail f hf
    refine wp_pure.mpr ⟨_, rfl, h0.put hcp, .inr ⟨rfl, ?_, ?_⟩⟩
    · refine hfail.imp (fun hnone => ?_) id
      simp [Host.content?, hnone]
    · rcases hf with rfl | ⟨m, rfl⟩
      · exact .inl (by simp [Host.content?])
      · exact .inr (by simp [Host.content?])

/-- Put `config.json.bak` back and restart sing-box on it; the result is whether both worked. -/
def recoverConfig {ε : Type} (a : RecoveryAnswers) : Prog Host Event ε Bool := do
  if ← copyBack a.copy then restartSingbox a.restart else pure false

/-- What an attempt to recover leaves: the backup in place and restarted into as far as the answer
goes, or `config.json` untouched or torn. -/
structure Recovery (a : RecoveryAnswers) (h : Host) (recovered : Bool) (t : Host) : Prop where
  same : SameExcept h t [.live .config]
  cached : t.cached = h.cached
  outcome :
    ((h.content? .configBak).isSome = true ∧ a.copy = .done ∧
      t.content? .config = h.content? .configBak ∧
      t.loaded = afterRestart a.restart (h.json? .configBak) h.loaded ∧
      recovered = ((h.json? .configBak).isSome && a.restart == .active)) ∨
    (((h.content? .configBak).isSome = false ∨ a.copy ≠ .done) ∧ recovered = false ∧
      t.loaded = h.loaded ∧
      (t.content? .config = h.content? .config ∨ t.content? .config = some .torn))

theorem recoverConfig_wp {ε : Type} (a : RecoveryAnswers) (h : Host) :
    Wp (recoverConfig a : Prog Host Event ε Bool) h
      (fun w t => w = .io ∧ SameExcept h t [.live .config] ∧ t.cached = h.cached)
      fun r t => ∃ recovered, r = .ok recovered ∧ Recovery a h recovered t := by
  simp only [recoverConfig, wp_bind]
  refine (copyBack_wp a.copy h).mono ?_ ?_
  · exact fun w t ht => ⟨ht.1, ht.2.toSameExcept, ht.2.cached⟩
  · rintro r s ⟨copied, rfl, hs⟩
    have hwith : ∀ d, SameExcept h { s with loaded := d } [.live .config] :=
      fun _ => ⟨hs.files, hs.umask, hs.binaryInstalled, hs.masqueradeDir⟩
    rcases hs.outcome with ⟨rfl, hbak, hdone, hconfig⟩ | ⟨rfl, hfail, hconfig⟩
    · have hjson : s.json? .config = h.json? .configBak := by simp [Host.json?, hconfig]
      simp only [if_true]
      apply wp_restartSingbox
      · exact fun d => ⟨rfl, hwith d, hs.cached⟩
      · rw [hjson, hs.loaded]
        exact ⟨_, rfl, hwith _, hs.cached, .inl ⟨hbak, hdone, hconfig, rfl, rfl⟩⟩
    · simp only [Bool.false_eq_true, if_false, wp_pure]
      exact ⟨_, rfl, hs.toSameExcept, hs.cached, .inr ⟨hfail, rfl, hs.loaded, hconfig⟩⟩

end Vpn1.Admin
