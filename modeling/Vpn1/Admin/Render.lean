import Vpn1.Admin.Apply

/-! `render_and_apply_singbox_config`: every way through it, with the state each leaves. -/

namespace Vpn1.Admin

open Compat Traced

inductive RenderError
  | keysetIncomplete (cause : LoadRealityError)
  | binaryMissing
  | serviceUnavailable
  | applying (cause : CompatError)
  | reloadFailed (recovered : Bool)
  | handshakeRejected (recovered : Bool)
  | stampNotRecorded
  deriving DecidableEq, Repr

/-- The self-test runs only with a binary and a user to test with; `none` is `NotRun`. -/
def verifyRealityHandshakeOrWarn (h : Host) (users : List CompatUser) (now : Int64)
    (outcome : Option RealitySelfTestOutcome) : Option RealitySelfTestOutcome :=
  if h.binaryInstalled && users.any (·.isActive now) then outcome else none

/-- The test of the shortcut: `config.json` and the stamp match, and sing-box is up. -/
def alreadyCurrent (h : Host) (doc : Json) (a : RenderAnswers) : Bool :=
  (a.readTarget && h.json? .config == some doc) &&
    (a.readStamp && h.content? .appliedStamp == some (.digest doc)) &&
    a.first.controllable && a.isActive

section

variable (site : Site) (inv : Invocation)

/-- Go back to the previous configuration and report whether that worked. -/
def fallBack (a : RecoveryAnswers) (e : Bool → RenderError) : Prog Host Event RenderError Bool := do
  let recovered ← recoverConfig a
  Prog.fail (e recovered)

/-- What follows the swap: reload, self-test, record; or the way back. -/
def loadApplied (users : List CompatUser) (doc : Json) (a : RenderAnswers) :
    Prog Host Event RenderError Bool := do
  if a.second.controllable then
    if ← restartSingbox a.restart then
      let verification ← Prog.look (verifyRealityHandshakeOrWarn · users a.selfTestNow a.selfTest)
      if verification = some .handshakeRejected then
        fallBack a.recovery .handshakeRejected
      else
        commitAppliedConfigStamp inv.pid doc a.stamp .stampNotRecorded
        Prog.mark (.wentLive users a)
        pure true
    else
      fallBack a.recovery .reloadFailed
  else pure false

/-- An error for a change that has to be live, and a warning otherwise. -/
def degrade (requireLiveApply : Bool) (e : RenderError) : Prog Host Event RenderError Bool :=
  if requireLiveApply && !inv.offline then Prog.fail e else pure false

def renderAndApplySingboxConfig (users : List CompatUser) (requireLiveApply : Bool)
    (a : RenderAnswers) : Prog Host Event RenderError Bool := do
  Prog.mark (.renderBegins users a)
  match ← Prog.look (candidateDoc site · users a) with
  | .error e => degrade inv requireLiveApply (.keysetIncomplete e)
  | .ok doc =>
    if ← Prog.look (·.binaryInstalled) then
      if requireLiveApply && !a.first.controllable && !inv.offline then
        Prog.fail .serviceUnavailable
      else if ← Prog.look (alreadyCurrent · doc a) then
        Prog.mark (.wentLive users a)
        pure true
      else
        Prog.mapError .applying (applyConfigAtomically inv.pid doc a.apply)
        loadApplied inv users doc a
    else degrade inv requireLiveApply .binaryMissing

end

/-- The call gets as far as the swap of `config.json` for `doc`. -/
structure Proceeds (site : Site) (inv : Invocation) (h : Host) (users : List CompatUser)
    (live : Bool) (a : RenderAnswers) (doc : Json) : Prop where
  candidate : candidateDoc site h users a = .ok doc
  binary : h.binaryInstalled = true
  controllable : live = true → inv.offline = false → a.first.controllable = true
  notCurrent : alreadyCurrent h doc a = false

def rejects (h : Host) (users : List CompatUser) (a : RenderAnswers) : Bool :=
  verifyRealityHandshakeOrWarn h users a.selfTestNow a.selfTest == some .handshakeRejected

/-- Every way a call returns from `h`. -/
inductive RenderPath (site : Site) (inv : Invocation) (h : Host) (users : List CompatUser)
    (live : Bool) (a : RenderAnswers) : Except RenderError Bool → Host → Prop
  | degraded (hwhy : (∃ c, candidateDoc site h users a = .error c) ∨
      h.binaryInstalled = false) (hlive : live = false ∨ inv.offline = true) :
      RenderPath site inv h users live a (.ok false) h
  | refused {e : RenderError} (hwhy : (∃ c, candidateDoc site h users a = .error c) ∨
      h.binaryInstalled = false ∨ a.first.controllable = false) (hlive : live = true)
      (honline : inv.offline = false) : RenderPath site inv h users live a (.error e) h
  | current {doc : Json} (hdoc : candidateDoc site h users a = .ok doc)
      (hbin : h.binaryInstalled = true) (hcurrent : alreadyCurrent h doc a = true) :
      RenderPath site inv h users live a (.ok true) h
  | notSwapped {doc : Json} {e : CompatError} {t : Host}
      (hp : Proceeds site inv h users live a doc)
      (happly : a.apply.succeeds (h.exists? .config) = false)
      (ht : FilesOnly h t (swapPaths inv.pid))
      (hconfig : t.files (.live .config) = h.files (.live .config)) :
      RenderPath site inv h users live a (.error (.applying e)) t
  | notReloaded {doc : Json} {t : Host} (hp : Proceeds site inv h users live a doc)
      (happly : a.apply.succeeds (h.exists? .config) = true)
      (ht : Swapped inv.pid h doc t) (hquery : a.second.controllable = false) :
      RenderPath site inv h users live a (.ok false) t
  | reloadFailed {doc : Json} {s t : Host} {recovered : Bool}
      (hp : Proceeds site inv h users live a doc)
      (happly : a.apply.succeeds (h.exists? .config) = true)
      (hs : Swapped inv.pid h doc s) (hquery : a.second.controllable = true)
      (hrestart : a.restart ≠ .active)
      (ht : Recovery a.recovery
        { s with loaded := afterRestart a.restart (some doc) h.loaded } recovered t) :
      RenderPath site inv h users live a (.error (.reloadFailed recovered)) t
  | rejected {doc : Json} {s t : Host} {recovered : Bool}
      (hp : Proceeds site inv h users live a doc)
      (happly : a.apply.succeeds (h.exists? .config) = true)
      (hs : Swapped inv.pid h doc s) (hquery : a.second.controllable = true)
      (hrestart : a.restart = .active) (hreject : rejects h users a = true)
      (ht : Recovery a.recovery { s with loaded := some doc } recovered t) :
      RenderPath site inv h users live a (.error (.handshakeRejected recovered)) t
  | stampFailed {doc : Json} {s t : Host} (hp : Proceeds site inv h users live a doc)
      (happly : a.apply.succeeds (h.exists? .config) = true)
      (hs : Swapped inv.pid h doc s) (hquery : a.second.controllable = true)
      (hrestart : a.restart = .active) (hreject : rejects h users a = false)
      (hstamp : (a.stamp.write == .done && a.stamp.rename) = false)
      (ht : FilesOnly { s with loaded := some doc } t (stampPaths inv.pid))
      (hold : t.content? .appliedStamp = s.content? .appliedStamp) :
      RenderPath site inv h users live a (.error .stampNotRecorded) t
  | wentLive {doc : Json} {s t : Host} (hp : Proceeds site inv h users live a doc)
      (happly : a.apply.succeeds (h.exists? .config) = true)
      (hs : Swapped inv.pid h doc s) (hquery : a.second.controllable = true)
      (hrestart : a.restart = .active) (hreject : rejects h users a = false)
      (hstamp : (a.stamp.write == .done && a.stamp.rename) = true)
      (ht : FilesOnly { s with loaded := some doc } t (stampPaths inv.pid))
      (hnew : t.content? .appliedStamp = some (.digest doc)) :
      RenderPath site inv h users live a (.ok true) t

def renderPaths (pid : Nat) : List Path := swapPaths pid ++ stampPaths pid

/-- What a call leaves alone at every point: all but the configuration and its siblings. -/
structure RenderFrame (pid : Nat) (h t : Host) : Prop where
  same : SameExcept h t (renderPaths pid)
  cached : t.cached = h.cached

theorem RenderFrame.refl (pid : Nat) (h : Host) : RenderFrame pid h h := ⟨.refl _ _, rfl⟩

theorem RenderFrame.of_filesOnly {pid : Nat} {h s t : Host} {ps : List Path}
    (hs : RenderFrame pid h s) (ht : FilesOnly s t ps) (hps : ∀ p ∈ ps, p ∈ renderPaths pid) :
    RenderFrame pid h t :=
  ⟨hs.same.trans (ht.toSameExcept.mono hps), ht.cached.trans hs.cached⟩

theorem RenderFrame.withLoaded {pid : Nat} {h s : Host} (hs : RenderFrame pid h s)
    (d : Option Json) : RenderFrame pid h { s with loaded := d } :=
  ⟨⟨hs.same.files, hs.same.umask, hs.same.binaryInstalled, hs.same.masqueradeDir⟩, hs.cached⟩

theorem swapPaths_subset (pid : Nat) : ∀ p ∈ swapPaths pid, p ∈ renderPaths pid := by
  intro p hp
  simp [renderPaths, hp]

theorem stampPaths_subset (pid : Nat) : ∀ p ∈ stampPaths pid, p ∈ renderPaths pid := by
  intro p hp
  simp [renderPaths, hp]

theorem Swapped.frame {pid : Nat} {h t : Host} {doc : Json} (ht : Swapped pid h doc t) :
    RenderFrame pid h t :=
  (RenderFrame.refl pid h).of_filesOnly ht.toFilesOnly (swapPaths_subset pid)

theorem Recovery.frame {pid : Nat} {h s t : Host} {a : RecoveryAnswers} {b : Bool}
    (hs : RenderFrame pid h s) (ht : Recovery a s b t) : RenderFrame pid h t := by
  refine ⟨hs.same.trans (ht.same.mono fun p hp => ?_), ht.cached.trans hs.cached⟩
  simp only [List.mem_singleton] at hp
  simp [hp, renderPaths, swapPaths]

/-- However a call returns, it has written nothing but the configuration and its siblings. -/
theorem RenderPath.frame {site : Site} {inv : Invocation} {h t : Host} {users : List CompatUser}
    {live : Bool} {a : RenderAnswers} {r : Except RenderError Bool}
    (hr : RenderPath site inv h users live a r t) : RenderFrame inv.pid h t := by
  cases hr with
  | degraded => exact .refl _ _
  | refused => exact .refl _ _
  | current => exact .refl _ _
  | notSwapped _ _ ht => exact (RenderFrame.refl _ h).of_filesOnly ht (swapPaths_subset _)
  | notReloaded _ _ ht => exact ht.frame
  | reloadFailed _ _ hs _ _ ht => exact ht.frame (hs.frame.withLoaded _)
  | rejected _ _ hs _ _ _ ht => exact ht.frame (hs.frame.withLoaded _)
  | stampFailed _ _ hs _ _ _ _ ht =>
    exact (hs.frame.withLoaded _).of_filesOnly ht (stampPaths_subset _)
  | wentLive _ _ hs _ _ _ _ ht =>
    exact (hs.frame.withLoaded _).of_filesOnly ht (stampPaths_subset _)

theorem RenderFrame.keepsMaterial {pid : Nat} {h t : Host} (ht : RenderFrame pid h t) :
    KeepsMaterial h t :=
  ht.same.keepsMaterial (by simp [renderPaths, swapPaths, stampPaths])
    (by simp [renderPaths, swapPaths, stampPaths]) (by simp [renderPaths, swapPaths, stampPaths])
    (by simp [renderPaths, swapPaths, stampPaths])

def RenderPoint (site : Site) (inv : Invocation) (h : Host) (users : List CompatUser) (live : Bool)
    (a : RenderAnswers) : Event → Host → Prop
  | .io, _ => True
  | .renderBegins us b, t => us = users ∧ b = a ∧ t = h
  | .wentLive us b, t => us = users ∧ b = a ∧ RenderPath site inv h users live a (.ok true) t
  | _, _ => False

section Run

variable {site : Site} {inv : Invocation} {h s : Host} {users : List CompatUser} {live : Bool}
  {a : RenderAnswers} {doc : Json}

theorem fallBack_wp {e : Bool → RenderError} {b : RecoveryAnswers} (hs : RenderFrame inv.pid h s) :
    Wp (fallBack b e) s (fun w t => w = .io ∧ RenderFrame inv.pid h t) fun r t =>
      ∃ recovered, r = .error (e recovered) ∧ Recovery b s recovered t := by
  simp only [fallBack, wp_bind]
  refine (recoverConfig_wp b s).mono ?_ ?_
  · rintro w t ⟨rfl, ht, hc⟩
    refine ⟨rfl, hs.same.trans (ht.mono fun p hp => ?_), hc.trans hs.cached⟩
    simp only [List.mem_singleton] at hp
    simp [hp, renderPaths, swapPaths]
  · rintro r t ⟨recovered, rfl, ht⟩
    exact wp_fail.mpr ⟨recovered, rfl, ht⟩

theorem loadApplied_wp (hp : Proceeds site inv h users live a doc)
    (happly : a.apply.succeeds (h.exists? .config) = true) (hs : Swapped inv.pid h doc s) :
    Wp (loadApplied inv users doc a) s
      (fun w t => RenderFrame inv.pid h t ∧ RenderPoint site inv h users live a w t)
      (RenderPath site inv h users live a) := by
  have hjson : s.json? .config = some doc := by simp [Host.json?, hs.config, Content.json?]
  have hio : ∀ w t, w = Event.io ∧ RenderFrame inv.pid h t →
      RenderFrame inv.pid h t ∧ RenderPoint site inv h users live a w t := by
    rintro w t ⟨rfl, ht⟩
    exact ⟨ht, trivial⟩
  simp only [loadApplied]
  cases hq : a.second.controllable with
  | false => simpa using .notReloaded hp happly hs hq
  | true =>
    simp only [if_true, wp_bind]
    -- a failed reload goes back to the backup, whatever it left running
    have hback : a.restart ≠ .active →
        Wp (fallBack a.recovery .reloadFailed)
          { s with loaded := afterRestart a.restart (some doc) h.loaded }
          (fun w t => RenderFrame inv.pid h t ∧ RenderPoint site inv h users live a w t)
          (RenderPath site inv h users live a) := by
      intro hrestart
      refine (fallBack_wp (hs.frame.withLoaded _)).mono hio ?_
      rintro r t ⟨recovered, rfl, ht⟩
      exact .reloadFailed hp happly hs hq hrestart ht
    apply wp_restartSingbox
    · exact fun d => ⟨hs.frame.withLoaded d, trivial⟩
    · rw [hjson, hs.loaded, Option.isSome_some, Bool.true_and]
      by_cases hr : a.restart = .active
      · rw [hr]
        simp only [beq_self_eq_true, if_true, wp_bind, wp_look, afterRestart_active]
        have hver : verifyRealityHandshakeOrWarn { s with loaded := some doc } users a.selfTestNow
            a.selfTest = verifyRealityHandshakeOrWarn h users a.selfTestNow a.selfTest := by
          simp only [verifyRealityHandshakeOrWarn, hs.binaryInstalled]
        rw [hver]
        split_ifs with hrej
        · refine (fallBack_wp (hs.frame.withLoaded _)).mono hio ?_
          rintro r t ⟨recovered, rfl, ht⟩
          exact .rejected hp happly hs hq hr (by simp [rejects, hrej]) ht
        · have hreject : rejects h users a = false := by simp [rejects, hrej]
          simp only [wp_bind]
          refine (commitAppliedConfigStamp_wp inv.pid doc a.stamp _ _).mono ?_ ?_
          · rintro w t ⟨rfl, ht⟩
            exact ⟨(hs.frame.withLoaded _).of_filesOnly ht (stampPaths_subset _), trivial⟩
          · rintro r t ⟨ht, hstamped⟩
            split_ifs at hstamped with hstamp
            · obtain ⟨rfl, hnew⟩ := hstamped
              have hpath : RenderPath site inv h users live a (.ok true) t :=
                .wentLive hp happly hs hq hr hreject hstamp ht hnew
              simpa using ⟨⟨hpath.frame, rfl, rfl, hpath⟩, hpath⟩
            · obtain ⟨rfl, hold⟩ := hstamped
              exact .stampFailed hp happly hs hq hr hreject (by simpa using hstamp) ht hold
      · rw [beq_false_of_ne hr]
        exact hback hr

/-- Every call returns along one of the paths, and its labels say what they should. -/
theorem renderAndApply_wp (site : Site) (inv : Invocation) (h : Host) (users : List CompatUser)
    (live : Bool) (a : RenderAnswers) :
    Wp (renderAndApplySingboxConfig site inv users live a) h
      (fun w t => RenderFrame inv.pid h t ∧ RenderPoint site inv h users live a w t)
      (RenderPath site inv h users live a) := by
  have hdegrade : ∀ e, ((∃ c, candidateDoc site h users a = .error c) ∨
      h.binaryInstalled = false) →
      Wp (degrade inv live e) h
        (fun w t => RenderFrame inv.pid h t ∧ RenderPoint site inv h users live a w t)
        (RenderPath site inv h users live a) := by
    intro e hwhy
    simp only [degrade]
    split_ifs with hl
    · simp only [Bool.and_eq_true, Bool.not_eq_true'] at hl
      exact wp_fail.mpr (.refused (hwhy.imp id .inl) hl.1 hl.2)
    · refine wp_pure.mpr (.degraded hwhy ?_)
      cases live <;> cases ho : inv.offline <;> simp_all
  simp only [renderAndApplySingboxConfig, wp_bind, wp_mark, wp_look]
  refine ⟨⟨.refl _ _, rfl, rfl, rfl⟩, ?_⟩
  cases hdoc : candidateDoc site h users a with
  | error e => exact hdegrade _ (.inl ⟨e, hdoc⟩)
  | ok doc =>
    simp only [wp_bind, wp_look]
    cases hbin : h.binaryInstalled with
    | false => simpa using hdegrade _ (.inr hbin)
    | true =>
      simp only [if_true]
      split_ifs with hguard
      · simp only [Bool.and_eq_true, Bool.not_eq_true'] at hguard
        exact wp_fail.mpr (.refused (.inr (.inr hguard.1.2)) hguard.1.1 hguard.2)
      · simp only [wp_bind, wp_look]
        cases hcur : alreadyCurrent h doc a with
        | true =>
          have hpath : RenderPath site inv h users live a (.ok true) h := .current hdoc hbin hcur
          simpa using ⟨⟨.refl _ _, rfl, rfl, hpath⟩, hpath⟩
        | false =>
          have hp : Proceeds site inv h users live a doc := by
            refine ⟨hdoc, hbin, fun hlive honline => ?_, hcur⟩
            simpa [hlive, honline] using hguard
          simp only [Bool.false_eq_true, if_false, wp_bind, wp_mapError]
          refine (applyConfigAtomically_wp inv.pid doc a.apply h).mono ?_ ?_
          · rintro w t ⟨rfl, ht⟩
            exact ⟨(RenderFrame.refl _ h).of_filesOnly ht (swapPaths_subset _), trivial⟩
          · intro r t hr
            split_ifs at hr with happly
            · obtain ⟨rfl, hs⟩ := hr
              simpa [Except.mapError] using loadApplied_wp hp happly hs
            · obtain ⟨⟨e, rfl⟩, ht, hconfig⟩ := hr
              exact .notSwapped hp (by simpa using happly) ht hconfig

end Run

section Determined

variable {site : Site} {inv : Invocation} {h t : Host} {users : List CompatUser} {live : Bool}
  {a : RenderAnswers} {doc : Json} {r : Except RenderError Bool}

theorem Proceeds.doc_unique {doc' : Json} (hp : Proceeds site inv h users live a doc)
    (hdoc : candidateDoc site h users a = .ok doc') : doc' = doc := by
  have := hp.candidate
  rw [hdoc] at this
  exact Except.ok.inj this

theorem alreadyCurrent_controllable (hcur : alreadyCurrent h doc a = true) :
    a.first.controllable = true := by
  simp only [alreadyCurrent, Bool.and_eq_true] at hcur
  exact hcur.1.2

theorem alreadyCurrent_config (hcur : alreadyCurrent h doc a = true) :
    h.json? .config = some doc := by
  simp only [alreadyCurrent, Bool.and_eq_true, beq_iff_eq] at hcur
  exact hcur.1.1.1.2

theorem alreadyCurrent_stamp (hcur : alreadyCurrent h doc a = true) :
    h.content? .appliedStamp = some (.digest doc) := by
  simp only [alreadyCurrent, Bool.and_eq_true, beq_iff_eq] at hcur
  exact hcur.1.1.2.2

/-- The shortcut, once its test passes, is the only way through. -/
theorem RenderPath.of_current (hr : RenderPath site inv h users live a r t)
    (hdoc : candidateDoc site h users a = .ok doc) (hbin : h.binaryInstalled = true)
    (hcur : alreadyCurrent h doc a = true) : r = .ok true ∧ t = h := by
  have hnot : ∀ doc', Proceeds site inv h users live a doc' → False := by
    intro doc' hp
    obtain rfl := hp.doc_unique hdoc
    simpa [hcur] using hp.notCurrent
  cases hr with
  | degraded hwhy => simp [hdoc, hbin] at hwhy
  | refused hwhy => simp [hdoc, hbin, alreadyCurrent_controllable hcur] at hwhy
  | current => exact ⟨rfl, rfl⟩
  | notSwapped hp => exact (hnot _ hp).elim
  | notReloaded hp => exact (hnot _ hp).elim
  | reloadFailed hp => exact (hnot _ hp).elim
  | rejected hp => exact (hnot _ hp).elim
  | stampFailed hp => exact (hnot _ hp).elim
  | wentLive hp => exact (hnot _ hp).elim

/-- Once the swap is made, the answers after it decide how the call returns. -/
theorem RenderPath.of_swap (hr : RenderPath site inv h users live a r t)
    (hp : Proceeds site inv h users live a doc)
    (happly : a.apply.succeeds (h.exists? .config) = true) :
    (a.second.controllable = false → r = .ok false ∧ Swapped inv.pid h doc t) ∧
    (a.second.controllable = true → a.restart = .active → rejects h users a = false →
      (a.stamp.write == .done && a.stamp.rename) = false →
      r = .error .stampNotRecorded ∧ t.content? .config = some (.json doc)) := by
  cases hr with
  | degraded hwhy => simp [hp.candidate, hp.binary] at hwhy
  | refused hwhy hlive honline =>
    simp [hp.candidate, hp.binary, hp.controllable hlive honline] at hwhy
  | current hdoc _ hcur =>
    obtain rfl := hp.doc_unique hdoc
    simp [hp.notCurrent] at hcur
  | notSwapped _ hfail => simp [happly] at hfail
  | notReloaded hp' _ ht hq =>
    obtain rfl := hp.doc_unique hp'.candidate
    exact ⟨fun _ => ⟨rfl, ht⟩, fun hq' => by simp [hq] at hq'⟩
  | reloadFailed _ _ _ hq hrestart =>
    exact ⟨fun hq' => by simp [hq] at hq', fun _ hactive => absurd hactive hrestart⟩
  | rejected _ _ _ hq _ hreject =>
    exact ⟨fun hq' => by simp [hq] at hq', fun _ _ hno => by simp [hreject] at hno⟩
  | stampFailed hp' _ hs hq _ _ _ ht =>
    obtain rfl := hp.doc_unique hp'.candidate
    refine ⟨fun hq' => by simp [hq] at hq', fun _ _ _ _ => ⟨rfl, ?_⟩⟩
    rw [ht.content? (by simp [stampPaths])]
    exact hs.config
  | wentLive _ _ _ hq _ _ hstamp =>
    exact ⟨fun hq' => by simp [hq] at hq', fun _ _ _ hfail => by simp [hstamp] at hfail⟩

end Determined

end Vpn1.Admin
