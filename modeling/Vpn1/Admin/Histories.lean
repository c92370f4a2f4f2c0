import Vpn1.Admin.RotateAtomicity
import Vpn1.Admin.Restore

/-! Commands run one after the other, and what "went live" is worth in such a history. The shortcut
of `render_and_apply_singbox_config` trusts `config.json` and the stamp beside it, so sing-box has to
have loaded `config.json` whenever the stamp names it. -/

namespace Vpn1.Admin

open Compat Traced

section Commands

inductive Outcome
  | ok
  | rolledBack
  | failed
  deriving DecidableEq, Repr

/-- The commands that read or write the authorization of a host, with what they were answered. -/
inductive Command
  | init (rotate : Bool) (a : InitAnswers)
  | hysteriaObfsRotate (a : ObfsRotateAnswers)
  | restore (archive : Archive) (a : RestoreAnswers)
  | renderConfig (requireApplied : Bool) (a : RegenerateAnswers)
  | configMigrate (a : MigrateAnswers)
  | user (cmd : UserCommand) (a : UserAnswers)
  | userRotateToken (id tokenHash : String) (readUsers : Bool) (a : SaveAnswers)

/-- The message says that the previous configuration is live again. -/
def RenderError.rolledBack : RenderError → Bool
  | .reloadFailed recovered => recovered
  | .handshakeRejected recovered => recovered
  | _ => false

def UserError.rolledBack : UserError → Bool
  | .render e => e.rolledBack
  | .notCommitted _ restored => restored
  | _ => false

def RotateError.rolledBackWhole (e : RotateError) : Bool := e.report?.any RollbackReport.restored

def RestoreError.rolledBackWhole (e : RestoreError) : Bool := e.recovered? == some true

/-- What a result amounts to, `reports` telling the errors of a whole rollback apart. -/
def Outcome.of {ε α : Type} (reports : ε → Bool) : Except ε α → Outcome
  | .ok _ => .ok
  | .error e => if reports e then .rolledBack else .failed

theorem Outcome.of_error_ne_failed {ε α : Type} {reports : ε → Bool} {e : ε} :
    Outcome.of reports (.error e : Except ε α) ≠ .failed ↔ reports e = true := by
  cases hr : reports e <;> simp [Outcome.of, hr]

/-- Run a command to its end and keep what its message says about it. -/
def outcome {ε α : Type} (reports : ε → Bool) (p : Prog Host Event ε α) :
    Prog Host Event Empty Outcome := do
  let r ← Prog.attempt p
  pure (.of reports r)

@[simp] theorem wp_outcome {ε α : Type} {reports : ε → Bool} {p : Prog Host Event ε α} {h : Host}
    {G : Event → Host → Prop} {Q : Except Empty Outcome → Host → Prop} :
    Wp (outcome reports p) h G Q ↔ Wp p h G (fun r t => Q (.ok (.of reports r)) t) := by
  simp [outcome]

variable (site : Site) (inv : Invocation)

def Command.run : Command → Prog Host Event Empty Outcome
  | .init rotate a => outcome RotateError.rolledBackWhole (cmdInit site inv rotate a)
  | .hysteriaObfsRotate a => outcome RotateError.rolledBackWhole (cmdHysteriaObfsRotate site inv a)
  | .restore archive a => outcome RestoreError.rolledBackWhole (cmdRestore site inv archive a)
  | .renderConfig requireApplied a =>
    outcome UserError.rolledBack (cmdRenderConfig site inv requireApplied a)
  | .configMigrate a => outcome UserError.rolledBack (cmdConfigMigrate site inv a)
  | .user cmd a => outcome UserError.rolledBack (userCommand site inv cmd a)
  | .userRotateToken id tokenHash readUsers a =>
    outcome UserError.rolledBack (cmdUserRotateToken inv id tokenHash readUsers a)

/-- The hosts that commands leave behind, run one after the other where `may` allows it. -/
inductive Reached (may : Invocation → Host → Command → Prop) (first : Host) : Host → Prop
  | start : Reached may first first
  | ran {h : Host} (before : Reached may first h) (inv : Invocation) (cmd : Command)
      (hmay : may inv h cmd) : Reached may first (cmd.run site inv h).final

variable {site}

/-- What holds first and after every command that may be run holds in every history. -/
theorem Reached.invariant {may : Invocation → Host → Command → Prop} {first h : Host}
    {I : Host → Prop} (hrun : Reached site may first h) (hfirst : I first)
    (hstep : ∀ inv h cmd, I h → may inv h cmd → I (cmd.run site inv h).final) : I h := by
  induction hrun with
  | start => exact hfirst
  | ran before inv cmd hmay ih => exact hstep inv _ cmd ih hmay

end Commands

section Stamp

/-- If the stamp names `doc`, then `l` is what it stands for. -/
def Host.Vouches (h : Host) (doc : Json) (l : Option Json) : Prop :=
  h.content? .appliedStamp = some (.digest doc) → l = some doc

/-- sing-box has loaded `config.json`, if the stamp names it. -/
def StampTrue (h : Host) : Prop := ∀ doc, h.json? .config = some doc → h.Vouches doc h.loaded

def Host.keptDoc (h : Host) : Option Json := h.keptConfig.bind Content.json?

/-- A swap of `config.json` for `doc` leaves nothing in place that the stamp names and sing-box has
not loaded: neither `doc` itself, where no reload `loads` it, nor the document before it, where the
way `back` is taken and its restart does not take effect. -/
structure SwapSettles (h : Host) (doc : Json) (loads back recovers : Bool) : Prop where
  forward : loads = false → h.Vouches doc h.loaded
  back : back = true → recovers = false → ∀ old ∈ h.keptDoc,
    h.Vouches old (if loads then some doc else h.loaded)

instance (h : Host) (doc : Json) (l : Option Json) : Decidable (h.Vouches doc l) :=
  inferInstanceAs (Decidable (_ → _))

instance (h : Host) (doc : Json) (loads back recovers : Bool) :
    Decidable (SwapSettles h doc loads back recovers) :=
  decidable_of_iff ((loads = false → h.Vouches doc h.loaded) ∧
      (back = true → recovers = false → ∀ old ∈ h.keptDoc,
        h.Vouches old (if loads then some doc else h.loaded)))
    ⟨fun hs => ⟨hs.1, hs.2⟩, fun hs => ⟨hs.forward, hs.back⟩⟩

theorem stampTrue_of_loaded {h : Host} (hl : h.loaded = h.json? .config) : StampTrue h :=
  fun _ hconfig _ => hl.trans hconfig

theorem StampTrue.of_sameExcept {h t : Host} {ps : List Path} (hs : StampTrue h)
    (ht : SameExcept h t ps) (hconfig : Path.live .config ∉ ps)
    (hstamp : Path.live .appliedStamp ∉ ps) (hl : t.loaded = h.loaded) : StampTrue t := by
  intro doc hdoc hv
  rw [ht.json? hconfig] at hdoc
  rw [ht.content? hstamp] at hv
  rw [hl]
  exact hs doc hdoc hv

namespace SwapSettles

variable {h t : Host} {doc : Json} {loads back recovers : Bool}
  (hset : SwapSettles h doc loads back recovers)
  (hstamp : t.content? .appliedStamp = h.content? .appliedStamp)

include hset hstamp

/-- With the new document left in place, or torn. -/
theorem kept (hconfig : t.content? .config = some (.json doc) ∨ t.content? .config = some .torn)
    (hl : t.loaded = if loads then some doc else h.loaded) : StampTrue t := by
  intro doc' hdoc hv
  rw [hstamp] at hv
  have hnew : t.content? .config = some (.json doc') := Host.content?_of_json? hdoc
  rcases hconfig with hconfig | hconfig
  · obtain rfl : doc' = doc := by simpa [hconfig] using hnew.symm
    rw [hl]
    cases hloads : loads with
    | true => simp
    | false => simpa [hloads] using hset.forward hloads hv
  · simp [hconfig] at hnew

private theorem putBack (hback : back = true) (hconfig : t.content? .config = h.keptConfig)
    (hl : t.loaded = if recovers then t.json? .config else if loads then some doc else h.loaded) :
    StampTrue t := by
  cases hrec : recovers with
  | true => exact stampTrue_of_loaded (by simpa [hrec] using hl)
  | false =>
    intro old hold hv
    rw [hstamp] at hv
    have hkept : old ∈ h.keptDoc := by
      rw [Host.keptDoc, ← hconfig]
      exact hold
    rw [hl, hrec, if_neg (by simp)]
    exact hset.back hback hrec old hkept hv

end SwapSettles

/-- A call that swaps `config.json` settles it. -/
def CallSettles (site : Site) : Event → Host → Prop
  | .renderBegins users a, h => ∀ doc ∈ (candidateDoc site h users a).toOption,
    alreadyCurrent h doc a = false → a.apply.succeeds (h.exists? .config) = true →
    SwapSettles h doc (a.second.controllable && a.restart.restarts)
      (a.second.controllable && (a.restart != .active || rejects h users a))
      a.recovery.restart.restarts
  | _, _ => True

instance (site : Site) : ∀ w h, Decidable (CallSettles site w h)
  | .renderBegins _ _, _ => inferInstanceAs (Decidable (∀ doc ∈ _, _ → _ → _))
  | .io, _ => isTrue trivial
  | .wentLive _ _, _ => isTrue trivial
  | .rotateBegins _, _ => isTrue trivial
  | .obfsRotateBegins _, _ => isTrue trivial

/-- What is reported as live is loaded: the document of these users and of the keys of the host. -/
def Truthful (site : Site) : Event → Host → Prop
  | .wentLive users a, t => ∃ doc, candidateDoc site t users a = .ok doc ∧ t.loaded = some doc
  | _, _ => True

theorem eq_ok_of_toOption {ε α : Type} {x : Except ε α} {a : α} (hx : x.toOption = some a) :
    x = .ok a := by
  cases x <;> simp_all [Except.toOption]

instance (site : Site) : ∀ w t, Decidable (Truthful site w t)
  | .wentLive users a, t =>
    decidable_of_iff (∃ doc ∈ (candidateDoc site t users a).toOption, t.loaded = some doc) <| by
      constructor
      · rintro ⟨doc, hdoc, hl⟩
        exact ⟨doc, eq_ok_of_toOption hdoc, hl⟩
      · rintro ⟨doc, hdoc, hl⟩
        exact ⟨doc, by simp [hdoc, Except.toOption], hl⟩
  | .io, _ => isTrue trivial
  | .renderBegins _ _, _ => isTrue trivial
  | .rotateBegins _, _ => isTrue trivial
  | .obfsRotateBegins _, _ => isTrue trivial

end Stamp

section Calls

variable {site : Site} {inv : Invocation} {h t : Host} {users : List CompatUser} {live : Bool}
  {a : RenderAnswers}

/-- A call that returns `Ok(true)` has its document loaded, if the stamp could be trusted. -/
theorem RenderPath.truthful (hs : StampTrue h)
    (hr : RenderPath site inv h users live a (.ok true) t) :
    ∃ doc, candidateDoc site t users a = .ok doc ∧ t.loaded = some doc := by
  have hcand : candidateDoc site t users a = candidateDoc site h users a :=
    hr.frame.keepsMaterial.candidateDoc users a
  cases hr with
  | current hdoc _ hcur =>
    exact ⟨_, hdoc, hs _ (alreadyCurrent_config hcur) (alreadyCurrent_stamp hcur)⟩
  | wentLive hp _ hswap _ _ _ _ ht => exact ⟨_, hcand.trans hp.candidate, ht.loaded⟩

theorem Swapped.stamp {pid : Nat} {doc : Json} (ht : Swapped pid h doc t) :
    t.content? .appliedStamp = h.content? .appliedStamp :=
  ht.content? (by simp [swapPaths])

theorem Swapped.config_json {pid : Nat} {doc : Json} (ht : Swapped pid h doc t) :
    t.json? .config = some doc := by
  simp [Host.json?, ht.config, Content.json?]

theorem Recovery.stampTrue {s : Host} {doc : Json} {b : RecoveryAnswers} {recovered loads : Bool}
    {pid : Nat} (hset : SwapSettles h doc loads true b.restart.restarts)
    (hs : Swapped pid h doc s) {l : Option Json} (hl : l = if loads then some doc else h.loaded)
    (ht : Recovery b { s with loaded := l } recovered t) : StampTrue t := by
  have hstamp : t.content? .appliedStamp = h.content? .appliedStamp :=
    (ht.same.content? (by simp)).trans hs.stamp
  rcases ht.outcome with ⟨-, -, hconfig, hloaded, -⟩ | ⟨-, -, hloaded, hconfig⟩
  · have hkept : t.content? .config = h.keptConfig := hconfig.trans hs.bak
    have hjson : t.json? .config = s.json? .configBak := by
      simp only [Host.json?, hconfig]
      rfl
    refine hset.putBack hstamp rfl hkept ?_
    rw [hloaded, hjson, ← hl]
    rfl
  · refine hset.kept hstamp ?_ (hloaded.trans hl)
    exact hconfig.imp (fun hsame => hsame.trans hs.config) id

theorem RenderPath.stampTrue {r : Except RenderError Bool} (hs : StampTrue h)
    (hset : CallSettles site (.renderBegins users a) h)
    (hr : RenderPath site inv h users live a r t) : StampTrue t := by
  have hsettles : ∀ {doc}, Proceeds site inv h users live a doc →
      a.apply.succeeds (h.exists? .config) = true →
      SwapSettles h doc (a.second.controllable && a.restart.restarts)
        (a.second.controllable && (a.restart != .active || rejects h users a))
        a.recovery.restart.restarts := by
    intro doc hp happly
    exact hset doc (by simp [hp.candidate, Except.toOption]) hp.notCurrent happly
  have hloads : ∀ doc : Json, a.second.controllable = true →
      afterRestart a.restart (some doc) h.loaded =
        if a.second.controllable && a.restart.restarts then some doc else h.loaded := by
    intro doc hq
    simp [afterRestart, hq]
  cases hr with
  | degraded => exact hs
  | refused => exact hs
  | current => exact hs
  | notSwapped _ _ ht hconfig =>
    intro doc hdoc hv
    rw [ht.content? (by simp [swapPaths])] at hv
    rw [ht.loaded]
    refine hs doc ?_ hv
    rwa [Host.json?, Host.content?, hconfig] at hdoc
  | notReloaded hp happly ht hq =>
    exact (hsettles hp happly).kept ht.stamp (.inl ht.config) (by simp [hq, ht.loaded])
  | reloadFailed hp happly hswap hq hrestart ht =>
    have hback := hsettles hp happly
    rw [show (a.second.controllable && (a.restart != .active || rejects h users a)) = true by
      simp [hq, hrestart]] at hback
    exact ht.stampTrue hback hswap (hloads _ hq)
  | rejected hp happly hswap hq hrestart hreject ht =>
    have hback := hsettles hp happly
    rw [show (a.second.controllable && (a.restart != .active || rejects h users a)) = true by
      simp [hq, hreject]] at hback
    exact ht.stampTrue hback hswap (by simp [hq, hrestart, RestartAnswer.restarts])
  | stampFailed _ _ hswap _ _ _ _ ht =>
    apply stampTrue_of_loaded
    rw [ht.loaded, ht.json? (by simp [stampPaths])]
    exact hswap.config_json.symm
  | wentLive _ _ hswap _ _ _ _ ht =>
    apply stampTrue_of_loaded
    rw [ht.loaded, ht.json? (by simp [stampPaths])]
    exact hswap.config_json.symm

end Calls

section Rotations

variable {pid : Nat} {targets : List StateFile} {plan : Option RotatePlan} {swap : Bool}
  {live : LiveAnswers} {a : RollbackAnswers} {h s t : Host}

def RollbackAnswers.reloads (a : RollbackAnswers) : Bool :=
  a.singbox.controllable && a.singboxRestart.restarts

def rollsBack : Except RotateError Unit → Bool
  | .error e => e.report?.isSome
  | .ok _ => false

theorem RolledBack.loaded_eq {entries : List (StateFile × Bool)} {applied : Bool}
    {report : RollbackReport} (ht : RolledBack entries applied a h s report t) :
    t.loaded = if a.reloads then t.json? .config else s.loaded := by
  rw [ht.loaded, RollbackAnswers.reloads]
  cases a.singbox.controllable <;> rfl

theorem RotatePath.stampTrue {r : Except RotateError Unit} (hrot : Rotatable targets)
    (htargets : ∀ p, plan = some p → p.targets = targets) (hh : StampTrue h)
    (hset : ∀ p ∈ plan, swap = true → SwapSettles h p.doc live.loadsNew (rollsBack r) a.reloads)
    (hr : RotatePath pid targets plan swap live a h r t) : StampTrue t := by
  have hstamp : ∀ {p : RotatePlan} {r : Except RotateStage Unit} {s : Host}, plan = some p →
      Advanced pid p swap live h r s → s.content? .appliedStamp = h.content? .appliedStamp := by
    intro p r s hp hs
    obtain rfl := htargets p hp
    refine hs.same.content? ?_
    simp [rotatePaths, swapPaths, transactionPaths, hrot.appliedStamp]
  cases hr with
  | untouched he ht =>
    exact hh.of_sameExcept ht.toSameExcept (live_not_mem_transactionPaths hrot.config (by simp))
      (live_not_mem_transactionPaths hrot.appliedStamp (by simp)) ht.loaded
  | @committed p s _ hplan hs ht =>
    obtain ⟨rfl, -, -⟩ := hs.ok rfl
    refine (hset p hplan rfl).kept ?_ (.inl ?_) ?_
    · rw [ht.content? (by simp [bakPaths]), hstamp hplan hs]
    · rw [ht.content? (by simp [bakPaths])]
      exact (hs.swapped rfl).1
    · rw [ht.loaded, hs.loaded, Bool.true_and]
  | @rolledBack p stage report entries s _ hplan hs hentries ht =>
    have hstampBack : t.content? .appliedStamp = h.content? .appliedStamp := by
      rw [ht.same.content? ?_, hstamp hplan hs]
      simp [restorePaths, hentries, hrot.appliedStamp]
    have hstage := hs.stage stage rfl
    have hloaded := ht.loaded_eq
    cases hswap : swap with
    | false =>
      rw [hswap] at hs hstage
      -- nothing was swapped: `config.json` is as it was, and restarted into or not
      cases hre : a.reloads with
      | true => exact stampTrue_of_loaded (by simpa [hre] using hloaded)
      | false =>
        intro doc hdoc hv
        rw [hstampBack] at hv
        have hconfig := (ht.notApplied hstage).trans (hs.notSwapped rfl)
        rw [hloaded, hre, if_neg (by simp), hs.loaded, Bool.false_and, if_neg (by simp)]
        refine hh doc ?_ hv
        rwa [Host.json?, hconfig] at hdoc
    | true =>
      rw [hswap] at hs hstage
      have hsettles := hset p hplan hswap
      have hadvanced : s.loaded = if live.loadsNew then some p.doc else h.loaded := by
        rw [hs.loaded, Bool.true_and]
      obtain ⟨hconfig, hbak, -⟩ := hs.swapped rfl
      rcases ht.applied hstage with ⟨-, -, hback⟩ | ⟨-, -, hleft⟩
      · exact hsettles.putBack hstampBack rfl (hback.trans hbak) (by rw [hloaded, hadvanced])
      · cases hre : a.reloads with
        | true => exact stampTrue_of_loaded (by simpa [hre] using hloaded)
        | false =>
          refine hsettles.kept hstampBack (hleft.imp (fun hsame => hsame.trans hconfig) id) ?_
          rw [hloaded, hre, if_neg (by simp), hadvanced]

end Rotations

section Keeping

variable {ε : Type} (site : Site) (inv : Invocation)

/-- A program that keeps the stamp trusted and reports nothing as live that is not, as long as the
swaps it makes settle. -/
abbrev KeepsStamp {α : Type} (p : Prog Host Event ε α) : Prop :=
  Keeps (CallSettles site) StampTrue (Truthful site) p

variable {site}

theorem keepsStamp_of_filesOnly {α : Type} {p : Prog Host Event ε α} (ps : List Path)
    (hconfig : Path.live .config ∉ ps) (hstamp : Path.live .appliedStamp ∉ ps)
    (hp : ∀ s, Wp p s (fun w _ => w = .io) fun _ t => FilesOnly s t ps) : KeepsStamp site p := by
  refine .of_wp fun s hs => (hp s).mono ?_ fun _ t ht => ?_
  · rintro w t rfl
    trivial
  · exact hs.of_sameExcept ht.toSameExcept hconfig hstamp ht.loaded

theorem keepsStamp_require (ok : Bool) (e : ε) : KeepsStamp site (require ok e) := by
  cases ok with
  | true => exact .pure _
  | false => exact .fail _

variable (site)

theorem keepsStamp_render (users : List CompatUser) (live : Bool) (a : RenderAnswers) :
    KeepsStamp site (renderAndApplySingboxConfig site inv users live a) := by
  intro h hh hR
  have hset : CallSettles site (.renderBegins users a) h := hR _ (mem_trail_mark _ _ h)
  refine (renderAndApply_wp site inv h users live a).mono ?_ fun r t hr => hr.stampTrue hh hset
  rintro w t ⟨-, hpoint⟩
  cases w with
  | wentLive us b =>
    obtain ⟨rfl, rfl, hr⟩ := hpoint
    exact hr.truthful hh
  | io => trivial
  | renderBegins us b => trivial
  | rotateBegins b => trivial
  | obfsRotateBegins b => trivial

theorem keepsStamp_save (users : List CompatUser) (a : SaveAnswers) :
    KeepsStamp site (saveUsersAtomic inv.pid users a) :=
  keepsStamp_of_filesOnly (savePaths inv.pid) (by simp [savePaths]) (by simp [savePaths]) fun s =>
    (saveUsersAtomic_wp inv.pid users a s).mono (fun _ _ hw => hw.1) fun _ _ ht => ht.1

theorem keepsStamp_userCommand (cmd : UserCommand) (a : UserAnswers) :
    KeepsStamp site (userCommand site inv cmd a) := by
  refine .bind (.look _) fun previous => ?_
  cases previous with
  | error e => exact .fail _
  | ok previous =>
    dsimp only
    cases cmd.mutate previous with
    | error e => exact .fail _
    | ok users =>
      refine .bind (.mapError _ (keepsStamp_render site inv _ _ _)) fun live =>
        .bind (.attempt (keepsStamp_save site inv _ _)) fun saved => ?_
      cases saved with
      | ok => exact .pure _
      | error e => exact .bind (.attempt (keepsStamp_render site inv _ _ _)) fun _ => .fail _

theorem keepsStamp_regenerate (live : Bool) (a : RegenerateAnswers) :
    KeepsStamp site (regenerateSingboxConfig site inv live a) := by
  refine .bind (.look _) fun users => ?_
  cases users with
  | error e => exact .fail _
  | ok users => exact .mapError _ (keepsStamp_render site inv _ _ _)

theorem keepsStamp_cmdRenderConfig (requireApplied : Bool) (a : RegenerateAnswers) :
    KeepsStamp site (cmdRenderConfig site inv requireApplied a) := by
  refine .bind (keepsStamp_regenerate site inv _ _) fun applied => ?_
  split_ifs
  · exact .fail _
  · exact .pure _

theorem keepsStamp_cmdConfigMigrate (a : MigrateAnswers) :
    KeepsStamp site (cmdConfigMigrate site inv a) := by
  have hmigrate : KeepsStamp site (migrateUsers inv a) :=
    keepsStamp_of_filesOnly (.preMigration .users a.time :: savePaths inv.pid)
      (by simp [savePaths]) (by simp [savePaths]) fun s => migrateUsers_wp inv a s
  exact .bind (keepsStamp_require _ _) fun _ => .bind (.mapError _ hmigrate) fun _ =>
    .bind (keepsStamp_require _ _) fun _ =>
    .bind (.attempt (keepsStamp_regenerate site inv _ _)) fun _ => .pure _

theorem keepsStamp_cmdUserRotateToken (id tokenHash : String) (readUsers : Bool)
    (a : SaveAnswers) : KeepsStamp site (cmdUserRotateToken inv id tokenHash readUsers a) := by
  refine .bind (.look _) fun users => ?_
  cases users with
  | error e => exact .fail _
  | ok users =>
    dsimp only
    cases modifyUser id (fun u => { u with subscriptionTokenHashHex := tokenHash }) users with
    | error e => exact .fail _
    | ok users => exact .mapError _ (keepsStamp_save site inv _ _)

theorem keepsStamp_restartSubscription (a : RestartAnswer) :
    KeepsStamp site (restartSubscription a : Prog Host Event ε Bool) :=
  .of_wp fun _ hs => wp_restartSubscription (fun _ => trivial)
    (hs.of_sameExcept ⟨fun _ _ => rfl, rfl, rfl, rfl⟩ List.not_mem_nil List.not_mem_nil rfl)

theorem keepsStamp_failRestore {entries : List (StateFile × Bool)}
    (hentries : entries.map Prod.fst = restoredFiles) (a : RestoreRollbackAnswers)
    (stage : RestoreStage) : KeepsStamp site (failRestore site inv entries a stage) := by
  have hrestore : KeepsStamp site
      (restoreAll a.restore entries : Prog Host Event RestoreError Bool) := by
    refine keepsStamp_of_filesOnly (restorePaths restoredFiles) (by decide) (by decide) fun s => ?_
    rw [← hentries]
    exact restoreAll_frame a.restore entries s
  refine .bind ?_ fun _ => .fail _
  refine .bind hrestore fun _ =>
    .bind (.attempt (keepsStamp_regenerate site inv _ _)) fun _ => ?_
  dsimp only
  split_ifs
  · exact .bind (keepsStamp_restartSubscription site _) fun _ => .pure _
  · exact .bind (.pure _) fun _ => .pure _

theorem keepsStamp_discardBackups (drop : StateFile → Bool) (fs : List StateFile) :
    KeepsStamp site (discardBackups drop fs : Prog Host Event ε Unit) := by
  refine keepsStamp_of_filesOnly (bakPaths fs) (by simp [bakPaths]) (by simp [bakPaths]) fun s => ?_
  exact (discardBackups_wp drop fs fs (fun _ hg => hg) (.refl s _)).mono (fun _ _ hw => hw.1)
    fun _ _ ht => ht.2

theorem keepsStamp_loadRestored {entries : List (StateFile × Bool)}
    (hentries : entries.map Prod.fst = restoredFiles) (a : RestoreAnswers) :
    KeepsStamp site (loadRestored site inv entries a) := by
  refine .bind (.attempt (keepsStamp_regenerate site inv _ _)) fun rendered => ?_
  cases rendered with
  | error e => exact keepsStamp_failRestore site inv hentries _ _
  | ok live =>
    have hserved : ∀ served : Bool, KeepsStamp site
        (if served then discardBackups a.dropBackup ((entries.filter (·.2)).map Prod.fst)
          else failRestore site inv entries a.rollback .restartingSubscription) := by
      intro served
      split_ifs
      · exact keepsStamp_discardBackups site _ _
      · exact keepsStamp_failRestore site inv hentries _ _
    dsimp only
    split_ifs
    · exact .bind (keepsStamp_restartSubscription site _) hserved
    · exact .bind (.pure _) hserved

theorem keepsStamp_cmdRestore (archive : Archive) (a : RestoreAnswers) :
    KeepsStamp site (cmdRestore site inv archive a) := by
  unfold cmdRestore
  cases checkArchive site archive a with
  | error e => exact .fail _
  | ok users =>
    have hbackup : KeepsStamp site (backupForRotate .users (a.backup .users)) :=
      keepsStamp_of_filesOnly [.rotateBak .users] (by simp) (by simp) fun s =>
        (backupForRotate_wp _ _ s).mono (fun _ _ hw => hw.1) fun _ _ ht => ht.1
    have hinstall : KeepsStamp site (installAll inv archive users a) :=
      keepsStamp_of_filesOnly (savePaths inv.pid ++ restoreTargets.flatMap installPaths)
        (by simp [savePaths, restoreTargets, installPaths])
        (by simp [savePaths, restoreTargets, installPaths]) fun s =>
        (installAll_wp inv archive users a s).mono (fun _ _ hw => hw) fun _ _ ht => ht.1
    refine .bind (keepsStamp_require _ _) fun _ => .bind (keepsStamp_require _ _) fun _ =>
      .bind (.mapError _ hbackup) fun existed => ?_
    -- the files behind the entries are those the backups were asked for
    refine .bind_ok (P := fun entries => entries.map Prod.fst = restoreTargets) ?_
      fun entries hentries => ?_
    · intro s hs _
      rw [wp_mapError]
      have hprepared : ∀ f ∈ (if existed then [StateFile.users] else []), f ∈ restoredFiles := by
        cases existed <;> simp [restoredFiles]
      refine (backupAll_wp a.backup a.dropBackup restoredFiles _ restoreTargets
        (fun _ hf => List.mem_append_left _ hf) hprepared (by decide) (.refl s _)).mono ?_ ?_
      · rintro w t ⟨rfl, -⟩
        trivial
      · rintro r t ⟨ht, hr⟩
        refine ⟨hs.of_sameExcept ht.toSameExcept (by simp [bakPaths]) (by simp [bakPaths])
          ht.loaded, fun entries hok => ?_⟩
        cases r with
        | error e => simp [Except.mapError] at hok
        | ok made =>
          obtain rfl : made = entries := by simpa [Except.mapError] using hok
          exact hr.1
    · have hall : (entries ++ [(StateFile.users, existed)]).map Prod.fst = restoredFiles := by
        rw [List.map_append, hentries]
        rfl
      refine .bind (.attempt hinstall) fun installed => ?_
      cases installed with
      | error => exact keepsStamp_failRestore site inv hall _ _
      | ok => exact keepsStamp_loadRestored site inv hall a

end Keeping

section Histories

variable (site : Site)

/-- Every swap that a command makes settles. -/
def Settled (inv : Invocation) (h : Host) : Command → Prop
  | .init rotate a => ∀ plan ∈ (realityPlan site h a.rotate).toOption, a.rotate.swaps h = true →
    SwapSettles h plan.doc a.rotate.live.loadsNew (rollsBack (cmdInit site inv rotate a h).result)
      a.rotate.rollback.reloads
  | .hysteriaObfsRotate a => ∀ plan ∈ (obfsPlan site h a).toOption, a.swaps h = true →
    SwapSettles h plan.doc a.live.loadsNew (rollsBack (cmdHysteriaObfsRotate site inv a h).result)
      a.rollback.reloads
  | cmd => ∀ x ∈ (cmd.run site inv h).trail, CallSettles site x.1 x.2

structure Fresh (h : Host) : Prop where
  files : ∀ p, h.files p = none
  loaded : h.loaded = none
  cached : h.cached = none

variable {site} {inv : Invocation} {h : Host}

theorem Command.run_truthful {cmd : Command} (hh : StampTrue h) (hset : Settled site inv h cmd) :
    Wp (cmd.run site inv) h (Truthful site) (fun _ t => StampTrue t) := by
  have hkeeps : ∀ {ε α : Type} {reports : ε → Bool} {p : Prog Host Event ε α},
      KeepsStamp site p → (∀ x ∈ (outcome reports p h).trail, CallSettles site x.1 x.2) →
      Wp (outcome reports p) h (Truthful site) (fun _ t => StampTrue t) := by
    intro ε α reports p hp hR
    exact Keeps.bind (.attempt hp) (fun _ => .pure _) h hh hR
  cases cmd with
  | init rotate a =>
    rw [Command.run, wp_outcome]
    have hwp := cmdInit_wp site inv rotate h a
    refine ⟨fun x hx => ?_, ?_⟩
    · rcases hwp.1 x hx with hio | ⟨hbegins, -⟩
      · rw [hio]
        trivial
      · rw [hbegins]
        trivial
    · have hpath := hwp.2
      simp only [Settled] at hset
      generalize (cmdInit site inv rotate a h).result = r at hpath hset
      generalize (cmdInit site inv rotate a h).final = t at hpath
      cases hpath with
      | rotated hr =>
        exact hr.stampTrue rotatable_realityFiles
          (fun p hp => realityPlan_targets (eq_ok_of_toOption hp)) hh hset
      | generated _ ht _ =>
        exact hh.of_sameExcept ht.toSameExcept (by simp [keysetPaths, installPaths])
          (by simp [keysetPaths, installPaths]) ht.loaded
      | nothing => exact hh
  | hysteriaObfsRotate a =>
    rw [Command.run, wp_outcome]
    have hwp := cmdHysteriaObfsRotate_wp site inv h a
    refine ⟨fun x hx => ?_, ?_⟩
    · rcases hwp.1 x hx with hio | ⟨hbegins, -⟩
      · rw [hio]
        trivial
      · rw [hbegins]
        trivial
    · refine hwp.2.stampTrue rotatable_obfsPassword (fun p hp => ?_) hh hset
      rw [RotatePlan.targets, obfsPlan_contents (eq_ok_of_toOption hp)]
      rfl
  | restore archive a => exact hkeeps (keepsStamp_cmdRestore site inv archive a) hset
  | renderConfig requireApplied a =>
    exact hkeeps (keepsStamp_cmdRenderConfig site inv requireApplied a) hset
  | configMigrate a => exact hkeeps (keepsStamp_cmdConfigMigrate site inv a) hset
  | user cmd a => exact hkeeps (keepsStamp_userCommand site inv cmd a) hset
  | userRotateToken id tokenHash readUsers a =>
    exact hkeeps (keepsStamp_cmdUserRotateToken site inv id tokenHash readUsers a) hset

theorem Fresh.stampTrue (hfresh : Fresh h) : StampTrue h := by
  intro doc hdoc
  simp [Host.json?, Host.content?, hfresh.files] at hdoc

/-- From a fresh host, in every history of commands whose swaps all settle, each call that reports
that it went live has sing-box running the document of the users and keys it was given. -/
theorem wentLive_truthful (site : Site) {first h : Host} (hfresh : Fresh first)
    (hrun : Reached site (Settled site) first h) (inv : Invocation) (cmd : Command)
    (hset : Settled site inv h cmd) :
    ∀ x ∈ (cmd.run site inv h).trail, Truthful site x.1 x.2 := by
  have hh : StampTrue h := hrun.invariant hfresh.stampTrue fun inv h cmd hh hset =>
    (Command.run_truthful hh hset).2
  exact (Command.run_truthful hh hset).1

end Histories

section Sample

def freshHost : Host := ⟨fun _ => none, 0o022, true, false, none, none⟩

def InitAnswers.clear : InitAnswers := ⟨true, fun _ => true, .replicate 24 7, .clear⟩

def firstInit : Command := .init false .clear

/-- `render-config` in which every step succeeds. -/
def plainRender : Command := .renderConfig false ⟨true, .clear⟩

def initializedHost : Host := (firstInit.run sampleSite ⟨1, false⟩ freshHost).final

def Event.isWentLive : Event → Bool
  | .wentLive _ _ => true
  | _ => false

/-- The first rendering of a deployment goes live, and says so truthfully. -/
theorem plainRender_truthful :
    ((plainRender.run sampleSite ⟨2, false⟩ initializedHost).trail.any (·.1.isWentLive)) = true ∧
      ∀ x ∈ (plainRender.run sampleSite ⟨2, false⟩ initializedHost).trail,
        Truthful sampleSite x.1 x.2 := by
  refine ⟨by decide +kernel, ?_⟩
  have hfirst : Reached sampleSite (Settled sampleSite) freshHost initializedHost := by
    refine .ran .start ⟨1, false⟩ firstInit ?_
    show ∀ plan ∈ _, _ → _
    decide +kernel
  apply wentLive_truthful sampleSite ⟨fun _ => rfl, rfl, rfl⟩ hfirst
  show ∀ x ∈ (plainRender.run sampleSite ⟨2, false⟩ _).trail, CallSettles sampleSite x.1 x.2
  decide +kernel

/-- A new user whose reload fails with the new configuration loaded; the backup is copied back, and
the restart into it does not happen. -/
def lostReload : Command :=
  .user (.create ["user_1"] "one" "11111111-1111-4111-8111-111111111111" "pw" "00" 0 none)
    { UserAnswers.clear with
      forward := { RenderAnswers.clear with
        restart := .notActive
        recovery := ⟨.done, .notRestarted⟩ } }

def renderedHost : Host := (plainRender.run sampleSite ⟨2, false⟩ initializedHost).final

/-- sing-box runs the configuration with the user, and both files say otherwise. -/
def divergedHost : Host := (lostReload.run sampleSite ⟨3, false⟩ renderedHost).final

/-- The next rendering takes the shortcut and calls a configuration live that is not. -/
theorem lostReload_reported_live :
    Fresh freshHost ∧ Reached sampleSite (fun _ _ _ => True) freshHost divergedHost ∧
      ∃ x ∈ (plainRender.run sampleSite ⟨4, false⟩ divergedHost).trail,
        ¬ Truthful sampleSite x.1 x.2 := by
  refine ⟨⟨fun _ => rfl, rfl, rfl⟩, ?_, by decide +kernel⟩
  exact .ran (.ran (.ran .start ⟨1, false⟩ firstInit trivial) ⟨2, false⟩ plainRender trivial)
    ⟨3, false⟩ lostReload trivial

end Sample

end Vpn1.Admin
