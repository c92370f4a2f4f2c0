import Vpn1.Compat.Subscription
import Vpn1.Admin.Users

/-! What a user command does to the store, `config.json` and the running sing-box together: when
the store stays behind sing-box, and when a failed command leaves nothing behind. -/

namespace Vpn1.Admin

open Compat Traced

section Publication

variable {site : Site} {inv : Invocation} {h t : Host} {cmd : UserCommand} {a : UserAnswers}
  {previous users : List CompatUser}

/-- The store is not ahead: with the new list published, sing-box runs what was rendered for it. -/
def FailClosed (site : Site) (h : Host) (previous users : List CompatUser) (a : UserAnswers)
    (t : Host) : Prop :=
  loadUsers t true = .ok users → users ≠ previous →
    ∃ doc, candidateDoc site h users a.forward = .ok doc ∧ t.loaded = some doc

/-- When a change that is going to be saved is not what sing-box runs already, the shortcut does
not take it for current, and the queries after the swap answer as those before it did. -/
def StaysInStep (site : Site) (h : Host) (previous users : List CompatUser) (a : UserAnswers) :
    Prop :=
  ∀ doc, candidateDoc site h users a.forward = .ok doc → h.binaryInstalled = true →
    a.forward.first.controllable = true → a.save.succeeds = true → users ≠ previous →
    h.loaded ≠ some doc →
      alreadyCurrent h doc a.forward = false ∧
        (a.forward.apply.succeeds (h.exists? .config) = true →
          a.forward.second.controllable = true)

/-- Once the new list is published, sing-box accepts no credential but those of its active users. -/
def RevokedRefused (previous users : List CompatUser) (now : Int64) (t : Host) : Prop :=
  ∀ doc u, loadUsers t true = .ok users → users ≠ previous → t.loaded = some doc →
    (AcceptsVless doc u → ∃ v ∈ users, v.isActive now = true ∧ vlessUser v = vlessUser u) ∧
    (AcceptsHysteria doc u → ∃ v ∈ users, v.isActive now = true ∧ hysteriaUser v = hysteriaUser u)

/-- What a request is handed for a user the command changed or added is accepted already. -/
def IssuedAccepted (previous : List CompatUser) (now : Int64) (t : Host) : Prop :=
  ∀ hashToken token later list u, now ≤ later → loadUsers t true = .ok list →
    findUserByToken hashToken list token later = some u → u ∉ previous →
    ∃ doc, t.loaded = some doc ∧ AcceptsVless doc u ∧ AcceptsHysteria doc u

private theorem userCommand_eq (hload : loadUsers h a.readUsers = .ok previous)
    (hmutate : cmd.mutate previous = .ok users) :
    userCommand site inv cmd a h = applyUsersAndSave site inv previous users a h := by
  simp [userCommand, bind, Prog.bind, Prog.look, hload, hmutate]

theorem loadUsers_of_answer {ok : Bool} (hload : loadUsers h ok = .ok previous) :
    loadUsers h true = .ok previous := by
  cases ok with
  | true => exact hload
  | false =>
    cases hc : h.content? .users with
    | none => rwa [loadUsers_of_none hc] at hload ⊢
    | some c => simp [loadUsers, UserFormats.loadUsers, hc] at hload

theorem loadUsers_congr (hu : t.files (.live .users) = h.files (.live .users)) (ok : Bool) :
    loadUsers t ok = loadUsers h ok := by
  simp only [loadUsers, Host.content?, hu]

theorem loadUsers_saved (hu : t.content? .users = some (.json (savedUsers users))) :
    loadUsers t true = .ok users := by
  rw [loadUsers_of_some hu]
  exact parseUsersBytes_savedUsers users

private theorem failClosed_of_old (hload : loadUsers h true = .ok previous)
    (hu : t.files (.live .users) = h.files (.live .users)) :
    FailClosed site h previous users a t := by
  intro hnew hne
  rw [loadUsers_congr hu, hload] at hnew
  exact absurd (Except.ok.inj hnew).symm hne

/-- After a call that returned `Ok` online, sing-box runs the new document unless the answers
were the ones `StaysInStep` excludes. -/
theorem loaded_of_ok {live : Bool} {s : Host} (honline : inv.offline = false)
    (hsave : a.save.succeeds = true) (hne : users ≠ previous)
    (hstep : StaysInStep site h previous users a)
    (hr : RenderPath site inv h users true a.forward (.ok live) s) :
    ∃ doc, candidateDoc site h users a.forward = .ok doc ∧ s.loaded = some doc := by
  cases hr with
  | degraded _ hl => simp [honline] at hl
  | current hdoc hbin hcur =>
    refine ⟨_, hdoc, ?_⟩
    by_contra hold
    have := (hstep _ hdoc hbin (alreadyCurrent_controllable hcur) hsave hne hold).1
    simp [hcur] at this
  | notReloaded hp happly ht hq =>
    refine ⟨_, hp.candidate, ?_⟩
    rw [ht.loaded]
    by_contra hold
    have := (hstep _ hp.candidate hp.binary (hp.controllable rfl honline) hsave hne hold).2 happly
    simp [hq] at this
  | wentLive hp _ hs _ _ _ _ ht => exact ⟨_, hp.candidate, ht.loaded⟩

private theorem failClosed_of_point (honline : inv.offline = false)
    (hload : loadUsers h true = .ok previous) (hstep : StaysInStep site h previous users a)
    (hpoint : UserPoint site inv h users a t) : FailClosed site h previous users a t := by
  rcases hpoint with hu | ⟨hsave, -, live, s, hr, hloaded⟩
  · exact failClosed_of_old hload hu
  · intro _ hne
    obtain ⟨doc, hdoc, hl⟩ := loaded_of_ok honline hsave hne hstep hr
    exact ⟨doc, hdoc, hloaded.trans hl⟩

theorem UserPath.point {r : Except UserError Bool} (hr : UserPath site inv h previous users a r t) :
    UserPoint site inv h users a t := by
  cases hr with
  | notRendered hr => exact .inl hr.frame.users
  | saved hr hsave ht husers => exact .inr ⟨hsave, husers, _, _, hr, ht.loaded⟩
  | compensated hr _ _ husers hc =>
    exact .inl ((hc.frame.users.trans husers).trans hr.frame.users)

private theorem userPoint_of_mem {s : Host}
    (hs : s ∈ (applyUsersAndSave site inv previous users a).states h) :
    UserPoint site inv h users a s :=
  (applyUsersAndSave_wp site inv h previous users a).of_mem_states (.inl rfl)
    (fun _ _ hr => hr.point) hs

private theorem staysInStep_of_failClosed
    (hfinal : FailClosed site h previous users a
      (applyUsersAndSave site inv previous users a h).final) :
    StaysInStep site h previous users a := by
  intro doc hdoc hbin hfirst hsave hne hold
  have hpath := (applyUsersAndSave_wp site inv h previous users a).2
  -- a call that returns `Ok` with the old document loaded is followed by the save
  have hahead : ∀ live, (∀ r t, RenderPath site inv h users true a.forward r t →
      r = .ok live ∧ t.loaded = h.loaded) → False := by
    intro live hall
    generalize applyUsersAndSave site inv previous users a h = run at hpath hfinal
    obtain ⟨result, final, trail⟩ := run
    simp only at hpath hfinal
    cases hpath with
    | notRendered hr => simpa using (hall _ _ hr).1
    | compensated _ hnot => simp [hsave] at hnot
    | saved hr _ ht husers =>
      obtain ⟨doc', hdoc', hl⟩ := hfinal (loadUsers_saved husers) hne
      rw [ht.loaded, (hall _ _ hr).2] at hl
      rw [hdoc] at hdoc'
      exact hold (Except.ok.inj hdoc' ▸ hl)
  have hcur : alreadyCurrent h doc a.forward = false := by
    by_contra hcur
    rw [Bool.not_eq_false] at hcur
    refine hahead true fun r t hr => ?_
    obtain ⟨rfl, rfl⟩ := hr.of_current hdoc hbin hcur
    exact ⟨rfl, rfl⟩
  refine ⟨hcur, fun happly => ?_⟩
  by_contra hq
  rw [Bool.not_eq_true] at hq
  have hp : Proceeds site inv h users true a.forward doc := ⟨hdoc, hbin, fun _ _ => hfirst, hcur⟩
  refine hahead false fun r t hr => ?_
  obtain ⟨rfl, ht⟩ := (hr.of_swap hp happly).1 hq
  exact ⟨rfl, ht.loaded⟩

private theorem acceptedOfCandidate {doc : Json} {u : CompatUser} {b : RenderAnswers}
    (hdoc : candidateDoc site h users b = .ok doc) :
    (AcceptsVless doc u ↔ ∃ v ∈ users, v.isActive b.now = true ∧ vlessUser v = vlessUser u) ∧
    (AcceptsHysteria doc u ↔
      ∃ v ∈ users, v.isActive b.now = true ∧ hysteriaUser v = hysteriaUser u) := by
  simp only [candidateDoc] at hdoc
  cases hr : loadRealityParams site h b.keys with
  | error e => simp [hr, Except.map] at hdoc
  | ok reality =>
    simp only [hr, Except.map, Except.ok.injEq] at hdoc
    rw [← hdoc]
    exact ⟨acceptsVless_render, acceptsHysteria_render⟩

private theorem revokedRefused_of_failClosed (hclosed : FailClosed site h previous users a t) :
    RevokedRefused previous users a.forward.now t := by
  intro doc u hnew hne hloaded
  obtain ⟨doc', hdoc, hl⟩ := hclosed hnew hne
  obtain rfl : doc' = doc := by simpa [hl] using hloaded
  have haccepted := acceptedOfCandidate (u := u) hdoc
  exact ⟨haccepted.1.mp, haccepted.2.mp⟩

private theorem issuedAccepted_of_failClosed (hload : loadUsers h true = .ok previous)
    (hpoint : UserPoint site inv h users a t) (hclosed : FailClosed site h previous users a t) :
    IssuedAccepted previous a.forward.now t := by
  intro hashToken token later list u hle hlist hfound hnew
  obtain ⟨hmem, hactive⟩ := findUserByToken_mem hfound
  rcases hpoint with hu | ⟨-, hu, -⟩
  · rw [loadUsers_congr hu, hload] at hlist
    exact absurd (Except.ok.inj hlist ▸ hmem) hnew
  · have husers := loadUsers_saved hu
    obtain rfl : users = list := by simpa [husers] using hlist
    have hne : users ≠ previous := fun heq => hnew (heq ▸ hmem)
    obtain ⟨doc, hdoc, hl⟩ := hclosed husers hne
    have hearlier := CompatUser.isActive_of_le hle hactive
    have haccepted := acceptedOfCandidate (u := u) hdoc
    exact ⟨doc, hl, haccepted.1.mpr ⟨u, hmem, hearlier, rfl⟩,
      haccepted.2.mpr ⟨u, hmem, hearlier, rfl⟩⟩

/-- The store is never ahead of sing-box, at any point of the command, exactly when the answers
keep them in step; and then what it lists as revoked is refused and what it hands out accepted. -/
theorem userCommand_failClosed_iff (honline : inv.offline = false)
    (hload : loadUsers h a.readUsers = .ok previous) (hmutate : cmd.mutate previous = .ok users) :
    ((∀ s ∈ (userCommand site inv cmd a).states h, FailClosed site h previous users a s) ↔
      StaysInStep site h previous users a) ∧
    (StaysInStep site h previous users a → ∀ s ∈ (userCommand site inv cmd a).states h,
      RevokedRefused previous users a.forward.now s ∧ IssuedAccepted previous a.forward.now s) := by
  have hstates : (userCommand site inv cmd a).states h =
      (applyUsersAndSave site inv previous users a).states h := by
    simp only [Prog.states, userCommand_eq hload hmutate]
  have hprevious := loadUsers_of_answer hload
  have hclosed : StaysInStep site h previous users a →
      ∀ s ∈ (applyUsersAndSave site inv previous users a).states h,
        FailClosed site h previous users a s :=
    fun hstep s hs => failClosed_of_point honline hprevious hstep (userPoint_of_mem hs)
  rw [hstates]
  refine ⟨⟨fun hall => ?_, hclosed⟩, fun hstep s hs => ?_⟩
  · exact staysInStep_of_failClosed (hall _ (final_mem_states _ _))
  · have hs' := hclosed hstep s hs
    exact ⟨revokedRefused_of_failClosed hs',
      issuedAccepted_of_failClosed hprevious (userPoint_of_mem hs) hs'⟩

theorem loadUsers_sampleHost : loadUsers sampleHost true = .ok [sampleUser] := by decide +kernel

/-- Disabling a user with every answer favourable. -/
theorem userCommand_failClosed_sample :
    loadUsers sampleHost true = .ok [sampleUser] ∧
    ∀ s ∈ (userCommand sampleSite ⟨1, false⟩ (.setEnabled "user_1" false) .clear).states sampleHost,
      FailClosed sampleSite sampleHost [sampleUser] [{ sampleUser with enabled := false }]
        .clear s := by
  refine ⟨loadUsers_sampleHost,
    (userCommand_failClosed_iff rfl loadUsers_sampleHost (by decide +kernel)).1.mpr ?_⟩
  intro doc hdoc _ _ _ _ hne
  refine ⟨?_, fun _ => rfl⟩
  by_contra hcur
  rw [Bool.not_eq_false] at hcur
  exact hne (alreadyCurrent_config hcur)

def lateQuery : UserAnswers :=
  { UserAnswers.clear with forward := { RenderAnswers.clear with second := ⟨false, true⟩ } }

/-- A disabled user is published as disabled while sing-box still accepts it. -/
theorem userCommand_publishes_unloaded :
    renderedDoc sampleSite sampleHost [sampleUser] 100 = .ok sampleDoc ∧
    sampleHost.loaded = some sampleDoc ∧ loadUsers sampleHost true = .ok [sampleUser] ∧
    ¬ ∀ s ∈ (userCommand sampleSite ⟨1, false⟩ (.setEnabled "user_1" false) lateQuery).states
        sampleHost,
      FailClosed sampleSite sampleHost [sampleUser] [{ sampleUser with enabled := false }]
        lateQuery s := by
  refine ⟨by decide +kernel, rfl, loadUsers_sampleHost, fun hall => ?_⟩
  obtain ⟨doc, hdoc, hl⟩ := hall _ (final_mem_states _ _) (by decide +kernel) (by decide +kernel)
  have hold : (userCommand sampleSite ⟨1, false⟩ (.setEnabled "user_1" false) lateQuery
      sampleHost).final.loaded = some sampleDoc := by decide +kernel
  obtain rfl : sampleDoc = doc := Option.some.inj (hold.symm.trans hl)
  exact absurd hdoc (by decide +kernel)

end Publication

section Atomicity

variable {site : Site} {inv : Invocation} {h t : Host} {cmd : UserCommand} {a : UserAnswers}
  {previous users : List CompatUser} {time : Int64} {old : Json}

/-- `config.json` and the running sing-box both equal the rendering of the store at `time`. -/
structure LiveState (site : Site) (h : Host) (previous : List CompatUser) (time : Int64)
    (old : Json) : Prop where
  users : loadUsers h true = .ok previous
  rendered : renderedDoc site h previous time = .ok old
  config : h.content? .config = some (.json old)
  loaded : h.loaded = some old

/-- The writes and reloads of the error paths succeed: those of the way back of either call, and
those of the call that renders the previous list again. -/
structure Compensates (a : UserAnswers) : Prop where
  copy : a.forward.recovery.copy = .done
  restart : a.forward.recovery.restart = .active
  writes : ∀ existed, { a.compensate.apply with check := true }.succeeds existed = true
  again : a.compensate.restart = .active
  stamp : (a.compensate.stamp.write == .done && a.compensate.stamp.rename) = true
  copyAgain : a.compensate.recovery.copy = .done
  restartAgain : a.compensate.recovery.restart = .active

/-- An error leaves the store, `config.json` and sing-box as before; going live moves all three. -/
def AllOrNothing (site : Site) (h : Host) (users : List CompatUser) (a : UserAnswers)
    (r : Except UserError Bool) (t : Host) : Prop :=
  match r with
  | .error _ => t.files (.live .users) = h.files (.live .users) ∧
      t.content? .config = h.content? .config ∧ t.loaded = h.loaded
  | .ok true => ∃ doc, candidateDoc site h users a.forward = .ok doc ∧
      t.content? .users = some (.json (savedUsers users)) ∧
      t.content? .config = some (.json doc) ∧ t.loaded = some doc
  | .ok false => True

/-- The stamp is recorded whenever the first call gets to it with a document that is new. -/
def StampRecorded (site : Site) (inv : Invocation) (h : Host) (users : List CompatUser)
    (a : UserAnswers) (old : Json) : Prop :=
  ∀ doc, Proceeds site inv h users true a.forward doc →
    a.forward.apply.succeeds (h.exists? .config) = true → a.forward.second.controllable = true →
    a.forward.restart = .active → rejects h users a.forward = false → doc ≠ old →
    (a.forward.stamp.write == .done && a.forward.stamp.rename) = true

/-- The first call puts `doc` in place and returns `Ok`. -/
structure PutsInPlace (site : Site) (inv : Invocation) (h : Host) (users : List CompatUser)
    (b : RenderAnswers) (doc : Json) : Prop where
  proceeds : Proceeds site inv h users true b doc
  apply : b.apply.succeeds (h.exists? .config) = true
  verified : b.second.controllable = true → b.restart = .active ∧ rejects h users b = false ∧
    (b.stamp.write == .done && b.stamp.rename) = true

/-- The first call returns `Ok` and leaves everything as it is. -/
def PassesOver (site : Site) (inv : Invocation) (h : Host) (users : List CompatUser)
    (b : RenderAnswers) : Prop :=
  (inv.offline = true ∧ ∃ c, candidateDoc site h users b = .error c) ∨
    ∃ doc, candidateDoc site h users b = .ok doc ∧ h.binaryInstalled = true ∧
      alreadyCurrent h doc b = true

/-- The second call can tell what to go back to, and nothing but its writes and reloads decides
whether it gets there. sing-box has to be reloaded if it was before. -/
structure BringsBack (site : Site) (inv : Invocation) (h : Host) (previous : List CompatUser)
    (b : RenderAnswers) (old : Json) (reloaded : Bool) : Prop where
  candidate : candidateDoc site h previous b = .ok old
  controllable : inv.offline = false → b.first.controllable = true
  check : b.apply.check = true
  accepted : b.second.controllable = true → rejects h previous b = false
  reloads : reloaded = true → b.second.controllable = true

/-- If the second call reads something else from the key files, it does not leave that in place. -/
def LeavesAlone (site : Site) (inv : Invocation) (h : Host) (previous : List CompatUser)
    (b : RenderAnswers) (old : Json) : Prop :=
  ∀ doc, Proceeds site inv h previous true b doc → doc ≠ old → b.apply.check = true →
    b.second.controllable = true ∧ rejects h previous b = true

/-- What the second call has to meet with, should the store not be saved. -/
structure Undoes (site : Site) (inv : Invocation) (h : Host) (previous users : List CompatUser)
    (a : UserAnswers) (old : Json) : Prop where
  replaced : ∀ doc, PutsInPlace site inv h users a.forward doc → doc ≠ old →
    BringsBack site inv h previous a.compensate old a.forward.second.controllable
  kept : PassesOver site inv h users a.forward ∨ PutsInPlace site inv h users a.forward old →
    LeavesAlone site inv h previous a.compensate old

theorem LiveState.keptConfig (hlive : LiveState site h previous time old) :
    h.keptConfig = some (.json old) := by
  have hex : h.exists? .config = true := by
    have := hlive.config
    simp only [Host.content?, Option.map_eq_some_iff] at this
    obtain ⟨f, hf, -⟩ := this
    simp [Host.exists?, hf]
  simp [Host.keptConfig, hex, hlive.config]

theorem Recovery.restores {s : Host} {b : RecoveryAnswers} {recovered : Bool}
    (hr : Recovery b s recovered t) (hcopy : b.copy = .done) (hrestart : b.restart = .active)
    (hbak : s.content? .configBak = some (.json old)) :
    t.content? .config = some (.json old) ∧ t.loaded = some old := by
  have hjson : s.json? .configBak = some old := by simp [Host.json?, hbak, Content.json?]
  rcases hr.outcome with ⟨-, -, hconfig, hloaded, -⟩ | ⟨hno, -⟩
  · refine ⟨hconfig.trans hbak, ?_⟩
    simpa [hrestart, hjson, afterRestart, RestartAnswer.restarts] using hloaded
  · simp [hbak, hcopy] at hno

theorem RenderPath.restores {e : RenderError} (hlive : LiveState site h previous time old)
    (hcomp : Compensates a) (hstamp : StampRecorded site inv h users a old)
    (hr : RenderPath site inv h users true a.forward (.error e) t) :
    t.content? .config = some (.json old) ∧ t.loaded = some old := by
  cases hr with
  | refused => exact ⟨hlive.config, hlive.loaded⟩
  | notSwapped _ _ ht hconfig =>
    refine ⟨?_, ht.loaded.trans hlive.loaded⟩
    rw [Host.content?, hconfig]
    exact hlive.config
  | reloadFailed _ _ hs _ _ ht =>
    exact ht.restores hcomp.copy hcomp.restart (hs.bak.trans hlive.keptConfig)
  | rejected _ _ hs _ _ _ ht =>
    exact ht.restores hcomp.copy hcomp.restart (hs.bak.trans hlive.keptConfig)
  | @stampFailed doc s _ hp happly hs hq hrestart hreject hnot ht =>
    obtain rfl : doc = old := by
      by_contra hne
      have := hstamp doc hp happly hq hrestart hreject hne
      simp [hnot] at this
    refine ⟨?_, ht.loaded⟩
    rw [ht.content? (by simp [stampPaths])]
    exact hs.config

/-- What a call with its writes and reloads succeeding makes of a configuration that is in place and
one that is loaded. -/
theorem RenderPath.outcome {b : RenderAnswers} {r : Except RenderError Bool} {u : Host}
    {placed loaded : Json} (hwrites : ∀ existed, { b.apply with check := true }.succeeds existed = true)
    (hagain : b.restart = .active) (hstamp : (b.stamp.write == .done && b.stamp.rename) = true)
    (hcopy : b.recovery.copy = .done) (hrestart : b.recovery.restart = .active)
    (hplaced : u.content? .config = some (.json placed)) (hloaded : u.loaded = some loaded)
    (hr : RenderPath site inv u previous true b r t) :
    (t.content? .config = some (.json placed) ∧ t.loaded = some loaded ∧
      ∀ doc, Proceeds site inv u previous true b doc → b.apply.check = false) ∨
    ∃ doc, Proceeds site inv u previous true b doc ∧ b.apply.check = true ∧
      ((b.second.controllable = false ∧ t.content? .config = some (.json doc) ∧
          t.loaded = some loaded) ∨
        (b.second.controllable = true ∧ rejects u previous b = true ∧
          t.content? .config = some (.json placed) ∧ t.loaded = some placed) ∨
        (b.second.controllable = true ∧ rejects u previous b = false ∧
          t.content? .config = some (.json doc) ∧ t.loaded = some doc)) := by
  have hcheck : ∀ existed, b.apply.succeeds existed = b.apply.check := by
    intro existed
    have hrest := hwrites existed
    simp only [ApplyAnswers.succeeds, Bool.and_eq_true] at hrest ⊢
    simp [hrest]
  have hkept : u.keptConfig = some (.json placed) := by
    have hex : u.exists? .config = true := by
      obtain ⟨f, hf, -⟩ := Option.map_eq_some_iff.mp hplaced
      simp [Host.exists?, hf]
    simp [Host.keptConfig, hex, hplaced]
  cases hr with
  | degraded hwhy =>
    refine .inl ⟨hplaced, hloaded, fun doc hp => ?_⟩
    simp [hp.candidate, hp.binary] at hwhy
  | refused hwhy _ honline =>
    refine .inl ⟨hplaced, hloaded, fun doc hp => ?_⟩
    simp [hp.candidate, hp.binary, hp.controllable rfl honline] at hwhy
  | current hdoc _ hcur =>
    refine .inl ⟨hplaced, hloaded, fun doc hp => ?_⟩
    obtain rfl := hp.doc_unique hdoc
    simp [hp.notCurrent] at hcur
  | notSwapped _ hno ht hconfig =>
    refine .inl ⟨?_, ht.loaded.trans hloaded, fun _ _ => (hcheck _).symm.trans hno⟩
    rw [Host.content?, hconfig]
    exact hplaced
  | notReloaded hp happly ht hq =>
    exact .inr ⟨_, hp, (hcheck _).symm.trans happly,
      .inl ⟨hq, ht.config, ht.loaded.trans hloaded⟩⟩
  | reloadFailed _ _ _ _ hno => exact absurd hagain hno
  | rejected hp happly hs hq _ hreject ht =>
    have hback := ht.restores hcopy hrestart (hs.bak.trans hkept)
    exact .inr ⟨_, hp, (hcheck _).symm.trans happly, .inr (.inl ⟨hq, hreject, hback⟩)⟩
  | stampFailed _ _ _ _ _ _ hno => simp [hstamp] at hno
  | wentLive hp happly hs hq _ hreject _ ht =>
    refine .inr ⟨_, hp, (hcheck _).symm.trans happly, .inr (.inr ⟨hq, hreject, ?_, ht.loaded⟩)⟩
    rw [ht.content? (by simp [stampPaths])]
    exact hs.config

theorem Proceeds.not_passesOver {b : RenderAnswers} {doc : Json}
    (hp : Proceeds site inv h users true b doc) : ¬ PassesOver site inv h users b := by
  rintro (⟨-, c, hc⟩ | ⟨doc', hdoc, -, hcur⟩)
  · simp [hp.candidate] at hc
  · obtain rfl := hp.doc_unique hdoc
    simp [hp.notCurrent] at hcur

theorem RenderPath.error_cases {b : RenderAnswers} {e : RenderError}
    (hr : RenderPath site inv h users true b (.error e) t) :
    ¬ PassesOver site inv h users b ∧ ∀ doc, ¬ PutsInPlace site inv h users b doc := by
  cases hr with
  | refused hwhy _ honline =>
    constructor
    · rintro (⟨hoff, -⟩ | ⟨doc, hdoc, hbin, hcur⟩)
      · simp [honline] at hoff
      · simp [hdoc, hbin, alreadyCurrent_controllable hcur] at hwhy
    · intro doc hput
      simp [hput.proceeds.candidate, hput.proceeds.binary,
        hput.proceeds.controllable rfl honline] at hwhy
  | notSwapped hp hno => exact ⟨hp.not_passesOver, fun doc hput => by simp [hput.apply] at hno⟩
  | reloadFailed hp _ _ hq hno =>
    exact ⟨hp.not_passesOver, fun doc hput => hno (hput.verified hq).1⟩
  | rejected hp _ _ hq _ hreject =>
    exact ⟨hp.not_passesOver, fun doc hput => by simp [(hput.verified hq).2.1] at hreject⟩
  | stampFailed hp _ _ hq _ _ hno =>
    exact ⟨hp.not_passesOver, fun doc hput => by simp [(hput.verified hq).2.2] at hno⟩

/-- The states a first call that returned `Ok` can leave: nothing has changed, or a document is in
place, and loaded if sing-box was reloaded. -/
theorem RenderPath.ok_cases {live : Bool} (hlive : LiveState site h previous time old)
    (hr : RenderPath site inv h users true a.forward (.ok live) t) :
    (t.content? .config = some (.json old) ∧ t.loaded = some old ∧
      (h.binaryInstalled = true → PassesOver site inv h users a.forward) ∧
      ∀ doc, ¬ PutsInPlace site inv h users a.forward doc) ∨
    ∃ doc, PutsInPlace site inv h users a.forward doc ∧ t.content? .config = some (.json doc) ∧
      t.loaded = some (if a.forward.second.controllable then doc else old) := by
  cases hr with
  | degraded hwhy hoff =>
    refine .inl ⟨hlive.config, hlive.loaded, fun hbin => .inl ?_, fun doc hput => ?_⟩
    · simpa [hbin, and_comm] using And.intro hwhy hoff
    · simp [hput.proceeds.candidate, hput.proceeds.binary] at hwhy
  | current hdoc hbin hcur =>
    have hpass : PassesOver site inv h users a.forward := .inr ⟨_, hdoc, hbin, hcur⟩
    exact .inl ⟨hlive.config, hlive.loaded, fun _ => hpass,
      fun doc hput => hput.proceeds.not_passesOver hpass⟩
  | notReloaded hp happly ht hq =>
    refine .inr ⟨_, ⟨hp, happly, fun hyes => ?_⟩, ht.config, ?_⟩
    · simp [hq] at hyes
    · simpa [hq] using ht.loaded.trans hlive.loaded
  | wentLive hp happly hs hq hrestart hreject hstamp ht =>
    refine .inr ⟨_, ⟨hp, happly, fun _ => ⟨hrestart, hreject, hstamp⟩⟩, ?_, ?_⟩
    · rw [ht.content? (by simp [stampPaths])]
      exact hs.config
    · simpa [hq] using ht.loaded

theorem Proceeds.transfer {b : RenderAnswers} {doc placed : Json} {u : Host}
    (hmaterial : KeepsMaterial h u) (hbin : u.binaryInstalled = h.binaryInstalled)
    (hplaced : u.content? .config = some (.json placed)) (hne : doc ≠ placed)
    (hdoc : candidateDoc site h previous b = .ok doc) (hbinary : h.binaryInstalled = true)
    (hfirst : inv.offline = false → b.first.controllable = true) :
    Proceeds site inv u previous true b doc := by
  refine ⟨(hmaterial.candidateDoc _ _).trans hdoc, hbin.trans hbinary, fun _ => hfirst, ?_⟩
  by_contra hcur
  rw [Bool.not_eq_false] at hcur
  have hthere := Host.content?_of_json? (alreadyCurrent_config hcur)
  rw [hplaced] at hthere
  exact hne (Content.json.inj (Option.some.inj hthere)).symm

private theorem rejects_congr {b : RenderAnswers} {u : Host}
    (hbin : u.binaryInstalled = h.binaryInstalled) :
    rejects u previous b = rejects h previous b := by
  rw [rejects, rejects, verifyRealityHandshakeOrWarn, verifyRealityHandshakeOrWarn, hbin]

section Compensation

variable {u : Host} {r : Except RenderError Bool} (hcomp : Compensates a)
  (hmaterial : KeepsMaterial h u) (hbin : u.binaryInstalled = h.binaryInstalled)

include hcomp hmaterial hbin

theorem compensation_keeps_iff (hconfig : h.content? .config = some (.json old))
    (hplaced : u.content? .config = some (.json old)) (hloaded : u.loaded = some old)
    (hc : RenderPath site inv u previous true a.compensate r t) :
    (t.content? .config = some (.json old) ∧ t.loaded = some old) ↔
      LeavesAlone site inv h previous a.compensate old := by
  have houtcome := hc.outcome hcomp.writes hcomp.again hcomp.stamp hcomp.copyAgain
    hcomp.restartAgain hplaced hloaded
  rw [rejects_congr hbin] at houtcome
  constructor
  · intro hback doc hp hne hcheck
    have hp' : Proceeds site inv u previous true a.compensate doc :=
      .transfer hmaterial hbin hplaced hne hp.candidate hp.binary (hp.controllable rfl)
    rcases houtcome with ⟨-, -, hstopped⟩ | ⟨doc', hother, -, houtcome⟩
    · simp [hstopped doc hp'] at hcheck
    obtain rfl := hp'.doc_unique hother.candidate
    rcases houtcome with ⟨-, hnew, -⟩ | ⟨hq, hreject, -⟩ | ⟨-, -, hnew, -⟩
    · simp [hback.1, hne.symm] at hnew
    · exact ⟨hq, hreject⟩
    · simp [hback.1, hne.symm] at hnew
  · intro halone
    rcases houtcome with ⟨hsame, hl, -⟩ | ⟨doc, hp, hcheck, houtcome⟩
    · exact ⟨hsame, hl⟩
    by_cases heq : doc = old
    · subst heq
      rcases houtcome with ⟨-, hback⟩ | ⟨-, -, hback⟩ | ⟨-, -, hback⟩
      · exact ⟨hback.1, hback.2⟩
      · exact hback
      · exact hback
    · -- the call before saw the same configuration in place
      have hp' : Proceeds site inv h previous true a.compensate doc :=
        .transfer ⟨rfl, rfl, rfl, rfl, rfl⟩ rfl hconfig heq
          ((hmaterial.candidateDoc _ _).symm.trans hp.candidate) (hbin.symm.trans hp.binary)
          (hp.controllable rfl)
      obtain ⟨hq, hreject⟩ := halone doc hp' heq hcheck
      simpa [hq, hreject] using houtcome

/-- Where another document is in place, the previous one has to be rendered, accepted and loaded
again. -/
theorem compensation_restores_iff {doc : Json} {reloaded : Bool} (hne : doc ≠ old)
    (hbinary : h.binaryInstalled = true) (hplaced : u.content? .config = some (.json doc))
    (hloaded : u.loaded = some (if reloaded then doc else old))
    (hc : RenderPath site inv u previous true a.compensate r t) :
    (t.content? .config = some (.json old) ∧ t.loaded = some old) ↔
      BringsBack site inv h previous a.compensate old reloaded := by
  have houtcome := hc.outcome hcomp.writes hcomp.again hcomp.stamp hcomp.copyAgain
    hcomp.restartAgain hplaced hloaded
  rw [rejects_congr hbin] at houtcome
  constructor
  · intro ⟨hback, hl⟩
    rcases houtcome with ⟨hsame, -, -⟩ | ⟨cdoc, hp, hcheck, houtcome⟩
    · simp [hback, hne.symm] at hsame
    have hgot : ∀ {doc' : Json}, t.content? .config = some (.json doc') → doc' = old := by
      intro doc' hdoc'
      simpa [hback, eq_comm] using hdoc'
    have hcandidate : candidateDoc site h previous a.compensate = .ok cdoc :=
      (hmaterial.candidateDoc _ _).symm.trans hp.candidate
    rcases houtcome with ⟨hq, hnew, hkept⟩ | ⟨-, -, hsame, -⟩ | ⟨hq, hreject, hnew, -⟩
    · obtain rfl := hgot hnew
      refine ⟨hcandidate, hp.controllable rfl, hcheck, fun hyes => ?_, fun hyes => ?_⟩
      · simp [hq] at hyes
      · simp [hl, hyes, hne.symm] at hkept
    · exact absurd (hgot hsame) hne
    · obtain rfl := hgot hnew
      exact ⟨hcandidate, hp.controllable rfl, hcheck, fun _ => hreject, fun _ => hq⟩
  · intro hback
    have hp : Proceeds site inv u previous true a.compensate old :=
      .transfer hmaterial hbin hplaced hne.symm hback.candidate hbinary hback.controllable
    rcases houtcome with ⟨-, -, hstopped⟩ | ⟨cdoc, hother, -, houtcome⟩
    · have hcheck := hback.check
      simp [hstopped old hp] at hcheck
    obtain rfl := hp.doc_unique hother.candidate
    rcases houtcome with ⟨hq, hnew, hl⟩ | ⟨hq, hreject, -⟩ | ⟨-, -, hnew, hl⟩
    · refine ⟨hnew, ?_⟩
      cases reloaded with
      | false => simpa using hl
      | true => simp [hback.reloads rfl] at hq
    · simp [hback.accepted hq] at hreject
    · exact ⟨hnew, hl⟩

end Compensation

theorem compensated_iff {live : Bool} {s u : Host} {r : Except RenderError Bool}
    (hlive : LiveState site h previous time old) (hcomp : Compensates a)
    (hr : RenderPath site inv h users true a.forward (.ok live) s)
    (hu : FilesOnly s u (savePaths inv.pid))
    (hc : RenderPath site inv u previous true a.compensate r t) :
    (t.content? .config = some (.json old) ∧ t.loaded = some old) ↔
      Undoes site inv h previous users a old := by
  have hsaved : KeepsMaterial s u := hu.keepsMaterial (by simp [savePaths]) (by simp [savePaths])
    (by simp [savePaths]) (by simp [savePaths])
  have hmaterial : KeepsMaterial h u := hr.frame.keepsMaterial.trans hsaved
  have hbin : u.binaryInstalled = h.binaryInstalled :=
    hu.binaryInstalled.trans hr.frame.same.binaryInstalled
  have hconfig : u.content? .config = s.content? .config := hu.content? (by simp [savePaths])
  have hkeeps := fun hplaced hloaded => compensation_keeps_iff hcomp hmaterial hbin hlive.config
    (hconfig.trans hplaced) (hu.loaded.trans hloaded) hc
  rcases hr.ok_cases hlive with ⟨hplaced, hloaded, hpasses, hother⟩ | ⟨doc, hput, hplaced, hloaded⟩
  · rw [hkeeps hplaced hloaded]
    constructor
    · intro halone
      exact ⟨fun doc hput => absurd hput (hother doc), fun _ => halone⟩
    · intro hundoes doc hp
      exact hundoes.kept (.inl (hpasses hp.binary)) doc hp
  · by_cases heq : doc = old
    · subst heq
      rw [hkeeps hplaced (by simpa using hloaded)]
      constructor
      · intro halone
        refine ⟨fun doc' hput' hne => ?_, fun _ => halone⟩
        exact absurd (hput'.proceeds.doc_unique hput.proceeds.candidate).symm hne
      · intro hundoes
        exact hundoes.kept (.inr hput)
    · rw [compensation_restores_iff hcomp hmaterial hbin heq hput.proceeds.binary
        (hconfig.trans hplaced) (hu.loaded.trans hloaded) hc]
      constructor
      · intro hback
        refine ⟨fun _ _ _ => hback, ?_⟩
        rintro (hpass | hput')
        · exact absurd hpass hput.proceeds.not_passesOver
        · exact absurd (hput.proceeds.doc_unique hput'.proceeds.candidate).symm heq
      · intro hundoes
        exact hundoes.replaced doc hput heq

private theorem allOrNothing_of_path {r : Except UserError Bool}
    (hlive : LiveState site h previous time old)
    (hcomp : Compensates a) (hstamp : StampRecorded site inv h users a old)
    (hundoes : a.save.succeeds = false → Undoes site inv h previous users a old)
    (hr : UserPath site inv h previous users a r t) : AllOrNothing site h users a r t := by
  cases hr with
  | notRendered hr =>
    have hback := hr.restores hlive hcomp hstamp
    exact ⟨hr.frame.users, hback.1.trans hlive.config.symm, hback.2.trans hlive.loaded.symm⟩
  | compensated hr hfail hu husers hc =>
    have hback := (compensated_iff hlive hcomp hr hu hc).mpr (hundoes hfail)
    exact ⟨(hc.frame.users.trans husers).trans hr.frame.users,
      hback.1.trans hlive.config.symm, hback.2.trans hlive.loaded.symm⟩
  | @saved live s _ hr _ ht husers =>
    have hconfig : t.content? .config = s.content? .config := ht.content? (by simp [savePaths])
    cases live with
    | false => trivial
    | true =>
      cases hr with
      | current hdoc _ hcur =>
        have hcontent := Host.content?_of_json? (alreadyCurrent_config hcur)
        refine ⟨_, hdoc, husers, hconfig.trans hcontent, ?_⟩
        rw [ht.loaded, hlive.loaded]
        simpa [hlive.config] using hcontent
      | wentLive hp _ hs _ _ _ _ hts =>
        refine ⟨_, hp.candidate, husers, ?_, ht.loaded.trans hts.loaded⟩
        rw [hconfig, hts.content? (by simp [stampPaths])]
        exact hs.config

private theorem stampRecorded_of_allOrNothing {r : Except UserError Bool}
    (hlive : LiveState site h previous time old) (hall : AllOrNothing site h users a r t)
    (hpath : UserPath site inv h previous users a r t) : StampRecorded site inv h users a old := by
  intro doc hp happly hq hrestart hreject hne
  by_contra hnot
  rw [Bool.not_eq_true] at hnot
  have hforward : ∀ r t, RenderPath site inv h users true a.forward r t →
      r = .error .stampNotRecorded ∧ t.content? .config = some (.json doc) :=
    fun r t hr => (hr.of_swap hp happly).2 hq hrestart hreject hnot
  cases hpath with
  | notRendered hr =>
    have hconfig := hall.2.1
    rw [(hforward _ _ hr).2, hlive.config] at hconfig
    simp [hne] at hconfig
  | saved hr => simpa using (hforward _ _ hr).1
  | compensated hr => simpa using (hforward _ _ hr).1

/-- With the writes and reloads of its error paths succeeding, a user command is all-or-nothing
exactly when it records the stamp of every new document it has loaded and, if the store cannot be
saved, the second call meets with nothing else that stops it. -/
theorem userCommand_allOrNothing_iff (hload : loadUsers h a.readUsers = .ok previous)
    (hmutate : cmd.mutate previous = .ok users) (hlive : LiveState site h previous time old)
    (hcomp : Compensates a) :
    AllOrNothing site h users a (userCommand site inv cmd a h).result
        (userCommand site inv cmd a h).final ↔
      StampRecorded site inv h users a old ∧
        (a.save.succeeds = false → Undoes site inv h previous users a old) := by
  rw [userCommand_eq hload hmutate]
  have hpath := (applyUsersAndSave_wp site inv h previous users a).2
  generalize applyUsersAndSave site inv previous users a h = run at hpath ⊢
  obtain ⟨result, final, trail⟩ := run
  constructor
  · intro hall
    refine ⟨stampRecorded_of_allOrNothing hlive hall hpath, fun hfail => ?_⟩
    cases hpath with
    | notRendered hr =>
      obtain ⟨hpass, hput⟩ := hr.error_cases
      exact ⟨fun doc hdoc => absurd hdoc (hput doc), fun hother => by simp [hpass, hput] at hother⟩
    | saved _ hsave => simp [hsave] at hfail
    | compensated hr _ hu _ hc =>
      rw [← compensated_iff hlive hcomp hr hu hc]
      exact ⟨hall.2.1.trans hlive.config, hall.2.2.trans hlive.loaded⟩
  · intro ⟨hstamp, hundoes⟩
    exact allOrNothing_of_path hlive hcomp hstamp hundoes hpath

private theorem not_allOrNothing_of_loaded {e : UserError} (hne : t.loaded ≠ h.loaded) :
    ¬ AllOrNothing site h users a (.error e) t := fun hall => hne hall.2.2

private theorem sampleHost_liveState : LiveState sampleSite sampleHost [sampleUser] 100 sampleDoc :=
  ⟨by decide +kernel, by decide +kernel, rfl, rfl⟩

/-- The answers of a command whose store cannot be renamed into place. -/
def storeRefused : UserAnswers :=
  { UserAnswers.clear with save := { UserAnswers.clear.save with rename := false } }

/-- Disabling a user in a store that cannot be saved. -/
theorem userCommand_allOrNothing_sample :
    storeRefused.save.succeeds = false ∧
    AllOrNothing sampleSite sampleHost [{ sampleUser with enabled := false }] storeRefused
      (userCommand sampleSite ⟨1, false⟩ (.setEnabled "user_1" false) storeRefused sampleHost).result
      (userCommand sampleSite ⟨1, false⟩ (.setEnabled "user_1" false) storeRefused
        sampleHost).final := by
  have hmutate : (UserCommand.setEnabled "user_1" false).mutate [sampleUser] =
      .ok [{ sampleUser with enabled := false }] := by decide +kernel
  have hcomp : Compensates storeRefused := ⟨rfl, rfl, by decide, rfl, rfl, rfl, rfl⟩
  have hback : candidateDoc sampleSite sampleHost [sampleUser] storeRefused.compensate =
      .ok sampleDoc := by decide +kernel
  refine ⟨rfl, (userCommand_allOrNothing_iff loadUsers_sampleHost hmutate sampleHost_liveState
    hcomp).mpr ⟨?_, fun _ => ⟨?_, ?_⟩⟩⟩
  · intro doc _ _ _ _ _ _
    rfl
  · intro doc _ _
    exact ⟨hback, fun _ => rfl, rfl, fun _ => by decide +kernel, fun _ => rfl⟩
  · intro _ doc hp hne
    exact absurd (hp.doc_unique hback) hne.symm

/-- The answers of a command whose stamp cannot be renamed into place. -/
def stampRefused : UserAnswers :=
  { UserAnswers.clear with forward := { RenderAnswers.clear with stamp := ⟨.done, false⟩ } }

/-- The command fails with the new document on disk and loaded, and the store unchanged. -/
theorem userCommand_keeps_unrecorded :
    LiveState sampleSite sampleHost [sampleUser] 100 sampleDoc ∧ Compensates stampRefused ∧
    ¬ AllOrNothing sampleSite sampleHost [{ sampleUser with enabled := false }] stampRefused
      (userCommand sampleSite ⟨1, false⟩ (.setEnabled "user_1" false) stampRefused
        sampleHost).result
      (userCommand sampleSite ⟨1, false⟩ (.setEnabled "user_1" false) stampRefused
        sampleHost).final := by
  refine ⟨sampleHost_liveState,
    ⟨rfl, rfl, by decide, rfl, rfl, rfl, rfl⟩, ?_⟩
  have hresult : (userCommand sampleSite ⟨1, false⟩ (.setEnabled "user_1" false) stampRefused
      sampleHost).result = .error (.render .stampNotRecorded) := by decide +kernel
  have hchanged : (userCommand sampleSite ⟨1, false⟩ (.setEnabled "user_1" false) stampRefused
      sampleHost).final.loaded ≠ sampleHost.loaded := by decide +kernel
  rw [hresult]
  exact not_allOrNothing_of_loaded hchanged

end Atomicity

end Vpn1.Admin
