import Vpn1.Admin.Histories
import Vpn1.Admin.Transaction

/-! The accounts of a host over whole histories of commands, any of which may fail at any step or be
killed between two: the store is what the commands that took effect make of it. -/

namespace Vpn1.Admin

open Compat Traced

section Model

/-- The commands that write the store and those that render from it. `restore` brings in another
store and is left out; `init` and `hysteria-obfs-rotate` leave the store alone. -/
def Command.onAccounts : Command → Bool
  | .user .. | .userRotateToken .. | .renderConfig .. | .configMigrate .. => true
  | .init .. | .hysteriaObfsRotate .. | .restore .. => false

def Command.mutate (users : List CompatUser) : Command → Except UserError (List CompatUser)
  | .user cmd _ => cmd.mutate users
  | .userRotateToken id tokenHash _ _ =>
    modifyUser id (fun u => { u with subscriptionTokenHashHex := tokenHash }) users
  | _ => .ok users

abbrev Step := Command × Option Outcome

/-- Commands run one after the other, to their end or until they are killed. In between anything
may happen on the host that leaves the store alone. -/
inductive History (site : Site) : Host → List Step → Host → Prop
  | nil {h : Host} : History site h [] h
  | ended {h t : Host} {cmd : Command} {outcome : Outcome} {steps : List Step} (inv : Invocation)
      (hend : (cmd.run site inv h).result = .ok outcome)
      (hrest : History site (cmd.run site inv h).final steps t) :
      History site h ((cmd, some outcome) :: steps) t
  | killed {h s t : Host} {cmd : Command} {steps : List Step} (inv : Invocation)
      (hs : s ∈ (cmd.run site inv).states h) (hrest : History site s steps t) :
      History site h ((cmd, none) :: steps) t
  | elsewhere {h s t : Host} {steps : List Step}
      (hs : s.files (.live .users) = h.files (.live .users)) (hrest : History site s steps t) :
      History site h steps t

/-- The commands of a history that took effect: all that said so, none that said otherwise, and
any of those that were killed. -/
inductive Commits : List Step → List Command → Prop
  | nil : Commits [] []
  | reported {cmd : Command} {steps : List Step} {cmds : List Command} (hrest : Commits steps cmds) :
      Commits ((cmd, some .ok) :: steps) (cmd :: cmds)
  | landed {cmd : Command} {steps : List Step} {cmds : List Command} (hrest : Commits steps cmds) :
      Commits ((cmd, none) :: steps) (cmd :: cmds)
  | dropped {cmd : Command} {message : Option Outcome} {steps : List Step} {cmds : List Command}
      (hmessage : message ≠ some .ok) (hrest : Commits steps cmds) :
      Commits ((cmd, message) :: steps) cmds

def replay (users : List CompatUser) (cmds : List Command) : Except UserError (List CompatUser) :=
  cmds.foldlM (fun users cmd => cmd.mutate users) users

def Books (h : Host) (users : List CompatUser) : Prop := loadUsers h true = .ok users

end Model

section Commands

variable {site : Site} {inv : Invocation} {h t : Host} {users : List CompatUser} {cmd : Command}

/-- A command leaves the accounts alone, or makes of them what it is to. -/
def Changes (users : List CompatUser) (cmd : Command) (t : Host) : Prop :=
  Books t users ∨ ∃ next, cmd.mutate users = .ok next ∧ Books t next

/-- What a command says is what it did. -/
def Reports (users : List CompatUser) (cmd : Command) (r : Except Empty Outcome) (t : Host) : Prop :=
  (r = .ok .ok ∧ ∃ next, cmd.mutate users = .ok next ∧ Books t next) ∨
    ∃ outcome, r = .ok outcome ∧ outcome ≠ .ok ∧ Books t users

theorem Reports.changes {r : Except Empty Outcome} (hr : Reports users cmd r t) :
    Changes users cmd t := by
  rcases hr with ⟨-, hnext⟩ | ⟨_, -, -, hsame⟩
  · exact .inr hnext
  · exact .inl hsame

theorem Books.of_files (hbooks : Books h users)
    (hfile : t.files (.live .users) = h.files (.live .users)) : Books t users := by
  rw [Books, loadUsers_congr hfile]
  exact hbooks

theorem Books.answer (hbooks : Books h users) {ok : Bool} {previous : List CompatUser}
    (hload : loadUsers h ok = .ok previous) : previous = users :=
  Except.ok.inj ((loadUsers_of_answer hload).symm.trans hbooks)

theorem reports_error {ε α : Type} {reports : ε → Bool} {e : ε} (hbooks : Books t users) :
    Reports users cmd (.ok (.of reports (.error e : Except ε α))) t := by
  refine .inr ⟨_, rfl, ?_, hbooks⟩
  cases hr : reports e <;> simp [Outcome.of, hr]

private theorem userCommand_reports (hbooks : Books h users) (cmd : UserCommand) (a : UserAnswers) :
    Wp ((Command.user cmd a).run site inv) h (fun _ => Changes users (.user cmd a))
      (Reports users (.user cmd a)) := by
  rw [Command.run, wp_outcome, userCommand, wp_look_bind]
  cases hload : loadUsers h a.readUsers with
  | error e => exact wp_fail.mpr (reports_error hbooks)
  | ok previous =>
    obtain rfl := hbooks.answer hload
    dsimp only
    cases hmutate : cmd.mutate previous with
    | error e => exact wp_fail.mpr (reports_error hbooks)
    | ok next =>
      have hnew : ∀ t, t.content? .users = some (.json (savedUsers next)) →
          ∃ next, (Command.user cmd a).mutate previous = .ok next ∧ Books t next :=
        fun t ht => ⟨next, hmutate, loadUsers_saved ht⟩
      refine (applyUsersAndSave_wp site inv h previous next a).mono ?_ ?_
      · intro w t ht
        rcases ht with hold | ⟨-, hsaved, -⟩
        · exact .inl (hbooks.of_files hold)
        · exact .inr (hnew t hsaved)
      · intro r t hr
        cases hr with
        | notRendered hr => exact reports_error (hbooks.of_files hr.frame.users)
        | saved hr hsave ht husers => exact .inl ⟨rfl, hnew t husers⟩
        | compensated hr hsave hu husers hc =>
          have hold := (hc.frame.users.trans husers).trans hr.frame.users
          exact reports_error (hbooks.of_files hold)

private theorem userRotateToken_reports (hbooks : Books h users) (id tokenHash : String)
    (readUsers : Bool) (a : SaveAnswers) :
    Wp ((Command.userRotateToken id tokenHash readUsers a).run site inv) h
      (fun _ => Changes users (.userRotateToken id tokenHash readUsers a))
      (Reports users (.userRotateToken id tokenHash readUsers a)) := by
  rw [Command.run, wp_outcome, cmdUserRotateToken, wp_look_bind]
  cases hload : loadUsers h readUsers with
  | error e => exact wp_fail.mpr (reports_error hbooks)
  | ok previous =>
    obtain rfl := hbooks.answer hload
    dsimp only
    cases hmutate : modifyUser id (fun u => { u with subscriptionTokenHashHex := tokenHash })
        previous with
    | error e => exact wp_fail.mpr (reports_error hbooks)
    | ok next =>
      have hnew : ∀ t, t.content? .users = some (.json (savedUsers next)) →
          ∃ next, (Command.userRotateToken id tokenHash readUsers a).mutate previous = .ok next ∧
            Books t next :=
        fun t ht => ⟨next, hmutate, loadUsers_saved ht⟩
      rw [wp_mapError]
      refine (saveUsersAtomic_wp inv.pid next a h).mono ?_ ?_
      · intro w t ht
        rcases ht.2.2 with hold | ⟨-, hsaved⟩
        · exact .inl (hbooks.of_files hold)
        · exact .inr (hnew t hsaved)
      · intro r t hr
        have hend := hr.2
        split_ifs at hend
        · obtain ⟨rfl, hsaved⟩ := hend
          exact .inl ⟨rfl, hnew t hsaved⟩
        · obtain ⟨⟨e, rfl⟩, hold⟩ := hend
          exact reports_error (hbooks.of_files hold)

private theorem regenerate_keepsBooks (hbooks : Books h users) (live : Bool)
    (a : RegenerateAnswers) :
    Wp (regenerateSingboxConfig site inv live a) h (fun _ t => Books t users)
      (fun _ t => Books t users) := by
  rw [regenerateSingboxConfig, wp_look_bind]
  cases loadUsers h a.readUsers with
  | error e => exact wp_fail.mpr hbooks
  | ok previous =>
    dsimp only
    rw [wp_mapError]
    refine (renderAndApply_wp site inv h previous live a.render).mono ?_ ?_
    · exact fun _ t ht => hbooks.of_files ht.1.users
    · exact fun _ t ht => hbooks.of_files ht.frame.users

private theorem books_of_migrated {file : File} {legacy : List CompatUser} (hbooks : Books h users)
    (hfile : h.files (.live .users) = some file)
    (hdetect : detectUsersBytes file.content.json? = .legacy)
    (hlegacy : file.content.json?.bind usersOfJson = some legacy)
    (ht : t.content? .users = some (.json (savedUsers legacy))) : Books t users := by
  have hparse := parseUsersBytes_of_legacy hdetect hlegacy
  have hload : loadUsers h true = .ok legacy := by
    rw [loadUsers_of_some (c := file.content) (by simp [Host.content?, hfile])]
    exact hparse
  obtain rfl : legacy = users := Except.ok.inj (hload.symm.trans hbooks)
  exact loadUsers_saved ht

private theorem migrateUsers_keepsBooks (hbooks : Books h users) (a : MigrateAnswers) :
    Wp (migrateUsers inv a) h (fun _ t => Books t users) (fun _ t => Books t users) := by
  have hput : ∀ {s : Host} {p : Path} {f : Option File}, p ≠ .live .users → Books s users →
      Books (s.put p f) users := by
    intro s p f hp hs
    exact hs.of_files (Host.put_files_of_ne s p f (Ne.symm hp))
  unfold migrateUsers
  rw [wp_look_bind]
  cases hfile : h.files (.live .users) with
  | none => exact wp_pure.mpr hbooks
  | some file =>
    dsimp only
    cases hdetect : (if a.detect then detectUsersBytes file.content.json? else .corrupted) with
    | missing => exact wp_pure.mpr hbooks
    | current => exact wp_pure.mpr hbooks
    | future v => exact wp_fail.mpr hbooks
    | corrupted => exact wp_fail.mpr hbooks
    | legacy =>
      dsimp only
      refine wp_require_bind (fun _ => hbooks) fun _ => ?_
      cases hlegacy : file.content.json?.bind usersOfJson with
      | none => exact wp_fail.mpr hbooks
      | some legacy =>
        have hdetect : detectUsersBytes file.content.json? = .legacy := by
          split_ifs at hdetect
          exact hdetect
        dsimp only
        refine wp_require_bind (fun _ => hbooks) fun _ => ?_
        rw [wp_bind]
        have hbackup : ∀ f, Books (h.put (.preMigration .users a.time) f) users :=
          fun f => hput (by simp) hbooks
        refine wp_writeFile hbackup (fun _ => ?_) fun _ => hbackup
        refine wp_require_bind (fun _ => hbackup _) fun _ => ?_
        rw [wp_bind]
        have hwritten : ∀ f g, Books ((h.put (.preMigration .users a.time) f).put
            (.tmp .users inv.pid) g) users := fun f g => hput (by simp) (hbackup f)
        refine wp_writeFile (hwritten _) (fun _ => ?_) fun _ => hwritten _
        refine wp_require_bind (fun _ => hwritten _ _) fun _ => ?_
        -- the rename puts the same list in place of itself
        have hrenamed : ∀ {s : Host} {f : File}, f.content = .json (savedUsers legacy) →
            Books (s.put (.live .users) (some f)) users := by
          intro s f hf
          exact books_of_migrated hbooks hfile hdetect hlegacy (by simp [Host.content?, hf])
        refine wp_renameFile (fun f hf _ => hrenamed ?_) (fun f hf _ => hrenamed ?_)
          fun _ => hwritten _ _
        · rw [Host.put_files_same] at hf
          rw [← Option.some.inj hf]
        · rw [Host.put_files_same] at hf
          rw [← Option.some.inj hf]

/-- At every point a command has done nothing to the accounts or all it is to do, and at its end it
has done what it says. -/
theorem Command.reports (hbooks : Books h users) (hcmd : cmd.onAccounts = true) :
    Wp (cmd.run site inv) h (fun _ => Changes users cmd) (Reports users cmd) := by
  cases cmd with
  | init rotate a => simp [Command.onAccounts] at hcmd
  | hysteriaObfsRotate a => simp [Command.onAccounts] at hcmd
  | restore archive a => simp [Command.onAccounts] at hcmd
  | user cmd a => exact userCommand_reports hbooks cmd a
  | userRotateToken id tokenHash readUsers a =>
    exact userRotateToken_reports hbooks id tokenHash readUsers a
  | renderConfig requireApplied a =>
    have hok : ∀ {t : Host}, Books t users →
        Reports users (.renderConfig requireApplied a) (.ok .ok) t :=
      fun ht => .inl ⟨rfl, users, rfl, ht⟩
    rw [Command.run, wp_outcome, cmdRenderConfig, wp_bind]
    refine (regenerate_keepsBooks hbooks false a).mono (fun _ _ ht => .inl ht) fun r t ht => ?_
    cases r with
    | error e => exact reports_error ht
    | ok applied =>
      dsimp only
      split_ifs
      · exact wp_fail.mpr (reports_error ht)
      · exact wp_pure.mpr (hok ht)
  | configMigrate a =>
    have hok : ∀ {t : Host}, Books t users → Reports users (.configMigrate a) (.ok .ok) t :=
      fun ht => .inl ⟨rfl, users, rfl, ht⟩
    rw [Command.run, wp_outcome, cmdConfigMigrate]
    refine wp_require_bind (fun _ => reports_error hbooks) fun _ => ?_
    rw [wp_bind, wp_mapError]
    refine (migrateUsers_keepsBooks hbooks a).mono (fun _ _ ht => .inl ht) fun r t ht => ?_
    cases r with
    | error e => exact reports_error ht
    | ok _ =>
      dsimp only [Except.mapError]
      refine wp_require_bind (fun _ => reports_error ht) fun _ => ?_
      rw [wp_bind, wp_attempt]
      exact (regenerate_keepsBooks ht false a.regenerate).mono (fun _ _ hs => .inl hs)
        fun _ _ hs => wp_pure.mpr (hok hs)

theorem replay_cons {cmds : List Command} {final : List CompatUser} :
    replay users (cmd :: cmds) = .ok final ↔
      ∃ next, cmd.mutate users = .ok next ∧ replay next cmds = .ok final := by
  rw [replay, List.foldlM_cons]
  cases cmd.mutate users with
  | error e => simp
  | ok next => simp [replay]

/-- A host that commands have run on, with failures and kills anywhere, holds the accounts that the
commands which took effect make when they are run one after the other and nothing goes wrong. -/
theorem History.replays {steps : List Step} (hist : History site h steps t)
    (hbooks : Books h users) (hsteps : ∀ step ∈ steps, step.1.onAccounts = true) :
    ∃ cmds final, Commits steps cmds ∧ replay users cmds = .ok final ∧ Books t final := by
  induction hist generalizing users with
  | nil => exact ⟨[], users, .nil, rfl, hbooks⟩
  | @ended h t cmd outcome steps inv hend hrest ih =>
    obtain ⟨hcmd, hlater⟩ := List.forall_mem_cons.mp hsteps
    have hreport : Reports users cmd (cmd.run site inv h).result (cmd.run site inv h).final :=
      (Command.reports hbooks hcmd).2
    rw [hend] at hreport
    rcases hreport with ⟨hok, next, hnext, hafter⟩ | ⟨_, hout, hfailed, hafter⟩
    · obtain rfl : outcome = .ok := Except.ok.inj hok
      obtain ⟨cmds, final, hcommits, hreplay, hfinal⟩ := ih hafter hlater
      exact ⟨cmd :: cmds, final, .reported hcommits, replay_cons.mpr ⟨next, hnext, hreplay⟩, hfinal⟩
    · obtain ⟨cmds, final, hcommits, hreplay, hfinal⟩ := ih hafter hlater
      obtain rfl := Except.ok.inj hout
      have hmessage : some outcome ≠ some .ok := fun heq => hfailed (Option.some.inj heq)
      exact ⟨cmds, final, .dropped hmessage hcommits, hreplay, hfinal⟩
  | @killed h s t cmd steps inv hs hrest ih =>
    obtain ⟨hcmd, hlater⟩ := List.forall_mem_cons.mp hsteps
    have hchange : Changes users cmd s :=
      (Command.reports hbooks hcmd).of_mem_states (.inl hbooks) (fun _ _ hr => hr.changes) hs
    rcases hchange with hsame | ⟨next, hnext, hafter⟩
    · obtain ⟨cmds, final, hcommits, hreplay, hfinal⟩ := ih hsame hlater
      exact ⟨cmds, final, .dropped (by simp) hcommits, hreplay, hfinal⟩
    · obtain ⟨cmds, final, hcommits, hreplay, hfinal⟩ := ih hafter hlater
      exact ⟨cmd :: cmds, final, .landed hcommits, replay_cons.mpr ⟨next, hnext, hreplay⟩, hfinal⟩
  | elsewhere hs hrest ih => exact ih (hbooks.of_files hs) hsteps

end Commands

end Vpn1.Admin
