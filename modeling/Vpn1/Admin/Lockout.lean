import Vpn1.Admin.Barrier

/-! Credentials that are out stay out. A reconciliation takes whoever has expired off the running
sing-box; no later command brings a document back that still lists them, whether it fails, rolls back
or is killed on the way. -/

namespace Vpn1.Admin

open Compat Traced

section Credentials

/-- Every account that holds the credential, if there is one, has expired by `t`. -/
def Lapsed (cred : Credential) (t : Int64) (users : List CompatUser) : Prop :=
  ∀ u ∈ users, cred.heldBy u = true → ∃ expiry ∈ u.expiresAt, expiry ≤ t

def UserCommand.credentials : UserCommand → List Credential
  | .create _ _ uuid password _ _ _ => [.vless uuid, .hysteria2 password]
  | .rotateVless _ uuid => [.vless uuid]
  | .rotateHysteria _ password => [.hysteria2 password]
  | .rotateCredentials _ uuid password => [.vless uuid, .hysteria2 password]
  | .setEnabled .. | .remove .. => []

def Command.credentials : Command → List Credential
  | .user cmd _ => cmd.credentials
  | _ => []

def Command.clocks : Command → List Int64
  | .init _ a => [a.rotate.now]
  | .hysteriaObfsRotate a => [a.now]
  | .restore _ a => [a.regenerate.render.now, a.rollback.regenerate.render.now]
  | .renderConfig _ a => [a.render.now]
  | .configMigrate a => [a.regenerate.render.now]
  | .user _ a => [a.forward.now, a.compensate.now]
  | .userRotateToken .. => []

def Command.restored : Command → Option Content
  | .restore archive _ => archive .users
  | _ => none

/-- A command that is run after `t` and does not hand the credential out again. -/
structure Command.Withholds (cred : Credential) (t : Int64) (cmd : Command) : Prop where
  clocks : ∀ now ∈ cmd.clocks, t ≤ now
  credentials : cred ∉ cmd.credentials
  restored : ∀ bytes ∈ cmd.restored, ∀ users, parseUsersBytes bytes.json? = .ok users →
    Lapsed cred t users

/-- Hosts that are reached by commands run to their end or killed at any point, and by sing-box being
stopped or started again. -/
inductive Later (site : Site) (may : Command → Prop) (first : Host) : Host → Prop
  | first : Later site may first first
  | ran {h s : Host} (before : Later site may first h) (inv : Invocation) {cmd : Command}
      (hmay : may cmd) (hs : s ∈ (cmd.run site inv).states h) : Later site may first s
  | stopped {h : Host} (before : Later site may first h) :
      Later site may first { h with loaded := none }
  | started {h : Host} (before : Later site may first h) :
      Later site may first { h with loaded := h.json? .config }

end Credentials

section Accounts

variable {cred : Credential} {t : Int64} {users next : List CompatUser}

private theorem isActive_of_expired {u : CompatUser} {expiry now : Int64}
    (hexpiry : u.expiresAt = some expiry) (hnow : expiry ≤ now) : u.isActive now = false := by
  simp [CompatUser.isActive, hexpiry, Int64.not_lt.mpr hnow]

theorem mem_modifyUser {id : String} {f : CompatUser → CompatUser} {v : CompatUser}
    (hmodify : modifyUser id f users = .ok next) (hv : v ∈ next) :
    v ∈ users ∨ ∃ u ∈ users, v = f u := by
  induction users generalizing next with
  | nil => simp [modifyUser] at hmodify
  | cons u users ih =>
    rw [modifyUser] at hmodify
    split_ifs at hmodify with hid
    · rw [← Except.ok.inj hmodify] at hv
      rcases List.mem_cons.mp hv with hv | hv
      · exact .inr ⟨u, List.mem_cons_self, hv⟩
      · exact .inl (List.mem_cons_of_mem _ hv)
    · cases hrest : modifyUser id f users with
      | error e => simp [hrest, Except.map] at hmodify
      | ok rest =>
        rw [hrest] at hmodify
        rw [← Except.ok.inj hmodify] at hv
        rcases List.mem_cons.mp hv with hv | hv
        · exact .inl (List.mem_cons.mpr (.inl hv))
        · rcases ih hrest hv with hold | ⟨w, hw, hchanged⟩
          · exact .inl (List.mem_cons_of_mem _ hold)
          · exact .inr ⟨w, List.mem_cons_of_mem _ hw, hchanged⟩

theorem Lapsed.modified {id : String} {f : CompatUser → CompatUser} (hlapsed : Lapsed cred t users)
    (hmodify : modifyUser id f users = .ok next) (hexpiry : ∀ u, (f u).expiresAt = u.expiresAt)
    (hheld : ∀ u, cred.heldBy (f u) = true → cred.heldBy u = true) : Lapsed cred t next := by
  intro v hv hcred
  rcases mem_modifyUser hmodify hv with hold | ⟨u, hu, rfl⟩
  · exact hlapsed v hold hcred
  · rw [hexpiry]
    exact hlapsed u hu (hheld u hcred)

theorem Lapsed.mutate {cmd : UserCommand} (hlapsed : Lapsed cred t users)
    (hcmd : cred ∉ cmd.credentials) (hmutate : cmd.mutate users = .ok next) :
    Lapsed cred t next := by
  cases cmd with
  | create draws name uuid password tokenHash createdAt expiresAt =>
    simp only [UserCommand.mutate] at hmutate
    cases hdraw : draws.find? fun id => !users.any (·.id == id) with
    | none => simp [hdraw] at hmutate
    | some id =>
      rw [hdraw] at hmutate
      rw [← Except.ok.inj hmutate]
      intro v hv hcred
      rcases List.mem_append.mp hv with hv | hv
      · exact hlapsed v hv hcred
      · rw [List.mem_singleton.mp hv] at hcred
        cases cred <;> simp_all [UserCommand.credentials, Credential.heldBy]
  | setEnabled id enabled => exact hlapsed.modified hmutate (fun _ => rfl) fun _ hu => hu
  | rotateVless id uuid =>
    refine hlapsed.modified hmutate (fun _ => rfl) fun u hu => ?_
    cases cred <;> simp_all [UserCommand.credentials, Credential.heldBy]
  | rotateHysteria id password =>
    refine hlapsed.modified hmutate (fun _ => rfl) fun u hu => ?_
    cases cred <;> simp_all [UserCommand.credentials, Credential.heldBy]
  | rotateCredentials id uuid password =>
    refine hlapsed.modified hmutate (fun _ => rfl) fun u hu => ?_
    cases cred <;> simp_all [UserCommand.credentials, Credential.heldBy]
  | remove id =>
    simp only [UserCommand.mutate] at hmutate
    split_ifs at hmutate
    rw [← Except.ok.inj hmutate]
    exact fun v hv => hlapsed v (List.mem_of_mem_filter hv)

end Accounts

section Lockout

variable {site : Site} {cred : Credential} {t : Int64} {h : Host}

def lapsedBarrier (site : Site) (cred : Credential) (t : Int64) : Barrier site where
  doc doc := ¬ cred.acceptedBy doc
  store := Lapsed cred t
  clock now := t ≤ now
  nobody := by simp [Lapsed]
  rendered hlapsed hclock := by
    rw [acceptedBy_render]
    rintro ⟨u, hu, hactive, hheld⟩
    obtain ⟨expiry, hexpiry, hexpired⟩ := hlapsed u hu hheld
    have hinactive := isActive_of_expired hexpiry (Int64.le_trans hexpired hclock)
    rw [hinactive] at hactive
    exact nomatch hactive

theorem Command.Withholds.allows {cmd : Command} (hcmd : cmd.Withholds cred t) :
    (lapsedBarrier site cred t).Allows cmd := by
  have hclocks := hcmd.clocks
  cases cmd with
  | init rotate a => exact hclocks _ List.mem_cons_self
  | hysteriaObfsRotate a => exact hclocks _ List.mem_cons_self
  | restore archive a =>
    exact ⟨hcmd.restored, hclocks _ List.mem_cons_self,
      hclocks _ (List.mem_cons_of_mem _ List.mem_cons_self)⟩
  | renderConfig requireApplied a => exact hclocks _ List.mem_cons_self
  | configMigrate a => exact hclocks _ List.mem_cons_self
  | user cmd a =>
    exact ⟨fun users next hlapsed hmutate => hlapsed.mutate hcmd.credentials hmutate,
      hclocks _ List.mem_cons_self, hclocks _ (List.mem_cons_of_mem _ List.mem_cons_self)⟩
  | userRotateToken id tokenHash readUsers a =>
    exact fun users next hlapsed hmodify => hlapsed.modified hmodify (fun _ => rfl) fun _ hu => hu

/-- A call that went live leaves sing-box on `config.json`, which is the document it rendered. -/
theorem RenderPath.live_eq {inv : Invocation} {users : List CompatUser} {live : Bool}
    {a : RenderAnswers} {s : Host} (hstamp : StampTrue h)
    (hpath : RenderPath site inv h users live a (.ok true) s) :
    ∃ doc, candidateDoc site h users a = .ok doc ∧ s.json? .config = some doc ∧
      s.loaded = some doc := by
  cases hpath with
  | @current doc hdoc _ hcurrent =>
    have hconfig := alreadyCurrent_config hcurrent
    exact ⟨doc, hdoc, hconfig, hstamp doc hconfig (alreadyCurrent_stamp hcurrent)⟩
  | @wentLive doc _ _ hp _ hswap _ _ _ _ hs =>
    refine ⟨doc, hp.candidate, ?_, hs.loaded⟩
    rw [hs.json? (by simp [stampPaths])]
    exact hswap.config_json

theorem RegeneratePath.users_of_ok {inv : Invocation} {live applied : Bool} {a : RegenerateAnswers}
    {r : Except UserError Bool} {s : Host} (hpath : RegeneratePath site inv h live a r s)
    (hr : r = .ok applied) : ∃ users, loadUsers h a.readUsers = .ok users ∧
      RenderPath site inv h users live a.render (.ok applied) s := by
  cases hpath with
  | notLoaded he => exact nomatch hr
  | @rendered users result _ hload hrender =>
    cases result with
    | error e => exact nomatch hr
    | ok b =>
      obtain rfl : b = applied := Except.ok.inj hr
      exact ⟨users, hload, hrender⟩

private theorem holds_of_reconciled {inv : Invocation} {a : RegenerateAnswers}
    (hstamp : StampTrue h) (hstore : ∀ users, loadUsers h true = .ok users → Lapsed cred t users)
    (hclock : t ≤ a.render.now) (hlive : (cmdRenderConfig site inv true a h).result = .ok ()) :
    (lapsedBarrier site cred t).Holds ∅ (cmdRenderConfig site inv true a h).final := by
  have hwp : Wp (cmdRenderConfig site inv true a) h (fun _ _ => True) fun r s => r = .ok () →
      RegeneratePath site inv h false a (.ok true) s := by
    rw [cmdRenderConfig, wp_bind]
    refine (regenerate_wp site inv false a h).mono (fun _ _ _ => trivial) fun r s hpath => ?_
    cases r with
    | error e =>
      intro herror
      contradiction
    | ok applied =>
      cases applied with
      | false =>
        apply wp_fail.mpr
        intro herror
        contradiction
      | true => exact wp_pure.mpr fun _ => hpath
  obtain ⟨users, hload, hrender⟩ := (hwp.2 hlive).users_of_ok rfl
  generalize (cmdRenderConfig site inv true a h).final = s at hrender
  obtain ⟨doc, hdoc, hconfig, hloaded⟩ := hrender.live_eq hstamp
  have hlapsed : Lapsed cred t users := hstore users (loadUsers_of_answer hload)
  have hout : ¬ cred.acceptedBy doc :=
    Barrier.doc_of_candidateDoc (B := lapsedBarrier site cred t) hlapsed hclock hdoc
  obtain ⟨file, hfile, hcontent⟩ := Option.map_eq_some_iff.mp (Host.content?_of_json? hconfig)
  refine ⟨by rw [Host.exists?, hfile, Option.isSome_some], ?_, ?_⟩
  · rintro p (rfl | rfl | hp) other hother
    · rw [hfile] at hother
      rw [← Option.some.inj hother, hcontent]
      exact Barrier.fine_doc (B := lapsedBarrier site cred t) hout
    · intro parsed hparse
      rw [hrender.frame.users] at hother
      apply hstore
      rw [loadUsers_of_some (c := other.content) (by simp [Host.content?, hother])]
      exact hparse
    · exact absurd hp (Set.notMem_empty p)
  · intro other hother
    rw [hloaded] at hother
    rwa [← Option.some.inj hother]

/-- Every host that is reached from behind a line by commands it allows is behind it. -/
theorem Later.holds {B : Barrier site} {may : Command → Prop} (hmay : ∀ cmd, may cmd → B.Allows cmd)
    {first later : Host} (hfirst : B.Holds ∅ first) (hlater : Later site may first later) :
    B.Holds ∅ later := by
  induction hlater with
  | first => exact hfirst
  | ran before inv hcmd hs ih =>
    exact ((Barrier.keeps_command inv (hmay _ hcmd)).wp ih).of_mem_states ih (fun _ _ ht => ht) hs
  | stopped before ih => exact ⟨ih.config, ih.files, fun _ hdoc => nomatch hdoc⟩
  | started before ih => exact ⟨ih.config, ih.files, ih.json?⟩

/-- Once a reconciliation has succeeded, a credential that no account holds any more, or only expired
ones, is accepted by the running sing-box at no later time: whatever commands are run, fail, roll back
or are killed, and whenever sing-box is restarted. -/
theorem lapsed_credential_stays_out (inv : Invocation) (a : RegenerateAnswers) {later : Host}
    (hstamp : StampTrue h) (hstore : ∀ users, loadUsers h true = .ok users → Lapsed cred t users)
    (hclock : t ≤ a.render.now) (hlive : (cmdRenderConfig site inv true a h).result = .ok ())
    (hlater : Later site (·.Withholds cred t) (cmdRenderConfig site inv true a h).final later) :
    ∀ doc ∈ later.loaded, ¬ cred.acceptedBy doc :=
  (hlater.holds (fun _ hcmd => hcmd.allows)
    (holds_of_reconciled hstamp hstore hclock hlive)).loaded

end Lockout

section Sample

def expiredUser : CompatUser := { sampleUser with expiresAt := some 50 }

def staleDoc : Json :=
  renderSingboxServerConfig [expiredUser] (realityParams sampleSite sampleKey sampleKey "0a1b2c3d")
    (loadHysteriaParams sampleSite bareHost true) sampleSite.cfg.ports 10

/-- A host on which the user has expired and sing-box does not know yet. -/
def expiredHost : Host where
  files
    | .live .users => some ⟨.json (savedUsers [expiredUser]), 0o640⟩
    | .live .config => some ⟨.json staleDoc, 0o640⟩
    | p => sampleKeyFiles p
  umask := 0o022
  binaryInstalled := true
  masqueradeDir := false
  loaded := some staleDoc
  cached := none

def reconciledHost : Host :=
  (cmdRenderConfig sampleSite ⟨1, false⟩ true ⟨true, .clear⟩ expiredHost).final

/-- A new user whose reload fails, so that the previous configuration is put back. -/
def rolledBackCreate : Command :=
  .user (.create ["user_2"] "two" "22222222-2222-4222-8222-222222222222" "pw2" "01" 0 none)
    { UserAnswers.clear with forward := { RenderAnswers.clear with restart := .notActive } }

def rolledBackHost : Host := (rolledBackCreate.run sampleSite ⟨2, false⟩ reconciledHost).final

/-- The user was let in and is not any more, also not when sing-box falls back to the configuration
of before. -/
theorem expiredUser_stays_out :
    (Credential.vless expiredUser.vlessUuid).acceptedBy staleDoc ∧
      expiredHost.loaded = some staleDoc ∧ rolledBackHost.loaded.isSome = true ∧
      ∀ doc ∈ rolledBackHost.loaded, ¬ (Credential.vless expiredUser.vlessUuid).acceptedBy doc := by
  have hbefore : (Credential.vless expiredUser.vlessUuid).acceptedBy staleDoc :=
    acceptedBy_render.mpr ⟨expiredUser, List.mem_cons_self, rfl, rfl⟩
  have hstamp : StampTrue expiredHost := fun _ _ hv => nomatch hv
  have hstore : ∀ users, loadUsers expiredHost true = .ok users →
      Lapsed (.vless expiredUser.vlessUuid) 50 users := by
    intro users hload
    obtain rfl : [expiredUser] = users := Except.ok.inj ((loadUsers_saved rfl).symm.trans hload)
    intro u hu _
    rw [List.mem_singleton.mp hu]
    exact ⟨50, rfl, by decide⟩
  have hlive : (cmdRenderConfig sampleSite ⟨1, false⟩ true ⟨true, .clear⟩ expiredHost).result =
      .ok () := by decide +kernel
  have hclocks : ∀ now ∈ rolledBackCreate.clocks, (50 : Int64) ≤ now :=
    List.forall_mem_cons.mpr ⟨by decide, List.forall_mem_singleton.mpr (by decide)⟩
  have hmay : rolledBackCreate.Withholds (.vless expiredUser.vlessUuid) 50 :=
    ⟨hclocks, by decide, fun _ hbytes => nomatch hbytes⟩
  have hlater : Later sampleSite (·.Withholds (.vless expiredUser.vlessUuid) 50) reconciledHost
      rolledBackHost := .ran .first ⟨2, false⟩ hmay (final_mem_states _ _)
  exact ⟨hbefore, rfl, by decide +kernel,
    lapsed_credential_stays_out ⟨1, false⟩ ⟨true, .clear⟩ hstamp hstore (by decide) hlive hlater⟩

end Sample

end Vpn1.Admin
