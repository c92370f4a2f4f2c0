import Vpn1.Admin.Render

/-! The user commands: load, mutate, load the new authorization into sing-box, and only then
publish it as `users.json`. -/

namespace Vpn1.Admin

open Compat Traced

def saveUsersAtomic (pid : Nat) (users : List CompatUser) (a : SaveAnswers) :
    Prog Host Event CompatError Unit := do
  require a.createDir .io
  require a.chmodDir .io
  writeFile (.tmp .users pid) (.json (savedUsers users)) 0o640 a.write .io
  require a.ownership .io
  renameFile (.tmp .users pid) (.live .users) a.rename .io

def SaveAnswers.succeeds (a : SaveAnswers) : Bool :=
  a.createDir && a.chmodDir && a.write == .done && a.ownership && a.rename

def savePaths (pid : Nat) : List Path := [.tmp .users pid, .live .users]

/-- A save publishes the list in one step, or leaves the store as it was. -/
theorem saveUsersAtomic_wp (pid : Nat) (users : List CompatUser) (a : SaveAnswers) (h : Host) :
    Wp (saveUsersAtomic pid users a) h
      (fun w t => w = .io ∧ FilesOnly h t (savePaths pid) ∧
        (t.files (.live .users) = h.files (.live .users) ∨
          a.succeeds = true ∧ t.content? .users = some (.json (savedUsers users))))
      fun r t => FilesOnly h t (savePaths pid) ∧
        if a.succeeds then r = .ok () ∧ t.content? .users = some (.json (savedUsers users))
        else (∃ e, r = .error e) ∧ t.files (.live .users) = h.files (.live .users) := by
  have htp : Path.tmp .users pid ∈ savePaths pid := by simp [savePaths]
  have hup : Path.live .users ∈ savePaths pid := by simp [savePaths]
  have h0 : FilesOnly h h (savePaths pid) := .refl _ _
  simp only [saveUsersAtomic, wp_bind, wp_require]
  cases hd : a.createDir with
  | false => simp [SaveAnswers.succeeds, hd, h0]
  | true =>
    cases hm : a.chmodDir with
    | false => simp [SaveAnswers.succeeds, hm, h0]
    | true =>
      simp only [if_true]
      apply wp_writeFile
      · exact fun f => ⟨rfl, h0.put htp, .inl (by simp)⟩
      · intro hw
        cases ho : a.ownership with
        | false => simpa [SaveAnswers.succeeds, ho] using h0.put htp
        | true =>
          simp only [if_true]
          have hnew : ∀ f, (h.put (.tmp .users pid) (some ⟨.json (savedUsers users),
              h.openMode (.tmp .users pid) 0o640⟩)).files (.tmp .users pid) = some f →
              f.content = .json (savedUsers users) := by
            intro f hf
            simp only [Host.put_files_same, Option.some.injEq] at hf
            rw [← hf]
          have hsucc : a.rename = true → a.succeeds = true := by
            intro hr
            simp [SaveAnswers.succeeds, hd, hm, hw, ho, hr]
          apply wp_renameFile
          · intro f hf hr
            exact ⟨rfl, ((h0.put htp).put htp).put hup,
              .inr ⟨hsucc hr, by simp [Host.content?, hnew f hf]⟩⟩
          · intro f hf hr
            refine ⟨((h0.put htp).put htp).put hup, ?_⟩
            rw [if_pos (hsucc hr)]
            exact ⟨rfl, by simp [Host.content?, hnew f hf]⟩
          · rintro (hnone | hr)
            · simp at hnone
            · simpa [SaveAnswers.succeeds, hr] using h0.put htp
      · intro hw f
        simpa [SaveAnswers.succeeds, hw] using h0.put htp

/-- `drawsExhausted` stands for a run that is still drawing ids. -/
inductive UserError
  | load (cause : CompatError)
  | noSuchUser (id : String)
  | drawsExhausted
  | render (cause : RenderError)
  | notCommitted (cause : CompatError) (restored : Bool)
  | notSaved (cause : CompatError)
  | notApplied
  deriving DecidableEq, Repr

/-- The commands that go through `apply_users_and_save`, with the secrets they drew. -/
inductive UserCommand
  | create (draws : List String) (name uuid password tokenHash : String) (createdAt : Int64)
      (expiresAt : Option Int64)
  | setEnabled (id : String) (enabled : Bool)
  | rotateVless (id uuid : String)
  | rotateHysteria (id password : String)
  | rotateCredentials (id uuid password : String)
  | remove (id : String)
  deriving DecidableEq, Repr

/-- `find_user_mut` followed by an assignment: the first user of that id is changed. -/
def modifyUser (id : String) (f : CompatUser → CompatUser) :
    List CompatUser → Except UserError (List CompatUser)
  | [] => .error (.noSuchUser id)
  | u :: users => if u.id = id then .ok (f u :: users) else (modifyUser id f users).map (u :: ·)

def UserCommand.mutate (users : List CompatUser) :
    UserCommand → Except UserError (List CompatUser)
  | .create draws name uuid password tokenHash createdAt expiresAt =>
    -- an id that is taken is drawn again
    match draws.find? fun id => !users.any (·.id == id) with
    | none => .error .drawsExhausted
    | some id => .ok (users ++ [⟨id, name, true, uuid, password, tokenHash, createdAt, expiresAt⟩])
  | .setEnabled id enabled => modifyUser id (fun u => { u with enabled := enabled }) users
  | .rotateVless id uuid => modifyUser id (fun u => { u with vlessUuid := uuid }) users
  | .rotateHysteria id password =>
    modifyUser id (fun u => { u with hysteria2Password := password }) users
  | .rotateCredentials id uuid password =>
    modifyUser id (fun u => { u with vlessUuid := uuid, hysteria2Password := password }) users
  | .remove id =>
    let kept := users.filter (·.id != id)
    if kept.length = users.length then .error (.noSuchUser id) else .ok kept

section

variable (site : Site) (inv : Invocation)

def applyUsersAndSave (previous users : List CompatUser) (a : UserAnswers) :
    Prog Host Event UserError Bool := do
  let live ← Prog.mapError .render (renderAndApplySingboxConfig site inv users true a.forward)
  match ← Prog.attempt (saveUsersAtomic inv.pid users a.save) with
  | .ok () => pure live
  | .error e =>
    let rollback ← Prog.attempt (renderAndApplySingboxConfig site inv previous true a.compensate)
    Prog.fail (.notCommitted e rollback.isOk)

def userCommand (cmd : UserCommand) (a : UserAnswers) : Prog Host Event UserError Bool := do
  let previous ← Prog.look (loadUsers · a.readUsers)
  match previous with
  | .error e => Prog.fail (.load e)
  | .ok previous =>
    match cmd.mutate previous with
    | .error e => Prog.fail e
    | .ok users => applyUsersAndSave site inv previous users a

end

/-- Every way `apply_users_and_save` returns from `h`. -/
inductive UserPath (site : Site) (inv : Invocation) (h : Host) (previous users : List CompatUser)
    (a : UserAnswers) : Except UserError Bool → Host → Prop
  | notRendered {e : RenderError} {t : Host}
      (hr : RenderPath site inv h users true a.forward (.error e) t) :
      UserPath site inv h previous users a (.error (.render e)) t
  | saved {live : Bool} {s t : Host} (hr : RenderPath site inv h users true a.forward (.ok live) s)
      (hsave : a.save.succeeds = true) (ht : FilesOnly s t (savePaths inv.pid))
      (husers : t.content? .users = some (.json (savedUsers users))) :
      UserPath site inv h previous users a (.ok live) t
  | compensated {live : Bool} {s u t : Host} {e : CompatError} {r : Except RenderError Bool}
      (hr : RenderPath site inv h users true a.forward (.ok live) s)
      (hsave : a.save.succeeds = false) (hu : FilesOnly s u (savePaths inv.pid))
      (husers : u.files (.live .users) = s.files (.live .users))
      (hc : RenderPath site inv u previous true a.compensate r t) :
      UserPath site inv h previous users a (.error (.notCommitted e r.isOk)) t

/-- What holds of the store at every point: it is the old one, or the new one after a call that
returned `Ok` and with what that call left loaded. -/
def UserPoint (site : Site) (inv : Invocation) (h : Host) (users : List CompatUser)
    (a : UserAnswers) (t : Host) : Prop :=
  t.files (.live .users) = h.files (.live .users) ∨
    a.save.succeeds = true ∧ t.content? .users = some (.json (savedUsers users)) ∧
      ∃ live s, RenderPath site inv h users true a.forward (.ok live) s ∧ t.loaded = s.loaded

theorem RenderFrame.users {pid : Nat} {h t : Host} (ht : RenderFrame pid h t) :
    t.files (.live .users) = h.files (.live .users) :=
  ht.same.files _ (by simp [renderPaths, swapPaths, stampPaths])

theorem applyUsersAndSave_wp (site : Site) (inv : Invocation) (h : Host)
    (previous users : List CompatUser) (a : UserAnswers) :
    Wp (applyUsersAndSave site inv previous users a) h
      (fun _ t => UserPoint site inv h users a t) (UserPath site inv h previous users a) := by
  simp only [applyUsersAndSave, wp_bind, wp_mapError, wp_attempt]
  refine (renderAndApply_wp site inv h users true a.forward).mono ?_ ?_
  · exact fun _ t ht => .inl ht.1.users
  · intro r s hr
    cases r with
    | error e => exact .notRendered hr
    | ok live =>
      simp only [Except.mapError]
      refine (saveUsersAtomic_wp inv.pid users a.save s).mono ?_ ?_
      · rintro w t ⟨-, ht, husers | ⟨hsave, husers⟩⟩
        · exact .inl (husers.trans hr.frame.users)
        · exact .inr ⟨hsave, husers, live, s, hr, ht.loaded⟩
      · rintro r u ⟨hu, hsaved⟩
        split_ifs at hsaved with hsave
        · obtain ⟨rfl, husers⟩ := hsaved
          exact wp_pure.mpr (.saved hr hsave hu husers)
        · obtain ⟨⟨e, rfl⟩, husers⟩ := hsaved
          simp only [wp_bind, wp_attempt]
          refine (renderAndApply_wp site inv u previous true a.compensate).mono ?_ ?_
          · exact fun _ t ht => .inl ((ht.1.users.trans husers).trans hr.frame.users)
          · intro r t hc
            exact wp_fail.mpr (.compensated hr (by simpa using hsave) hu husers hc)

section Sample

def ServiceAnswers.up : ServiceAnswers := ⟨true, true⟩

def ApplyAnswers.clear : ApplyAnswers := ⟨true, .done, true, true, .done, true, true, true⟩

def RenderAnswers.clear : RenderAnswers :=
  ⟨⟨true, true, true⟩, true, 100, .up, true, true, true, .clear, .up, .active, 100, some .pass,
    ⟨.done, .active⟩, ⟨.done, true⟩⟩

def UserAnswers.clear : UserAnswers :=
  ⟨true, .clear, ⟨true, true, .done, true, true⟩, .clear⟩

end Sample

end Vpn1.Admin
