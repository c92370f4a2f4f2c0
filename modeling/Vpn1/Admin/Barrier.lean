import Mathlib.Data.Set.Insert
import Vpn1.Admin.Accounts
import Vpn1.Admin.Exposure

/-! A line that the running sing-box stays behind, whatever commands are run: rules for every program
of `vpn-admin`, at every point at which it can be killed. Old documents and stores lie about on the
disk, so a rule says which files are known to be behind the line. -/

namespace Vpn1.Admin

open Compat Traced

section Barrier

/-- A line that the served documents stay behind: the documents that may be loaded, and the stores and
times they are rendered from. -/
structure Barrier (site : Site) where
  doc : Json → Prop
  store : List CompatUser → Prop
  clock : Int64 → Prop
  nobody : store []
  rendered : ∀ {users : List CompatUser} {reality : RealityServerParams}
    {hysteria : Hysteria2ServerParams} {now : Int64}, store users → clock now →
    doc (renderSingboxServerConfig users reality hysteria site.cfg.ports now)

def StateFile.isMaterial : StateFile → Bool
  | .users | .config | .configBak => false
  | _ => true

/-- The files that are known to be fine: what sing-box and the commands start from, and `extra`. -/
def Known (extra : Set Path) (p : Path) : Prop :=
  p = .live .config ∨ p = .live .users ∨ p ∈ extra

namespace Barrier

variable {site : Site} (B : Barrier site)

def Fine : StateFile → Content → Prop
  | .config, c | .configBak, c => ∀ doc ∈ c.json?, B.doc doc
  | .users, c => ∀ users, parseUsersBytes c.json? = .ok users → B.store users
  | _, _ => True

/-- The running sing-box and all that is known are behind the line. -/
structure Holds (extra : Set Path) (h : Host) : Prop where
  config : h.exists? .config = true
  files : ∀ p, Known extra p → ∀ file, h.files p = some file → B.Fine p.stateFile file.content
  loaded : ∀ doc ∈ h.loaded, B.doc doc

/-- `q` stays behind the line at every point, and keeps what is known. -/
def Keeps {ε α : Type} (extra : Set Path) (q : Prog Host Event ε α) : Prop :=
  Traced.Keeps (fun _ _ => True) (B.Holds extra) (fun _ => B.Holds ∅) q

/-- `q` does so too, and if it succeeds one more file is known. -/
def Learns {ε α : Type} (extra : Set Path) (p : Path) (q : Prog Host Event ε α) : Prop :=
  ∀ h, B.Holds extra h → Wp q h (fun _ => B.Holds ∅) fun r t =>
    B.Holds extra t ∧ ∀ a, r = .ok a → B.Holds (insert p extra) t

end Barrier

end Barrier

namespace Barrier

section Hosts

variable {site : Site} {B : Barrier site} {extra more : Set Path} {h : Host} {p : Path}

theorem fine_torn (f : StateFile) : B.Fine f .torn := by
  cases f with
  | config => exact fun _ hdoc => nomatch hdoc
  | configBak => exact fun _ hdoc => nomatch hdoc
  | users => exact fun _ hparse => nomatch hparse
  | _ => trivial

theorem fine_of_isMaterial {f : StateFile} (hf : f.isMaterial = true) (c : Content) :
    B.Fine f c := by
  cases f with
  | config => exact nomatch hf
  | configBak => exact nomatch hf
  | users => exact nomatch hf
  | _ => trivial

private theorem fine_saved {users : List CompatUser} (husers : B.store users) :
    B.Fine .users (.json (savedUsers users)) := by
  intro parsed hparse
  rw [Content.json?, parseUsersBytes_savedUsers] at hparse
  rwa [← Except.ok.inj hparse]

theorem fine_doc {doc : Json} (hdoc : B.doc doc) : B.Fine .config (.json doc) := by
  intro found hfound
  rwa [← Option.some.inj hfound]

theorem Holds.mono (hh : B.Holds more h) (hsub : extra ⊆ more) : B.Holds extra h where
  config := hh.config
  files p hp := hh.files p (hp.imp_right (Or.imp_right fun hmem => hsub hmem))
  loaded := hh.loaded

theorem Holds.forget (hh : B.Holds extra h) : B.Holds ∅ h := hh.mono (Set.empty_subset _)

/-- Changing a file: it has to stay fine if it is known, and `config.json` has to stay. -/
theorem Holds.put (hh : B.Holds extra h) {f : Option File} (hp : p = .live .config → f.isSome = true)
    (hf : Known extra p → ∀ file, f = some file → B.Fine p.stateFile file.content) :
    B.Holds extra (h.put p f) where
  config := by
    by_cases hconfig : Path.live .config = p
    · subst hconfig
      simpa [Host.exists?] using hp rfl
    · have hsame := Host.put_files_of_ne h p f hconfig
      rw [Host.exists?, hsame]
      exact hh.config
  files q hq file hfile := by
    by_cases hqp : q = p
    · subst hqp
      rw [Host.put_files_same] at hfile
      exact hf hq file hfile
    · rw [Host.put_files_of_ne _ _ _ hqp] at hfile
      exact hh.files q hq file hfile
  loaded := hh.loaded

theorem Holds.learn (hh : B.Holds extra h)
    (hp : ∀ file, h.files p = some file → B.Fine p.stateFile file.content) :
    B.Holds (insert p extra) h where
  config := hh.config
  files q hq file hfile := by
    rcases hq with hq | hq | hq
    · exact hh.files q (.inl hq) file hfile
    · exact hh.files q (.inr (.inl hq)) file hfile
    · rcases Set.mem_insert_iff.mp hq with rfl | hq
      · exact hp file hfile
      · exact hh.files q (.inr (.inr hq)) file hfile
  loaded := hh.loaded

theorem Holds.put_some (hh : B.Holds extra h) {file : File}
    (hfile : B.Fine p.stateFile file.content) : B.Holds extra (h.put p (some file)) := by
  apply hh.put (fun _ => rfl)
  intro _ other hother
  rwa [← Option.some.inj hother]

theorem Holds.put_none (hh : B.Holds extra h) (hp : p ≠ .live .config) :
    B.Holds extra (h.put p none) :=
  hh.put (fun hconfig => absurd hconfig hp) fun _ _ hnone => nomatch hnone

theorem Holds.json? (hh : B.Holds extra h) : ∀ doc ∈ h.json? .config, B.doc doc := by
  intro doc hdoc
  have hcontent := Host.content?_of_json? hdoc
  obtain ⟨file, hfile, hjson⟩ := Option.map_eq_some_iff.mp hcontent
  have hfine := hh.files (.live .config) (.inl rfl) file hfile
  rw [hjson] at hfine
  exact hfine doc rfl

/-- Whoever a command loads from the store is behind the line. -/
theorem Holds.loadUsers (hh : B.Holds extra h) {ok : Bool} {users : List CompatUser}
    (hload : Admin.loadUsers h ok = .ok users) : B.store users := by
  have hload := loadUsers_of_answer hload
  cases hfile : h.files (.live .users) with
  | none =>
    have hnobody : users = [] := by
      rw [loadUsers_of_none (by simp [Host.content?, hfile])] at hload
      exact (Except.ok.inj hload).symm
    rw [hnobody]
    exact B.nobody
  | some file =>
    have hparse : parseUsersBytes file.content.json? = .ok users := by
      rwa [loadUsers_of_some (c := file.content) (by simp [Host.content?, hfile])] at hload
    exact hh.files (.live .users) (.inr (.inl rfl)) file hfile users hparse

end Hosts

section Rules

variable {site : Site} {B : Barrier site} {extra : Set Path} {p q : Path} {ε ε' α β : Type}

theorem Keeps.wp {prog : Prog Host Event ε α} (hprog : B.Keeps extra prog) {h : Host}
    (hh : B.Holds extra h) : Wp prog h (fun _ => B.Holds ∅) (fun _ => B.Holds extra) :=
  hprog h hh fun _ _ => trivial

theorem keeps_move {w : Event} {f : Host → Host}
    (hf : ∀ s, B.Holds extra s → B.Holds extra (f s)) :
    B.Keeps extra (Prog.move w f : Prog Host Event ε Unit) :=
  .move fun s hs => ⟨(hf s hs).forget, hf s hs⟩

theorem Learns.keeps {prog : Prog Host Event ε α} (hprog : B.Learns extra p prog) :
    B.Keeps extra prog :=
  .of_wp fun s hs => (hprog s hs).mono (fun _ _ hw => hw) fun _ _ ht => ht.1

theorem Learns.mapError {prog : Prog Host Event ε α} (hprog : B.Learns extra p prog)
    (f : ε → ε') : B.Learns extra p (Prog.mapError f prog) := by
  intro h hh
  rw [wp_mapError]
  refine (hprog h hh).mono (fun _ _ hw => hw) fun r t ht => ⟨ht.1, fun a ha => ?_⟩
  cases r with
  | error e => exact nomatch ha
  | ok b => exact ht.2 b rfl

theorem Learns.bind_keeps {prog : Prog Host Event ε α} {rest : α → Prog Host Event ε β}
    (hprog : B.Learns extra p prog) (hrest : ∀ a, B.Keeps (insert p extra) (rest a)) :
    B.Learns extra p (prog >>= rest) := by
  intro h hh
  apply (hprog h hh).bind
  · intro a t ht
    refine ((hrest a).wp (ht.2 a rfl)).mono (fun _ _ hw => hw) fun r u hu => ?_
    exact ⟨hu.mono (Set.subset_insert _ _), fun _ _ => hu⟩
  · intro e t ht
    exact ⟨ht.1, fun _ he => nomatch he⟩

theorem Learns.bind_learns {prog : Prog Host Event ε α} {rest : α → Prog Host Event ε β}
    (hprog : B.Learns extra p prog) (hrest : ∀ a, B.Learns (insert p extra) q (rest a)) :
    B.Learns extra q (prog >>= rest) := by
  intro h hh
  apply (hprog h hh).bind
  · intro a t ht
    refine (hrest a t (ht.2 a rfl)).mono (fun _ _ hw => hw) fun r u hu => ?_
    refine ⟨hu.1.mono (Set.subset_insert _ _), fun b hb => (hu.2 b hb).mono ?_⟩
    exact Set.insert_subset_insert (Set.subset_insert _ _)
  · intro e t ht
    exact ⟨ht.1, fun _ he => nomatch he⟩

theorem Keeps.bind_learns {prog : Prog Host Event ε α} {rest : α → Prog Host Event ε β}
    (hprog : B.Keeps extra prog) (hrest : ∀ a, B.Learns extra p (rest a)) :
    B.Learns extra p (prog >>= rest) := by
  intro h hh
  apply (hprog.wp hh).bind
  · exact fun a t ht => hrest a t ht
  · exact fun e t ht => ⟨ht, fun _ he => nomatch he⟩

theorem learns_fail (e : ε) : B.Learns extra p (Prog.fail e : Prog Host Event ε α) :=
  fun _ hh => wp_fail.mpr ⟨hh, fun _ he => nomatch he⟩

end Rules

section Operations

variable {site : Site} {B : Barrier site} {extra : Set Path} {p src dst : Path} {ε : Type} {e : ε}

theorem keeps_require (ok : Bool) : B.Keeps extra (require ok e) := by
  cases ok with
  | false => exact .fail e
  | true => exact .pure ()

theorem keeps_mark (w : Event) : B.Keeps extra (Prog.mark w : Prog Host Event ε Unit) :=
  keeps_move fun _ hs => hs

theorem learns_move_put {w : Event} {f : Host → File}
    (hf : ∀ s, B.Fine p.stateFile (f s).content) :
    B.Learns extra p (Prog.move w fun h => h.put p (some (f h)) : Prog Host Event ε Unit) := by
  intro h hh
  have hput := hh.put_some (hf h)
  refine wp_move.mpr ⟨hput.forget, hput, fun _ _ => hput.learn fun file hfile => ?_⟩
  rw [Host.put_files_same] at hfile
  rw [← Option.some.inj hfile]
  exact hf h

theorem learns_writeFile {c : Content} {mode : Mode} (a : WriteAnswer)
    (hc : B.Fine p.stateFile c) : B.Learns extra p (writeFile p c mode a e) := by
  have hwrite : ∀ content, B.Fine p.stateFile content → ∀ known : Set Path,
      B.Learns known p (Prog.move .io fun h =>
        h.put p (some ⟨content, h.openMode p mode⟩) : Prog Host Event ε Unit) :=
    fun content hcontent known => learns_move_put fun _ => hcontent
  unfold writeFile
  split_ifs
  · exact learns_fail e
  · exact (hwrite .torn (fine_torn _) _).bind_keeps fun _ => .fail e
  · refine (hwrite .torn (fine_torn _) _).bind_keeps fun _ => ?_
    exact .bind (hwrite c hc _).keeps fun _ => keeps_require _

theorem keeps_writeFile {c : Content} {mode : Mode} (a : WriteAnswer)
    (hc : B.Fine p.stateFile c) : B.Keeps extra (writeFile p c mode a e) :=
  (learns_writeFile a hc).keeps

theorem keeps_discardFile (ok : Bool) (hp : p ≠ .live .config) :
    B.Keeps extra (discardFile p ok : Prog Host Event ε Unit) := by
  cases ok with
  | false => exact .pure ()
  | true => exact keeps_move fun _ hs => hs.put_none hp

theorem learns_copyFile (a : CopyAnswer) (hsrc : Known extra src)
    (hkind : ∀ c, B.Fine src.stateFile c → B.Fine dst.stateFile c) :
    B.Learns extra dst (copyFile src dst a e) := by
  intro h hh
  unfold copyFile
  rw [wp_look_bind]
  cases hfile : h.files src with
  | none => exact learns_fail e h hh
  | some file =>
    have hfine : B.Fine dst.stateFile file.content := hkind _ (hh.files src hsrc file hfile)
    have hmove : ∀ (f : Host → File), (∀ s, B.Fine dst.stateFile (f s).content) →
        B.Keeps (insert dst extra) (Prog.move .io fun h => h.put dst (some (f h)) :
          Prog Host Event ε Unit) := fun f hf => (learns_move_put hf).keeps
    have hopen : B.Learns extra dst (Prog.move .io fun h =>
        h.put dst (some ⟨.torn, h.openMode dst file.mode⟩) : Prog Host Event ε Unit) :=
      learns_move_put fun _ => fine_torn _
    dsimp only
    split_ifs
    · exact learns_fail e h hh
    · exact hopen.bind_keeps (fun _ => .fail e) h hh
    · refine hopen.bind_keeps (fun _ => ?_) h hh
      exact .bind (hmove (fun _ => ⟨.torn, file.mode⟩) fun _ => fine_torn _) fun _ =>
        hmove (fun _ => file) fun _ => hfine

theorem keeps_renameFile (ok : Bool) (hsrc : Known extra src) (hne : src ≠ .live .config)
    (hkind : dst.stateFile = src.stateFile) : B.Keeps extra (renameFile src dst ok e) := by
  refine .look_bind fun s hs => ?_
  cases hfile : s.files src with
  | none => exact .fail e
  | some file =>
    have hfine : B.Fine dst.stateFile file.content := hkind ▸ hs.files src hsrc file hfile
    cases ok with
    | false => exact .fail e
    | true => exact keeps_move fun t ht => (ht.put_none hne).put_some hfine

theorem keeps_renameFile_of_isMaterial (ok : Bool) (hsrc : src.stateFile.isMaterial = true)
    (hdst : dst.stateFile.isMaterial = true) : B.Keeps extra (renameFile src dst ok e) := by
  have hne : src ≠ .live .config := by
    rintro rfl
    exact nomatch hsrc
  refine .look_bind fun s hs => ?_
  cases s.files src with
  | none => exact .fail e
  | some file =>
    cases ok with
    | false => exact .fail e
    | true =>
      exact keeps_move fun t ht => (ht.put_none hne).put_some (fine_of_isMaterial hdst _)

theorem keeps_setMode {mode : Mode} (ok : Bool) : B.Keeps extra (setMode p mode ok e) := by
  have hput : ∀ {s : Host} {file : File}, B.Holds extra s → s.files p = some file →
      B.Holds extra (s.put p (some { file with mode := mode })) := by
    intro s file hs hfile
    apply hs.put (fun _ => rfl)
    intro hp other hother
    rw [← Option.some.inj hother]
    exact hs.files p hp file hfile
  refine .of_wp fun s hs => wp_setMode ?_ ?_ fun _ => hs
  · exact fun file hfile => (hput hs hfile).forget
  · exact fun file hfile _ => hput hs hfile

theorem keeps_restartSingbox (a : RestartAnswer) :
    B.Keeps extra (restartSingbox a : Prog Host Event ε Bool) := by
  unfold restartSingbox
  split_ifs
  · refine .bind (keeps_move fun s hs => ?_) fun _ => .look _
    exact ⟨hs.config, hs.files, hs.json?⟩
  · exact .pure _

theorem keeps_restartSubscription (a : RestartAnswer) :
    B.Keeps extra (restartSubscription a : Prog Host Event ε Bool) := by
  unfold restartSubscription
  split_ifs
  · exact .bind (keeps_move fun s hs => ⟨hs.config, hs.files, hs.loaded⟩) fun _ => .look _
  · exact .pure _

end Operations

section Transactions

variable {site : Site} {B : Barrier site} {extra : Set Path} {ε : Type} {e : ε} {f : StateFile}

private theorem fine_of_live {h : Host} {file : File} (hh : B.Holds extra h)
    (hf : f.isMaterial = true ∨ f = .users) (hfile : h.files (.live f) = some file) :
    B.Fine f file.content := by
  rcases hf with hf | rfl
  · exact fine_of_isMaterial hf _
  · exact hh.files (.live .users) (.inr (.inl rfl)) file hfile

/-- A `.rotate-bak` that a command has made itself is as fine as the file it is of; one that is left
over from another run is never used. -/
theorem learns_backupForRotate (hf : f.isMaterial = true ∨ f = .users) (a : BackupAnswers) :
    B.Learns extra (.rotateBak f) (backupForRotate f a) := by
  intro h hh
  unfold backupForRotate
  rw [wp_look_bind]
  cases hbak : h.files (.rotateBak f) with
  | some old => exact learns_fail _ h hh
  | none =>
    rw [Option.isSome_none, if_neg (by simp), wp_look_bind]
    cases hfile : h.files (.live f) with
    | none =>
      refine wp_pure.mpr ⟨hh, fun _ _ => hh.learn fun file hsome => ?_⟩
      rw [hbak] at hsome
      exact nomatch hsome
    | some file =>
      have hwrite : B.Learns extra (.rotateBak f)
          (writeFile (.rotateBak f) file.content 0o600 a.write BackupError.io) :=
        learns_writeFile _ (fine_of_live hh hf hfile)
      refine (keeps_require _).bind_learns (fun _ => hwrite.bind_keeps fun _ => ?_) h hh
      exact .bind (keeps_require _) fun _ => .bind (keeps_setMode _) fun _ => .pure _

theorem keeps_discardBackups (drop : StateFile → Bool) (fs : List StateFile) :
    B.Keeps extra (discardBackups drop fs : Prog Host Event ε Unit) := by
  induction fs with
  | nil => exact .pure ()
  | cons f fs ih => exact .bind (keeps_discardFile _ (by simp)) fun _ => ih

theorem keeps_backupAll (a : StateFile → BackupAnswers) (drop : StateFile → Bool)
    (prepared : List StateFile) {fs : List StateFile} (hfs : ∀ f ∈ fs, f.isMaterial = true) :
    B.Keeps extra (backupAll a drop prepared fs) := by
  induction fs generalizing prepared with
  | nil => exact .pure _
  | cons f fs ih =>
    obtain ⟨hf, hrest⟩ := List.forall_mem_cons.mp hfs
    refine .bind (.attempt (learns_backupForRotate (.inl hf) _).keeps) fun r => ?_
    cases r with
    | ok existed => exact .bind (ih _ hrest) fun _ => .pure _
    | error cause => exact .bind (keeps_discardBackups _ _) fun _ => .fail _

theorem keeps_installRotatedKeyFile (hf : f.isMaterial = true) (text : String)
    (a : InstallAnswers) : B.Keeps extra (installRotatedKeyFile f text a e) := by
  have hrest : B.Keeps extra (do
      require a.ownership e
      renameFile (.rotateTmp f) (.live f) a.rename e) :=
    .bind (keeps_require _) fun _ => keeps_renameFile_of_isMaterial _ hf hf
  refine .bind (keeps_writeFile _ (fine_of_isMaterial hf _)) fun _ => .look_bind fun s hs => ?_
  cases s.files (.live f) with
  | none => exact hrest
  | some file => exact .bind (keeps_setMode _) fun _ => hrest

/-- A file that may be brought back: the store from a backup that is known only. -/
def Restores (extra : Set Path) (f : StateFile) : Prop :=
  f.isMaterial = true ∨ f = .users ∧ Path.rotateBak .users ∈ extra

theorem keeps_restoreOne (hf : Restores extra f) (existed ok : Bool) :
    B.Keeps extra (restoreOne f existed ok : Prog Host Event ε Bool) := by
  unfold restoreOne
  cases existed with
  | true =>
    refine .look_bind fun s hs => ?_
    cases hfile : s.files (.rotateBak f) with
    | none => exact .pure _
    | some file =>
      have hfine : B.Fine f file.content := by
        rcases hf with hf | ⟨rfl, hbak⟩
        · exact fine_of_isMaterial hf _
        · exact hs.files (.rotateBak .users) (.inr (.inr hbak)) file hfile
      cases ok with
      | false => exact .pure _
      | true =>
        refine .bind (keeps_move fun t ht => ?_) fun _ => .pure _
        exact (ht.put_none (by simp)).put_some hfine
  | false =>
    have hne : Path.live f ≠ .live .config := by
      rintro ⟨⟩
      rcases hf with hf | ⟨hf, -⟩
      · exact nomatch hf
      · exact nomatch hf
    refine .look_bind fun s _ => ?_
    cases s.files (.live f) with
    | none => exact .pure _
    | some file =>
      cases ok with
      | false => exact .pure _
      | true => exact .bind (keeps_move fun t ht => ht.put_none hne) fun _ => .pure _

theorem keeps_restoreAll (restore : StateFile → Bool) {entries : List (StateFile × Bool)}
    (hentries : ∀ f ∈ entries.map Prod.fst, Restores extra f) :
    B.Keeps extra (restoreAll restore entries : Prog Host Event ε Bool) := by
  induction entries with
  | nil => exact .pure _
  | cons entry entries ih =>
    obtain ⟨hentry, hrest⟩ := List.forall_mem_cons.mp hentries
    exact .bind (keeps_restoreOne hentry _ _) fun _ => .bind (ih hrest) fun _ => .pure _

/-- Over an existing `config.json` a swap leaves a backup that is as fine as what it replaced. -/
theorem learns_applyConfigAtomically (pid : Nat) {doc : Json} (hdoc : B.doc doc)
    (a : ApplyAnswers) :
    B.Learns extra (.live .configBak) (applyConfigAtomically pid doc a) := by
  have hbackup : B.Learns (insert (.tmp .config pid) extra) (.live .configBak)
      (backupConfig a) := by
    intro h hh
    unfold backupConfig
    rw [wp_look_bind, hh.config]
    have hcopy : B.Learns (insert (.tmp .config pid) extra) (.live .configBak)
        (copyFile (.live .config) (.live .configBak) a.copyBak CompatError.io) :=
      learns_copyFile _ (.inl rfl) fun _ hc => hc
    exact hcopy.bind_keeps (fun _ => keeps_setMode _) h hh
  have hwrite : B.Learns extra (.tmp .config pid)
      (writeFile (.tmp .config pid) (.json doc) 0o640 a.write CompatError.io) :=
    learns_writeFile _ (fine_doc hdoc)
  have htmp : Known (insert (Path.live .configBak) (insert (.tmp .config pid) extra))
      (.tmp .config pid) := .inr (.inr (.inr (.inl rfl)))
  unfold applyConfigAtomically
  refine (keeps_require _).bind_learns fun _ => hwrite.bind_learns fun _ => ?_
  split_ifs
  · refine hbackup.bind_keeps fun _ => .bind (keeps_require _) fun _ => ?_
    exact keeps_renameFile _ htmp (by simp) rfl
  · exact (keeps_discardFile _ (by simp)).bind_learns fun _ => learns_fail _

theorem keeps_copyBack (hbak : Path.live .configBak ∈ extra) (a : CopyAnswer) :
    B.Keeps extra (copyBack a : Prog Host Event ε Bool) := by
  have hcopy : B.Learns extra (.live .config)
      (copyFile (.live .configBak) (.live .config) a ()) :=
    learns_copyFile a (.inr (.inr hbak)) fun _ hc => hc
  refine .bind (.attempt hcopy.keeps) fun r => ?_
  cases r with
  | ok => exact .pure _
  | error => exact .pure _

theorem keeps_saveUsersAtomic (pid : Nat) {users : List CompatUser} (husers : B.store users)
    (a : SaveAnswers) : B.Keeps extra (saveUsersAtomic pid users a) := by
  have hwrite : B.Learns extra (.tmp .users pid)
      (writeFile (.tmp .users pid) (.json (savedUsers users)) 0o640 a.write CompatError.io) :=
    learns_writeFile _ (fine_saved husers)
  have htmp : Known (insert (Path.tmp .users pid) extra) (.tmp .users pid) :=
    .inr (.inr (.inl rfl))
  refine .bind (keeps_require _) fun _ => .bind (keeps_require _) fun _ => ?_
  refine (hwrite.bind_keeps fun _ => .bind (keeps_require _) fun _ => ?_).keeps
  exact keeps_renameFile _ htmp (by simp) rfl

end Transactions

section Rendering

variable {site : Site} {B : Barrier site} {extra : Set Path} (inv : Invocation)

theorem keeps_fallBack (hbak : Path.live .configBak ∈ extra) (a : RecoveryAnswers)
    (cause : Bool → RenderError) : B.Keeps extra (fallBack a cause) := by
  refine .bind (.bind (keeps_copyBack hbak _) fun copied => ?_) fun _ => .fail _
  split_ifs
  · exact keeps_restartSingbox _
  · exact .pure _

theorem keeps_loadApplied (hbak : Path.live .configBak ∈ extra) (users : List CompatUser)
    (doc : Json) (a : RenderAnswers) : B.Keeps extra (loadApplied inv users doc a) := by
  have hstamp : B.Keeps extra (commitAppliedConfigStamp inv.pid doc a.stamp
      RenderError.stampNotRecorded) :=
    .bind (keeps_writeFile _ trivial) fun _ => keeps_renameFile_of_isMaterial _ rfl rfl
  unfold loadApplied
  split_ifs
  · refine .bind (keeps_restartSingbox _) fun restarted => ?_
    split_ifs
    · refine .bind (.look _) fun verification => ?_
      split_ifs
      · exact keeps_fallBack hbak _ _
      · exact .bind hstamp fun _ => .bind (keeps_mark _) fun _ => .pure _
    · exact keeps_fallBack hbak _ _
  · exact .pure _

theorem keeps_degrade (live : Bool) (cause : RenderError) :
    B.Keeps extra (degrade inv live cause) := by
  unfold degrade
  split_ifs
  · exact .fail _
  · exact .pure _

theorem doc_of_candidateDoc {h : Host} {users : List CompatUser} {a : RenderAnswers} {doc : Json}
    (husers : B.store users) (hclock : B.clock a.now)
    (hdoc : candidateDoc site h users a = .ok doc) : B.doc doc := by
  unfold candidateDoc at hdoc
  cases hkeys : loadRealityParams site h a.keys with
  | error cause => simp [hkeys, Except.map] at hdoc
  | ok reality =>
    rw [hkeys] at hdoc
    rw [← Except.ok.inj hdoc]
    exact B.rendered husers hclock

theorem keeps_render {users : List CompatUser} {a : RenderAnswers} (husers : B.store users)
    (hclock : B.clock a.now) (live : Bool) :
    B.Keeps extra (renderAndApplySingboxConfig site inv users live a) := by
  refine .bind (keeps_mark _) fun _ => .look_bind fun s _ => ?_
  cases hcandidate : candidateDoc site s users a with
  | error cause => exact keeps_degrade inv _ _
  | ok doc =>
    have hdoc := doc_of_candidateDoc husers hclock hcandidate
    refine .bind (.look _) fun installed => ?_
    split_ifs
    · exact .fail _
    · refine .bind (.look _) fun current => ?_
      split_ifs
      · exact .bind (keeps_mark _) fun _ => .pure _
      · have happly : B.Learns extra (.live .configBak)
            (Prog.mapError RenderError.applying (applyConfigAtomically inv.pid doc a.apply)) :=
          (learns_applyConfigAtomically inv.pid hdoc a.apply).mapError _
        exact (happly.bind_keeps fun _ =>
          keeps_loadApplied inv (Set.mem_insert _ _) _ _ _).keeps
    · exact keeps_degrade inv _ _

theorem keeps_regenerate {a : RegenerateAnswers} (hclock : B.clock a.render.now) (live : Bool) :
    B.Keeps extra (regenerateSingboxConfig site inv live a) := by
  refine .look_bind fun s hs => ?_
  cases hload : Admin.loadUsers s a.readUsers with
  | error cause => exact .fail _
  | ok users => exact .mapError _ (keeps_render inv (hs.loadUsers hload) hclock _)

theorem keeps_cmdRenderConfig {a : RegenerateAnswers} (hclock : B.clock a.render.now)
    (requireApplied : Bool) : B.Keeps extra (cmdRenderConfig site inv requireApplied a) := by
  refine .bind (keeps_regenerate inv hclock _) fun applied => ?_
  split_ifs
  · exact .fail _
  · exact .pure _

theorem keeps_userCommand {cmd : UserCommand} {a : UserAnswers}
    (hmutate : ∀ users next, B.store users → cmd.mutate users = .ok next → B.store next)
    (hforward : B.clock a.forward.now) (hcompensate : B.clock a.compensate.now) :
    B.Keeps extra (userCommand site inv cmd a) := by
  refine .look_bind fun s hs => ?_
  cases hload : Admin.loadUsers s a.readUsers with
  | error cause => exact .fail _
  | ok previous =>
    have hprevious := hs.loadUsers hload
    dsimp only
    cases hnext : cmd.mutate previous with
    | error cause => exact .fail _
    | ok users =>
      have husers := hmutate previous users hprevious hnext
      refine .bind (.mapError _ (keeps_render inv husers hforward _)) fun live =>
        .bind (.attempt (keeps_saveUsersAtomic _ husers _)) fun saved => ?_
      cases saved with
      | ok => exact .pure _
      | error cause =>
        exact .bind (.attempt (keeps_render inv hprevious hcompensate _)) fun _ => .fail _

theorem keeps_cmdUserRotateToken {id tokenHash : String}
    (hmutate : ∀ users next, B.store users →
      modifyUser id (fun u => { u with subscriptionTokenHashHex := tokenHash }) users = .ok next →
      B.store next) (readUsers : Bool) (a : SaveAnswers) :
    B.Keeps extra (cmdUserRotateToken inv id tokenHash readUsers a) := by
  refine .look_bind fun s hs => ?_
  cases hload : Admin.loadUsers s readUsers with
  | error cause => exact .fail _
  | ok users =>
    dsimp only
    cases hnext : modifyUser id (fun u => { u with subscriptionTokenHashHex := tokenHash }) users with
    | error cause => exact .fail _
    | ok next =>
      have husers := hmutate users next (hs.loadUsers hload) hnext
      exact .mapError _ (keeps_saveUsersAtomic _ husers _)

end Rendering

section Restoring

variable {site : Site} {B : Barrier site} {extra : Set Path} (inv : Invocation)

theorem keeps_migrateUsers (a : MigrateAnswers) : B.Keeps extra (migrateUsers inv a) := by
  refine .look_bind fun s hs => ?_
  cases hfile : s.files (.live .users) with
  | none => exact .pure _
  | some file =>
    have hfine := hs.files (.live .users) (.inr (.inl rfl)) file hfile
    dsimp only
    cases hdetect : (if a.detect then detectUsersBytes file.content.json? else .corrupted) with
    | missing => exact .pure _
    | current => exact .pure _
    | future v => exact .fail _
    | corrupted => exact .fail _
    | legacy =>
      refine .bind (keeps_require _) fun _ => ?_
      cases hlegacy : file.content.json?.bind usersOfJson with
      | none => exact .fail _
      | some legacy =>
        have hdetect : detectUsersBytes file.content.json? = .legacy := by
          split_ifs at hdetect
          exact hdetect
        have hstore : B.store legacy := hfine legacy (parseUsersBytes_of_legacy hdetect hlegacy)
        have hwrite : B.Learns extra (.tmp .users inv.pid)
            (writeFile (.tmp .users inv.pid) (.json (savedUsers legacy)) 0o640 a.write
              CompatError.io) := learns_writeFile _ (fine_saved hstore)
        have htmp : Known (insert (Path.tmp .users inv.pid) extra) (.tmp .users inv.pid) :=
          .inr (.inr (.inl rfl))
        refine .bind (keeps_require _) fun _ => .bind (keeps_writeFile _ hfine) fun _ =>
          .bind (keeps_require _) fun _ => ?_
        refine (hwrite.bind_keeps fun _ => .bind (keeps_require _) fun _ => ?_).keeps
        exact keeps_renameFile _ htmp (by simp) rfl

theorem keeps_cmdConfigMigrate {a : MigrateAnswers} (hclock : B.clock a.regenerate.render.now) :
    B.Keeps extra (cmdConfigMigrate site inv a) :=
  .bind (keeps_require _) fun _ => .bind (.mapError _ (keeps_migrateUsers inv a)) fun _ =>
    .bind (keeps_require _) fun _ =>
    .bind (.attempt (keeps_regenerate inv hclock _)) fun _ => .pure _

theorem keeps_policy {ε : Type} {e : ε} (f : StateFile) (a : PolicyAnswers) :
    B.Keeps extra (applyRestoredFilePolicy f a e) :=
  .bind (keeps_setMode _) fun _ => keeps_require _

theorem keeps_installAll {users : List CompatUser} (husers : B.store users) (archive : Archive)
    (a : RestoreAnswers) : B.Keeps extra (installAll inv archive users a) := by
  have hentry : ∀ f, f.isMaterial = true → B.Keeps extra (installEntry archive a f) := by
    intro f hf
    unfold installEntry
    cases archive f with
    | none => exact .pure _
    | some bytes =>
      refine .bind (keeps_require _) fun _ => ?_
      cases bytes.text? with
      | none => exact .fail _
      | some text =>
        exact .bind (keeps_installRotatedKeyFile hf _ _) fun _ => keeps_policy _ _
  have hentries : ∀ fs : List StateFile, (∀ f ∈ fs, f.isMaterial = true) →
      B.Keeps extra (installEntries archive a fs) := by
    intro fs hfs
    induction fs with
    | nil => exact .pure _
    | cons f fs ih =>
      obtain ⟨hf, hrest⟩ := List.forall_mem_cons.mp hfs
      exact .bind (hentry f hf) fun _ => ih hrest
  exact .bind (.mapError _ (keeps_saveUsersAtomic _ husers _)) fun _ =>
    .bind (keeps_policy _ _) fun _ => hentries _ (by decide)

theorem keeps_failRestore {entries : List (StateFile × Bool)} {a : RestoreRollbackAnswers}
    (hentries : ∀ f ∈ entries.map Prod.fst, Restores extra f)
    (hclock : B.clock a.regenerate.render.now) (stage : RestoreStage) :
    B.Keeps extra (failRestore site inv entries a stage) := by
  refine .bind ?_ fun _ => .fail _
  refine .bind (keeps_restoreAll _ hentries) fun _ =>
    .bind (.attempt (keeps_regenerate inv hclock _)) fun _ => ?_
  dsimp only
  split_ifs
  · exact .bind (keeps_restartSubscription _) fun _ => .pure _
  · exact .bind (.pure _) fun _ => .pure _

theorem keeps_loadRestored {entries : List (StateFile × Bool)} {a : RestoreAnswers}
    (hentries : ∀ f ∈ entries.map Prod.fst, Restores extra f)
    (hforward : B.clock a.regenerate.render.now)
    (hback : B.clock a.rollback.regenerate.render.now) :
    B.Keeps extra (loadRestored site inv entries a) := by
  refine .bind (.attempt (keeps_regenerate inv hforward _)) fun rendered => ?_
  cases rendered with
  | error cause => exact keeps_failRestore inv hentries hback _
  | ok live =>
    have hserved : ∀ served : Bool, B.Keeps extra
        (if served then discardBackups a.dropBackup ((entries.filter (·.2)).map Prod.fst)
          else failRestore site inv entries a.rollback .restartingSubscription) := by
      intro served
      split_ifs
      · exact keeps_discardBackups _ _
      · exact keeps_failRestore inv hentries hback _
    dsimp only
    split_ifs
    · exact .bind (keeps_restartSubscription _) hserved
    · exact .bind (.pure _) hserved

theorem wp_backupAll_mapError {ε : Type} (f : BackupError → ε) (a : StateFile → BackupAnswers)
    (drop : StateFile → Bool) (prepared : List StateFile) {fs : List StateFile}
    (hfs : ∀ f ∈ fs, f.isMaterial = true) (hnodup : fs.Nodup) {s : Host} (hs : B.Holds extra s) :
    Wp (Prog.mapError f (backupAll a drop prepared fs)) s (fun _ => B.Holds ∅) fun r t =>
      B.Holds extra t ∧ ∀ entries, r = .ok entries → entries.map Prod.fst = fs := by
  rw [wp_mapError]
  have hall : B.Keeps extra (backupAll a drop prepared fs) := keeps_backupAll a drop prepared hfs
  have hkeeps := hall.wp hs
  have hend := backupAll_wp a drop (prepared ++ fs) prepared fs
    (fun _ hf => List.mem_append_right _ hf) (fun _ hf => List.mem_append_left _ hf) hnodup
    (FilesOnly.refl s _)
  refine ⟨hkeeps.1, hkeeps.2, fun entries hok => ?_⟩
  have hfiles := hend.2.2
  cases hresult : (backupAll a drop prepared fs s).result with
  | error e => simp [hresult, Except.mapError] at hok
  | ok made =>
    rw [hresult] at hok hfiles
    rw [← Except.ok.inj hok]
    exact hfiles.1

theorem keeps_cmdRestore {archive : Archive} {a : RestoreAnswers}
    (harchive : ∀ bytes ∈ archive .users, B.Fine .users bytes)
    (hforward : B.clock a.regenerate.render.now)
    (hback : B.clock a.rollback.regenerate.render.now) :
    B.Keeps extra (cmdRestore site inv archive a) := by
  unfold cmdRestore
  cases hcheck : checkArchive site archive a with
  | error cause => exact .fail _
  | ok users =>
    obtain ⟨bytes, hbytes, hparse⟩ := checkArchive_users hcheck
    have husers : B.store users := harchive bytes hbytes users hparse
    have hbackup : B.Learns extra (.rotateBak .users)
        (Prog.mapError RestoreError.backup (backupForRotate .users (a.backup .users))) :=
      (learns_backupForRotate (.inr rfl) _).mapError _
    refine .bind (keeps_require _) fun _ => .bind (keeps_require _) fun _ => ?_
    refine (hbackup.bind_keeps fun existed => ?_).keeps
    refine .bind_ok (P := fun entries => entries.map Prod.fst = restoreTargets)
      (fun s hs _ => ?_) fun entries hentries => ?_
    · exact wp_backupAll_mapError _ a.backup a.dropBackup _ (by decide) (by decide) hs
    · have hall : ∀ f ∈ (entries ++ [(StateFile.users, existed)]).map Prod.fst,
          Restores (insert (Path.rotateBak .users) extra) f := by
        intro f hf
        rw [List.map_append, hentries, List.mem_append] at hf
        rcases hf with hf | hf
        · have hmaterial : ∀ f ∈ restoreTargets, f.isMaterial = true := by decide
          exact .inl (hmaterial f hf)
        · exact .inr ⟨List.mem_singleton.mp hf, Set.mem_insert _ _⟩
      refine .bind (.attempt (keeps_installAll inv husers _ _)) fun installed => ?_
      cases installed with
      | error => exact keeps_failRestore inv hall hback _
      | ok => exact keeps_loadRestored inv hall hforward hback

end Restoring

section Rotating

variable {site : Site} {B : Barrier site} {extra : Set Path} {α β : Type} (inv : Invocation)

/-- The forward part of a rotation: unless it gave up before the swap, the backup of the swap is
known. -/
def Advances (B : Barrier site) (extra : Set Path) (prog : Prog Host Event RotateStage α) : Prop :=
  ∀ h, B.Holds extra h → Wp prog h (fun _ => B.Holds ∅) fun r t => B.Holds extra t ∧
    ((∀ stage, r = .error stage → stage.configApplied = true) →
      B.Holds (insert (.live .configBak) extra) t)

theorem Advances.bind_keeps {prog : Prog Host Event RotateStage α}
    {rest : α → Prog Host Event RotateStage β} (hprog : B.Advances extra prog)
    (hrest : ∀ a, B.Keeps (insert (.live .configBak) extra) (rest a)) :
    B.Advances extra (prog >>= rest) := by
  intro h hh
  apply (hprog h hh).bind
  · intro a t ht
    have hknown := ht.2 fun _ he => nomatch he
    refine ((hrest a).wp hknown).mono (fun _ _ hw => hw) fun r u hu => ?_
    exact ⟨hu.mono (Set.subset_insert _ _), fun _ => hu⟩
  · intro e t ht
    exact ⟨ht.1, fun hswapped => ht.2 fun stage hstage => hswapped stage (by
      rw [Except.error.inj hstage])⟩

/-- What goes before fails before the swap, if it does. -/
theorem Advances.after {prog : Prog Host Event RotateStage α}
    {rest : α → Prog Host Event RotateStage β} (hprog : B.Keeps extra prog)
    (hstage : ∀ h, Wp prog h (fun _ _ => True) fun r _ =>
      ∀ stage, r = .error stage → stage.configApplied = false)
    (hrest : ∀ a, B.Advances extra (rest a)) : B.Advances extra (prog >>= rest) := by
  intro h hh
  have hboth : Wp prog h (fun _ => B.Holds ∅) fun r t => B.Holds extra t ∧
      ∀ stage, r = .error stage → stage.configApplied = false :=
    ⟨(hprog.wp hh).1, (hprog.wp hh).2, (hstage h).2⟩
  apply hboth.bind
  · exact fun a t ht => hrest a t ht.1
  · intro e t ht
    refine ⟨ht.1, fun hswapped => ?_⟩
    have hno := ht.2 e rfl
    rw [hswapped e rfl] at hno
    exact nomatch hno

private theorem advances_goLive (pid : Nat) {doc : Json} (hdoc : B.doc doc) (apply : ApplyAnswers)
    (a : LiveAnswers) : B.Advances extra (goLive pid doc apply a) := by
  have hreload : ∀ (q : ServiceAnswers) {restart : Prog Host Event RotateStage Bool}
      (stage : RotateStage), B.Keeps (insert (.live .configBak) extra) restart →
      B.Keeps (insert (.live .configBak) extra) (reloadLive q restart stage) := by
    intro q restart stage hrestart
    unfold reloadLive
    split_ifs
    · refine .bind hrestart fun restarted => ?_
      split_ifs
      · exact .pure _
      · exact .fail _
    · exact .pure _
  have happly : B.Advances extra (Prog.mapError (fun _ => RotateStage.applyConfig)
      (applyConfigAtomically pid doc apply)) := by
    intro h hh
    rw [wp_mapError]
    refine (learns_applyConfigAtomically pid hdoc apply h hh).mono (fun _ _ hw => hw) fun r t ht => ?_
    refine ⟨ht.1, fun hswapped => ?_⟩
    cases r with
    | error e => exact nomatch hswapped _ rfl
    | ok u => exact ht.2 u rfl
  refine happly.bind_keeps fun _ => ?_
  exact .bind (hreload _ _ (keeps_restartSingbox _)) fun _ =>
    .bind (hreload _ _ (keeps_restartSubscription _)) fun _ => .pure _

theorem keeps_installContents (a : StateFile → InstallAnswers) {contents : List (StateFile × String)}
    (hcontents : ∀ f ∈ contents.map Prod.fst, f.isMaterial = true) :
    B.Keeps extra (installContents a contents) := by
  induction contents with
  | nil => exact .pure _
  | cons entry contents ih =>
    obtain ⟨hentry, hrest⟩ := List.forall_mem_cons.mp hcontents
    exact .bind (keeps_installRotatedKeyFile hentry _ _) fun _ => ih hrest

private theorem advances_realityForward {plan : RotatePlan} (hdoc : B.doc plan.doc)
    (htargets : plan.targets = realityFiles) (a : RotateAnswers) :
    B.Advances extra (realityForward inv plan a) := by
  have hmaterial : ∀ f ∈ plan.targets, f.isMaterial = true := by
    rw [htargets]
    decide
  refine Advances.after (keeps_installContents _ hmaterial) (fun h => ?_) fun _ => ?_
  · have hnodup : plan.targets.Nodup := htargets ▸ rotatable_realityFiles.nodup
    refine (installContents_wp a.install plan.contents hnodup h).mono (fun _ _ _ => trivial) ?_
    intro r t ht stage hstage
    have hend := ht.2
    rw [hstage] at hend
    split_ifs at hend
    · exact nomatch hend.1
    · obtain ⟨f, hf⟩ := hend
      rw [Except.error.inj hf]
      cases f <;> rfl
  · refine (advances_goLive _ hdoc _ _).bind_keeps fun live => .bind (.look _) fun verification => ?_
    split_ifs
    · exact .fail _
    · exact .pure _

private theorem advances_obfsForward {plan : RotatePlan} (hdoc : B.doc plan.doc) (existed : Bool)
    (a : ObfsRotateAnswers) : B.Advances extra (obfsForward inv plan existed a) := by
  have hlive : B.Advances extra (do
      let _ ← goLive inv.pid plan.doc a.apply a.live
      pure ()) := (advances_goLive _ hdoc _ _).bind_keeps fun _ => .pure _
  unfold obfsForward
  cases existed with
  | true => exact hlive
  | false =>
    refine Advances.after (keeps_policy _ _) (fun h => ?_) fun _ => hlive
    have hfailed : ∀ stage, (.error RotateStage.filePolicy : Except RotateStage Unit) = .error stage →
        stage.configApplied = false := by
      intro stage hstage
      rw [← Except.error.inj hstage]
      rfl
    unfold applyRestoredFilePolicy
    rw [wp_bind]
    refine wp_setMode (fun _ _ => trivial) (fun _ _ _ => wp_require.mpr ?_) fun _ => hfailed
    split_ifs
    · exact fun _ hok => nomatch hok
    · exact hfailed

theorem keeps_rollback {ε : Type} {entries : List (StateFile × Bool)} {configApplied : Bool}
    (hentries : ∀ f ∈ entries.map Prod.fst, Restores extra f)
    (hbak : configApplied = true → Path.live .configBak ∈ extra) (a : RollbackAnswers) :
    B.Keeps extra (rollback entries configApplied a : Prog Host Event ε RollbackReport) := by
  refine .bind (keeps_restoreAll _ hentries) fun restored => ?_
  have hrecover : ∀ (q : ServiceAnswers) {restart : Prog Host Event ε Bool},
      B.Keeps extra restart → B.Keeps extra (recoverService q restart) := by
    intro q restart hrestart
    unfold recoverService
    split_ifs
    · exact hrestart
    · exact .pure _
  have hservices : ∀ copied : Bool, B.Keeps extra (do
      let singbox ← recoverService a.singbox (restartSingbox a.singboxRestart)
      let subscription ← recoverService a.subscription (restartSubscription a.subscriptionRestart)
      pure ⟨restored && copied, singbox, subscription⟩ : Prog Host Event ε RollbackReport) :=
    fun copied => .bind (hrecover _ (keeps_restartSingbox _)) fun _ =>
      .bind (hrecover _ (keeps_restartSubscription _)) fun _ => .pure _
  dsimp only
  split_ifs with happlied
  · exact .bind (keeps_copyBack (hbak happlied) _) hservices
  · exact .bind (.pure _) hservices

theorem keeps_commitOrRollBack {targets : List StateFile} {entries : List (StateFile × Bool)}
    {forward : Prog Host Event RotateStage Unit} (hforward : B.Advances extra forward)
    (hentries : ∀ f ∈ entries.map Prod.fst, f.isMaterial = true) (drop : StateFile → Bool)
    (a : RollbackAnswers) : B.Keeps extra (commitOrRollBack targets entries forward drop a) := by
  refine .of_wp fun s hs => ?_
  unfold commitOrRollBack
  rw [wp_bind, wp_attempt]
  refine (hforward s hs).mono (fun _ _ hw => hw) fun r t ht => ?_
  cases r with
  | ok => exact (keeps_discardBackups _ _).wp ht.1
  | error stage =>
    have hmaterial : ∀ known : Set Path, ∀ f ∈ entries.map Prod.fst, Restores known f :=
      fun _ f hf => .inl (hentries f hf)
    by_cases happlied : stage.configApplied = true
    · have hknown : B.Holds (insert (.live .configBak) extra) t := by
        apply ht.2
        intro other hother
        rw [← Except.error.inj hother]
        exact happlied
      have hback : B.Keeps (insert (.live .configBak) extra) (do
          let report ← rollback entries stage.configApplied a
          Prog.fail (.rolledBack stage report) : Prog Host Event RotateError Unit) :=
        .bind (keeps_rollback (hmaterial _) (fun _ => Set.mem_insert _ _) a) fun _ => .fail _
      exact (hback.wp hknown).mono (fun _ _ hw => hw) fun _ _ hu => hu.mono (Set.subset_insert _ _)
    · have hback : B.Keeps extra (do
          let report ← rollback entries stage.configApplied a
          Prog.fail (.rolledBack stage report) : Prog Host Event RotateError Unit) :=
        .bind (keeps_rollback (hmaterial _) (fun hyes => absurd hyes happlied) a) fun _ => .fail _
      exact hback.wp ht.1

theorem keeps_stageCandidate {f : StateFile} (hf : f.isMaterial = true) (doc : Json)
    (a : StageAnswers) : B.Keeps extra (stageCandidate f doc a) := by
  have hne : Path.live f ≠ .live .config := by
    rintro ⟨⟩
    exact nomatch hf
  have hwrite : B.Keeps extra (do
      require a.createDir ()
      writeFile (.live f) (.json doc) 0o666 a.write () : Prog Host Event Unit Unit) :=
    .bind (keeps_require _) fun _ => keeps_writeFile _ (fine_of_isMaterial hf _)
  refine .bind (.attempt hwrite) fun r => ?_
  cases r with
  | error => exact .bind (keeps_discardFile _ hne) fun _ => .fail _
  | ok => exact .bind (keeps_discardFile _ hne) fun _ => keeps_require _

private theorem doc_of_realityPlan {h : Host} {a : RotateAnswers} {plan : RotatePlan}
    (hh : B.Holds extra h) (hclock : B.clock a.now) (hplan : realityPlan site h a = .ok plan) :
    B.doc plan.doc := by
  unfold realityPlan at hplan
  cases hkeys : generateRealityKeypair site a with
  | error cause => simp [hkeys] at hplan
  | ok keys =>
    cases hload : Admin.loadUsers h a.readUsers with
    | error cause => simp [hkeys, hload] at hplan
    | ok users =>
      simp only [hkeys, hload] at hplan
      rw [← Except.ok.inj hplan]
      exact B.rendered (hh.loadUsers hload) hclock

private theorem doc_of_obfsPlan {h : Host} {a : ObfsRotateAnswers} {plan : RotatePlan}
    (hh : B.Holds extra h) (hclock : B.clock a.now) (hplan : obfsPlan site h a = .ok plan) :
    B.doc plan.doc := by
  unfold obfsPlan at hplan
  cases hkeys : loadRealityParams site h a.keys with
  | error cause => simp [hkeys] at hplan
  | ok reality =>
    cases hload : Admin.loadUsers h a.readUsers with
    | error cause => simp [hkeys, hload] at hplan
    | ok users =>
      simp only [hkeys, hload] at hplan
      rw [← Except.ok.inj hplan]
      exact B.rendered (hh.loadUsers hload) hclock

theorem keeps_cmdRealityRotate {a : RotateAnswers} (hclock : B.clock a.now) :
    B.Keeps extra (cmdRealityRotate site inv a) := by
  refine .bind (keeps_mark _) fun _ => .bind (.look _) fun _ => .bind (keeps_require _) fun _ =>
    .look_bind fun s hs => ?_
  cases hplan : realityPlan site s a with
  | error cause => exact .fail _
  | ok plan =>
    have hdoc := doc_of_realityPlan hs hclock hplan
    have htargets := realityPlan_targets hplan
    have hmaterial : ∀ f ∈ plan.targets, f.isMaterial = true := by
      rw [htargets]
      decide
    refine .bind (keeps_stageCandidate rfl _ _) fun _ => .bind (keeps_require _) fun _ => ?_
    refine .bind_ok (P := fun entries => entries.map Prod.fst = plan.targets)
      (fun t ht _ => ?_) fun entries hentries => ?_
    · exact wp_backupAll_mapError _ a.backup a.dropBackup [] hmaterial
        (htargets ▸ rotatable_realityFiles.nodup) ht
    · apply keeps_commitOrRollBack (advances_realityForward inv hdoc htargets a)
      rw [hentries]
      exact hmaterial

theorem keeps_cmdHysteriaObfsRotate {a : ObfsRotateAnswers} (hclock : B.clock a.now) :
    B.Keeps extra (cmdHysteriaObfsRotate site inv a) := by
  refine .bind (keeps_mark _) fun _ => .bind (.look _) fun _ => .bind (keeps_require _) fun _ =>
    .bind (keeps_require _) fun _ => .look_bind fun s hs => ?_
  cases hplan : obfsPlan site s a with
  | error cause => exact .fail _
  | ok plan =>
    have hdoc := doc_of_obfsPlan hs hclock hplan
    refine .bind (keeps_stageCandidate rfl _ _) fun _ => .bind (keeps_require _) fun _ =>
      .bind (.mapError _ (learns_backupForRotate (.inl rfl) _).keeps) fun existed =>
      .bind (.attempt (keeps_installRotatedKeyFile rfl _ _)) fun installed => ?_
    cases installed with
    | ok => exact keeps_commitOrRollBack (advances_obfsForward inv hdoc _ _) (by simp; rfl) _ _
    | error =>
      cases existed with
      | true => exact .bind (keeps_discardFile _ (by simp)) fun _ => .fail _
      | false => exact .fail _

theorem keeps_generateKeyset (a : InitAnswers) : B.Keeps extra (generateKeyset site a) := by
  have hopen : ∀ fs : List StateFile, B.Keeps extra (openToSubscription a.chmod fs) := by
    intro fs
    induction fs with
    | nil => exact .pure _
    | cons f fs ih => exact .bind (keeps_setMode _) fun _ => ih
  unfold generateKeyset
  cases generateRealityKeypair site a.rotate with
  | error e => exact .fail _
  | ok keys =>
    have hmaterial : ∀ f ∈ realityFiles, f.isMaterial = true := by decide
    exact .bind (.mapError _ (keeps_installContents _ hmaterial)) fun _ =>
      .bind (hopen _) fun _ => .bind (keeps_installRotatedKeyFile rfl _ _) fun _ => hopen _

theorem keeps_cmdInit {a : InitAnswers} (hclock : B.clock a.rotate.now) (rotate : Bool) :
    B.Keeps extra (cmdInit site inv rotate a) := by
  refine .bind (keeps_require _) fun _ => .bind (.look _) fun hasKey => ?_
  split_ifs
  · exact keeps_cmdRealityRotate inv hclock
  · exact .bind (.look _) fun _ => keeps_require _
  · refine .bind (.look _) fun hasConfig => ?_
    split_ifs
    · exact keeps_cmdRealityRotate inv hclock
    · exact keeps_generateKeyset a

end Rotating

section Commands

variable {site : Site} (B : Barrier site)

/-- A command renders at times and brings in accounts that are behind the line. -/
def Allows : Command → Prop
  | .init _ a => B.clock a.rotate.now
  | .hysteriaObfsRotate a => B.clock a.now
  | .restore archive a => (∀ bytes ∈ archive .users, B.Fine .users bytes) ∧
    B.clock a.regenerate.render.now ∧ B.clock a.rollback.regenerate.render.now
  | .renderConfig _ a => B.clock a.render.now
  | .configMigrate a => B.clock a.regenerate.render.now
  | .user cmd a => (∀ users next, B.store users → cmd.mutate users = .ok next → B.store next) ∧
    B.clock a.forward.now ∧ B.clock a.compensate.now
  | .userRotateToken id tokenHash _ _ => ∀ users next, B.store users →
    modifyUser id (fun u => { u with subscriptionTokenHashHex := tokenHash }) users = .ok next →
    B.store next

variable {B} {extra : Set Path}

theorem keeps_command (inv : Invocation) {cmd : Command} (hcmd : B.Allows cmd) :
    B.Keeps extra (cmd.run site inv) := by
  have houtcome : ∀ {ε α : Type} {reports : ε → Bool} {prog : Prog Host Event ε α},
      B.Keeps extra prog → B.Keeps extra (outcome reports prog) :=
    fun hprog => .bind (.attempt hprog) fun _ => .pure _
  cases cmd with
  | init rotate a => exact houtcome (keeps_cmdInit inv hcmd rotate)
  | hysteriaObfsRotate a => exact houtcome (keeps_cmdHysteriaObfsRotate inv hcmd)
  | restore archive a => exact houtcome (keeps_cmdRestore inv hcmd.1 hcmd.2.1 hcmd.2.2)
  | renderConfig requireApplied a => exact houtcome (keeps_cmdRenderConfig inv hcmd requireApplied)
  | configMigrate a => exact houtcome (keeps_cmdConfigMigrate inv hcmd)
  | user cmd a => exact houtcome (keeps_userCommand inv hcmd.1 hcmd.2.1 hcmd.2.2)
  | userRotateToken id tokenHash readUsers a =>
    exact houtcome (keeps_cmdUserRotateToken inv hcmd readUsers a)

end Commands

end Barrier

end Vpn1.Admin
