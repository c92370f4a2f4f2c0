import Mathlib.Logic.Function.Basic
import Vpn1.Lib.Json
import Vpn1.Lib.Traced
import Vpn1.Compat.Model
import Vpn1.Admin.Answers

/-! The host a command runs on: its files with their modes, and what the two services hold in
memory; and the file operations commands are made of, with one rule for each. -/

namespace Vpn1.Admin

open Compat Traced

/-- A state file or one of the siblings that commands keep next to it. -/
inductive Path
  | live (f : StateFile)
  | tmp (f : StateFile) (pid : Nat)
  | rotateTmp (f : StateFile)
  | rotateBak (f : StateFile)
  | preMigration (f : StateFile) (time : Nat)
  deriving DecidableEq, Repr

/-- The permission bits `rwxrwxrwx`. -/
abbrev Mode := BitVec 9

/-- What the bytes of a file spell. `digest doc` is the SHA-256 fingerprint of `doc` in hex, taken
as a value of its own because the hash is injective; a file cut short is `torn`. -/
inductive Content
  | text (s : String)
  | json (doc : Json)
  | digest (doc : Json)
  | torn
  deriving DecidableEq

def Content.text? : Content → Option String
  | .text s => some s
  | _ => none

def Content.json? : Content → Option Json
  | .json doc => some doc
  | _ => none

structure File where
  content : Content
  mode : Mode
  deriving DecidableEq

/-- What `vpn-subscription` keeps from its start on. -/
structure PublicMaterial where
  publicKey : String
  shortId : String
  obfsPassword : Option String
  deriving DecidableEq, Repr

structure Host where
  files : Path → Option File
  umask : Mode
  binaryInstalled : Bool
  masqueradeDir : Bool
  /-- The document the running sing-box has loaded. -/
  loaded : Option Json
  /-- The material the running `vpn-subscription` serves. -/
  cached : Option PublicMaterial

inductive Event
  | io
  | renderBegins (users : List CompatUser) (a : RenderAnswers)
  | wentLive (users : List CompatUser) (a : RenderAnswers)
  | rotateBegins (a : RotateAnswers)
  | obfsRotateBegins (a : ObfsRotateAnswers)

namespace Host

def put (h : Host) (p : Path) (f : Option File) : Host :=
  { h with files := Function.update h.files p f }

def exists? (h : Host) (f : StateFile) : Bool := (h.files (.live f)).isSome

def content? (h : Host) (f : StateFile) : Option Content := (h.files (.live f)).map File.content

def text? (h : Host) (f : StateFile) : Option String := (h.content? f).bind Content.text?

def json? (h : Host) (f : StateFile) : Option Json := (h.content? f).bind Content.json?

theorem content?_of_json? {h : Host} {f : StateFile} {doc : Json} (hj : h.json? f = some doc) :
    h.content? f = some (.json doc) := by
  cases hc : h.content? f with
  | none => simp [json?, hc] at hj
  | some c => cases c <;> simp_all [json?, Content.json?]

section Put

variable (h : Host) (p : Path) (f : Option File)

@[simp] theorem put_files_same : (h.put p f).files p = f := by simp [put]

@[simp] theorem put_files_of_ne {q : Path} (hq : q ≠ p) : (h.put p f).files q = h.files q := by
  simp [put, hq]

@[simp] theorem put_loaded : (h.put p f).loaded = h.loaded := rfl

@[simp] theorem put_cached : (h.put p f).cached = h.cached := rfl

@[simp] theorem put_umask : (h.put p f).umask = h.umask := rfl

@[simp] theorem put_binaryInstalled : (h.put p f).binaryInstalled = h.binaryInstalled := rfl

@[simp] theorem put_masqueradeDir : (h.put p f).masqueradeDir = h.masqueradeDir := rfl

end Put

/-- The mode of a file opened with `create` and `mode`: an existing file keeps its own. -/
def openMode (h : Host) (p : Path) (mode : Mode) : Mode :=
  match h.files p with
  | some f => f.mode
  | none => mode &&& ~~~h.umask

end Host

/-- `t` differs from `h` in none but the listed files and in what the services hold. -/
structure SameExcept (h t : Host) (ps : List Path) : Prop where
  files : ∀ p, p ∉ ps → t.files p = h.files p
  umask : t.umask = h.umask
  binaryInstalled : t.binaryInstalled = h.binaryInstalled
  masqueradeDir : t.masqueradeDir = h.masqueradeDir

namespace SameExcept

variable {h t u : Host} {ps qs : List Path}

theorem refl (h : Host) (ps : List Path) : SameExcept h h ps := ⟨fun _ _ => rfl, rfl, rfl, rfl⟩

theorem trans (ht : SameExcept h t ps) (hu : SameExcept t u ps) : SameExcept h u ps :=
  ⟨fun p hp => (hu.files p hp).trans (ht.files p hp), hu.umask.trans ht.umask,
    hu.binaryInstalled.trans ht.binaryInstalled, hu.masqueradeDir.trans ht.masqueradeDir⟩

theorem mono (ht : SameExcept h t ps) (hs : ∀ p ∈ ps, p ∈ qs) : SameExcept h t qs :=
  ⟨fun p hp => ht.files p fun hm => hp (hs p hm), ht.umask, ht.binaryInstalled, ht.masqueradeDir⟩

theorem put {p : Path} {f : Option File} (ht : SameExcept h t ps) (hp : p ∈ ps) :
    SameExcept h (t.put p f) ps := by
  refine ⟨fun q hq => ?_, ht.umask, ht.binaryInstalled, ht.masqueradeDir⟩
  have hne : q ≠ p := fun hqp => hq (hqp ▸ hp)
  rw [Host.put_files_of_ne _ _ _ hne, ht.files q hq]

end SameExcept

/-- `t` differs from `h` in the listed files only. -/
structure FilesOnly (h t : Host) (ps : List Path) : Prop extends SameExcept h t ps where
  loaded : t.loaded = h.loaded
  cached : t.cached = h.cached

namespace FilesOnly

variable {h t u : Host} {ps qs : List Path}

theorem refl (h : Host) (ps : List Path) : FilesOnly h h ps := ⟨.refl h ps, rfl, rfl⟩

theorem trans (ht : FilesOnly h t ps) (hu : FilesOnly t u ps) : FilesOnly h u ps :=
  ⟨ht.toSameExcept.trans hu.toSameExcept, hu.loaded.trans ht.loaded, hu.cached.trans ht.cached⟩

theorem mono (ht : FilesOnly h t ps) (hs : ∀ p ∈ ps, p ∈ qs) : FilesOnly h t qs :=
  ⟨ht.toSameExcept.mono hs, ht.loaded, ht.cached⟩

theorem put {p : Path} {f : Option File} (ht : FilesOnly h t ps) (hp : p ∈ ps) :
    FilesOnly h (t.put p f) ps :=
  ⟨ht.toSameExcept.put hp, ht.loaded, ht.cached⟩

end FilesOnly

section Operations

variable {ε : Type}

/-- A step that changes nothing the model keeps, and may fail. -/
def require (ok : Bool) (e : ε) : Prog Host Event ε Unit :=
  if ok then pure () else Prog.fail e

/-- Open with `create` and `truncate`, write, sync. -/
def writeFile (p : Path) (c : Content) (mode : Mode) (a : WriteAnswer) (e : ε) :
    Prog Host Event ε Unit := do
  if a = .notOpened then Prog.fail e
  else
    Prog.move .io fun h => h.put p (some ⟨.torn, h.openMode p mode⟩)
    if a = .cut then Prog.fail e
    else
      Prog.move .io fun h => h.put p (some ⟨c, h.openMode p mode⟩)
      require (a = .done) e

/-- `std::fs::copy`: the destination takes the mode of the source before its contents. -/
def copyFile (src dst : Path) (a : CopyAnswer) (e : ε) : Prog Host Event ε Unit := do
  match ← Prog.look (fun h => h.files src) with
  | none => Prog.fail e
  | some f =>
    if a = .notOpened then Prog.fail e
    else
      Prog.move .io fun h => h.put dst (some ⟨.torn, h.openMode dst f.mode⟩)
      if a = .cut then Prog.fail e
      else
        Prog.move .io fun h => h.put dst (some ⟨.torn, f.mode⟩)
        Prog.move .io fun h => h.put dst (some f)

def renameFile (src dst : Path) (ok : Bool) (e : ε) : Prog Host Event ε Unit := do
  match ← Prog.look (fun h => h.files src) with
  | none => Prog.fail e
  | some f =>
    if ok then Prog.move .io fun h => (h.put src none).put dst (some f)
    else Prog.fail e

/-- `let _ = remove_file(p)`. -/
def discardFile (p : Path) (ok : Bool) : Prog Host Event ε Unit :=
  if ok then Prog.move .io fun h => h.put p none else pure ()

def setMode (p : Path) (mode : Mode) (ok : Bool) (e : ε) : Prog Host Event ε Unit := do
  match ← Prog.look (fun h => h.files p) with
  | none => Prog.fail e
  | some f =>
    if ok then Prog.move .io fun h => h.put p (some { f with mode := mode })
    else Prog.fail e

end Operations

section Rules

variable {ε : Type} {h : Host} {G : Event → Host → Prop} {p src dst : Path} {e : ε}

@[simp] theorem wp_require {ok : Bool} {Q : Except ε Unit → Host → Prop} :
    Wp (require ok e) h G Q ↔ if ok then Q (.ok ()) h else Q (.error e) h := by
  cases ok <;> simp [require]

theorem wp_require_bind {α : Type} {ok : Bool} {f : Unit → Prog Host Event ε α}
    {Q : Except ε α → Host → Prop} (herror : ok = false → Q (.error e) h)
    (hok : ok = true → Wp (f ()) h G Q) : Wp (require ok e >>= f) h G Q := by
  rw [wp_bind, wp_require]
  cases ok with
  | false => exact herror rfl
  | true => exact hok rfl

/-- A write changes its own file only, and succeeds with the contents in place. -/
theorem wp_writeFile {c : Content} {mode : Mode} {a : WriteAnswer} {Q : Except ε Unit → Host → Prop}
    (hG : ∀ f, G .io (h.put p f))
    (hok : a = .done → Q (.ok ()) (h.put p (some ⟨c, h.openMode p mode⟩)))
    (herr : a ≠ .done → ∀ f, Q (.error e) (h.put p f)) : Wp (writeFile p c mode a e) h G Q := by
  have hself : h.put p (h.files p) = h := by simp [Host.put]
  have hopen : (h.put p (some ⟨.torn, h.openMode p mode⟩)).openMode p mode = h.openMode p mode := by
    simp [Host.openMode]
  have hput : ∀ f g, (h.put p f).put p g = h.put p g := by simp [Host.put]
  cases a with
  | notOpened => simpa [writeFile, hself] using herr (by simp) (h.files p)
  | cut => simpa [writeFile, hG] using herr (by simp) _
  | notSynced => simpa [writeFile, hG, hopen, hput] using herr (by simp) _
  | done => simpa [writeFile, hG, hopen, hput] using hok rfl

/-- A failed copy leaves the destination as it was or torn. -/
theorem wp_copyFile {a : CopyAnswer} {Q : Except ε Unit → Host → Prop}
    (hG : ∀ f, G .io (h.put dst f))
    (hok : ∀ f, h.files src = some f → a = .done → Q (.ok ()) (h.put dst (some f)))
    (herr : h.files src = none ∨ a ≠ .done →
      ∀ f, (f = h.files dst ∨ ∃ m, f = some ⟨.torn, m⟩) → Q (.error e) (h.put dst f)) :
    Wp (copyFile src dst a e) h G Q := by
  have hself : h.put dst (h.files dst) = h := by simp [Host.put]
  have hput : ∀ f g, (h.put dst f).put dst g = h.put dst g := by simp [Host.put]
  cases hs : h.files src with
  | none => simpa [copyFile, hs, hself] using herr (.inl hs) _ (.inl rfl)
  | some f =>
    cases a with
    | notOpened => simpa [copyFile, hs, hself] using herr (.inr (by simp)) _ (.inl rfl)
    | cut => simpa [copyFile, hs, hG] using herr (.inr (by simp)) _ (.inr ⟨_, rfl⟩)
    | done => simpa [copyFile, hs, hG, hput] using hok f hs rfl

theorem wp_renameFile {ok : Bool} {Q : Except ε Unit → Host → Prop}
    (hG : ∀ f, h.files src = some f → ok = true → G .io ((h.put src none).put dst (some f)))
    (hok : ∀ f, h.files src = some f → ok = true → Q (.ok ()) ((h.put src none).put dst (some f)))
    (herr : h.files src = none ∨ ok = false → Q (.error e) h) :
    Wp (renameFile src dst ok e) h G Q := by
  cases hs : h.files src with
  | none => simpa [renameFile, hs] using herr (.inl hs)
  | some f =>
    cases ok with
    | false => simpa [renameFile, hs] using herr (.inr rfl)
    | true => simpa [renameFile, hs] using ⟨hG f hs rfl, hok f hs rfl⟩

theorem wp_setMode {mode : Mode} {ok : Bool} {Q : Except ε Unit → Host → Prop}
    (hG : ∀ f, h.files p = some f → G .io (h.put p (some { f with mode := mode })))
    (hok : ∀ f, h.files p = some f → ok = true → Q (.ok ()) (h.put p (some { f with mode := mode })))
    (herr : h.files p = none ∨ ok = false → Q (.error e) h) :
    Wp (setMode p mode ok e) h G Q := by
  cases hs : h.files p with
  | none => simpa [setMode, hs] using herr (.inl hs)
  | some f =>
    cases ok with
    | false => simpa [setMode, hs] using herr (.inr rfl)
    | true => simpa [setMode, hs] using ⟨hG f hs, hok f hs rfl⟩

theorem wp_discardFile {ok : Bool} {Q : Except ε Unit → Host → Prop}
    (hG : ∀ f, G .io (h.put p f)) (hQ : ∀ f, f = h.files p ∨ f = none → Q (.ok ()) (h.put p f)) :
    Wp (discardFile p ok : Prog Host Event ε Unit) h G Q := by
  have hself : h.put p (h.files p) = h := by simp [Host.put]
  cases ok with
  | false => simpa [discardFile, hself] using hQ _ (.inl rfl)
  | true => simpa [discardFile, hG] using hQ none (.inr rfl)

end Rules

end Vpn1.Admin
