import Vpn1.Compat.Client
import Vpn1.Compat.Credentials
import Vpn1.Compat.Server
import Vpn1.Admin.Host

/-! How commands read key material and users off the host, and how the two services take up what
is on disk when they are restarted. -/

namespace Vpn1.Admin

open Compat Traced

/-- What a host is set up with: the settings and the X25519 base-point multiplication. -/
structure Site where
  cfg : DeploymentConfig
  mulBaseClamped : List Nat → List Nat

/-- One process of `vpn-admin`: its id, and `VPN1_ALLOW_OFFLINE_MUTATION`. -/
structure Invocation where
  pid : Nat
  offline : Bool
  deriving DecidableEq, Repr

section Reading

variable (site : Site)

inductive LoadRealityError
  | privateKeyMissing
  | publicKeyUnreadable
  | incoherent (cause : CredentialError)
  | shortIdUnreadable
  deriving DecidableEq, Repr

/-- `read_to_string`, with its own answer. -/
def Host.read (h : Host) (f : StateFile) (ok : Bool) : Option String :=
  if ok then h.text? f else none

def realityParams (priv pub sid : String) : RealityServerParams :=
  ⟨priv, pub, [sid], site.cfg.reality.handshakeServer, site.cfg.reality.handshakePort⟩

def loadRealityParams (h : Host) (a : KeyReads) : Except LoadRealityError RealityServerParams :=
  match h.read .privateKey a.privateKey with
  | none => .error .privateKeyMissing
  | some priv =>
    match h.read .publicKey a.publicKey with
    | none => .error .publicKeyUnreadable
    | some pub =>
      match validateRealityKeypair site.mulBaseClamped (trim priv) (trim pub) with
      | .error e => .error (.incoherent e)
      | .ok () =>
        match h.read .shortId a.shortId with
        | none => .error .shortIdUnreadable
        | some sid => .ok (realityParams site (trim priv) (trim pub) (trim sid))

/-- The obfuscation password as both readers of its file see it: trimmed, and off when empty. -/
def Host.obfsPassword (h : Host) (ok : Bool) : Option String :=
  ((h.read .obfsPassword ok).map trim).filter (· ≠ "")

def loadHysteriaParams (h : Host) (obfs : Bool) : Hysteria2ServerParams where
  tlsCertPath := site.cfg.hysteriaDir ++ "/cert.pem"
  tlsKeyPath := site.cfg.hysteriaDir ++ "/key.pem"
  obfsPassword := h.obfsPassword obfs
  masqueradeDirPath := if h.masqueradeDir then some (site.cfg.hysteriaDir ++ "/masquerade") else none
  upMbps := site.cfg.hysteria2.upMbps
  downMbps := site.cfg.hysteria2.downMbps

def renderedDoc (h : Host) (users : List CompatUser) (now : Int64) : Except LoadRealityError Json :=
  (loadRealityParams site h ⟨true, true, true⟩).map fun reality =>
    renderSingboxServerConfig users reality (loadHysteriaParams site h true) site.cfg.ports now

/-- The document one call renders for a user list, from the files it manages to read. -/
def candidateDoc (h : Host) (users : List CompatUser) (a : RenderAnswers) :
    Except LoadRealityError Json :=
  (loadRealityParams site h a.keys).map fun reality =>
    renderSingboxServerConfig users reality (loadHysteriaParams site h a.obfs) site.cfg.ports a.now

def loadUsers (h : Host) (ok : Bool) : Except CompatError (List CompatUser) :=
  jsonUsers.loadUsers thisRelease ((h.content? .users).map Content.json?) ok

theorem loadUsers_of_none {h : Host} (hnone : h.content? .users = none) (ok : Bool) :
    loadUsers h ok = .ok [] := by
  rw [loadUsers, hnone]
  rfl

theorem loadUsers_of_some {h : Host} {c : Content} (hsome : h.content? .users = some c) :
    loadUsers h true = parseUsersBytes c.json? := by
  rw [loadUsers, hsome]
  rfl

/-- `vpn-subscription` does not come up on bad material. -/
def startupMaterial (pub sid obfs : Option String) : Option PublicMaterial :=
  match pub, sid with
  | some pub, some sid =>
    if (validateRealityPublicKeyShape (trim pub)).isOk && (validateRealityShortId (trim sid)).isOk
    then some ⟨trim pub, trim sid, obfs⟩
    else none
  | _, _ => none

/-- What `vpn-subscription` reads when it starts. -/
def subscriptionStartup (h : Host) : Option PublicMaterial :=
  startupMaterial (h.text? .publicKey) (h.text? .shortId) (h.obfsPassword true)

/-- The endpoints `vpn-subscription` builds once when it starts. -/
def serviceEndpoints (cfg : DeploymentConfig) (m : PublicMaterial) : List CompatEndpoint :=
  standardEndpoints cfg.publicHost cfg.reality.listenPort cfg.hysteria2.listenPort m.publicKey
    m.shortId cfg.reality.handshakeServer m.obfsPassword

end Reading

section Services

variable {ε : Type}

/-- What a service holds after a restart, given what its files say and what it held. -/
def afterRestart {α : Type} (a : RestartAnswer) (fresh old : α) : α :=
  if a.restarts then fresh else old

@[simp] theorem afterRestart_active {α : Type} (fresh old : α) :
    afterRestart .active fresh old = fresh := rfl

@[simp] theorem afterRestart_notActive {α : Type} (fresh old : α) :
    afterRestart .notActive fresh old = fresh := rfl

@[simp] theorem afterRestart_notRestarted {α : Type} (fresh old : α) :
    afterRestart .notRestarted fresh old = old := rfl

/-- `reload_and_verify` on sing-box, which does not come up without a readable `config.json`. -/
def restartSingbox (a : RestartAnswer) : Prog Host Event ε Bool := do
  if a.restarts then
    Prog.move .io fun h => { h with loaded := h.json? .config }
    Prog.look fun h => h.loaded.isSome && a == .active
  else pure false

/-- `reload_and_verify` on `vpn-subscription`. -/
def restartSubscription (a : RestartAnswer) : Prog Host Event ε Bool := do
  if a.restarts then
    Prog.move .io fun h => { h with cached := subscriptionStartup h }
    Prog.look fun h => h.cached.isSome && a == .active
  else pure false

end Services

section Frames

variable {site : Site} {h t : Host} {ps : List Path}

theorem SameExcept.content? (ht : SameExcept h t ps) {f : StateFile} (hf : Path.live f ∉ ps) :
    t.content? f = h.content? f := by
  simp [Host.content?, ht.files _ hf]

theorem SameExcept.text? (ht : SameExcept h t ps) {f : StateFile} (hf : Path.live f ∉ ps) :
    t.text? f = h.text? f := by
  simp [Host.text?, ht.content? hf]

theorem SameExcept.json? (ht : SameExcept h t ps) {f : StateFile} (hf : Path.live f ∉ ps) :
    t.json? f = h.json? f := by
  simp [Host.json?, ht.content? hf]

structure KeepsMaterial (h t : Host) : Prop where
  privateKey : t.text? .privateKey = h.text? .privateKey
  publicKey : t.text? .publicKey = h.text? .publicKey
  shortId : t.text? .shortId = h.text? .shortId
  obfsPassword : t.text? .obfsPassword = h.text? .obfsPassword
  masqueradeDir : t.masqueradeDir = h.masqueradeDir

theorem SameExcept.keepsMaterial (ht : SameExcept h t ps) (hpriv : Path.live .privateKey ∉ ps)
    (hpub : Path.live .publicKey ∉ ps) (hsid : Path.live .shortId ∉ ps)
    (hobfs : Path.live .obfsPassword ∉ ps) : KeepsMaterial h t :=
  ⟨ht.text? hpriv, ht.text? hpub, ht.text? hsid, ht.text? hobfs, ht.masqueradeDir⟩

theorem KeepsMaterial.trans {u : Host} (hs : KeepsMaterial h t) (ht : KeepsMaterial t u) :
    KeepsMaterial h u :=
  ⟨ht.privateKey.trans hs.privateKey, ht.publicKey.trans hs.publicKey, ht.shortId.trans hs.shortId,
    ht.obfsPassword.trans hs.obfsPassword, ht.masqueradeDir.trans hs.masqueradeDir⟩

variable (hm : KeepsMaterial h t)
include hm

theorem KeepsMaterial.loadRealityParams (a : KeyReads) :
    Admin.loadRealityParams site t a = Admin.loadRealityParams site h a := by
  simp only [Admin.loadRealityParams, Host.read, hm.privateKey, hm.publicKey, hm.shortId]

theorem KeepsMaterial.host_obfsPassword (ok : Bool) : t.obfsPassword ok = h.obfsPassword ok := by
  simp only [Host.obfsPassword, Host.read, hm.obfsPassword]

theorem KeepsMaterial.loadHysteriaParams (ok : Bool) :
    Admin.loadHysteriaParams site t ok = Admin.loadHysteriaParams site h ok := by
  simp only [Admin.loadHysteriaParams, hm.host_obfsPassword, hm.masqueradeDir]

theorem KeepsMaterial.candidateDoc (users : List CompatUser) (a : RenderAnswers) :
    Admin.candidateDoc site t users a = Admin.candidateDoc site h users a := by
  simp only [Admin.candidateDoc, hm.loadRealityParams, hm.loadHysteriaParams]

theorem KeepsMaterial.subscriptionStartup :
    Admin.subscriptionStartup t = Admin.subscriptionStartup h := by
  simp only [Admin.subscriptionStartup, hm.publicKey, hm.shortId, hm.host_obfsPassword]

end Frames

section ServiceRules

variable {ε : Type} {h : Host} {G : Event → Host → Prop}

/-- A restart of sing-box changes nothing but what is loaded; success means `config.json` is. -/
theorem wp_restartSingbox {a : RestartAnswer} {Q : Except ε Bool → Host → Prop}
    (hG : ∀ d, G .io { h with loaded := d })
    (hQ : Q (.ok ((h.json? .config).isSome && a == .active))
      { h with loaded := afterRestart a (h.json? .config) h.loaded }) :
    Wp (restartSingbox a : Prog Host Event ε Bool) h G Q := by
  have hno : (RestartAnswer.notRestarted == .active) = false := rfl
  cases a with
  | notRestarted =>
    rw [hno, Bool.and_false] at hQ
    simpa [restartSingbox, RestartAnswer.restarts] using hQ
  | active => simpa [restartSingbox, RestartAnswer.restarts, hG] using hQ
  | notActive => simpa [restartSingbox, RestartAnswer.restarts, hG] using hQ

theorem wp_restartSubscription {a : RestartAnswer} {Q : Except ε Bool → Host → Prop}
    (hG : ∀ m, G .io { h with cached := m })
    (hQ : Q (.ok ((subscriptionStartup h).isSome && a == .active))
      { h with cached := afterRestart a (subscriptionStartup h) h.cached }) :
    Wp (restartSubscription a : Prog Host Event ε Bool) h G Q := by
  have hno : (RestartAnswer.notRestarted == .active) = false := rfl
  cases a with
  | notRestarted =>
    rw [hno, Bool.and_false] at hQ
    simpa [restartSubscription, RestartAnswer.restarts] using hQ
  | active => simpa [restartSubscription, RestartAnswer.restarts, hG] using hQ
  | notActive => simpa [restartSubscription, RestartAnswer.restarts, hG] using hQ

end ServiceRules

section Sample

def sampleSite : Site where
  cfg := {
    schemaVersion := 1
    publicHost := "vpn.example.com"
    subscriptionHost := "vpn.example.com"
    reality := ⟨443, "www.example.com", 443⟩
    hysteria2 := ⟨443, none, none⟩
    subscription := ⟨9443, 8443⟩
    udpProbe := none
    stateDir := "/etc/vpn/compat"
    singboxBinary := "/usr/local/bin/sing-box" }
  mulBaseClamped := fun _ => List.replicate 32 0

def sampleKey : String := "AAAAAAAAAAAAAAAAAAAAAAAAAAAAAAAAAAAAAAAAAAA"

def sampleUser : CompatUser :=
  ⟨"user_1", "one", true, "11111111-1111-4111-8111-111111111111", "pw", "00", 0, none⟩

def sampleKeyFiles : Path → Option File
  | .live .privateKey => some ⟨.text sampleKey, 0o640⟩
  | .live .publicKey => some ⟨.text sampleKey, 0o640⟩
  | .live .shortId => some ⟨.text "0a1b2c3d", 0o640⟩
  | .live .users => some ⟨.json (savedUsers [sampleUser]), 0o640⟩
  | _ => none

def bareHost : Host := ⟨sampleKeyFiles, 0o022, true, false, none, none⟩

def sampleDoc : Json :=
  renderSingboxServerConfig [sampleUser] (realityParams sampleSite sampleKey sampleKey "0a1b2c3d")
    (loadHysteriaParams sampleSite bareHost true) sampleSite.cfg.ports 100

def sampleHost : Host where
  files
    | .live .config => some ⟨.json sampleDoc, 0o640⟩
    | .live .appliedStamp => some ⟨.digest sampleDoc, 0o600⟩
    | p => sampleKeyFiles p
  umask := 0o022
  binaryInstalled := true
  masqueradeDir := false
  loaded := some sampleDoc
  cached := some ⟨sampleKey, "0a1b2c3d", none⟩

end Sample

end Vpn1.Admin
