import Vpn1.Admin.Transaction
import Vpn1.Admin.Coherence

/-! The coherence checks of `vpn-admin doctor`: what is on disk is compared with what a fresh rendering
would give, and with what the running `vpn-subscription` says it holds. A clean report is worth that
clients are handed what sing-box accepts. -/

namespace Vpn1.Admin

open Compat

section Fingerprint

def CompatTransport.toJson : CompatTransport → Json
  | .vlessReality => .str "vless_reality"
  | .hysteria2 => .str "hysteria2"

def optionalText : Option String → Json
  | some text => .str text
  | none => .null

def PublicParameters.toJson : PublicParameters → Json
  | .reality publicKeyHex shortId fingerprint => .obj [
      ("kind", .str "reality"),
      ("public_key_hex", .str publicKeyHex),
      ("short_id", .str shortId),
      ("fingerprint", .str fingerprint)]
  | .hysteria2 obfsPassword => .obj [
      ("kind", .str "hysteria2"),
      ("obfs_password", optionalText obfsPassword)]

def CompatEndpoint.toJson (ep : CompatEndpoint) : Json :=
  .obj [
    ("id", .str ep.id),
    ("transport", CompatTransport.toJson ep.transport),
    ("host", .str ep.host),
    ("port", .num ep.port.toNat),
    ("server_name", optionalText ep.serverName),
    ("label", .str ep.label),
    ("public_parameters", PublicParameters.toJson ep.publicParameters)]

def endpointsDoc (endpoints : List CompatEndpoint) : Json :=
  .arr (endpoints.map CompatEndpoint.toJson)

/-- `digest` is the hex SHA-256 of the text of a document. -/
def endpointsFingerprint (digest : Json → String) (endpoints : List CompatEndpoint) : String :=
  digest (endpointsDoc endpoints)

theorem optionalText_injective {s t : Option String} (h : optionalText s = optionalText t) :
    s = t := by
  cases s <;> cases t <;> simp_all [optionalText]

theorem CompatTransport.toJson_injective {s t : CompatTransport}
    (h : CompatTransport.toJson s = CompatTransport.toJson t) : s = t := by
  cases s <;> cases t <;> simp_all [CompatTransport.toJson]

theorem PublicParameters.toJson_injective {p q : PublicParameters}
    (h : PublicParameters.toJson p = PublicParameters.toJson q) : p = q := by
  cases p with
  | reality key sid fp =>
    cases q with
    | reality key' sid' fp' => simpa [PublicParameters.toJson] using h
    | hysteria2 obfs' => simp [PublicParameters.toJson] at h
  | hysteria2 obfs =>
    cases q with
    | reality key' sid' fp' => simp [PublicParameters.toJson] at h
    | hysteria2 obfs' =>
      have hobfs : optionalText obfs = optionalText obfs' := by
        simpa [PublicParameters.toJson] using h
      rw [optionalText_injective hobfs]

theorem CompatEndpoint.toJson_injective {ep ep' : CompatEndpoint}
    (h : CompatEndpoint.toJson ep = CompatEndpoint.toJson ep') : ep = ep' := by
  obtain ⟨id, transport, host, port, serverName, label, params⟩ := ep
  obtain ⟨id', transport', host', port', serverName', label', params'⟩ := ep'
  simp only [CompatEndpoint.toJson, Json.obj.injEq, List.cons.injEq, Prod.mk.injEq, true_and,
    Json.str.injEq, Json.num.injEq, Int.natCast_inj, UInt16.toNat_inj, and_true] at h
  obtain ⟨rfl, htransport, rfl, rfl, hname, rfl, hparams⟩ := h
  rw [CompatTransport.toJson_injective htransport, optionalText_injective hname,
    PublicParameters.toJson_injective hparams]

theorem endpointsDoc_injective {eps eps' : List CompatEndpoint}
    (h : endpointsDoc eps = endpointsDoc eps') : eps = eps' :=
  List.map_injective_iff.mpr (fun _ _ => CompatEndpoint.toJson_injective) (Json.arr.inj h)

end Fingerprint

section Checks

inductive CheckStatus
  | ok
  | warn
  | fail
  deriving DecidableEq, Repr

inductive L4Finding
  | keysSkipped (cause : LoadRealityError)
  | usersSkipped (cause : CompatError)
  | notRendered (cause : CompatError)
  | coherent
  | incoherent (clientShortId : String) (serverShortIds : List String)
  | notYetRendered
  | configUnreadable
  | configUnparsable
  | current
  | drifted
  | unreachable
  | unexpectedShape
  | liveCurrent
  | liveStale
  deriving DecidableEq, Repr

def L4Finding.status : L4Finding → CheckStatus
  | .coherent | .current | .liveCurrent => .ok
  | .keysSkipped _ | .usersSkipped _ | .notYetRendered | .configUnreadable | .configUnparsable
  | .unreachable | .unexpectedShape => .warn
  | .notRendered _ | .incoherent .. | .drifted | .liveStale => .fail

/-- What the reads of one `doctor` are answered, and whether `vpn-subscription` can be reached. -/
structure DoctorAnswers where
  keys : KeyReads
  readUsers : Bool
  obfs : Bool
  now : Int64
  readConfig : Bool
  reaches : Bool

variable (site : Site) (digest : Json → String) (h : Host) (a : DoctorAnswers)

def expectedEndpoints (reality : RealityServerParams) (hysteria : Hysteria2ServerParams) :
    List CompatEndpoint :=
  standardEndpoints site.cfg.publicHost site.cfg.reality.listenPort site.cfg.hysteria2.listenPort
    reality.publicKeyHex (reality.shortIds.head?.getD "") reality.handshakeServer
    hysteria.obfsPassword

def syntheticUser : CompatUser where
  id := "doctor-l4-synthetic"
  name := "doctor-l4-synthetic"
  enabled := true
  vlessUuid := "00000000-0000-4000-8000-000000000000"
  hysteria2Password := "unused"
  subscriptionTokenHashHex := ""
  createdAt := 0
  expiresAt := none

def renderSingboxClientSubscription (user : CompatUser) (endpoints : List CompatEndpoint) :
    Except CompatError Json :=
  renderSingboxClientSubscriptionWithProfile user endpoints .reliability

def serverShortIds (doc : Json) : List String :=
  match (reality? doc).bind (Json.field? "short_id") with
  | some (.arr items) => items.filterMap asString
  | _ => []

/-- A text among the REALITY settings of the first outbound, empty if it is not there. -/
def clientReality (doc : Json) (key : String) : String :=
  (((((doc.field? "outbounds").bind (Json.item? 0)).bind (Json.field? "tls")).bind
    (Json.field? "reality")).bind (Json.field? key)).bind asString |>.getD ""

/-- `config.json` against the document that a rendering would give. -/
def driftFinding (fresh : Json) : L4Finding :=
  if !h.exists? .config then .notYetRendered
  else
    match if a.readConfig then h.content? .config else none with
    | none => .configUnreadable
    | some content =>
      match content.json? with
      | none => .configUnparsable
      | some onDisk => if onDisk = fresh then .current else .drifted

def checkL4SubscriptionCoherence : List L4Finding :=
  match loadRealityParams site h a.keys with
  | .error e => [.keysSkipped e]
  | .ok reality =>
    match loadUsers h a.readUsers with
    | .error e => [.usersSkipped e]
    | .ok users =>
      let hysteria := loadHysteriaParams site h a.obfs
      let fresh := renderSingboxServerConfig users reality hysteria site.cfg.ports a.now
      match renderSingboxClientSubscription syntheticUser (expectedEndpoints site reality hysteria) with
      | .error e => [.notRendered e]
      | .ok client =>
        let shortIds := serverShortIds fresh
        let shortId := clientReality client "short_id"
        let publicKey := clientReality client "public_key"
        [if shortIds.any (· == shortId) && publicKey == reality.publicKeyHex then .coherent
          else .incoherent shortId shortIds,
          driftFinding h a fresh]

/-- `GET /internal/state-fingerprint`. -/
def stateFingerprint (m : PublicMaterial) : Response :=
  ⟨200, "application/json", .json (.obj
    [("endpoints_fingerprint_sha256",
      .str (endpointsFingerprint digest (serviceEndpoints site.cfg m)))])⟩

/-- The document of a response with status 200; without a connection there is none. -/
def httpGetLocalJson : Option Response → Option Json
  | none => none
  | some response =>
    if response.status = 200 then
      match response.body with
      | .json doc => some doc
      | .text _ => none
    else none

def checkL4LiveSubscriptionProcessState : L4Finding :=
  match loadRealityParams site h a.keys with
  | .error e => .keysSkipped e
  | .ok reality =>
    let hysteria := loadHysteriaParams site h a.obfs
    let expected := endpointsFingerprint digest (expectedEndpoints site reality hysteria)
    let response := if a.reaches then h.cached.map (stateFingerprint site digest) else none
    match httpGetLocalJson response with
    | none => .unreachable
    | some doc =>
      match (doc.field? "endpoints_fingerprint_sha256").bind asString with
      | none => .unexpectedShape
      | some live => if live = expected then .liveCurrent else .liveStale

/-- Both checks, as `doctor` runs them. -/
def doctorL4 : List L4Finding :=
  checkL4SubscriptionCoherence site h a ++ [checkL4LiveSubscriptionProcessState site digest h a]

/-- How many of the checks `doctor` counts as failed. -/
def l4Failures : Nat := (doctorL4 site digest h a).countP (·.status = .fail)

end Checks

section Exact

variable {site : Site} {digest : Json → String} {h : Host} {a : DoctorAnswers} {k : Keyset}
  {users : List CompatUser}

structure DoctorAnswers.AllRead (a : DoctorAnswers) : Prop where
  keys : a.keys = ⟨true, true, true⟩
  users : a.readUsers = true
  obfs : a.obfs = true
  config : a.readConfig = true

def freshDoc (site : Site) (k : Keyset) (h : Host) (users : List CompatUser) (now : Int64) : Json :=
  renderSingboxServerConfig users (realityParams site k.privateKey k.publicKey k.shortId)
    (loadHysteriaParams site h true) site.cfg.ports now

private theorem renderings_agree (site : Site) (users : List CompatUser)
    (reality : RealityServerParams)
    (sid : String) (hsid : reality.shortIds = [sid]) (hysteria : Hysteria2ServerParams)
    (ports : ServerPorts) (now : Int64) :
    ∃ client, renderSingboxClientSubscription syntheticUser
        (expectedEndpoints site reality hysteria) = .ok client ∧
      clientReality client "short_id" = sid ∧ clientReality client "public_key" =
        reality.publicKeyHex ∧
      serverShortIds (renderSingboxServerConfig users reality hysteria ports now) = [sid] := by
  refine ⟨_, rfl, ?_, ?_, ?_⟩
  · rw [expectedEndpoints, hsid]
    rfl
  · rfl
  · have hsecrets : (reality? (renderSingboxServerConfig users reality hysteria ports now)).bind
        (Json.field? "short_id") = some (.arr (reality.shortIds.map .str)) :=
      congrArg ServerSecrets.shortIds (secretsOf_render users reality hysteria ports now)
    rw [serverShortIds, hsecrets, hsid]
    rfl

private theorem checkL4SubscriptionCoherence_eq (hk : OnDisk site k h) (hread : a.AllRead)
    (husers : loadUsers h true = .ok users) :
    checkL4SubscriptionCoherence site h a =
      [.coherent, driftFinding h a (freshDoc site k h users a.now)] := by
  obtain ⟨client, hclient, hsid, hkey, hids⟩ := renderings_agree site users
    (realityParams site k.privateKey k.publicKey k.shortId) k.shortId rfl
    (loadHysteriaParams site h true) site.cfg.ports a.now
  unfold checkL4SubscriptionCoherence
  rw [hread.keys, hk.reality, hread.users, husers, hread.obfs]
  dsimp only
  rw [hclient]
  dsimp only
  rw [hids, hsid, hkey]
  simp [freshDoc]

private theorem driftFinding_status (hread : a.AllRead) (fresh : Json) :
    (driftFinding h a fresh).status = match h.json? .config with
      | none => .warn
      | some onDisk => if onDisk = fresh then .ok else .fail := by
  unfold driftFinding
  rw [hread.config, Host.exists?, Host.json?, Host.content?]
  cases h.files (.live .config) with
  | none => rfl
  | some file =>
    rw [Option.isSome_some, Bool.not_true, if_neg Bool.false_ne_true, if_pos rfl]
    dsimp only [Option.map_some, Option.bind_some]
    cases file.content.json? with
    | none => rfl
    | some onDisk =>
      dsimp only
      split_ifs
      · rfl
      · rfl

/-- The hash does not confuse what `vpn-subscription` holds with what is on disk. -/
def NoCollision (site : Site) (digest : Json → String) (k : Keyset) (h : Host) : Prop :=
  ∀ m ∈ h.cached, endpointsFingerprint digest (serviceEndpoints site.cfg m) =
    endpointsFingerprint digest (serviceEndpoints site.cfg k.published) →
      endpointsDoc (serviceEndpoints site.cfg m) = endpointsDoc (serviceEndpoints site.cfg k.published)

theorem checkL4Live_status (hk : OnDisk site k h) (hread : a.AllRead)
    (hdigest : NoCollision site digest k h) :
    (checkL4LiveSubscriptionProcessState site digest h a).status =
      match if a.reaches then h.cached else none with
      | none => .warn
      | some m => if m = k.published then .ok else .fail := by
  have hexpected : expectedEndpoints site (realityParams site k.privateKey k.publicKey k.shortId)
      (loadHysteriaParams site h true) = serviceEndpoints site.cfg k.published := by
    rw [expectedEndpoints, loadHysteriaParams, hk.obfs]
    rfl
  unfold checkL4LiveSubscriptionProcessState
  rw [hread.keys, hk.reality, hread.obfs]
  dsimp only
  rw [hexpected]
  cases a.reaches with
  | false => rfl
  | true =>
    cases hcached : h.cached with
    | none => rfl
    | some m =>
      have hsame : endpointsFingerprint digest (serviceEndpoints site.cfg m) =
          endpointsFingerprint digest (serviceEndpoints site.cfg k.published) ↔ m = k.published := by
        constructor
        · intro heq
          have hendpoints := endpointsDoc_injective (hdigest m hcached heq)
          obtain ⟨key, sid, obfs⟩ := m
          simpa [serviceEndpoints, standardEndpoints, Keyset.published, and_assoc] using hendpoints
        · intro heq
          rw [heq]
      show (if endpointsFingerprint digest (serviceEndpoints site.cfg m) =
        endpointsFingerprint digest (serviceEndpoints site.cfg k.published) then L4Finding.liveCurrent
        else .liveStale).status = if m = k.published then .ok else .fail
      simp only [hsame]
      split_ifs
      · rfl
      · rfl

private theorem doctorL4_eq (hk : OnDisk site k h) (hread : a.AllRead)
    (husers : loadUsers h true = .ok users) :
    doctorL4 site digest h a = [.coherent, driftFinding h a (freshDoc site k h users a.now),
      checkL4LiveSubscriptionProcessState site digest h a] := by
  rw [doctorL4, checkL4SubscriptionCoherence_eq hk hread husers]
  rfl

/-- Everything passes exactly if `config.json` and `vpn-subscription` are seen to be as the files call
for. -/
theorem doctorL4_clean_iff (hk : OnDisk site k h) (hread : a.AllRead)
    (husers : loadUsers h true = .ok users) (hdigest : NoCollision site digest k h) :
    (∀ finding ∈ doctorL4 site digest h a, finding.status = .ok) ↔
      h.json? .config = some (freshDoc site k h users a.now) ∧ a.reaches = true ∧
        h.cached = some k.published := by
  have hdrift := driftFinding_status (h := h) hread (freshDoc site k h users a.now)
  have hlive := checkL4Live_status hk hread hdigest
  have hfirst : L4Finding.coherent.status = .ok := rfl
  rw [doctorL4_eq hk hread husers]
  simp only [List.mem_cons, List.not_mem_nil, or_false, forall_eq_or_imp, forall_eq, hfirst, hdrift,
    hlive, true_and]
  cases h.json? .config <;> cases a.reaches <;> cases h.cached <;> simp

/-- On a host whose files can be read, nothing fails exactly if neither `config.json` nor the running
`vpn-subscription` is seen to be at odds with them, and everything passes exactly if both are seen to
be as the files call for: the checks raise no false alarm and miss nothing they can see. -/
theorem doctor_l4_exact (hk : OnDisk site k h) (hread : a.AllRead)
    (husers : loadUsers h true = .ok users) (hdigest : NoCollision site digest k h) :
    (l4Failures site digest h a = 0 ↔
        (∀ doc, h.json? .config = some doc → doc = freshDoc site k h users a.now) ∧
          (a.reaches = true → ∀ m, h.cached = some m → m = k.published)) ∧
      ((∀ finding ∈ doctorL4 site digest h a, finding.status = .ok) ↔
        h.json? .config = some (freshDoc site k h users a.now) ∧ a.reaches = true ∧
          h.cached = some k.published) := by
  have hdrift := driftFinding_status (h := h) hread (freshDoc site k h users a.now)
  have hlive := checkL4Live_status hk hread hdigest
  have hfirst : L4Finding.coherent.status = .ok := rfl
  refine ⟨?_, doctorL4_clean_iff hk hread husers hdigest⟩
  rw [l4Failures, List.countP_eq_zero, doctorL4_eq hk hread husers]
  simp only [List.mem_cons, List.not_mem_nil, or_false, forall_eq_or_imp, forall_eq,
    decide_eq_true_eq, hfirst, hdrift, hlive]
  cases h.json? .config <;> cases a.reaches <;> cases h.cached <;> simp

/-- The sample deployment with a `vpn-subscription` that still serves an older short id. -/
def staleHost : Host := { sampleHost with cached := some ⟨sampleKey, "ffffffff", none⟩ }

def DoctorAnswers.clear : DoctorAnswers := ⟨⟨true, true, true⟩, true, true, 100, true, true⟩

/-- A hash that tells the endpoints of the sample deployment from any others. -/
def sampleDigest (doc : Json) : String :=
  if doc = endpointsDoc (serviceEndpoints sampleSite.cfg sampleKeyset.published) then "current" else ""

theorem staleHost_fails : l4Failures sampleSite sampleDigest staleHost .clear ≠ 0 := by
  have hdigest : NoCollision sampleSite sampleDigest sampleKeyset staleHost := by
    intro m hm
    obtain rfl := Option.some.inj hm
    decide
  have hexact := doctor_l4_exact (a := .clear) (h := staleHost)
    ⟨sampleHost_coherent.disk.reality, sampleHost_coherent.disk.obfs⟩ ⟨rfl, rfl, rfl, rfl⟩
    (loadUsers_saved rfl) hdigest
  intro hzero
  have hsame := (hexact.1.mp hzero).2 rfl _ rfl
  exact absurd hsame (by decide)

/-- A clean report on a host where sing-box has loaded `config.json` means that all three places hold
the same keys, and that whatever a request is answered at that time is accepted by sing-box. -/
theorem clean_doctor_served (hk : OnDisk site k h) (hread : a.AllRead)
    (husers : loadUsers h true = .ok users) (hdigest : NoCollision site digest k h)
    (hclean : ∀ finding ∈ doctorL4 site digest h a, finding.status = .ok)
    (hloaded : h.loaded = h.json? .config) :
    Coherent site k h ∧ ∃ doc, h.loaded = some doc ∧ ∀ hashToken token query,
      Delivered (serviceEndpoints site.cfg k.published) doc
        (getSubscription hashToken (serviceEndpoints site.cfg k.published) (loadUsers h true) token
          query a.now) := by
  obtain ⟨hconfig, -, hcached⟩ := (doctorL4_clean_iff hk hread husers hdigest).mp hclean
  have hsecrets : secretsOf (freshDoc site k h users a.now) = k.secrets := by
    rw [freshDoc, secretsOf_render, loadHysteriaParams, hk.obfs]
    rfl
  have henforced : (h.json? .config).map secretsOf = some k.secrets := by
    rw [hconfig, Option.map_some, hsecrets]
  refine ⟨⟨⟨hk, henforced, hloaded ▸ henforced⟩, hcached⟩, _, hloaded.trans hconfig, ?_⟩
  intro hashToken token query
  rw [husers]
  exact getSubscription_delivered (realityParams site k.privateKey k.publicKey k.shortId)
    (loadHysteriaParams site h true) site.cfg.ports

theorem sampleHost_served : ∃ doc, sampleHost.loaded = some doc ∧ ∀ query,
    Delivered (serviceEndpoints sampleSite.cfg sampleKeyset.published) doc
      (getSubscription (fun _ => sampleUser.subscriptionTokenHashHex)
        (serviceEndpoints sampleSite.cfg sampleKeyset.published) (loadUsers sampleHost true) "t" query
        100) := by
  have hclean : ∀ finding ∈ doctorL4 sampleSite sampleDigest sampleHost .clear,
      finding.status = .ok := by
    decide +kernel
  have hdigest : NoCollision sampleSite sampleDigest sampleKeyset sampleHost := by
    intro m hm _
    obtain rfl := Option.some.inj hm
    rfl
  obtain ⟨-, doc, hloaded, hserved⟩ := clean_doctor_served sampleHost_coherent.disk
    ⟨rfl, rfl, rfl, rfl⟩ (loadUsers_saved rfl) hdigest hclean rfl
  exact ⟨doc, hloaded, fun query => hserved _ "t" query⟩

/-- Over whole histories: as long as commands conclude and are careful, `vpn-subscription` is never
found to be stale, whichever hash is used. -/
theorem doctor_quiet_of_reached (site : Site) {first h : Host}
    (hfirst : ∃ k, Coherent site k first)
    (hrun : Reached site (fun inv h cmd => cmd.servicesUp = true ∧ cmd.concludes site inv h ∧
      cmd.Careful site inv h) first h)
    (digest : Json → String) (a : DoctorAnswers) (hread : a.AllRead) (hreaches : a.reaches = true) :
    (checkL4LiveSubscriptionProcessState site digest h a).status = .ok := by
  obtain ⟨k, hk⟩ := hrun.invariant (I := fun h => ∃ k, Coherent site k h) hfirst
    fun inv h cmd hk hmay => by
      obtain ⟨k, hk⟩ := hk
      exact Command.run_coherent hk hmay.1 hmay.2.1 hmay.2.2
  have hdigest : NoCollision site digest k h := by
    intro m hm _
    rw [Option.some.inj (hk.cached.symm.trans hm)]
  rw [checkL4Live_status hk.disk hread hdigest, hreaches, if_pos rfl, hk.cached]
  exact if_pos rfl

/-- A rotation that is rolled back leaves the report clean. -/
theorem rotateReloadFails_quiet :
    (checkL4LiveSubscriptionProcessState sampleSite sampleDigest
      ((Command.init true rotateReloadFails).run sampleSite ⟨1, false⟩ sampleHost).final
      .clear).status = .ok := by
  refine doctor_quiet_of_reached sampleSite ⟨_, sampleHost_coherent⟩ (.ran .start ⟨1, false⟩ _ ?_)
    sampleDigest .clear ⟨rfl, rfl, rfl, rfl⟩ rfl
  refine ⟨by decide, ?_, rfl⟩
  show (outcome _ (cmdInit _ _ _ _) _).result ≠ _
  decide +kernel

end Exact

end Vpn1.Admin
