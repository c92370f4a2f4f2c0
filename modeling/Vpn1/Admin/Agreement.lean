import Vpn1.Compat.ReadBack
import Vpn1.Admin.Material

/-! What `vpn-admin` renders for sing-box and what `vpn-subscription` renders for clients from the
same files: the document a client loads, the links it reads, and the server they must reach. -/

namespace Vpn1.Admin

open Compat

section Serving

structure ClientAgrees (mulBaseClamped : List Nat → List Nat) (server : Json) (c : ClientSettings) :
    Prop where
  realityPort : (inbound? 0 server).bind (portAt "listen_port") = some c.reality.port
  hysteriaPort : (inbound? 1 server).bind (portAt "listen_port") = some c.hysteria.port
  user : ∃ entries, acceptedVless server = some (.arr entries) ∧
    ∃ entry ∈ entries, stringAt "uuid" entry = some c.reality.uuid ∧
      stringAt "flow" entry = some c.reality.flow
  password : ∃ entries, acceptedHysteria server = some (.arr entries) ∧
    ∃ entry ∈ entries, stringAt "password" entry = some c.hysteria.password
  shortId : ∃ ids, (secretsOf server).shortIds = some (.arr ids) ∧ .str c.reality.shortId ∈ ids
  publicKey : ∃ key, (secretsOf server).privateKey = some (.str key) ∧
    deriveRealityPublicKey mulBaseClamped key = .ok c.reality.publicKey
  sni : ((reality? server).bind (Json.field? "handshake")).bind (stringAt "server") =
    some c.reality.sni
  obfs : ((secretsOf server).obfsPassword).bind asString = c.hysteria.obfs

/-- Every client rendering for `u` reads as the same settings, and those agree with the server. -/
def RenderingsAgree (site : Site) (m : PublicMaterial) (server : Json) (u : CompatUser) : Prop :=
  ∃ c, (∀ profile, ∃ doc, renderSingboxClientSubscriptionWithProfile u
        (serviceEndpoints site.cfg m) profile = .ok doc ∧ readDocument doc = some c) ∧
    (∃ body, renderUriList u (serviceEndpoints site.cfg m) = .ok body ∧
      readUriList body = some c) ∧
    ClientAgrees site.mulBaseClamped server c

/-- Every character of what goes into a link unescaped is one that the syntax allows at its place. The
host is also a value of a query. -/
structure Plain (cfg : DeploymentConfig) (m : PublicMaterial) (u : CompatUser) : Prop where
  uuid : ∀ c ∈ u.vlessUuid.toList, Uri.isUserChar c = true
  password : ∀ c ∈ u.hysteria2Password.toList, Uri.isUserChar c = true
  host : ∀ c ∈ cfg.publicHost.toList, Uri.isNameChar c = true ∧ c ≠ '&'
  handshakeServer : Carried cfg.reality.handshakeServer
  obfsPassword : ∀ pw ∈ m.obfsPassword, Carried pw

end Serving

section Document

def clientSettings (cfg : DeploymentConfig) (m : PublicMaterial) (u : CompatUser) :
    ClientSettings where
  reality := {
    server := cfg.publicHost
    port := cfg.reality.listenPort.toNat
    uuid := u.vlessUuid
    flow := "xtls-rprx-vision"
    sni := cfg.reality.handshakeServer
    fingerprint := "chrome"
    publicKey := m.publicKey
    shortId := m.shortId }
  hysteria := {
    server := cfg.publicHost
    port := cfg.hysteria2.listenPort.toNat
    password := u.hysteria2Password
    sni := cfg.publicHost
    obfs := m.obfsPassword }

private theorem readDocument_render (cfg : DeploymentConfig) (m : PublicMaterial) (u : CompatUser)
    (profile : SelectionProfile) :
    ∃ doc, renderSingboxClientSubscriptionWithProfile u (serviceEndpoints cfg m) profile = .ok doc ∧
      readDocument doc = some (clientSettings cfg m u) := by
  refine ⟨_, rfl, ?_⟩
  simp only [readDocument, serviceEndpoints, standardEndpoints, List.map_cons, List.cons_append,
    Json.field?_obj_cons, if_true, Json.item?_arr, Option.bind_eq_bind, Option.bind_some,
    List.getElem?_cons_zero, List.getElem?_cons_succ, readRealityOutbound_client,
    readHysteriaOutbound_client]
  rfl

theorem loaded_and_started {site : Site} {h : Host} {reality : RealityServerParams}
    {m : PublicMaterial} (hreality : loadRealityParams site h ⟨true, true, true⟩ = .ok reality)
    (hstart : subscriptionStartup h = some m) :
    (∃ key, reality = realityParams site key m.publicKey m.shortId ∧
        deriveRealityPublicKey site.mulBaseClamped key = .ok m.publicKey) ∧
      m.obfsPassword = h.obfsPassword true ∧ Carried m.publicKey ∧ Carried m.shortId := by
  unfold loadRealityParams at hreality
  unfold subscriptionStartup startupMaterial at hstart
  simp only [Host.read, if_true] at hreality
  cases hpriv : h.text? .privateKey with
  | none => simp [hpriv] at hreality
  | some priv =>
    cases hpub : h.text? .publicKey with
    | none => simp [hpriv, hpub] at hreality
    | some pub =>
      cases hsid : h.text? .shortId with
      | none => simp [hpub, hsid] at hstart
      | some sid =>
        simp only [hpriv, hpub, hsid] at hreality hstart
        split_ifs at hstart with hvalid
        obtain rfl := Option.some.inj hstart
        rw [Bool.and_eq_true] at hvalid
        cases hpair : validateRealityKeypair site.mulBaseClamped (trim priv) (trim pub) with
        | error e => simp [hpair] at hreality
        | ok _ =>
          rw [hpair] at hreality
          obtain ⟨hshape, hderived⟩ := validateRealityKeypair_ok.mp hpair
          rw [trim_trim] at hderived
          refine ⟨⟨trim priv, (Except.ok.inj hreality).symm, hderived⟩, rfl, ?_, ?_⟩
          · exact (carried_iff_trim (fun _ => isValueChar_of_base64)
              (all_base64_of_publicKeyShape hshape)).mpr (trim_trim pub)
          · cases hshort : validateRealityShortId (trim sid) with
            | ok _ =>
              exact (carried_iff_trim (fun _ => isValueChar_of_isAsciiHexDigit)
                (all_hex_of_shortId hshort)).mpr (trim_trim sid)
            | error e => simp [hshort] at hvalid

private theorem hysteriaPort_render (users : List CompatUser) (reality : RealityServerParams)
    (hysteria : Hysteria2ServerParams) (ports : ServerPorts) (now : Int64) :
    (inbound? 1 (renderSingboxServerConfig users reality hysteria ports now)).bind
      (portAt "listen_port") = some ports.hysteria2Port.toNat := by
  obtain ⟨cert, key, obfs, masq, up, down⟩ := hysteria
  cases obfs <;> cases masq <;> cases up <;> cases down <;>
    simp [inbound?, renderSingboxServerConfig, hysteriaInbound, portAt, Json.setField,
      Json.assignField]

/-- What is meant for an active user is in step with the server rendered from the same files. -/
theorem clientAgrees_render {site : Site} {m : PublicMaterial} {u : CompatUser} {h : Host}
    {users : List CompatUser} {now : Int64} {reality : RealityServerParams}
    (hreality : loadRealityParams site h ⟨true, true, true⟩ = .ok reality)
    (hstart : subscriptionStartup h = some m) (hu : u ∈ users) (hactive : u.isActive now = true) :
    ClientAgrees site.mulBaseClamped
      (renderSingboxServerConfig users reality (loadHysteriaParams site h true) site.cfg.ports now)
      (clientSettings site.cfg m u) := by
  obtain ⟨⟨key, rfl, hderived⟩, hobfs, -, -⟩ := loaded_and_started hreality hstart
  have hsecrets := secretsOf_render users (realityParams site key m.publicKey m.shortId)
    (loadHysteriaParams site h true) site.cfg.ports now
  have haccepted := accepted_render users (realityParams site key m.publicKey m.shortId)
    (loadHysteriaParams site h true) site.cfg.ports now
  have hmem : u ∈ users.filter (·.isActive now) := List.mem_filter.mpr ⟨hu, hactive⟩
  constructor
  case realityPort => simp [inbound?, renderSingboxServerConfig, vlessInbound, portAt,
    DeploymentConfig.ports, clientSettings]
  case hysteriaPort => rw [hysteriaPort_render]; rfl
  case user =>
    refine ⟨_, haccepted.1, vlessUser u, List.mem_map_of_mem hmem, ?_⟩
    simp [vlessUser, stringAt, asString, clientSettings]
  case password =>
    refine ⟨_, haccepted.2, hysteriaUser u, List.mem_map_of_mem hmem, ?_⟩
    simp [hysteriaUser, stringAt, asString, clientSettings]
  case shortId => exact ⟨_, by rw [hsecrets], by simp [realityParams, clientSettings]⟩
  case publicKey => exact ⟨key, by rw [hsecrets]; rfl, hderived⟩
  case sni => simp [reality?, inbound?, renderSingboxServerConfig, vlessInbound, stringAt, asString,
    realityParams, clientSettings]
  case obfs =>
    rw [hsecrets]
    cases hpw : h.obfsPassword true <;>
      simp [loadHysteriaParams, clientSettings, hobfs, hpw, asString]

end Document

section Body

open ShareLink (query)

variable {cfg : DeploymentConfig} {m : PublicMaterial} {u : CompatUser}

private theorem renderUriList_service (cfg : DeploymentConfig) (m : PublicMaterial)
    (u : CompatUser) :
    ∃ body, renderUriList u (serviceEndpoints cfg m) = .ok body ∧
      body.toList =
        ShareLink.put "vless".toList u.vlessUuid.toList cfg.publicHost.toList
          (Nat.toDigits 10 cfg.reality.listenPort.toNat)
          (query (vlessParams cfg.reality.handshakeServer m.publicKey m.shortId))
          (percentEncodeLabel "Reality").toList ++ '\n' ::
        ShareLink.put "hysteria2".toList u.hysteria2Password.toList cfg.publicHost.toList
          (Nat.toDigits 10 cfg.hysteria2.listenPort.toNat)
          (query (hysteriaParams cfg.publicHost m.obfsPassword))
          (percentEncodeLabel "Hysteria2").toList := by
  obtain ⟨link₁, h₁, htext₁⟩ := render_reality u cfg.publicHost cfg.reality.listenPort
    cfg.reality.handshakeServer m.publicKey m.shortId "Reality"
  obtain ⟨link₂, h₂, htext₂⟩ := render_hysteria u cfg.publicHost cfg.hysteria2.listenPort
    cfg.publicHost m.obfsPassword "Hysteria2"
  obtain ⟨-, body, hbody, htext⟩ := renderUriList_pair h₁ h₂
  rw [htext₁, htext₂] at htext
  exact ⟨body, hbody, htext⟩

theorem readUriList_iff {body : String} (hpbk : Carried m.publicKey) (hsid : Carried m.shortId)
    (hbody : renderUriList u (serviceEndpoints cfg m) = .ok body) :
    readUriList body = some (clientSettings cfg m u) ↔ Plain cfg m u := by
  obtain ⟨body', hbody', htext⟩ := renderUriList_service cfg m u
  obtain rfl : body = body' := Except.ok.inj (hbody.symm.trans hbody')
  rw [readUriList_eq_some htext]
  refine (and_congr Iff.rfl (and_congr
    (readVlessLink_put_iff hpbk.safe hsid.safe (allowed_percentEncodeLabel _)
      (decode_percentEncodeLabel _))
    (readHysteriaLink_put_iff (allowed_percentEncodeLabel _) (decode_percentEncodeLabel _)))).trans ?_
  rw [stands_vless_iff, stands_hysteria_iff]
  constructor
  · rintro ⟨-, ⟨huuid, hhost, hsni, -⟩, hpassword, -, hhostValue, hobfs⟩
    exact ⟨huuid, hpassword, host_iff.mp ⟨hhost, hhostValue⟩, hsni, hobfs⟩
  · intro hplain
    obtain ⟨hhost, hhostValue⟩ := host_iff.mpr hplain.host
    refine ⟨⟨?_, ?_⟩, ⟨hplain.uuid, hhost, hplain.handshakeServer, hpbk, hsid⟩, hplain.password,
      hhost, hhostValue, hplain.obfsPassword⟩
    · exact newline_put (by decide) hplain.uuid hhostValue nameText_vless
        (values_vless_iff.mpr ⟨hplain.handshakeServer, hpbk, hsid⟩)
    · exact newline_put (by decide) hplain.password hhostValue nameText_hysteria
        (values_hysteria_iff.mpr ⟨hhostValue, hplain.obfsPassword⟩)

private theorem plain_of_agree {site : Site} {server : Json} (hpbk : Carried m.publicKey)
    (hsid : Carried m.shortId) (hagree : RenderingsAgree site m server u) :
    Plain site.cfg m u := by
  obtain ⟨c, hdocuments, ⟨body, hrender, hc⟩, -⟩ := hagree
  obtain ⟨doc, hdoc, hdocument⟩ := hdocuments .auto
  obtain ⟨doc', hdoc', hmeant⟩ := readDocument_render site.cfg m u .auto
  obtain rfl : doc = doc' := Except.ok.inj (hdoc.symm.trans hdoc')
  obtain rfl : c = clientSettings site.cfg m u := Option.some.inj (hdocument.symm.trans hmeant)
  exact (readUriList_iff hpbk hsid hrender).mp hc

end Body

section Main

/-- For an active user and the material of the files, everything rendered agrees exactly if what
goes into the links is plain. -/
theorem renderingsAgree_iff_plain {site : Site} {h : Host} {reality : RealityServerParams}
    {m : PublicMaterial} {u : CompatUser} {users : List CompatUser} {now : Int64}
    (hreality : loadRealityParams site h ⟨true, true, true⟩ = .ok reality)
    (hstart : subscriptionStartup h = some m) (hu : u ∈ users) (hactive : u.isActive now = true) :
    RenderingsAgree site m (renderSingboxServerConfig users reality
        (loadHysteriaParams site h true) site.cfg.ports now) u ↔ Plain site.cfg m u := by
  obtain ⟨-, -, hpbk, hsid⟩ := loaded_and_started hreality hstart
  constructor
  · intro hagree
    exact plain_of_agree hpbk hsid hagree
  · intro hplain
    obtain ⟨body, hrender, -⟩ := renderUriList_service site.cfg m u
    exact ⟨clientSettings site.cfg m u, readDocument_render site.cfg m u,
      ⟨body, hrender, (readUriList_iff hpbk hsid hrender).mpr hplain⟩,
      clientAgrees_render hreality hstart hu hactive⟩

def sampleReality : RealityServerParams := realityParams sampleSite sampleKey sampleKey "0a1b2c3d"

private theorem plain_sample : Plain sampleSite.cfg ⟨sampleKey, "0a1b2c3d", none⟩ sampleUser where
  uuid := List.all_eq_true.mp (by decide)
  password := List.all_eq_true.mp (by decide)
  host := by
    have hall : sampleSite.cfg.publicHost.toList.all (fun c => Uri.isNameChar c && c != '&') =
        true := by decide
    simpa using hall
  handshakeServer := carried_of_all (by decide)
  obfsPassword := fun _ h => nomatch h

theorem renderingsAgree_sample :
    RenderingsAgree sampleSite ⟨sampleKey, "0a1b2c3d", none⟩ sampleDoc sampleUser := by
  have hreality : loadRealityParams sampleSite bareHost ⟨true, true, true⟩ = .ok sampleReality := by
    decide
  have hstart : subscriptionStartup bareHost = some ⟨sampleKey, "0a1b2c3d", none⟩ := by decide
  exact (renderingsAgree_iff_plain hreality hstart List.mem_cons_self (by decide)).mpr plain_sample

/-- The running deployment with an obfuscation password that holds an `&`. -/
def ampersandHost : Host where
  files
    | .live .obfsPassword => some ⟨.text "p&q\n", 0o640⟩
    | p => sampleHost.files p
  umask := 0o022
  binaryInstalled := true
  masqueradeDir := false
  loaded := none
  cached := none

/-- sing-box and the documents have `p&q`; the link says `p`. -/
theorem ampersand_disagrees :
    loadRealityParams sampleSite ampersandHost ⟨true, true, true⟩ = .ok sampleReality ∧
      subscriptionStartup ampersandHost = some ⟨sampleKey, "0a1b2c3d", some "p&q"⟩ ∧
      sampleUser.isActive 100 = true ∧
      ¬ RenderingsAgree sampleSite ⟨sampleKey, "0a1b2c3d", some "p&q"⟩
        (renderSingboxServerConfig [sampleUser] sampleReality
          (loadHysteriaParams sampleSite ampersandHost true) sampleSite.cfg.ports 100) sampleUser := by
  have hreality : loadRealityParams sampleSite ampersandHost ⟨true, true, true⟩ =
    .ok sampleReality := by decide
  have hstart : subscriptionStartup ampersandHost =
    some ⟨sampleKey, "0a1b2c3d", some "p&q"⟩ := by decide
  obtain ⟨-, -, hpbk, hsid⟩ := loaded_and_started hreality hstart
  refine ⟨hreality, hstart, by decide, fun hagree => ?_⟩
  have hpassword := (plain_of_agree hpbk hsid hagree).obfsPassword "p&q" rfl
  have hamp := hpassword '&' (by decide)
  cases hamp

end Main

end Vpn1.Admin
