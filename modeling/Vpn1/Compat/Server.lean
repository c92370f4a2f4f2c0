import Vpn1.Lib.Json
import Vpn1.Compat.Model

/-! Rendering of the sing-box server configuration, and the key material a document carries. -/

namespace Vpn1.Compat

def vlessUser (u : CompatUser) : Json :=
  .obj [("name", .str u.id), ("uuid", .str u.vlessUuid), ("flow", .str "xtls-rprx-vision")]

def hysteriaUser (u : CompatUser) : Json :=
  .obj [("name", .str u.id), ("password", .str u.hysteria2Password)]

/-- The optional fields are added in the order the renderer assigns them. -/
def hysteriaInbound (active : List CompatUser) (hysteria : Hysteria2ServerParams)
    (ports : ServerPorts) : Json :=
  let inbound : Json := .obj [
    ("type", .str "hysteria2"),
    ("tag", .str "hysteria2-in"),
    ("listen", .str "::"),
    ("listen_port", .num ports.hysteria2Port.toNat),
    ("users", .arr (active.map hysteriaUser)),
    ("tls", .obj [
      ("enabled", .bool true),
      ("certificate_path", .str hysteria.tlsCertPath),
      ("key_path", .str hysteria.tlsKeyPath)])]
  let inbound := match hysteria.masqueradeDirPath with
    | some dir => inbound.setField "masquerade" (.obj [("type", .str "file"), ("directory", .str dir)])
    | none => inbound
  let inbound := match hysteria.obfsPassword with
    | some pw => inbound.setField "obfs" (.obj [("type", .str "salamander"), ("password", .str pw)])
    | none => inbound
  match hysteria.upMbps, hysteria.downMbps with
  | some up, some down =>
    ((inbound.setField "up_mbps" (.num up.toNat)).setField "down_mbps" (.num down.toNat)).setField
      "ignore_client_bandwidth" (.bool true)
  | _, _ => inbound

def vlessInbound (active : List CompatUser) (reality : RealityServerParams)
    (ports : ServerPorts) : Json :=
  .obj [
    ("type", .str "vless"),
    ("tag", .str "vless-reality-in"),
    ("listen", .str "::"),
    ("listen_port", .num ports.vlessRealityPort.toNat),
    ("users", .arr (active.map vlessUser)),
    ("tls", .obj [
      ("enabled", .bool true),
      ("server_name", .str reality.handshakeServer),
      ("reality", .obj [
        ("enabled", .bool true),
        ("handshake", .obj [
          ("server", .str reality.handshakeServer),
          ("server_port", .num reality.handshakePort.toNat)]),
        ("private_key", .str reality.privateKeyHex),
        ("short_id", .arr (reality.shortIds.map .str))])])]

/-- Only users active at `now` reach the document. -/
def renderSingboxServerConfig (users : List CompatUser) (reality : RealityServerParams)
    (hysteria : Hysteria2ServerParams) (ports : ServerPorts) (now : Int64) : Json :=
  let active := users.filter (·.isActive now)
  .obj [
    ("log", .obj [("level", .str "warn"), ("timestamp", .bool true)]),
    ("inbounds", .arr [vlessInbound active reality ports, hysteriaInbound active hysteria ports]),
    ("outbounds", .arr [.obj [("type", .str "direct"), ("tag", .str "direct")]])]

def inbound? (i : Nat) (doc : Json) : Option Json :=
  (doc.field? "inbounds").bind (Json.item? i)

def reality? (doc : Json) : Option Json :=
  ((inbound? 0 doc).bind (Json.field? "tls")).bind (Json.field? "reality")

/-- The secrets a server document makes sing-box enforce. -/
structure ServerSecrets where
  privateKey : Option Json
  shortIds : Option Json
  obfsPassword : Option Json
  deriving DecidableEq

def secretsOf (doc : Json) : ServerSecrets where
  privateKey := (reality? doc).bind (Json.field? "private_key")
  shortIds := (reality? doc).bind (Json.field? "short_id")
  obfsPassword := ((inbound? 1 doc).bind (Json.field? "obfs")).bind (Json.field? "password")

def acceptedVless (doc : Json) : Option Json :=
  (inbound? 0 doc).bind (Json.field? "users")

/-- The users a server document accepts on the Hysteria2 inbound. -/
def acceptedHysteria (doc : Json) : Option Json :=
  (inbound? 1 doc).bind (Json.field? "users")

/-- The secrets of a rendered document are those of the parameters, whoever the users are. -/
theorem secretsOf_render (users : List CompatUser) (reality : RealityServerParams)
    (hysteria : Hysteria2ServerParams) (ports : ServerPorts) (now : Int64) :
    secretsOf (renderSingboxServerConfig users reality hysteria ports now) =
      ⟨some (.str reality.privateKeyHex), some (.arr (reality.shortIds.map .str)),
        hysteria.obfsPassword.map .str⟩ := by
  obtain ⟨cert, key, obfs, masq, up, down⟩ := hysteria
  cases obfs <;> cases masq <;> cases up <;> cases down <;>
    simp [secretsOf, reality?, inbound?, renderSingboxServerConfig, hysteriaInbound, vlessInbound,
      Json.setField, Json.assignField]

/-- Both inbounds of a rendered document list exactly the active users. -/
theorem accepted_render (users : List CompatUser) (reality : RealityServerParams)
    (hysteria : Hysteria2ServerParams) (ports : ServerPorts) (now : Int64) :
    acceptedVless (renderSingboxServerConfig users reality hysteria ports now) =
        some (.arr ((users.filter (·.isActive now)).map vlessUser)) ∧
      acceptedHysteria (renderSingboxServerConfig users reality hysteria ports now) =
        some (.arr ((users.filter (·.isActive now)).map hysteriaUser)) := by
  obtain ⟨cert, key, obfs, masq, up, down⟩ := hysteria
  cases obfs <;> cases masq <;> cases up <;> cases down <;>
    simp [acceptedVless, acceptedHysteria, inbound?, renderSingboxServerConfig, hysteriaInbound,
      vlessInbound, Json.setField, Json.assignField]

end Vpn1.Compat
