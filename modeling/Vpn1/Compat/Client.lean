import Vpn1.Compat.Store

/-! What clients are given: endpoints, share links and the sing-box subscription document. -/

namespace Vpn1.Compat

inductive CompatTransport
  | vlessReality
  | hysteria2
  deriving DecidableEq, Repr

inductive PublicParameters
  | reality (publicKeyHex shortId fingerprint : String)
  | hysteria2 (obfsPassword : Option String)
  deriving DecidableEq, Repr

structure CompatEndpoint where
  id : String
  transport : CompatTransport
  host : String
  port : UInt16
  serverName : Option String
  label : String
  publicParameters : PublicParameters
  deriving DecidableEq, Repr

def CompatEndpoint.sni (ep : CompatEndpoint) : String := ep.serverName.getD ep.host

section ShareLinks

def isUnreserved (b : UInt8) : Bool :=
  (65 ≤ b && b ≤ 90) || (97 ≤ b && b ≤ 122) || (48 ≤ b && b ≤ 57) ||
    b == 45 || b == 46 || b == 95 || b == 126

def upperHexDigit (n : Nat) : Char :=
  if n < 10 then Char.ofNat (n + 48) else Char.ofNat (n - 10 + 65)

def percentEncodeLabel (label : String) : String :=
  String.ofList (label.toUTF8.data.toList.flatMap fun b =>
    if isUnreserved b then [Char.ofNat b.toNat]
    else ['%', upperHexDigit (b.toNat / 16), upperHexDigit (b.toNat % 16)])

/-- Apart from the label, values go into a link as they are. -/
def renderVlessRealityUri (user : CompatUser) (ep : CompatEndpoint) : Except CompatError String :=
  match ep.publicParameters with
  | .reality pbk sid fp =>
    .ok (String.join ["vless://", user.vlessUuid, "@", ep.host, ":", ep.port.toNat.repr,
      "?encryption=none&security=reality&sni=", ep.sni, "&fp=", fp, "&pbk=", pbk, "&sid=", sid,
      "&type=tcp&flow=xtls-rprx-vision", "#", percentEncodeLabel ep.label])
  | .hysteria2 _ => .error .wrongTransportForEndpoint

def obfsParameters : Option String → String
  | some pw => "&obfs=salamander&obfs-password=" ++ pw
  | none => ""

def renderHysteria2Uri (user : CompatUser) (ep : CompatEndpoint) : Except CompatError String :=
  match ep.publicParameters with
  | .hysteria2 obfs =>
    .ok (String.join ["hysteria2://", user.hysteria2Password, "@", ep.host, ":",
      ep.port.toNat.repr, "?sni=", ep.sni, "&insecure=0", obfsParameters obfs, "#",
      percentEncodeLabel ep.label])
  | .reality .. => .error .wrongTransportForEndpoint

def renderUri (user : CompatUser) (ep : CompatEndpoint) : Except CompatError String :=
  match ep.transport with
  | .vlessReality => renderVlessRealityUri user ep
  | .hysteria2 => renderHysteria2Uri user ep

def renderUriList (user : CompatUser) (endpoints : List CompatEndpoint) :
    Except CompatError String :=
  (endpoints.mapM (renderUri user)).map ("\n".intercalate ·)

end ShareLinks

section Document

inductive SelectionProfile
  | reliability
  | performance
  | auto
  deriving DecidableEq, Repr

def SelectionProfile.parse (s : String) : Option SelectionProfile :=
  if s = "reliability" then some .reliability
  else if s = "performance" then some .performance
  else if s = "auto" then some .auto
  else none

def clientOutbound (user : CompatUser) (ep : CompatEndpoint) : Json :=
  match ep.publicParameters with
  | .reality pbk sid fp => .obj [
      ("type", .str "vless"),
      ("tag", .str ep.label),
      ("server", .str ep.host),
      ("server_port", .num ep.port.toNat),
      ("uuid", .str user.vlessUuid),
      ("flow", .str "xtls-rprx-vision"),
      ("packet_encoding", .str "xudp"),
      ("tls", .obj [
        ("enabled", .bool true),
        ("server_name", .str ep.sni),
        ("utls", .obj [("enabled", .bool true), ("fingerprint", .str fp)]),
        ("reality", .obj [
          ("enabled", .bool true),
          ("public_key", .str pbk),
          ("short_id", .str sid)])])]
  | .hysteria2 obfs =>
    let outbound : Json := .obj [
      ("type", .str "hysteria2"),
      ("tag", .str ep.label),
      ("server", .str ep.host),
      ("server_port", .num ep.port.toNat),
      ("password", .str user.hysteria2Password),
      ("tls", .obj [
        ("enabled", .bool true),
        ("server_name", .str ep.sni),
        ("insecure", .bool false)])]
    match obfs with
    | some pw =>
      outbound.setField "obfs" (.obj [("type", .str "salamander"), ("password", .str pw)])
    | none => outbound

def firstTag (endpoints : List CompatEndpoint) (transport : CompatTransport) : Option String :=
  (endpoints.find? (·.transport = transport)).map (·.label)

def defaultTag (endpoints : List CompatEndpoint) : SelectionProfile → String
  | .reliability =>
    ((firstTag endpoints .vlessReality).or (endpoints.head?.map (·.label))).getD "auto"
  | .performance =>
    (((firstTag endpoints .hysteria2).or (firstTag endpoints .vlessReality)).or
      (endpoints.head?.map (·.label))).getD "auto"
  | .auto => "auto"

def renderSingboxClientSubscriptionWithProfile (user : CompatUser)
    (endpoints : List CompatEndpoint) (profile : SelectionProfile) : Except CompatError Json :=
  let tags := endpoints.map fun ep => Json.str ep.label
  .ok (.obj [
    ("outbounds", .arr (endpoints.map (clientOutbound user) ++ [
      .obj [
        ("type", .str "urltest"),
        ("tag", .str "auto"),
        ("outbounds", .arr tags),
        ("url", .str "https://www.gstatic.com/generate_204"),
        ("interval", .str "1m")],
      .obj [
        ("type", .str "selector"),
        ("tag", .str "select"),
        ("outbounds", .arr (tags ++ [.str "auto"])),
        ("default", .str (defaultTag endpoints profile))],
      .obj [("type", .str "direct"), ("tag", .str "direct")]])),
    ("route", .obj [("final", .str "select")])])

end Document

def standardEndpoints (publicHost : String) (realityPort hysteriaPort : UInt16)
    (realityPublicKeyHex realityShortId handshakeServer : String)
    (hysteriaObfsPassword : Option String) : List CompatEndpoint :=
  [{ id := "reality-1"
     transport := .vlessReality
     host := publicHost
     port := realityPort
     serverName := some handshakeServer
     label := "Reality"
     publicParameters := .reality realityPublicKeyHex realityShortId "chrome" },
   { id := "hysteria2-1"
     transport := .hysteria2
     host := publicHost
     port := hysteriaPort
     serverName := some publicHost
     label := "Hysteria2"
     publicParameters := .hysteria2 hysteriaObfsPassword }]

end Vpn1.Compat
