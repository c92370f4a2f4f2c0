import Vpn1.Lib.Uri
import Vpn1.Compat.Client

/-! Clients that read what the service renders: the sing-box document, and the share links by the
generic URI syntax. -/

namespace Vpn1.Compat

/-- What a client uses to reach the REALITY inbound. -/
structure RealityClient where
  server : String
  port : Nat
  uuid : String
  flow : String
  sni : String
  fingerprint : String
  publicKey : String
  shortId : String
  deriving DecidableEq, Repr

structure HysteriaClient where
  server : String
  port : Nat
  password : String
  sni : String
  obfs : Option String
  deriving DecidableEq, Repr

structure ClientSettings where
  reality : RealityClient
  hysteria : HysteriaClient
  deriving DecidableEq, Repr

section Reading

def stringAt (key : String) (j : Json) : Option String := (j.field? key).bind asString

def portAt (key : String) (j : Json) : Option Nat :=
  match j.field? key with
  | some (.num n) => if 0 ≤ n then some n.toNat else none
  | _ => none

def readRealityOutbound (outbound : Json) : Option RealityClient := do
  let tls ← outbound.field? "tls"
  let reality ← tls.field? "reality"
  let utls ← tls.field? "utls"
  return {
    server := ← stringAt "server" outbound
    port := ← portAt "server_port" outbound
    uuid := ← stringAt "uuid" outbound
    flow := ← stringAt "flow" outbound
    sni := ← stringAt "server_name" tls
    fingerprint := ← stringAt "fingerprint" utls
    publicKey := ← stringAt "public_key" reality
    shortId := ← stringAt "short_id" reality }

def readHysteriaOutbound (outbound : Json) : Option HysteriaClient := do
  let tls ← outbound.field? "tls"
  return {
    server := ← stringAt "server" outbound
    port := ← portAt "server_port" outbound
    password := ← stringAt "password" outbound
    sni := ← stringAt "server_name" tls
    obfs := (outbound.field? "obfs").bind (stringAt "password") }

def readDocument (doc : Json) : Option ClientSettings := do
  let outbounds ← doc.field? "outbounds"
  return ⟨← readRealityOutbound (← outbounds.item? 0), ← readHysteriaOutbound (← outbounds.item? 1)⟩

def textParam (key : String) (link : Uri.Content) : Option String :=
  (link.param? (Utf8.bytes key.toList)).bind Utf8.text?

def readVlessLink (line : List Char) : Option RealityClient := do
  let link ← (Uri.read line).filter fun link => link.scheme = "vless".toList
  return {
    server := ← Utf8.text? link.host
    port := ← link.port
    uuid := ← link.user.bind Utf8.text?
    flow := ← textParam "flow" link
    sni := ← textParam "sni" link
    fingerprint := ← textParam "fp" link
    publicKey := ← textParam "pbk" link
    shortId := ← textParam "sid" link }

def readObfs (link : Uri.Content) : Option String :=
  if textParam "obfs" link = some "salamander" then textParam "obfs-password" link else none

def readHysteriaLink (line : List Char) : Option HysteriaClient := do
  let link ← (Uri.read line).filter fun link => link.scheme = "hysteria2".toList
  return {
    server := ← Utf8.text? link.host
    port := ← link.port
    password := ← link.user.bind Utf8.text?
    sni := ← textParam "sni" link
    obfs := readObfs link }

def readUriList (body : String) : Option ClientSettings :=
  match body.toList.splitOn '\n' with
  | [vless, hysteria] => do return ⟨← readVlessLink vless, ← readHysteriaLink hysteria⟩
  | _ => none

end Reading

section Outbounds

theorem readRealityOutbound_client (u : CompatUser) (id host sni label pbk sid fp : String)
    (port : UInt16) :
    readRealityOutbound (clientOutbound u
        ⟨id, .vlessReality, host, port, some sni, label, .reality pbk sid fp⟩) =
      some ⟨host, port.toNat, u.vlessUuid, "xtls-rprx-vision", sni, fp, pbk, sid⟩ := by
  simp [readRealityOutbound, clientOutbound, stringAt, portAt, asString, CompatEndpoint.sni]

theorem readHysteriaOutbound_client (u : CompatUser) (id host sni label : String) (port : UInt16)
    (obfs : Option String) :
    readHysteriaOutbound (clientOutbound u
        ⟨id, .hysteria2, host, port, some sni, label, .hysteria2 obfs⟩) =
      some ⟨host, port.toNat, u.hysteria2Password, sni, obfs⟩ := by
  cases obfs <;>
    simp [readHysteriaOutbound, clientOutbound, stringAt, portAt, asString, CompatEndpoint.sni,
      Json.setField, Json.assignField]

end Outbounds

section Links

open ShareLink (query)

def vlessParams (sni pbk sid : String) : List (List Char × List Char) := [
  ("encryption".toList, "none".toList),
  ("security".toList, "reality".toList),
  ("sni".toList, sni.toList),
  ("fp".toList, "chrome".toList),
  ("pbk".toList, pbk.toList),
  ("sid".toList, sid.toList),
  ("type".toList, "tcp".toList),
  ("flow".toList, "xtls-rprx-vision".toList)]

def hysteriaParams (sni : String) (obfs : Option String) : List (List Char × List Char) :=
  ("sni".toList, sni.toList) :: ("insecure".toList, ['0']) ::
    match obfs with
    | some pw => [("obfs".toList, "salamander".toList), ("obfs-password".toList, pw.toList)]
    | none => []

-- The literals are variables here: they are compared with the pieces of the link by evaluation.
private theorem flatten_vless {scheme user host port k₁ v₁ k₂ v₂ k₃ v₃ k₄ v₄ k₅ v₅ k₆ v₆ k₇ v₇ k₈ v₈
      label front security fp pbk sid type : List Char}
    (hfront : front = scheme ++ [':', '/', '/'])
    (hsecurity : security = '?' :: query [(k₁, v₁), (k₂, v₂), (k₃, [])])
    (hfp : fp = '&' :: query [(k₄, [])]) (hpbk : pbk = '&' :: query [(k₅, [])])
    (hsid : sid = '&' :: query [(k₆, [])]) (htype : type = '&' :: query [(k₇, v₇), (k₈, v₈)]) :
    [front, user, ['@'], host, [':'], port, security, v₃, fp, v₄, pbk, v₅, sid, v₆, type, ['#'],
        label].flatten =
      ShareLink.put scheme user host port
        (query [(k₁, v₁), (k₂, v₂), (k₃, v₃), (k₄, v₄), (k₅, v₅), (k₆, v₆), (k₇, v₇), (k₈, v₈)])
        label := by
  subst hfront hsecurity hfp hpbk hsid htype
  simp [ShareLink.put, query]

theorem toList_vless (uuid host digits sni pbk sid label : String) :
    (String.join ["vless://", uuid, "@", host, ":", digits,
      "?encryption=none&security=reality&sni=", sni, "&fp=", "chrome", "&pbk=", pbk, "&sid=", sid,
      "&type=tcp&flow=xtls-rprx-vision", "#", label]).toList =
    ShareLink.put "vless".toList uuid.toList host.toList digits.toList
      (query (vlessParams sni pbk sid)) label.toList := by
  have hfront : "vless://".toList = "vless".toList ++ [':', '/', '/'] := by decide
  have hsecurity : "?encryption=none&security=reality&sni=".toList = '?' :: query
      [("encryption".toList, "none".toList), ("security".toList, "reality".toList),
        ("sni".toList, [])] := by decide
  have hfp : "&fp=".toList = '&' :: query [("fp".toList, [])] := by decide
  have hpbk : "&pbk=".toList = '&' :: query [("pbk".toList, [])] := by decide
  have hsid : "&sid=".toList = '&' :: query [("sid".toList, [])] := by decide
  have htype : "&type=tcp&flow=xtls-rprx-vision".toList = '&' :: query
      [("type".toList, "tcp".toList), ("flow".toList, "xtls-rprx-vision".toList)] := by decide
  rw [String.toList_join]
  exact flatten_vless hfront hsecurity hfp hpbk hsid htype

private theorem flatten_hysteria {scheme user host port k₁ v₁ k₂ v₂ label front sni insecure
      : List Char} {rest : List (List Char × List Char)} {more : List Char}
    (hfront : front = scheme ++ [':', '/', '/']) (hsni : sni = '?' :: query [(k₁, [])])
    (hinsecure : insecure = '&' :: query [(k₂, v₂)])
    (hmore : query ((k₂, v₂) :: rest) = query [(k₂, v₂)] ++ more) :
    [front, user, ['@'], host, [':'], port, sni, v₁, insecure, more, ['#'], label].flatten =
      ShareLink.put scheme user host port (query ((k₁, v₁) :: (k₂, v₂) :: rest)) label := by
  subst hfront hsni hinsecure
  rw [ShareLink.query_cons (List.cons_ne_nil _ _), hmore]
  simp [ShareLink.put, query]

theorem toList_hysteria (password host digits sni label : String) (obfs : Option String) :
    (String.join ["hysteria2://", password, "@", host, ":", digits, "?sni=", sni, "&insecure=0",
      obfsParameters obfs, "#", label]).toList =
    ShareLink.put "hysteria2".toList password.toList host.toList digits.toList
      (query (hysteriaParams sni obfs)) label.toList := by
  have hfront : "hysteria2://".toList = "hysteria2".toList ++ [':', '/', '/'] := by decide
  have hsni : "?sni=".toList = '?' :: query [("sni".toList, [])] := by decide
  have hinsecure : "&insecure=0".toList = '&' :: query [("insecure".toList, ['0'])] := by decide
  rw [String.toList_join]
  cases obfs with
  | none => exact flatten_hysteria hfront hsni hinsecure (List.append_nil _).symm
  | some pw =>
    have hobfs : "&obfs=salamander&obfs-password=".toList = '&' :: query
        [("obfs".toList, "salamander".toList), ("obfs-password".toList, [])] := by decide
    have hmore {k v k₁ v₁ k₂ w sep : List Char} (hsep : sep = '&' :: query [(k₁, v₁), (k₂, [])]) :
        query [(k, v), (k₁, v₁), (k₂, w)] = query [(k, v)] ++ (sep ++ w) := by
      subst hsep
      simp [query]
    have htext : (obfsParameters (some pw)).toList =
        "&obfs=salamander&obfs-password=".toList ++ pw.toList := String.toList_append
    exact flatten_hysteria hfront hsni hinsecure ((hmore hobfs).trans (congrArg _ htext.symm))

theorem textParam_eq_some {key value : String} {link : Uri.Content} :
    textParam key link = some value ↔
      link.param? (Utf8.bytes key.toList) = some (Utf8.bytes value.toList) := by
  simp only [textParam, Option.bind_eq_some_iff, Utf8.text?_eq_some_iff, exists_eq_right]

private theorem readVlessLink_eq_some {line : List Char} {c : RealityClient} :
    readVlessLink line = some c ↔
      ∃ link, Uri.read line = some link ∧ link.scheme = "vless".toList ∧
        link.user = some (Utf8.bytes c.uuid.toList) ∧ link.host = Utf8.bytes c.server.toList ∧
        link.port = some c.port ∧ textParam "flow" link = some c.flow ∧
        textParam "sni" link = some c.sni ∧ textParam "fp" link = some c.fingerprint ∧
        textParam "pbk" link = some c.publicKey ∧ textParam "sid" link = some c.shortId := by
  obtain ⟨server, port, uuid, flow, sni, fingerprint, publicKey, shortId⟩ := c
  simp only [readVlessLink, Option.bind_eq_bind, Option.pure_def, Option.bind_eq_some_iff,
    Option.some.injEq, RealityClient.mk.injEq, Option.filter_eq_some_iff, decide_eq_true_eq,
    Utf8.text?_eq_some_iff, exists_eq_right]
  constructor
  · rintro ⟨link, ⟨hlink, hscheme⟩, server, hserver, port, hport, user, huser, flow, hflow, sni, hsni,
      fp, hfp, pbk, hpbk, sid, hsid, rfl, rfl, rfl, rfl, rfl, rfl, rfl, rfl⟩
    exact ⟨link, hlink, hscheme, huser, hserver, hport, hflow, hsni, hfp, hpbk, hsid⟩
  · rintro ⟨link, hlink, hscheme, huser, hserver, hport, hflow, hsni, hfp, hpbk, hsid⟩
    exact ⟨link, ⟨hlink, hscheme⟩, server, hserver, port, hport, uuid, huser, flow, hflow, sni, hsni,
      fingerprint, hfp, publicKey, hpbk, shortId, hsid, rfl, rfl, rfl, rfl, rfl, rfl, rfl, rfl⟩

variable {uuid host sni pbk sid : String} {n : Nat} {label : List Char}

theorem nameText_vless : ∀ p ∈ vlessParams sni pbk sid, Uri.NameText p.1 := by
  have hnames : ∀ name ∈ ["encryption".toList, "security".toList, "sni".toList, "fp".toList,
      "pbk".toList, "sid".toList, "type".toList, "flow".toList], Uri.NameText name := by decide
  exact fun p hp => hnames p.1 (List.mem_map_of_mem hp)

theorem nodup_vless : ((vlessParams sni pbk sid).map Prod.fst).Nodup := by
  have hnames : ["encryption".toList, "security".toList, "sni".toList, "fp".toList,
      "pbk".toList, "sid".toList, "type".toList, "flow".toList].Nodup := by decide
  exact hnames

theorem forall_vlessParams {P : List Char × List Char → Prop}
    (hencryption : P ("encryption".toList, "none".toList))
    (hsecurity : P ("security".toList, "reality".toList)) (hsni : P ("sni".toList, sni.toList))
    (hfp : P ("fp".toList, "chrome".toList)) (hpbk : P ("pbk".toList, pbk.toList))
    (hsid : P ("sid".toList, sid.toList)) (htype : P ("type".toList, "tcp".toList))
    (hflow : P ("flow".toList, "xtls-rprx-vision".toList)) :
    ∀ p ∈ vlessParams sni pbk sid, P p := by
  unfold vlessParams
  simp only [List.forall_mem_cons]
  exact ⟨hencryption, hsecurity, hsni, hfp, hpbk, hsid, htype, hflow, by simp⟩

/-- A VLESS link is read as it was meant exactly if its parts may stand in it as they are. -/
theorem readVlessLink_put_iff {l : List UInt8} (hpbk : ShareLink.Safe pbk.toList)
    (hsid : ShareLink.Safe sid.toList) (hlabel : Uri.allowed Uri.isQueryChar label = true)
    (hdecode : Uri.decode label = some l) :
    readVlessLink (ShareLink.put "vless".toList uuid.toList host.toList (Nat.toDigits 10 n)
        (query (vlessParams sni pbk sid)) label) =
      some ⟨host, n, uuid, "xtls-rprx-vision", sni, "chrome", pbk, sid⟩ ↔
    Uri.Stands uuid.toList host.toList (vlessParams sni pbk sid) := by
  rw [readVlessLink_eq_some]
  simp only [textParam_eq_some]
  constructor
  · rintro ⟨link, hlink, -, huser, hhost, -, -, hsni, -⟩
    exact Uri.stands_of_read (by decide) nameText_vless nodup_vless hlink huser hhost
      (forall_vlessParams (.inl (by decide)) (.inl (by decide)) (.inr hsni) (.inl (by decide))
        (.inl hpbk) (.inl hsid) (.inl (by decide)) (.inl (by decide)))
  · intro hstands
    have hscheme : Uri.schemeText "vless".toList = true := by decide
    have hread := Uri.read_put (n := n) hscheme nameText_vless (by simp [vlessParams]) hlabel hdecode
      hstands
    have hfound : ∀ p ∈ vlessParams sni pbk sid,
        ((vlessParams sni pbk sid).map Uri.said).lookup (Utf8.bytes p.1) =
          some (Utf8.bytes p.2) := fun p hp => Uri.lookup_said nodup_vless hp
    refine ⟨_, hread, rfl, rfl, rfl, rfl,
      hfound ("flow".toList, "xtls-rprx-vision".toList) ?_, hfound ("sni".toList, sni.toList) ?_,
      hfound ("fp".toList, "chrome".toList) ?_, hfound ("pbk".toList, pbk.toList) ?_,
      hfound ("sid".toList, sid.toList) ?_⟩
    all_goals simp [vlessParams]

private theorem readHysteriaLink_eq_some {line : List Char} {c : HysteriaClient} :
    readHysteriaLink line = some c ↔
      ∃ link, Uri.read line = some link ∧ link.scheme = "hysteria2".toList ∧
        link.user = some (Utf8.bytes c.password.toList) ∧
        link.host = Utf8.bytes c.server.toList ∧ link.port = some c.port ∧
        textParam "sni" link = some c.sni ∧ readObfs link = c.obfs := by
  obtain ⟨server, port, password, sni, obfs⟩ := c
  simp only [readHysteriaLink, Option.bind_eq_bind, Option.pure_def, Option.bind_eq_some_iff,
    Option.some.injEq, HysteriaClient.mk.injEq, Option.filter_eq_some_iff, decide_eq_true_eq,
    Utf8.text?_eq_some_iff, exists_eq_right]
  constructor
  · rintro ⟨link, ⟨hlink, hscheme⟩, server, hserver, port, hport, user, huser, sni, hsni, rfl, rfl,
      rfl, rfl, hobfs⟩
    exact ⟨link, hlink, hscheme, huser, hserver, hport, hsni, hobfs⟩
  · rintro ⟨link, hlink, hscheme, huser, hserver, hport, hsni, hobfs⟩
    exact ⟨link, ⟨hlink, hscheme⟩, server, hserver, port, hport, password, huser, sni, hsni, rfl, rfl,
      rfl, rfl, hobfs⟩

private theorem textParam_of_readObfs {link : Uri.Content} {pw : String}
    (h : readObfs link = some pw) : textParam "obfs-password" link = some pw := by
  unfold readObfs at h
  split at h
  · exact h
  · cases h

theorem forall_hysteriaParams {obfs : Option String} {P : List Char × List Char → Prop}
    (hsni : P ("sni".toList, sni.toList)) (hinsecure : P ("insecure".toList, ['0']))
    (hobfs : ∀ pw ∈ obfs, P ("obfs".toList, "salamander".toList) ∧
      P ("obfs-password".toList, pw.toList)) :
    ∀ p ∈ hysteriaParams sni obfs, P p := by
  cases obfs with
  | none => simpa only [hysteriaParams, List.forall_mem_cons] using ⟨hsni, hinsecure, by simp⟩
  | some pw =>
    have := hobfs pw rfl
    simpa only [hysteriaParams, List.forall_mem_cons] using
      ⟨hsni, hinsecure, this.1, this.2, by simp⟩

theorem nameText_hysteria {obfs : Option String} :
    ∀ p ∈ hysteriaParams sni obfs, Uri.NameText p.1 := by
  have hnames : Uri.NameText "sni".toList ∧ Uri.NameText "obfs-password".toList := by decide
  exact forall_hysteriaParams hnames.1 (by decide) fun _ _ => ⟨by decide, hnames.2⟩

theorem nodup_hysteria (obfs : Option String) :
    ((hysteriaParams sni obfs).map Prod.fst).Nodup := by
  have hboth : ["sni".toList, "insecure".toList, "obfs".toList, "obfs-password".toList].Nodup := by
    decide
  have hplain : ["sni".toList, "insecure".toList].Nodup := by decide
  cases obfs with
  | none => exact hplain
  | some pw => exact hboth

private theorem readObfs_said {obfs : Option String} {link : Uri.Content}
    (hparams : link.params = (hysteriaParams sni obfs).map Uri.said) : readObfs link = obfs := by
  have hlookup (name : String) : textParam name link =
      (((hysteriaParams sni obfs).map Uri.said).lookup (Utf8.bytes name.toList)).bind
        Utf8.text? := by
    rw [textParam, Uri.Content.param?, hparams]
  unfold readObfs
  cases obfs with
  | none =>
    have hname : "obfs".toList ∉ (hysteriaParams sni none).map Prod.fst := by
      have hnames : "obfs".toList ∉ ["sni".toList, "insecure".toList] := by decide
      exact hnames
    rw [hlookup, Uri.lookup_said_eq_none hname, Option.bind_none, if_neg (Option.some_ne_none _).symm]
  | some pw =>
    have hfound {p : List Char × List Char} (hp : p ∈ hysteriaParams sni (some pw)) :=
      Uri.lookup_said (nodup_hysteria (some pw)) hp
    have hobfs := hfound (p := ("obfs".toList, "salamander".toList)) (by simp [hysteriaParams])
    have hpassword := hfound (p := ("obfs-password".toList, pw.toList)) (by simp [hysteriaParams])
    rw [hlookup, hlookup, hobfs, hpassword, Option.bind_some, Option.bind_some,
      Utf8.text?_eq_some_iff.mpr rfl, Utf8.text?_eq_some_iff.mpr rfl, if_pos rfl]

/-- So is a Hysteria2 link. -/
theorem readHysteriaLink_put_iff {password : String} {obfs : Option String} {l : List UInt8}
    (hlabel : Uri.allowed Uri.isQueryChar label = true) (hdecode : Uri.decode label = some l) :
    readHysteriaLink (ShareLink.put "hysteria2".toList password.toList host.toList
        (Nat.toDigits 10 n) (query (hysteriaParams sni obfs)) label) =
      some ⟨host, n, password, sni, obfs⟩ ↔
    Uri.Stands password.toList host.toList (hysteriaParams sni obfs) := by
  rw [readHysteriaLink_eq_some]
  constructor
  · rintro ⟨link, hlink, -, huser, hhost, -, hsni, hobfs⟩
    refine Uri.stands_of_read (by decide) nameText_hysteria (nodup_hysteria obfs) hlink huser hhost
      (forall_hysteriaParams (.inr (textParam_eq_some.mp hsni)) (.inl (by decide)) fun pw hpw => ?_)
    exact ⟨.inl (by decide), .inr (textParam_eq_some.mp (textParam_of_readObfs (hobfs.trans hpw)))⟩
  · intro hstands
    have hscheme : Uri.schemeText "hysteria2".toList = true := by decide
    have hread := Uri.read_put (n := n) hscheme nameText_hysteria (by simp [hysteriaParams]) hlabel
      hdecode hstands
    have hmem : ("sni".toList, sni.toList) ∈ hysteriaParams sni obfs := by simp [hysteriaParams]
    have hsni := Uri.lookup_said (nodup_hysteria obfs) hmem
    exact ⟨_, hread, rfl, rfl, rfl, rfl, textParam_eq_some.mpr hsni, readObfs_said rfl⟩

/-- A body of two lines is read line by line, if neither line is broken. -/
theorem readUriList_eq_some {body : String} {l₁ l₂ : List Char} {c : ClientSettings}
    (hbody : body.toList = l₁ ++ '\n' :: l₂) :
    readUriList body = some c ↔ ('\n' ∉ l₁ ∧ '\n' ∉ l₂) ∧
      readVlessLink l₁ = some c.reality ∧ readHysteriaLink l₂ = some c.hysteria := by
  unfold readUriList
  rw [hbody]
  constructor
  · intro h
    split at h
    · next vless hysteria hsplit =>
      obtain ⟨⟨rfl, hfirst⟩, rfl, hsecond⟩ := ShareLink.splitOn_eq_pair_iff.mp hsplit
      obtain ⟨reality, hreality, h⟩ := Option.bind_eq_some_iff.mp h
      obtain ⟨hysteria, hhysteria, h⟩ := Option.bind_eq_some_iff.mp h
      obtain rfl := Option.some.inj h
      exact ⟨⟨hfirst, hsecond⟩, hreality, hhysteria⟩
    · cases h
  · rintro ⟨⟨hfirst, hsecond⟩, hreality, hhysteria⟩
    rw [ShareLink.splitOn_eq_pair_iff.mpr ⟨⟨rfl, hfirst⟩, rfl, hsecond⟩]
    simp [hreality, hhysteria]

end Links

end Vpn1.Compat
