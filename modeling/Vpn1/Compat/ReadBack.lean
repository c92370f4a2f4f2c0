import Vpn1.Compat.Credentials
import Vpn1.Compat.Links

/-! Whether the share links of the standard endpoints, read by the generic URI syntax, give back what
went into them. -/

namespace Vpn1.Compat

open ShareLink (query)

section Links

def textBytes (s : String) : List UInt8 := s.toUTF8.data.toList

def linkContent (user : CompatUser) (ep : CompatEndpoint) : Uri.Content where
  scheme := match ep.transport with
    | .vlessReality => "vless".toList
    | .hysteria2 => "hysteria2".toList
  user := some <| textBytes <| match ep.transport with
    | .vlessReality => user.vlessUuid
    | .hysteria2 => user.hysteria2Password
  host := textBytes ep.host
  port := some ep.port.toNat
  path := []
  params := match ep.publicParameters with
    | .reality pbk sid fp => [("encryption", "none"), ("security", "reality"), ("sni", ep.sni),
        ("fp", fp), ("pbk", pbk), ("sid", sid), ("type", "tcp"), ("flow", "xtls-rprx-vision")].map
          fun p => (textBytes p.1, textBytes p.2)
    | .hysteria2 obfs => ([("sni", ep.sni), ("insecure", "0")] ++ match obfs with
        | some pw => [("obfs", "salamander"), ("obfs-password", pw)]
        | none => []).map fun p => (textBytes p.1, textBytes p.2)
  label := some (textBytes ep.label)

/-- Every link says what it is to say, and the list is split into just these links. -/
structure LinksReadBack (user : CompatUser) (endpoints : List CompatEndpoint) : Prop where
  read : ∀ ep ∈ endpoints, ∃ link, renderUri user ep = .ok link ∧
    Uri.read link.toList = some (linkContent user ep)
  lines : ∃ links body, endpoints.mapM (renderUri user) = .ok links ∧
    renderUriList user endpoints = .ok body ∧ body.toList.splitOn '\n' = links.map String.toList

private theorem textBytes_eq (s : String) : textBytes s = Utf8.bytes s.toList :=
  (Utf8.bytes_eq_toByteArray s).symm

end Links

section Labels

def encodeByte (b : UInt8) : List Char :=
  if isUnreserved b then [Char.ofNat b.toNat]
  else ['%', upperHexDigit (b.toNat / 16), upperHexDigit (b.toNat % 16)]

theorem hexValue_upperHexDigit {n : Nat} (hn : n < 16) :
    Uri.hexValue (upperHexDigit n) = some n := by
  have htable : ∀ n < 16, Uri.hexValue (upperHexDigit n) = some n := by decide
  exact htable n hn

private theorem unreserved_tests {b : UInt8} (hb : isUnreserved b = true) :
    (Char.ofNat b.toNat).toNat < 128 ∧ (Char.ofNat b.toNat).val.toUInt8 = b ∧
      Uri.isQueryChar (Char.ofNat b.toNat) = true := by
  have htable : ∀ n < 256, isUnreserved (UInt8.ofNat n) = true → (Char.ofNat n).toNat < 128 ∧
      (Char.ofNat n).val.toUInt8 = UInt8.ofNat n ∧ Uri.isQueryChar (Char.ofNat n) = true := by
    decide +kernel
  have hentry := htable b.toNat b.toNat_lt
  rw [UInt8.ofNat_toNat] at hentry
  exact hentry hb

private theorem decode_encodeByte_append (b : UInt8) (rest : List Char) :
    Uri.decode (encodeByte b ++ rest) = (Uri.decode rest).map (b :: ·) := by
  unfold encodeByte
  by_cases hb : isUnreserved b = true
  · obtain ⟨hascii, hsame, hquery⟩ := unreserved_tests hb
    have hescape : Char.ofNat b.toNat ≠ '%' := Uri.ne_of_class hquery rfl
    rw [if_pos hb, List.singleton_append, Uri.decode_cons_of_ne hescape,
      Utf8.utf8EncodeChar_of_lt hascii, hsame]
    rfl
  · have hlt := b.toNat_lt
    have hhigh : b.toNat / 16 < 16 := by omega
    have hlow : b.toNat % 16 < 16 := by omega
    have hbyte : UInt8.ofNat (b.toNat / 16 * 16 + b.toNat % 16) = b := by
      rw [Nat.div_add_mod' b.toNat 16, UInt8.ofNat_toNat]
    rw [if_neg hb, List.cons_append, List.cons_append, List.singleton_append, Uri.decode,
      hexValue_upperHexDigit hhigh, hexValue_upperHexDigit hlow]
    dsimp only
    rw [hbyte]

private theorem allowed_encodeByte_append (b : UInt8) (rest : List Char) :
    Uri.allowed Uri.isQueryChar (encodeByte b ++ rest) = Uri.allowed Uri.isQueryChar rest := by
  unfold encodeByte
  by_cases hb : isUnreserved b = true
  · obtain ⟨hascii, hsame, hquery⟩ := unreserved_tests hb
    have hescape : Char.ofNat b.toNat ≠ '%' := Uri.ne_of_class hquery rfl
    rw [if_pos hb, List.singleton_append, Uri.allowed_cons_of_ne hescape, hquery, Bool.true_and]
  · have hlt := b.toNat_lt
    have hhigh : b.toNat / 16 < 16 := by omega
    have hlow : b.toNat % 16 < 16 := by omega
    rw [if_neg hb, List.cons_append, List.cons_append, List.singleton_append, Uri.allowed,
      hexValue_upperHexDigit hhigh, hexValue_upperHexDigit hlow]
    rfl

private theorem toList_percentEncodeLabel (label : String) :
    (percentEncodeLabel label).toList = (textBytes label).flatMap encodeByte := String.toList_ofList

/-- Any label comes back. -/
theorem decode_percentEncodeLabel (label : String) :
    Uri.decode (percentEncodeLabel label).toList = some (textBytes label) := by
  rw [toList_percentEncodeLabel]
  induction textBytes label with
  | nil => rfl
  | cons b bs ih => rw [List.flatMap_cons, decode_encodeByte_append, ih, Option.map_some]

theorem allowed_percentEncodeLabel (label : String) :
    Uri.allowed Uri.isQueryChar (percentEncodeLabel label).toList = true := by
  rw [toList_percentEncodeLabel]
  induction textBytes label with
  | nil => rfl
  | cons b bs ih => rw [List.flatMap_cons, allowed_encodeByte_append, ih]

end Labels

section Reading

variable {user : CompatUser} {host sni pbk sid label : String} {port : UInt16} {obfs : Option String}

def realityEndpoint (host : String) (port : UInt16) (sni pbk sid label : String) : CompatEndpoint :=
  ⟨"reality-1", .vlessReality, host, port, some sni, label, .reality pbk sid "chrome"⟩

def hysteriaEndpoint (host : String) (port : UInt16) (sni : String) (obfs : Option String)
    (label : String) : CompatEndpoint :=
  ⟨"hysteria2-1", .hysteria2, host, port, some sni, label, .hysteria2 obfs⟩

private theorem linkContent_reality :
    linkContent user (realityEndpoint host port sni pbk sid label) =
      ⟨"vless".toList, some (Utf8.bytes user.vlessUuid.toList), Utf8.bytes host.toList,
        some port.toNat, [], (vlessParams sni pbk sid).map Uri.said, some (textBytes label)⟩ := by
  simp only [linkContent, realityEndpoint, textBytes_eq, vlessParams, List.map_cons, List.map_nil,
    Uri.said, CompatEndpoint.sni, Option.getD_some]

private theorem linkContent_hysteria :
    linkContent user (hysteriaEndpoint host port sni obfs label) =
      ⟨"hysteria2".toList, some (Utf8.bytes user.hysteria2Password.toList), Utf8.bytes host.toList,
        some port.toNat, [], (hysteriaParams sni obfs).map Uri.said, some (textBytes label)⟩ := by
  cases obfs <;>
    simp only [linkContent, hysteriaEndpoint, textBytes_eq, hysteriaParams, List.map_cons,
      List.map_nil, List.cons_append, List.nil_append, Uri.said, CompatEndpoint.sni,
      Option.getD_some] <;> rfl

theorem render_reality (user : CompatUser) (host : String) (port : UInt16)
    (sni pbk sid label : String) :
    ∃ link, renderUri user (realityEndpoint host port sni pbk sid label) =
      .ok link ∧ link.toList = ShareLink.put "vless".toList user.vlessUuid.toList host.toList
        (Nat.toDigits 10 port.toNat) (query (vlessParams sni pbk sid))
        (percentEncodeLabel label).toList := by
  refine ⟨_, rfl, ?_⟩
  have htext := toList_vless user.vlessUuid host port.toNat.repr sni pbk sid
    (percentEncodeLabel label)
  rwa [Nat.toList_repr] at htext

theorem render_hysteria (user : CompatUser) (host : String) (port : UInt16) (sni : String)
    (obfs : Option String) (label : String) :
    ∃ link, renderUri user (hysteriaEndpoint host port sni obfs label) =
      .ok link ∧ link.toList = ShareLink.put "hysteria2".toList user.hysteria2Password.toList
        host.toList (Nat.toDigits 10 port.toNat) (query (hysteriaParams sni obfs))
        (percentEncodeLabel label).toList := by
  refine ⟨_, rfl, ?_⟩
  have htext := toList_hysteria user.hysteria2Password host port.toNat.repr sni
    (percentEncodeLabel label) obfs
  rwa [Nat.toList_repr] at htext

def Carried (value : String) : Prop := ∀ c ∈ value.toList, Uri.isValueChar c = true

theorem carried_of_all {value : String} (h : value.toList.all Uri.isValueChar = true) :
    Carried value := List.all_eq_true.mp h

theorem Carried.safe {value : String} (h : Carried value) : ShareLink.Safe value.toList :=
  ⟨fun c hc => Uri.valueChar_of_isValueChar (h c hc), Uri.notMem_of_class h rfl⟩

theorem values_vless_iff : (∀ p ∈ vlessParams sni pbk sid, ∀ c ∈ p.2, Uri.isValueChar c = true) ↔
    Carried sni ∧ Carried pbk ∧ Carried sid := by
  constructor
  · intro h
    exact ⟨h ("sni".toList, sni.toList) (by simp [vlessParams]),
      h ("pbk".toList, pbk.toList) (by simp [vlessParams]),
      h ("sid".toList, sid.toList) (by simp [vlessParams])⟩
  · rintro ⟨hsni, hpbk, hsid⟩
    exact forall_vlessParams (carried_of_all (by decide)) (carried_of_all (by decide)) hsni
      (carried_of_all (by decide)) hpbk hsid (carried_of_all (by decide))
      (carried_of_all (by decide))

theorem values_hysteria_iff :
    (∀ p ∈ hysteriaParams sni obfs, ∀ c ∈ p.2, Uri.isValueChar c = true) ↔
      Carried sni ∧ ∀ pw ∈ obfs, Carried pw := by
  constructor
  · intro h
    refine ⟨h ("sni".toList, sni.toList) (by simp [hysteriaParams]), ?_⟩
    rintro pw rfl
    exact h ("obfs-password".toList, pw.toList) (by simp [hysteriaParams])
  · rintro ⟨hsni, hobfs⟩
    exact forall_hysteriaParams hsni (List.all_eq_true.mp (by decide)) fun pw hpw =>
      ⟨carried_of_all (by decide), hobfs pw hpw⟩

/-- A VLESS link may hold its parts as they are. -/
theorem stands_vless_iff {uuid : String} :
    Uri.Stands uuid.toList host.toList (vlessParams sni pbk sid) ↔
      (∀ c ∈ uuid.toList, Uri.isUserChar c = true) ∧
        (Uri.hostText host.toList = true ∧ '%' ∉ host.toList) ∧
        Carried sni ∧ Carried pbk ∧ Carried sid := by
  rw [← values_vless_iff]
  exact ⟨fun h => ⟨h.user, h.host, h.values⟩, fun ⟨huser, hhost, hvalues⟩ => ⟨huser, hhost, hvalues⟩⟩

theorem stands_hysteria_iff {password : String} :
    Uri.Stands password.toList host.toList (hysteriaParams sni obfs) ↔
      (∀ c ∈ password.toList, Uri.isUserChar c = true) ∧
        (Uri.hostText host.toList = true ∧ '%' ∉ host.toList) ∧
        Carried sni ∧ ∀ pw ∈ obfs, Carried pw := by
  rw [← values_hysteria_iff]
  exact ⟨fun h => ⟨h.user, h.host, h.values⟩, fun ⟨huser, hhost, hvalues⟩ => ⟨huser, hhost, hvalues⟩⟩

theorem read_reality_iff (huser : ∀ c ∈ user.vlessUuid.toList, Uri.isUserChar c = true) :
    (∃ link, renderUri user (realityEndpoint host port sni pbk sid label) = .ok link ∧
      Uri.read link.toList =
        some (linkContent user (realityEndpoint host port sni pbk sid label))) ↔
      (Uri.hostText host.toList = true ∧ '%' ∉ host.toList) ∧
        Carried sni ∧ Carried pbk ∧ Carried sid := by
  obtain ⟨link, hrender, htext⟩ := render_reality user host port sni pbk sid label
  rw [hrender, linkContent_reality]
  simp only [Except.ok.injEq, exists_eq_left']
  rw [htext, Uri.read_put_iff (by decide) nameText_vless nodup_vless (by simp [vlessParams])
    (allowed_percentEncodeLabel label) (decode_percentEncodeLabel label), stands_vless_iff,
    and_iff_right huser]

theorem read_hysteria_iff
    (huser : ∀ c ∈ user.hysteria2Password.toList, Uri.isUserChar c = true) :
    (∃ link, renderUri user (hysteriaEndpoint host port sni obfs label) = .ok link ∧
      Uri.read link.toList =
        some (linkContent user (hysteriaEndpoint host port sni obfs label))) ↔
      (Uri.hostText host.toList = true ∧ '%' ∉ host.toList) ∧
        Carried sni ∧ ∀ pw ∈ obfs, Carried pw := by
  obtain ⟨link, hrender, htext⟩ := render_hysteria user host port sni obfs label
  rw [hrender, linkContent_hysteria]
  simp only [Except.ok.injEq, exists_eq_left']
  rw [htext, Uri.read_put_iff (by decide) nameText_hysteria (nodup_hysteria obfs)
    (by simp [hysteriaParams]) (allowed_percentEncodeLabel label) (decode_percentEncodeLabel label),
    stands_hysteria_iff, and_iff_right huser]

end Reading

section Credentials

private theorem isUserChar_of_isAsciiHexDigit {c : Char} (hc : isAsciiHexDigit c = true) :
    Uri.isUserChar c = true :=
  Utf8.ascii_forall (P := fun c => isAsciiHexDigit c = true → Uri.isUserChar c = true) (by decide)
    (lt_of_isAsciiHexDigit hc) hc

private theorem isUserChar_uuid (random : Vector UInt8 16) :
    ∀ c ∈ (generateUuidV4 random).toList, Uri.isUserChar c = true := by
  intro c hc
  rcases of_mem_generateUuidV4 hc with hhex | rfl
  · exact isUserChar_of_isAsciiHexDigit hhex
  · decide

private theorem isUserChar_password (random : Vector UInt8 24) :
    ∀ c ∈ (generateHysteria2Password random).toList, Uri.isUserChar c = true :=
  fun _ hc => isUserChar_of_isAsciiHexDigit (isAsciiHexDigit_of_mem_hexEncode hc)

private theorem isWhiteSpace_of_isValueChar {c : Char} (hc : Uri.isValueChar c = true) :
    isWhiteSpace c = false :=
  Utf8.ascii_forall (P := fun c => Uri.isValueChar c = true → isWhiteSpace c = false) (by decide)
    (Uri.lt_of_isValueChar hc) hc

theorem isValueChar_of_base64 {c : Char} (hc : (base64Value c).isSome = true) :
    Uri.isValueChar c = true := by
  have hlt : c.toNat < 128 := by
    have hlarge : c ≤ 'Z' → c.toNat ≤ 90 := id
    have hsmall : c ≤ 'z' → c.toNat ≤ 122 := id
    have hdigit : c ≤ '9' → c.toNat ≤ 57 := id
    unfold base64Value at hc
    split_ifs at hc with h₁ h₂ h₃ h₄ h₅
    · exact Nat.lt_of_le_of_lt (hlarge h₁.2) (by decide)
    · exact Nat.lt_of_le_of_lt (hsmall h₂.2) (by decide)
    · exact Nat.lt_of_le_of_lt (hdigit h₃.2) (by decide)
    · rw [h₄]
      decide
    · rw [h₅]
      decide
    · cases hc
  exact Utf8.ascii_forall (P := fun c => (base64Value c).isSome = true → Uri.isValueChar c = true)
    (by decide) hlt hc

theorem isValueChar_of_isAsciiHexDigit {c : Char} (hc : isAsciiHexDigit c = true) :
    Uri.isValueChar c = true :=
  Utf8.ascii_forall (P := fun c => isAsciiHexDigit c = true → Uri.isValueChar c = true) (by decide)
    (lt_of_isAsciiHexDigit hc) hc

/-- A checked value is carried exactly if there is nothing to strip from it. -/
theorem carried_iff_trim {value : String} {p : Char → Bool}
    (hp : ∀ c, p c = true → Uri.isValueChar c = true) (hall : (trim value).toList.all p = true) :
    Carried value ↔ trim value = value := by
  constructor
  · intro hcarried
    exact trim_eq_self fun c hc => isWhiteSpace_of_isValueChar (hcarried c hc)
  · intro htrim
    rw [htrim, List.all_eq_true] at hall
    exact fun c hc => hp c (hall c hc)

end Credentials

section RoundTrip

variable {user : CompatUser} {host sni pbk sid label : String} {port : UInt16} {obfs : Option String}

/-- A host that is a part of a link of its own and of a query. -/
theorem host_iff : (Uri.hostText host.toList = true ∧ '%' ∉ host.toList) ∧ Carried host ↔
    ∀ c ∈ host.toList, Uri.isNameChar c = true ∧ c ≠ '&' := by
  constructor
  · rintro ⟨⟨hhost, hescape⟩, hcarried⟩ c hc
    have hbracket : host.toList.head? ≠ some '[' := by
      intro hhead
      have hmem : '[' ∈ host.toList := List.mem_of_head? hhead
      exact absurd (hcarried _ hmem) (by decide)
    rw [Uri.hostText, if_neg hbracket, Uri.allowed_iff hescape] at hhost
    exact ⟨hhost c hc, Uri.ne_of_class (hcarried c hc) rfl⟩
  · intro h
    have hname : ∀ c ∈ host.toList, Uri.isNameChar c = true := fun c hc => (h c hc).1
    have hescape : '%' ∉ host.toList := Uri.notMem_of_class hname rfl
    have hbracket : host.toList.head? ≠ some '[' := fun hhead =>
      Uri.ne_of_class (hname _ (List.mem_of_head? hhead)) (d := '[') rfl rfl
    refine ⟨⟨?_, hescape⟩, fun c hc => ?_⟩
    · rwa [Uri.hostText, if_neg hbracket, Uri.allowed_iff hescape]
    · simp [Uri.isValueChar, Uri.isQueryChar, Uri.isPathChar, Uri.isUserChar, h c hc]

private theorem newline_notMem {value : String} (h : Carried value) : '\n' ∉ value.toList :=
  Uri.notMem_of_class h rfl

private theorem newline_digits (n : Nat) : '\n' ∉ Nat.toDigits 10 n :=
  Uri.notMem_of_class Uri.isDigit_toDigits rfl

/-- What a link carries does not break its line. -/
theorem newline_put {scheme user : List Char} (hscheme : '\n' ∉ scheme)
    (huser : ∀ c ∈ user, Uri.isUserChar c = true) (hhost : Carried host)
    {ps : List (List Char × List Char)} (hnames : ∀ p ∈ ps, Uri.NameText p.1)
    (hvalues : ∀ p ∈ ps, ∀ c ∈ p.2, Uri.isValueChar c = true) :
    '\n' ∉ ShareLink.put scheme user host.toList (Nat.toDigits 10 port.toNat) (query ps)
      (percentEncodeLabel label).toList := by
  rw [ShareLink.notMem_put_iff (by decide), ShareLink.notMem_query_iff (by decide)]
  refine ⟨hscheme, Uri.notMem_of_class huser rfl, newline_notMem hhost, newline_digits _,
    fun p hp => ⟨?_, Uri.notMem_of_class (hvalues p hp) rfl⟩, ?_⟩
  · exact fun h => Uri.ne_of_class (hnames p hp _ h).1 (d := '\n') rfl rfl
  · exact Uri.notMem_of_allowed (allowed_percentEncodeLabel label) rfl (by decide) rfl

/-- Two links make a list of two lines. -/
theorem renderUriList_pair {ep₁ ep₂ : CompatEndpoint} {link₁ link₂ : String}
    (h₁ : renderUri user ep₁ = .ok link₁) (h₂ : renderUri user ep₂ = .ok link₂) :
    [ep₁, ep₂].mapM (renderUri user) = .ok [link₁, link₂] ∧
      ∃ body, renderUriList user [ep₁, ep₂] = .ok body ∧
        body.toList = link₁.toList ++ '\n' :: link₂.toList := by
  have hlinks : [ep₁, ep₂].mapM (renderUri user) = .ok [link₁, link₂] := by
    rw [List.mapM_cons, List.mapM_cons, h₁, h₂]
    rfl
  refine ⟨hlinks, _, congrArg _ hlinks, ?_⟩
  rw [String.toList_intercalate]
  simp [List.intercalate]

/-- For generated credentials and checked keys, the links and their list are read back exactly if
the host could be a host name of the URI syntax, key and short id have nothing to strip, and no
character of the host, the handshake name and the obfuscation password means anything in a query. -/
theorem linksReadBack_iff (user : CompatUser) (uuid : Vector UInt8 16) (password : Vector UInt8 24)
    (host handshake key shortId : String) (realityPort hysteriaPort : UInt16)
    (obfs : Option String) (hkey : validateRealityPublicKeyShape key = .ok ())
    (hshortId : validateRealityShortId shortId = .ok ()) :
    LinksReadBack { user with
        vlessUuid := generateUuidV4 uuid
        hysteria2Password := generateHysteria2Password password }
      (standardEndpoints host realityPort hysteriaPort key shortId handshake obfs) ↔
    (∀ c ∈ host.toList, Uri.isNameChar c = true ∧ c ≠ '&') ∧
      (trim key = key ∧ trim shortId = shortId) ∧
      Carried handshake ∧ ∀ pw ∈ obfs, Carried pw := by
  have hkeyIff : Carried key ↔ trim key = key :=
    carried_iff_trim (fun _ => isValueChar_of_base64) (all_base64_of_publicKeyShape hkey)
  have hshortIff : Carried shortId ↔ trim shortId = shortId :=
    carried_iff_trim (fun _ => isValueChar_of_isAsciiHexDigit) (all_hex_of_shortId hshortId)
  rw [← host_iff, ← hkeyIff, ← hshortIff]
  generalize huser : ({ user with
    vlessUuid := generateUuidV4 uuid
    hysteria2Password := generateHysteria2Password password } : CompatUser) = generated
  have huuid : ∀ c ∈ generated.vlessUuid.toList, Uri.isUserChar c = true := by
    rw [← huser]
    exact isUserChar_uuid uuid
  have hpassword : ∀ c ∈ generated.hysteria2Password.toList, Uri.isUserChar c = true := by
    rw [← huser]
    exact isUserChar_password password
  have hendpoints : standardEndpoints host realityPort hysteriaPort key shortId handshake obfs =
      [realityEndpoint host realityPort handshake key shortId "Reality",
        hysteriaEndpoint host hysteriaPort host obfs "Hysteria2"] := rfl
  rw [hendpoints]
  constructor
  · intro h
    obtain ⟨hhost, hsni, hpbk, hsid⟩ :=
      (read_reality_iff huuid).mp (h.read _ List.mem_cons_self)
    obtain ⟨-, hhostValue, hobfs⟩ :=
      (read_hysteria_iff hpassword).mp (h.read _ (List.mem_cons_of_mem _ List.mem_cons_self))
    exact ⟨⟨hhost, hhostValue⟩, ⟨hpbk, hsid⟩, hsni, hobfs⟩
  · rintro ⟨⟨hhost, hhostValue⟩, ⟨hpbk, hsid⟩, hsni, hobfs⟩
    refine ⟨?_, ?_⟩
    · rw [List.forall_mem_cons, List.forall_mem_singleton]
      exact ⟨(read_reality_iff huuid).mpr ⟨hhost, hsni, hpbk, hsid⟩,
        (read_hysteria_iff hpassword).mpr ⟨hhost, hhostValue, hobfs⟩⟩
    · obtain ⟨link₁, h₁, htext₁⟩ := render_reality generated host realityPort handshake key
        shortId "Reality"
      obtain ⟨link₂, h₂, htext₂⟩ := render_hysteria generated host hysteriaPort host obfs
        "Hysteria2"
      obtain ⟨hlinks, body, hbody, htext⟩ := renderUriList_pair h₁ h₂
      have hline₁ : '\n' ∉ link₁.toList := by
        rw [htext₁]
        exact newline_put (by decide) huuid hhostValue nameText_vless
          (values_vless_iff.mpr ⟨hsni, hpbk, hsid⟩)
      have hline₂ : '\n' ∉ link₂.toList := by
        rw [htext₂]
        exact newline_put (by decide) hpassword hhostValue nameText_hysteria
          (values_hysteria_iff.mpr ⟨hhostValue, hobfs⟩)
      refine ⟨_, body, hlinks, hbody, ?_⟩
      rw [htext]
      exact ShareLink.splitOn_eq_pair_iff.mpr ⟨⟨rfl, hline₁⟩, rfl, hline₂⟩

end RoundTrip

section Sample

def sampleMember : CompatUser where
  id := "user_1"
  name := "one"
  enabled := true
  vlessUuid := generateUuidV4 (.replicate 16 7)
  hysteria2Password := generateHysteria2Password (.replicate 24 7)
  subscriptionTokenHashHex := "00"
  createdAt := 0
  expiresAt := none

def zeroKey : String := "AAAAAAAAAAAAAAAAAAAAAAAAAAAAAAAAAAAAAAAAAAA"

theorem hostName_readBack :
    LinksReadBack sampleMember
      (standardEndpoints "vpn.example.com" 443 443 zeroKey "0a1b2c3d" "www.example.com"
        (some "0123abcd")) := by
  refine (linksReadBack_iff sampleMember (.replicate 16 7) (.replicate 24 7) "vpn.example.com"
    "www.example.com" zeroKey "0a1b2c3d" 443 443 (some "0123abcd") (by decide) (by decide)).mpr
    ⟨?_, ⟨by decide, by decide⟩, carried_of_all (by decide), ?_⟩
  · have hall : "vpn.example.com".toList.all (fun c => Uri.isNameChar c && c != '&') = true := by
      decide
    simpa using hall
  · intro pw hpw
    rw [← Option.some.inj hpw]
    exact carried_of_all (by decide)

/-- In the link to an IPv6 address its own colons are taken for the one in front of the port. -/
theorem ipv6_not_readBack :
    validateRealityPublicKeyShape zeroKey = .ok () ∧ validateRealityShortId "0a1b2c3d" = .ok () ∧
      ¬ LinksReadBack sampleMember
        (standardEndpoints "2001:db8::1" 443 443 zeroKey "0a1b2c3d" "www.example.com" none) := by
  refine ⟨by decide, by decide, fun h => ?_⟩
  have huuid : ∀ c ∈ sampleMember.vlessUuid.toList, Uri.isUserChar c = true :=
    isUserChar_uuid (.replicate 16 7)
  have hlink := h.read
    (realityEndpoint "2001:db8::1" 443 "www.example.com" zeroKey "0a1b2c3d" "Reality")
    List.mem_cons_self
  obtain ⟨⟨hhost, -⟩, -⟩ := (read_reality_iff huuid).mp hlink
  exact absurd hhost (by decide)

end Sample

end Vpn1.Compat
