import Vpn1.Lib.Fallible
import Vpn1.Compat.Links
import Vpn1.Compat.Server

/-! The subscription service: which user a request is answered for, and with what. -/

namespace Vpn1.Compat

/-- `hashToken` is the hex SHA-256 of a token. -/
def verifyToken (hashToken : String → String) (token storedHashHex : String) : Bool :=
  hashToken token == storedHashHex

/-- The scan keeps the last active match. -/
def findUserByToken (hashToken : String → String) (users : List CompatUser) (token : String)
    (now : Int64) : Option CompatUser :=
  users.foldl (fun found u =>
    if verifyToken hashToken token u.subscriptionTokenHashHex && u.isActive now then some u
    else found) none

private theorem foldl_mem {p : CompatUser → Bool} {users : List CompatUser}
    {found : Option CompatUser} {u : CompatUser}
    (h : users.foldl (fun found u => if p u then some u else found) found = some u) :
    found = some u ∨ u ∈ users ∧ p u = true := by
  induction users generalizing found with
  | nil => exact .inl h
  | cons v users ih =>
    rcases ih h with hv | ⟨hu, hp⟩
    · by_cases hpv : p v
      · obtain rfl : v = u := by simpa [hpv] using hv
        exact .inr ⟨List.mem_cons_self, hpv⟩
      · exact .inl (by simpa [hpv] using hv)
    · exact .inr ⟨List.mem_cons_of_mem _ hu, hp⟩

theorem findUserByToken_mem {hashToken : String → String} {users : List CompatUser} {token : String}
    {now : Int64} {u : CompatUser} (h : findUserByToken hashToken users token now = some u) :
    u ∈ users ∧ u.isActive now = true := by
  rcases foldl_mem h with hnone | ⟨hu, hp⟩
  · cases hnone
  · exact ⟨hu, (Bool.and_eq_true _ _ ▸ hp).2⟩

/-- Expiry only takes users away: who is active later was active before. -/
theorem CompatUser.isActive_of_le {u : CompatUser} {now later : Int64} (hle : now ≤ later)
    (h : u.isActive later = true) : u.isActive now = true := by
  cases hexp : u.expiresAt with
  | none => simpa [CompatUser.isActive, hexp] using h
  | some exp =>
    simp only [CompatUser.isActive, hexp, Option.map_some, Option.getD_some, Bool.and_eq_true,
      decide_eq_true_eq] at h ⊢
    exact ⟨h.1, Int64.lt_of_le_of_lt hle h.2⟩

/-- sing-box running `doc` accepts the VLESS credential of `u`. -/
def AcceptsVless (doc : Json) (u : CompatUser) : Prop :=
  ∃ entries, acceptedVless doc = some (.arr entries) ∧ vlessUser u ∈ entries

/-- sing-box running `doc` accepts the Hysteria2 credential of `u`. -/
def AcceptsHysteria (doc : Json) (u : CompatUser) : Prop :=
  ∃ entries, acceptedHysteria doc = some (.arr entries) ∧ hysteriaUser u ∈ entries

/-- A rendered document accepts a credential exactly if some active user has it. -/
theorem acceptsVless_render {users : List CompatUser} {reality : RealityServerParams}
    {hysteria : Hysteria2ServerParams} {ports : ServerPorts} {now : Int64} {u : CompatUser} :
    AcceptsVless (renderSingboxServerConfig users reality hysteria ports now) u ↔
      ∃ v ∈ users, v.isActive now = true ∧ vlessUser v = vlessUser u := by
  simp [AcceptsVless, accepted_render, and_assoc]

theorem acceptsHysteria_render {users : List CompatUser} {reality : RealityServerParams}
    {hysteria : Hysteria2ServerParams} {ports : ServerPorts} {now : Int64} {u : CompatUser} :
    AcceptsHysteria (renderSingboxServerConfig users reality hysteria ports now) u ↔
      ∃ v ∈ users, v.isActive now = true ∧ hysteriaUser v = hysteriaUser u := by
  simp [AcceptsHysteria, accepted_render, and_assoc]

section Credentials

/-- What a client shows to be let in. -/
inductive Credential
  | vless (uuid : String)
  | hysteria2 (password : String)
  deriving DecidableEq, Repr

def Credential.text : Credential → String
  | .vless uuid => uuid
  | .hysteria2 password => password

def Credential.scheme : Credential → String
  | .vless _ => "vless"
  | .hysteria2 _ => "hysteria2"

def Credential.heldBy (u : CompatUser) : Credential → Bool
  | .vless uuid => u.vlessUuid == uuid
  | .hysteria2 password => u.hysteria2Password == password

/-- sing-box running `doc` lets a client in that shows this credential. -/
def Credential.acceptedBy (doc : Json) : Credential → Prop
  | .vless uuid => ∃ entries, acceptedVless doc = some (.arr entries) ∧
    ∃ entry ∈ entries, stringAt "uuid" entry = some uuid
  | .hysteria2 password => ∃ entries, acceptedHysteria doc = some (.arr entries) ∧
    ∃ entry ∈ entries, stringAt "password" entry = some password

theorem acceptedBy_render {cred : Credential} {users : List CompatUser}
    {reality : RealityServerParams} {hysteria : Hysteria2ServerParams} {ports : ServerPorts}
    {now : Int64} :
    cred.acceptedBy (renderSingboxServerConfig users reality hysteria ports now) ↔
      ∃ u ∈ users, u.isActive now = true ∧ cred.heldBy u = true := by
  cases cred with
  | vless uuid =>
    simp [Credential.acceptedBy, Credential.heldBy, accepted_render, vlessUser, stringAt, asString,
      and_assoc]
  | hysteria2 password =>
    simp [Credential.acceptedBy, Credential.heldBy, accepted_render, hysteriaUser, stringAt,
      asString, and_assoc]

def outboundCredential (outbound : Json) : Option Credential :=
  if stringAt "type" outbound = some "vless" then (stringAt "uuid" outbound).map .vless
  else if stringAt "type" outbound = some "hysteria2" then
    (stringAt "password" outbound).map .hysteria2
  else none

def documentCredentials (doc : Json) : List Credential :=
  match doc.field? "outbounds" with
  | some (.arr outbounds) => outbounds.filterMap outboundCredential
  | _ => []

/-- `line` is a link to `ep` with this credential: `scheme://credential@host:port?…`. -/
def Credential.LinksTo (cred : Credential) (ep : CompatEndpoint) (line : String) : Prop :=
  ∃ rest, line =
    cred.scheme ++ "://" ++ cred.text ++ "@" ++ ep.host ++ ":" ++ ep.port.toNat.repr ++ "?" ++ rest

def linkCredential (line : List Char) : Option Credential := do
  let link ← Uri.read line
  let user ← link.user.bind Utf8.text?
  if link.scheme = "vless".toList then some (.vless user)
  else if link.scheme = "hysteria2".toList then some (.hysteria2 user)
  else none

end Credentials

section Service

structure SubQuery where
  format : Option String
  profile : Option String
  deriving DecidableEq, Repr

inductive Body
  | text (s : String)
  | json (doc : Json)
  deriving DecidableEq

structure Response where
  status : Nat
  contentType : String
  body : Body
  deriving DecidableEq

def plainText (status : Nat) (message : String) : Response :=
  ⟨status, "text/plain; charset=utf-8", .text message⟩

def notFound : Response := plainText 404 "not found"

def respond (endpoints : List CompatEndpoint) (query : SubQuery) (user : CompatUser) : Response :=
  let format := query.format.getD "singbox"
  let profile := (query.profile.bind SelectionProfile.parse).getD .reliability
  if format = "singbox" then
    match renderSingboxClientSubscriptionWithProfile user endpoints profile with
    | .ok doc => ⟨200, "application/json", .json doc⟩
    | .error _ => plainText 500 "render error"
  else if format = "uri" ∨ format = "hiddify" then
    match renderUriList user endpoints with
    | .ok body => plainText 200 body
    | .error _ => plainText 500 "render error"
  else plainText 400 "unknown format"

/-- `get_subscription` past the rate limiter, over the outcome of loading the store. -/
def getSubscription (hashToken : String → String) (endpoints : List CompatEndpoint)
    (store : Except CompatError (List CompatUser)) (token : String) (query : SubQuery)
    (now : Int64) : Response :=
  if token = "" ∨ 128 < token.utf8ByteSize then notFound
  else
    match store with
    | .error _ => plainText 500 "internal error"
    | .ok users =>
      match findUserByToken hashToken users token now with
      | none => notFound
      | some user => respond endpoints query user

end Service

section Delivery

/-- A link in a list is one to its endpoint, with a credential the server accepts. -/
def CarriesAccepted (server : Json) (ep : CompatEndpoint) (line : String) : Prop :=
  ∃ cred : Credential, cred.acceptedBy server ∧ cred.LinksTo ep line ∧
    ((∀ c ∈ cred.text.toList, Uri.isUserChar c = true) →
      ∀ found, linkCredential line.toList = some found → found = cred)

/-- Every credential in a response is one that the server document accepts: those of the outbounds of
a document, one for each endpoint, and those of a list of links. Any other response is a fixed text. -/
structure Delivered (endpoints : List CompatEndpoint) (server : Json) (response : Response) :
    Prop where
  document : ∀ doc, response.body = .json doc →
    (documentCredentials doc).length = endpoints.length ∧
      ∀ cred ∈ documentCredentials doc, cred.acceptedBy server
  links : ∀ text, response.status = 200 → response.body = .text text →
    ∃ lines, text = "\n".intercalate lines ∧ List.Forall₂ (CarriesAccepted server) endpoints lines
  refused : response.status ≠ 200 →
    response ∈ [notFound, plainText 500 "render error", plainText 400 "unknown format"]

variable {u : CompatUser} {ep : CompatEndpoint} {endpoints : List CompatEndpoint} {server : Json}
  {now : Int64}

def endpointCredential (u : CompatUser) (ep : CompatEndpoint) : Credential :=
  match ep.publicParameters with
  | .reality .. => .vless u.vlessUuid
  | .hysteria2 _ => .hysteria2 u.hysteria2Password

private theorem heldBy_endpointCredential (u : CompatUser) (ep : CompatEndpoint) :
    (endpointCredential u ep).heldBy u = true := by
  unfold endpointCredential
  split <;> simp [Credential.heldBy]

private theorem outboundCredential_client (u : CompatUser) (ep : CompatEndpoint) :
    outboundCredential (clientOutbound u ep) = some (endpointCredential u ep) := by
  obtain ⟨id, transport, host, port, serverName, label, parameters⟩ := ep
  cases parameters with
  | reality pbk sid fp =>
    simp [outboundCredential, clientOutbound, stringAt, asString, endpointCredential]
  | hysteria2 obfs =>
    cases obfs <;>
      simp [outboundCredential, clientOutbound, stringAt, asString, endpointCredential,
        Json.setField, Json.assignField]

/-- The document has the credential of each endpoint, and the groups behind them have none. -/
theorem documentCredentials_render {profile : SelectionProfile} {doc : Json}
    (h : renderSingboxClientSubscriptionWithProfile u endpoints profile = .ok doc) :
    documentCredentials doc = endpoints.map (endpointCredential u) := by
  obtain rfl := Except.ok.inj h
  have hclient : (endpoints.map (clientOutbound u)).filterMap outboundCredential =
      endpoints.map (endpointCredential u) := by
    rw [List.filterMap_map, ← List.filterMap_eq_map]
    congr 1
    funext ep
    exact outboundCredential_client u ep
  simp [documentCredentials, hclient, outboundCredential, stringAt, asString]

private theorem join_front (scheme text host digits first : String) (rest : List String) :
    String.join ((scheme ++ "://") :: text :: "@" :: host :: ":" :: digits :: ("?" ++ first) :: rest) =
      scheme ++ "://" ++ text ++ "@" ++ host ++ ":" ++ digits ++ "?" ++
        String.join (first :: rest) := by
  simp only [String.join_cons, String.append_assoc]

private theorem linksTo_render {line : String} (h : renderUri u ep = .ok line) :
    (endpointCredential u ep).LinksTo ep line := by
  obtain ⟨id, transport, host, port, serverName, label, parameters⟩ := ep
  cases transport with
  | vlessReality =>
    cases parameters with
    | hysteria2 obfs => cases h
    | reality pbk sid fp =>
      obtain rfl := Except.ok.inj h
      exact ⟨_, join_front "vless" u.vlessUuid host port.toNat.repr
        "encryption=none&security=reality&sni=" _⟩
  | hysteria2 =>
    cases parameters with
    | reality pbk sid fp => cases h
    | hysteria2 obfs =>
      obtain rfl := Except.ok.inj h
      exact ⟨_, join_front "hysteria2" u.hysteria2Password host port.toNat.repr "sni=" _⟩

private theorem eq_of_linkCredential {cred found : Credential} {line : String}
    (hline : cred.LinksTo ep line) (huser : ∀ c ∈ cred.text.toList, Uri.isUserChar c = true)
    (hfound : linkCredential line.toList = some found) : found = cred := by
  obtain ⟨rest, rfl⟩ := hline
  simp only [linkCredential, Option.bind_eq_bind, Option.bind_eq_some_iff] at hfound
  obtain ⟨link, hread, user, ⟨bytes, hbytes, htext⟩, hscheme⟩ := hfound
  have hfront : (cred.scheme ++ "://" ++ cred.text ++ "@" ++ ep.host ++ ":" ++ ep.port.toNat.repr ++
      "?" ++ rest).toList = cred.scheme.toList ++ [':', '/', '/'] ++ (cred.text.toList ++
        '@' :: (ep.host ++ ":" ++ ep.port.toNat.repr ++ "?" ++ rest).toList) := by
    simp
  have hcolon : ':' ∉ cred.scheme.toList := by
    cases cred <;> simp only [Credential.scheme] <;> decide
  rw [hfront] at hread
  obtain ⟨hs, hu⟩ := Uri.user_of_read hcolon huser hread
  have huserText : user = cred.text := by
    rw [Utf8.text?_eq_some_iff] at htext
    rw [hbytes, htext] at hu
    exact String.toList_inj.mp (Utf8.bytes_injective (Option.some.inj hu))
  rw [hs, huserText] at hscheme
  cases cred <;> simpa [Credential.scheme, Credential.text] using hscheme.symm

private theorem forall₂_of_mapM {lines : List String}
    (h : endpoints.mapM (renderUri u) = .ok lines) :
    List.Forall₂ (fun ep line => renderUri u ep = .ok line) endpoints lines := by
  induction endpoints generalizing lines with
  | nil =>
    obtain rfl := Except.ok.inj h
    exact .nil
  | cons ep endpoints ih =>
    rw [List.mapM_cons] at h
    cases hline : renderUri u ep with
    | error e => simp [hline] at h
    | ok line =>
      cases hrest : endpoints.mapM (renderUri u) with
      | error e => simp [hline, hrest] at h
      | ok rest =>
        obtain rfl : line :: rest = lines := by
          simpa [hline, hrest, pure, Except.pure] using h
        exact .cons hline (ih hrest)

private theorem respond_delivered (query : SubQuery)
    (haccepted : ∀ cred : Credential, cred.heldBy u = true → cred.acceptedBy server) :
    Delivered endpoints server (respond endpoints query u) := by
  have howned (ep : CompatEndpoint) : (endpointCredential u ep).acceptedBy server :=
    haccepted _ (heldBy_endpointCredential u ep)
  unfold respond
  dsimp only
  split_ifs with hsingbox huri
  · cases hdoc : renderSingboxClientSubscriptionWithProfile u endpoints
      ((query.profile.bind SelectionProfile.parse).getD .reliability) with
    | error e => exact ⟨by simp [plainText], by simp [plainText], by simp⟩
    | ok doc =>
      refine ⟨?_, by simp, by simp⟩
      intro found hfound
      obtain rfl := Body.json.inj hfound
      rw [documentCredentials_render hdoc]
      exact ⟨List.length_map .., List.forall_mem_map.mpr fun ep _ => howned ep⟩
  · cases hlist : renderUriList u endpoints with
    | error e => exact ⟨by simp [plainText], by simp [plainText], by simp⟩
    | ok body =>
      refine ⟨by simp [plainText], ?_, by simp [plainText]⟩
      intro text _ htext
      obtain rfl := Body.text.inj htext
      obtain ⟨lines, hlines, rfl⟩ : ∃ lines, endpoints.mapM (renderUri u) = .ok lines ∧
          "\n".intercalate lines = body := by
        cases hlines : endpoints.mapM (renderUri u) with
        | error e => simp [renderUriList, hlines, Except.map] at hlist
        | ok lines => exact ⟨lines, rfl, by simpa [renderUriList, hlines, Except.map] using hlist⟩
      refine ⟨lines, rfl, (forall₂_of_mapM hlines).imp fun ep line hline => ?_⟩
      have hto := linksTo_render hline
      exact ⟨endpointCredential u ep, howned ep, hto,
        fun huser _ hfound => eq_of_linkCredential hto huser hfound⟩
  · exact ⟨by simp [plainText], by simp [plainText], by simp⟩

/-- What is delivered from a store is accepted by the server that is rendered from it. -/
theorem getSubscription_delivered {hashToken : String → String} {users : List CompatUser}
    {token : String} {query : SubQuery} (reality : RealityServerParams)
    (hysteria : Hysteria2ServerParams) (ports : ServerPorts) :
    Delivered endpoints (renderSingboxServerConfig users reality hysteria ports now)
      (getSubscription hashToken endpoints (.ok users) token query now) := by
  have hnotFound (server : Json) : Delivered endpoints server notFound :=
    ⟨by simp [notFound, plainText], by simp [notFound, plainText], by simp⟩
  unfold getSubscription
  split_ifs
  · exact hnotFound _
  · dsimp only
    cases hfound : findUserByToken hashToken users token now with
    | none => exact hnotFound _
    | some u =>
      obtain ⟨hu, hactive⟩ := findUserByToken_mem hfound
      exact respond_delivered query fun cred hcred =>
        acceptedBy_render.mpr ⟨u, hu, hactive, hcred⟩

end Delivery

section OnlyActive

variable {hashToken : String → String} {token : String} {now : Int64}

private theorem foldl_filter {p q : CompatUser → Bool} (users : List CompatUser)
    (found : Option CompatUser) :
    (users.filter q).foldl (fun found u => if p u && q u then some u else found) found =
      users.foldl (fun found u => if p u && q u then some u else found) found := by
  induction users generalizing found with
  | nil => rfl
  | cons u users ih =>
    by_cases hq : q u = true
    · rw [List.filter_cons_of_pos hq, List.foldl_cons, List.foldl_cons, ih]
    · have hskip : (if p u && q u then some u else found) = found := by simp [hq]
      rw [List.filter_cons_of_neg hq, List.foldl_cons, hskip, ih]

private theorem findUserByToken_filter (users : List CompatUser) :
    findUserByToken hashToken (users.filter (·.isActive now)) token now =
      findUserByToken hashToken users token now :=
  foldl_filter users none

theorem findUserByToken_eq_none {users : List CompatUser}
    (h : ∀ u ∈ users, u.isActive now = true → hashToken token ≠ u.subscriptionTokenHashHex) :
    findUserByToken hashToken users token now = none := by
  cases hfound : findUserByToken hashToken users token now with
  | none => rfl
  | some u =>
    rcases foldl_mem hfound with hnone | ⟨hu, hp⟩
    · cases hnone
    · rw [Bool.and_eq_true] at hp
      exact absurd (by simpa [verifyToken] using hp.1) (h u hu hp.2)

/-- Stores with the same active users, in order, cannot be told apart from outside; a token of
nobody active is as good as an unknown one; and what is delivered is accepted. -/
theorem onlyActive_matter {us vs : List CompatUser} {now : Int64}
    (hactive : us.filter (·.isActive now) = vs.filter (·.isActive now))
    (hashToken : String → String) (endpoints : List CompatEndpoint)
    (reality : RealityServerParams) (hysteria : Hysteria2ServerParams) (ports : ServerPorts) :
    renderSingboxServerConfig us reality hysteria ports now =
        renderSingboxServerConfig vs reality hysteria ports now ∧
      ∀ token query,
        getSubscription hashToken endpoints (.ok us) token query now =
            getSubscription hashToken endpoints (.ok vs) token query now ∧
          ((∀ u ∈ us, u.isActive now = true → hashToken token ≠ u.subscriptionTokenHashHex) →
            getSubscription hashToken endpoints (.ok us) token query now = notFound) ∧
          Delivered endpoints (renderSingboxServerConfig us reality hysteria ports now)
            (getSubscription hashToken endpoints (.ok us) token query now) := by
  constructor
  · simp only [renderSingboxServerConfig, hactive]
  · intro token query
    refine ⟨?_, fun hnobody => ?_, getSubscription_delivered reality hysteria ports⟩
    · have hfound : findUserByToken hashToken us token now =
          findUserByToken hashToken vs token now := by
        rw [← findUserByToken_filter us, ← findUserByToken_filter vs, hactive]
      simp only [getSubscription, hfound]
    · unfold getSubscription
      split_ifs
      · rfl
      · simp only [findUserByToken_eq_none hnobody]

def activeUser : CompatUser :=
  ⟨"user_1", "one", true, "11111111-1111-4111-8111-111111111111", "pw", "00", 0, none⟩

def formerUser : CompatUser :=
  ⟨"user_2", "two", true, "22222222-2222-4222-8222-222222222222", "pw2", "00", 0, some 50⟩

def exampleEndpoints : List CompatEndpoint :=
  standardEndpoints "vpn.example" 443 8443 "pbk" "0a1b2c3d" "www.example" (some "obfs")

def exampleServer (users : List CompatUser) : Json :=
  renderSingboxServerConfig users ⟨"", "", ["0a1b2c3d"], "www.example", 443⟩
    ⟨"", "", some "obfs", none, none, none⟩ ⟨443, 8443⟩ 100

theorem onlyActive_matter_sample :
    [activeUser, formerUser].filter (·.isActive 100) = [activeUser].filter (·.isActive 100) ∧
      ∀ query ∈ [⟨none, none⟩, ⟨some "uri", none⟩],
        let response := getSubscription (fun _ => "00") exampleEndpoints
          (.ok [activeUser, formerUser]) "t" query 100
        response.status = 200 ∧
          response = getSubscription (fun _ => "00") exampleEndpoints (.ok [activeUser]) "t" query
            100 ∧
          Delivered exampleEndpoints (exampleServer [activeUser, formerUser]) response := by
  have hactive : [activeUser, formerUser].filter (·.isActive 100) =
      [activeUser].filter (·.isActive 100) := by decide
  have hstatus : ∀ query ∈ [(⟨none, none⟩ : SubQuery), ⟨some "uri", none⟩],
      (getSubscription (fun _ => "00") exampleEndpoints (.ok [activeUser, formerUser]) "t" query
        100).status = 200 := by decide +kernel
  have hmatter := onlyActive_matter hactive (fun _ => "00") exampleEndpoints
    ⟨"", "", ["0a1b2c3d"], "www.example", 443⟩ ⟨"", "", some "obfs", none, none, none⟩ ⟨443, 8443⟩
  refine ⟨hactive, fun query hquery => ⟨hstatus query hquery, ?_⟩⟩
  obtain ⟨hsame, -, hdelivered⟩ := hmatter.2 "t" query
  exact ⟨hsame, hdelivered⟩

end OnlyActive

end Vpn1.Compat
