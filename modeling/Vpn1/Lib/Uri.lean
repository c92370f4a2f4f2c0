import Vpn1.Lib.ShareLink
import Vpn1.Lib.Utf8

/-! URIs with an authority, by the generic syntax: which texts are one, its parts, and what they
mean once their escapes are read. -/

namespace Uri

open ShareLink (hostChar valueChar cut put query takeWhile_append_cons dropWhile_append_cons
  forall_bne)

section Characters

def hexValue (c : Char) : Option Nat :=
  if '0' ≤ c ∧ c ≤ '9' then some (c.toNat - 48)
  else if 'a' ≤ c ∧ c ≤ 'f' then some (c.toNat - 97 + 10)
  else if 'A' ≤ c ∧ c ≤ 'F' then some (c.toNat - 65 + 10)
  else none

def isUnreserved (c : Char) : Bool := c.isAlphanum || "-._~".toList.contains c

def isSubDelim (c : Char) : Bool := "!$&'()*+,;=".toList.contains c

def isNameChar (c : Char) : Bool := isUnreserved c || isSubDelim c

def isUserChar (c : Char) : Bool := isNameChar c || c == ':'

def isPathChar (c : Char) : Bool := isUserChar c || c == '@' || c == '/'

def isQueryChar (c : Char) : Bool := isPathChar c || c == '?'

/-- Characters of one value among others in a query. -/
def isValueChar (c : Char) : Bool := isQueryChar c && c != '&'

theorem lt_of_isQueryChar {c : Char} (hc : isQueryChar c = true) : c.toNat < 128 := by
  have hlist {l : List Char} (hl : l.all (·.toNat < 128) = true) (hmem : l.contains c = true) :
      c.toNat < 128 := by
    rw [List.all_eq_true] at hl
    simpa using hl c (List.contains_iff_mem.mp hmem)
  simp only [isQueryChar, isPathChar, isUserChar, isNameChar, isUnreserved, isSubDelim,
    Bool.or_eq_true, beq_iff_eq] at hc
  rcases hc with ((((((hc | hc) | hc) | rfl) | rfl) | rfl) | rfl)
  · exact Utf8.lt_of_isAlphanum hc
  · exact hlist (by decide) hc
  · exact hlist (by decide) hc
  all_goals decide

theorem lt_of_isValueChar {c : Char} (hc : isValueChar c = true) : c.toNat < 128 :=
  lt_of_isQueryChar ((Bool.and_eq_true _ _).mp hc).1

/-- Characters that may stand as they are, and escapes. -/
def allowed (p : Char → Bool) : List Char → Bool
  | [] => true
  | '%' :: a :: b :: rest => (hexValue a).isSome && (hexValue b).isSome && allowed p rest
  | c :: rest => p c && allowed p rest

/-- The bytes that a text with escapes stands for. -/
def decode : List Char → Option (List UInt8)
  | [] => some []
  | '%' :: a :: b :: rest =>
    match hexValue a, hexValue b with
    | some m, some n => (decode rest).map (UInt8.ofNat (m * 16 + n) :: ·)
    | _, _ => none
  | '%' :: _ => none
  | c :: rest => (decode rest).map (String.utf8EncodeChar c ++ ·)

end Characters

section Syntax

structure Parts where
  scheme : List Char
  user : Option (List Char)
  host : List Char
  port : Option (List Char)
  path : List Char
  query : Option (List Char)
  fragment : Option (List Char)

/-- What stands behind the first separator. -/
def after (sep : Char) (text : List Char) : Option (List Char) :=
  match text.dropWhile (· != sep) with
  | [] => none
  | _ :: rest => some rest

/-- A literal address stands in brackets; a name has no colon. -/
def splitHost (text : List Char) : Option (List Char × List Char) :=
  if text.head? = some '[' then
    (after ']' text).map fun rest => (text.takeWhile (· != ']') ++ [']'], rest)
  else some (text.takeWhile (· != ':'), text.dropWhile (· != ':'))

/-- Behind the host there is nothing or a port. -/
def portOf : List Char → Option (Option (List Char))
  | [] => some none
  | c :: digits => if c = ':' then some (some digits) else none

def schemeText (scheme : List Char) : Bool :=
  match scheme with
  | [] => false
  | c :: rest => c.isAlpha && rest.all fun c => c.isAlphanum || "+-.".toList.contains c

/-- What is inside the brackets is not looked into any further. -/
def hostText (host : List Char) : Bool :=
  if host.head? = some '[' then
    host.getLast? = some ']' && (host.tail.dropLast).all isUserChar
  else allowed isNameChar host

def Parts.wellFormed (parts : Parts) : Bool :=
  schemeText parts.scheme && parts.user.all (allowed isUserChar) && hostText parts.host &&
    parts.port.all (·.all Char.isDigit) && allowed isPathChar parts.path &&
    parts.query.all (allowed isQueryChar) && parts.fragment.all (allowed isQueryChar)

/-- `scheme "://" [user "@"] host [":" port] path ["?" query] ["#" fragment]` -/
def split (text : List Char) : Option Parts :=
  ((text.dropWhile (· != ':')).dropPrefix? [':', '/', '/']).bind fun rest =>
    let authority := rest.takeWhile hostChar
    let tail := rest.dropWhile hostChar
    (splitHost ((after '@' authority).getD authority)).bind fun cutHost =>
      (portOf cutHost.2).map fun port => {
        scheme := text.takeWhile (· != ':')
        user := (after '@' authority).map fun _ => authority.takeWhile (· != '@')
        host := cutHost.1
        port := port
        path := (cut tail).takeWhile (· != '?')
        query := after '?' (cut tail)
        fragment := after '#' tail }

def parse (text : List Char) : Option Parts := (split text).filter Parts.wellFormed

structure Content where
  scheme : List Char
  user : Option (List UInt8)
  host : List UInt8
  port : Option Nat
  path : List UInt8
  params : List (List UInt8 × List UInt8)
  label : Option (List UInt8)
  deriving DecidableEq

/-- The value of the first parameter with a name. -/
def Content.param? (name : List UInt8) (c : Content) : Option (List UInt8) := c.params.lookup name

/-- A name and a value around the first `=`. -/
def pair (piece : List Char) : Option (List UInt8 × List UInt8) := do
  return (← decode (piece.takeWhile (· != '=')), ← decode ((after '=' piece).getD []))

def params (text : List Char) : Option (List (List UInt8 × List UInt8)) :=
  (text.splitOn '&').mapM pair

def portNumber (digits : List Char) : Option Nat :=
  if digits = [] then none else some (Nat.ofDigitChars 10 digits 0)

def Parts.read (parts : Parts) : Option Content := do
  return {
    scheme := parts.scheme
    user := ← parts.user.mapM decode
    host := ← decode parts.host
    port := parts.port.bind portNumber
    path := ← decode parts.path
    params := (← parts.query.mapM params).getD []
    label := ← parts.fragment.mapM decode }

def read (text : List Char) : Option Content := (parse text).bind Parts.read

end Syntax

section Decoding

variable {p : Char → Bool} {l v rest : List Char} {bs : List UInt8} {c d : Char}

theorem ne_of_class (hc : p c = true) (hd : p d = false) : c ≠ d := by
  rintro rfl
  rw [hd] at hc
  cases hc

theorem notMem_of_class (hl : ∀ c ∈ l, p c = true) (hd : p d = false) : d ∉ l := by
  intro hmem
  exact ne_of_class (hl d hmem) hd rfl

theorem length_bytes_lt (c : Char) (l : List Char) :
    (Utf8.bytes l).length < (Utf8.bytes (c :: l)).length := by
  have hpos := List.length_pos_iff.mpr fun h =>
    String.utf8EncodeChar_ne_nil (h : String.utf8EncodeChar c = [])
  rw [Utf8.bytes_cons, List.length_append]
  omega

theorem decode_cons_of_ne (hc : c ≠ '%') :
    decode (c :: rest) = (decode rest).map (String.utf8EncodeChar c ++ ·) := by
  rw [decode.eq_4]
  · exact fun _ _ _ h => absurd h hc
  · exact hc

theorem allowed_cons_of_ne (hc : c ≠ '%') : allowed p (c :: rest) = (p c && allowed p rest) := by
  rw [allowed.eq_3]
  exact fun _ _ _ h => absurd h hc

theorem length_decode_le (h : decode l = some bs) : bs.length ≤ (Utf8.bytes l).length := by
  fun_induction decode l generalizing bs with
  | case1 => simp_all
  | case2 a b rest m n hm hn ih =>
    obtain ⟨w, hw, rfl⟩ := Option.map_eq_some_iff.mp h
    have hle := ih hw
    have hb := length_bytes_lt b rest
    have ha := length_bytes_lt a (b :: rest)
    have hescape := length_bytes_lt '%' (a :: b :: rest)
    rw [List.length_cons]
    omega
  | case3 => cases h
  | case4 => cases h
  | case5 c rest _ _ ih =>
    obtain ⟨w, hw, rfl⟩ := Option.map_eq_some_iff.mp h
    have hle := ih hw
    rw [Utf8.bytes_cons, List.length_append, List.length_append]
    omega

/-- A text stands for itself exactly if nothing in it is escaped. -/
theorem decode_eq_bytes_iff (l : List Char) : decode l = some (Utf8.bytes l) ↔ '%' ∉ l := by
  fun_induction decode l with
  | case1 => simp
  | case2 a b rest m n hm hn ih =>
    simp only [List.mem_cons, true_or, not_true, iff_false]
    -- an escape is longer than the byte it stands for
    intro h
    obtain ⟨w, hw, heq⟩ := Option.map_eq_some_iff.mp h
    have hlen := congrArg List.length heq
    have hle := length_decode_le hw
    have hb := length_bytes_lt b rest
    have ha := length_bytes_lt a (b :: rest)
    have hescape := length_bytes_lt '%' (a :: b :: rest)
    rw [List.length_cons] at hlen
    omega
  | case3 => simp
  | case4 => simp
  | case5 c rest _ hne ih =>
    have hc : '%' ≠ c := fun h => hne h.symm
    rw [Utf8.bytes_cons, Option.map_eq_some_iff]
    simp only [List.append_cancel_left_eq, exists_eq_right, ih, List.mem_cons, hc, false_or]

theorem eq_of_decode_of_prefix (hcut : v <+: l) (h : decode v = some (Utf8.bytes l)) :
    v = l ∧ '%' ∉ l := by
  obtain ⟨t, rfl⟩ := hcut
  have hle := length_decode_le h
  cases t with
  | nil =>
    rw [List.append_nil] at h ⊢
    exact ⟨rfl, (decode_eq_bytes_iff v).mp h⟩
  | cons c t =>
    have hpos := length_bytes_lt c t
    rw [Utf8.bytes_append, List.length_append] at hle
    omega

theorem decode_takeWhile_iff (hc : p c = false) :
    decode ((v ++ c :: rest).takeWhile p) = some (Utf8.bytes v) ↔
      (∀ x ∈ v, p x = true) ∧ '%' ∉ v := by
  constructor
  · intro h
    have hcut : (v ++ c :: rest).takeWhile p <+: v := by
      rw [List.takeWhile_append]
      split_ifs with hlen
      · simp [hc]
      · exact List.takeWhile_prefix p
    obtain ⟨heq, hescape⟩ := eq_of_decode_of_prefix hcut h
    refine ⟨fun x hx => ?_, hescape⟩
    rw [← heq] at hx
    exact List.mem_takeWhile_imp hx
  · rintro ⟨hp, hescape⟩
    rw [List.takeWhile_append_of_pos hp]
    simpa [hc] using (decode_eq_bytes_iff v).mpr hescape

theorem allowed_iff (hl : '%' ∉ l) : allowed p l = true ↔ ∀ c ∈ l, p c = true := by
  fun_induction allowed p l with
  | case1 => simp
  | case2 => simp at hl
  | case3 c rest _ ih =>
    rw [List.mem_cons, not_or] at hl
    rw [Bool.and_eq_true, ih hl.2, List.forall_mem_cons]

theorem notMem_of_allowed (hl : allowed p l = true) (hd : p d = false) (hescape : d ≠ '%')
    (hhex : hexValue d = none) : d ∉ l := by
  fun_induction allowed p l with
  | case1 => simp
  | case2 a b rest ih =>
    rw [Bool.and_eq_true, Bool.and_eq_true] at hl
    have hne {x : Char} (hx : (hexValue x).isSome = true) : d ≠ x := by
      rintro rfl
      rw [hhex] at hx
      cases hx
    simp only [List.mem_cons, not_or]
    exact ⟨hescape, hne hl.1.1, hne hl.1.2, ih hl.2⟩
  | case3 c rest _ ih =>
    rw [Bool.and_eq_true] at hl
    rw [List.mem_cons, not_or]
    exact ⟨(ne_of_class hl.1 hd).symm, ih hl.2⟩

end Decoding

section Authority

variable {host digits l rest : List Char} {d : Char}

theorem after_append (h : d ∉ l) : after d (l ++ d :: rest) = some rest := by
  unfold after
  rw [dropWhile_append_cons (forall_bne h) (bne_self_eq_false d)]

theorem append_of_after (h : after d l = some rest) :
    l = l.takeWhile (· != d) ++ d :: rest := by
  have hsplit := List.takeWhile_append_dropWhile (p := (· != d)) (l := l)
  unfold after at h
  cases hdrop : l.dropWhile (· != d) with
  | nil => simp [hdrop] at h
  | cons c t =>
    have hc : c = d := by
      have := List.head_dropWhile_not (fun x => x != d) (l := l) (by simp [hdrop])
      simpa [hdrop] using this
    rw [hdrop] at h hsplit
    obtain rfl : t = rest := Option.some.inj h
    rw [hc] at hsplit
    exact hsplit.symm

theorem append_of_splitHost {behind : List Char} (h : splitHost l = some (host, behind)) :
    l = host ++ behind := by
  unfold splitHost at h
  split_ifs at h with hbracket
  · obtain ⟨rest, hrest, heq⟩ := Option.map_eq_some_iff.mp h
    obtain ⟨rfl, rfl⟩ := Prod.mk.inj heq
    rw [List.append_assoc, List.singleton_append]
    exact append_of_after hrest
  · obtain ⟨rfl, rfl⟩ := Prod.mk.inj (Option.some.inj h)
    exact List.takeWhile_append_dropWhile.symm

theorem prefix_of_splitHost {found behind : List Char} (hdigits : ']' ∉ digits)
    (h : splitHost (host ++ ':' :: digits) = some (found, behind)) : found <+: host := by
  unfold splitHost at h
  split_ifs at h with hbracket
  · obtain ⟨rest, hrest, heq⟩ := Option.map_eq_some_iff.mp h
    obtain ⟨rfl, rfl⟩ := Prod.mk.inj heq
    have hclose : ']' ∈ host := by
      have hmem : ']' ∈ host ++ ':' :: digits := by
        rw [append_of_after hrest]
        simp
      simpa [hdigits] using hmem
    obtain ⟨pre, post, rfl, hpre⟩ := List.eq_append_cons_of_mem hclose
    rw [List.append_assoc, List.cons_append, takeWhile_append_cons (forall_bne hpre) rfl]
    simp
  · obtain ⟨rfl, -⟩ := Prod.mk.inj (Option.some.inj h)
    rw [List.takeWhile_append]
    split_ifs
    · simp
    · exact List.takeWhile_prefix _

theorem exists_of_bracket (hhost : hostText host = true) (hbracket : host.head? = some '[') :
    ∃ inner, host = '[' :: (inner ++ [']']) ∧ ∀ c ∈ inner, isUserChar c = true := by
  rw [hostText, if_pos hbracket, Bool.and_eq_true, decide_eq_true_eq, List.all_eq_true] at hhost
  obtain ⟨rest, rfl⟩ := List.head?_eq_some_iff.mp hbracket
  obtain ⟨front, heq⟩ := List.getLast?_eq_some_iff.mp hhost.1
  cases front with
  | nil => cases heq
  | cons c inner =>
    obtain ⟨rfl, rfl⟩ := List.cons.inj heq
    refine ⟨inner, rfl, ?_⟩
    simpa using hhost.2

theorem splitHost_append (hhost : hostText host = true) (hescape : '%' ∉ host) :
    splitHost (host ++ ':' :: digits) = some (host, ':' :: digits) := by
  by_cases hbracket : host.head? = some '['
  · obtain ⟨inner, rfl, hinner⟩ := exists_of_bracket hhost hbracket
    have hopen : ']' ∉ '[' :: inner := by
      simpa using notMem_of_class (d := ']') hinner rfl
    have htext : '[' :: (inner ++ [']']) ++ ':' :: digits =
        ('[' :: inner) ++ ']' :: (':' :: digits) := by simp
    unfold splitHost
    rw [htext, if_pos (by rfl), after_append hopen, takeWhile_append_cons (forall_bne hopen) rfl]
    simp
  · rw [hostText, if_neg hbracket, allowed_iff hescape] at hhost
    have hall : ∀ c ∈ host, (c != ':') = true := forall_bne (notMem_of_class hhost rfl)
    have hhead : (host ++ ':' :: digits).head? ≠ some '[' := by
      cases host with
      | nil => simp
      | cons c rest => simpa using hbracket
    unfold splitHost
    rw [if_neg hhead, takeWhile_append_cons hall rfl, dropWhile_append_cons hall rfl]

theorem hostChar_of_isUserChar {c : Char} (hc : isUserChar c = true) : hostChar c = true := by
  have hslash : c ≠ '/' := ne_of_class hc rfl
  have hquery : c ≠ '?' := ne_of_class hc rfl
  have hhash : c ≠ '#' := ne_of_class hc rfl
  simp [hostChar, hslash, hquery, hhash]

/-- A host that may stand in a URI keeps clear of what ends the authority. -/
theorem hostChar_of_hostText (hhost : hostText host = true) (hescape : '%' ∉ host) :
    ∀ c ∈ host, hostChar c = true := by
  intro c hc
  by_cases hbracket : host.head? = some '['
  · obtain ⟨inner, rfl, hinner⟩ := exists_of_bracket hhost hbracket
    rw [List.mem_cons, List.mem_append, List.mem_singleton] at hc
    rcases hc with rfl | hc | rfl
    · rfl
    · exact hostChar_of_isUserChar (hinner c hc)
    · rfl
  · rw [hostText, if_neg hbracket, allowed_iff hescape] at hhost
    exact hostChar_of_isUserChar (by simp [isUserChar, hhost c hc])

end Authority

section Parameters

variable {rest value : List Char} {ps : List (List Char × List Char)}
  {p : List Char × List Char} {sep : Char}

def said (p : List Char × List Char) : List UInt8 × List UInt8 := (Utf8.bytes p.1, Utf8.bytes p.2)

/-- A name of a parameter that stands for itself. -/
def NameText (name : List Char) : Prop := ∀ c ∈ name, isValueChar c = true ∧ c ≠ '='

instance (name : List Char) : Decidable (NameText name) := List.decidableBAll _ _

theorem valueChar_of_isValueChar {c : Char} (hc : isValueChar c = true) : valueChar c = true := by
  have hamp : c ≠ '&' := ne_of_class hc rfl
  have hhash : c ≠ '#' := ne_of_class hc rfl
  simp [valueChar, hamp, hhash]

theorem NameText.valueChar {name : List Char} (h : NameText name) :
    ∀ c ∈ name, valueChar c = true := fun c hc => valueChar_of_isValueChar (h c hc).1

theorem pair_append {name : List Char} (hname : NameText name) :
    pair (name ++ '=' :: value) = (decode value).map (Utf8.bytes name, ·) := by
  have hnone : '=' ∉ name := fun h => (hname _ h).2 rfl
  have hescape : '%' ∉ name := fun h => ne_of_class (hname _ h).1 (d := '%') rfl rfl
  unfold pair
  rw [after_append hnone, takeWhile_append_cons (forall_bne hnone) rfl,
    (decode_eq_bytes_iff name).mpr hescape, Option.getD_some]
  cases decode value <;> rfl

theorem exists_of_params {name : List Char} {qs : List (List UInt8 × List UInt8)}
    (hname : NameText name) (h : params (cut (name ++ '=' :: rest)) = some qs) :
    ∃ v xs, qs = (Utf8.bytes name, v) :: xs ∧ decode (rest.takeWhile valueChar) = some v := by
  obtain ⟨pieces, hpieces⟩ := ShareLink.splitOn_eq_cons '&' (cut (name ++ '=' :: rest))
  rw [params, hpieces, ShareLink.takeWhile_cut hname.valueChar, List.append_assoc,
    List.singleton_append] at h
  rw [List.mapM_cons, pair_append hname] at h
  cases hvalue : decode (rest.takeWhile valueChar) with
  | none => simp [hvalue] at h
  | some bs =>
    rw [hvalue] at h
    simp only [Option.map_some, Option.bind_eq_bind, Option.bind_some, Option.pure_def,
      Option.bind_eq_some_iff, Option.some.injEq] at h
    obtain ⟨xs, -, rfl⟩ := h
    exact ⟨bs, xs, rfl, rfl⟩

theorem clear_of_safe (hname : NameText p.1) (hsafe : ShareLink.Safe p.2) : ShareLink.Clear p :=
  .mk hname.valueChar hsafe.1

theorem pair_of_safe (hname : NameText p.1) (hsafe : ShareLink.Safe p.2) :
    pair (p.1 ++ '=' :: p.2) = some (said p) := by
  rw [pair_append hname, (decode_eq_bytes_iff p.2).mpr hsafe.2]
  rfl

theorem query_append (p : List Char × List Char) (ps : List (List Char × List Char))
    (label : List Char) : ∃ c rest, valueChar c = false ∧
      query (p :: ps) ++ '#' :: label = p.1 ++ '=' :: (p.2 ++ c :: rest) := by
  cases ps with
  | nil => exact ⟨'#', label, rfl, by simp [query]⟩
  | cons q ps => exact ⟨'&', query (q :: ps) ++ '#' :: label, rfl, by simp [query]⟩

/-- A last parameter is read alone, and one before others apart from them. -/
theorem params_query_singleton (label : List Char) (hname : NameText p.1)
    (hsafe : ShareLink.Safe p.2) :
    params (cut (query [p] ++ '#' :: label)) = some [said p] := by
  have hclear := clear_of_safe hname hsafe
  have hcut : cut (query [p] ++ '#' :: label) = p.1 ++ '=' :: p.2 := by
    rw [cut, query, takeWhile_append_cons hclear.bne_hash rfl]
  rw [hcut, params, show (p.1 ++ '=' :: p.2).splitOn '&' = [p.1 ++ '=' :: p.2] from
    List.splitOnP_eq_singleton hclear.beq_amp]
  simp [pair_of_safe hname hsafe]

theorem params_query_cons {q : List Char × List Char} (label : List Char) (hname : NameText p.1)
    (hsafe : ShareLink.Safe p.2) :
    params (cut (query (p :: q :: ps) ++ '#' :: label)) =
      (params (cut (query (q :: ps) ++ '#' :: label))).map (said p :: ·) := by
  have htext : query (p :: q :: ps) ++ '#' :: label =
      p.1 ++ '=' :: p.2 ++ '&' :: (query (q :: ps) ++ '#' :: label) := by simp [query]
  rw [htext, params, ShareLink.splitOn_cut (clear_of_safe hname hsafe), List.mapM_cons,
    pair_of_safe hname hsafe, params]
  simp [Option.map_eq_bind]

theorem safe_of_head {qs : List (List UInt8 × List UInt8)} (label : List Char)
    (hname : NameText p.1) (h : params (cut (query (p :: ps) ++ '#' :: label)) = some qs)
    (hhead : qs.lookup (Utf8.bytes p.1) = some (Utf8.bytes p.2)) : ShareLink.Safe p.2 := by
  obtain ⟨c, rest, hc, htext⟩ := query_append p ps label
  rw [htext] at h
  obtain ⟨v, xs, rfl, hv⟩ := exists_of_params hname h
  rw [List.lookup_cons_self] at hhead
  rw [Option.some.inj hhead] at hv
  exact (decode_takeWhile_iff hc).mp hv

/-- Parameters that are found under their names are safe, the first that is not being misread. -/
theorem safe_of_lookup {qs : List (List UInt8 × List UInt8)} (label : List Char)
    (hnames : ∀ p ∈ ps, NameText p.1) (hnodup : (ps.map Prod.fst).Nodup)
    (h : params (cut (query ps ++ '#' :: label)) = some qs)
    (hfound : ∀ p ∈ ps, ShareLink.Safe p.2 ∨
      qs.lookup (Utf8.bytes p.1) = some (Utf8.bytes p.2)) : ∀ p ∈ ps, ShareLink.Safe p.2 := by
  induction ps generalizing qs with
  | nil => simp
  | cons p ps ih =>
    obtain ⟨hname, hnames⟩ := List.forall_mem_cons.mp hnames
    obtain ⟨hp, hfound⟩ := List.forall_mem_cons.mp hfound
    have hsafe : ShareLink.Safe p.2 := hp.elim id (safe_of_head label hname h)
    refine List.forall_mem_cons.mpr ⟨hsafe, ?_⟩
    cases ps with
    | nil => simp
    | cons q ps =>
      rw [params_query_cons label hname hsafe] at h
      obtain ⟨xs, hxs, rfl⟩ := Option.map_eq_some_iff.mp h
      rw [List.map_cons, List.nodup_cons] at hnodup
      refine ih hnames hnodup.2 hxs fun r hr => (hfound r hr).imp_right fun hr' => ?_
      have hne : Utf8.bytes r.1 ≠ Utf8.bytes p.1 := fun heq =>
        hnodup.1 (Utf8.bytes_injective heq ▸ List.mem_map_of_mem hr)
      rwa [said, List.lookup_cons, beq_false_of_ne hne] at hr'

theorem params_query (label : List Char) (hnames : ∀ p ∈ ps, NameText p.1) (hps : ps ≠ [])
    (hsafe : ∀ p ∈ ps, ShareLink.Safe p.2) :
    params (cut (query ps ++ '#' :: label)) = some (ps.map said) := by
  induction ps with
  | nil => exact absurd rfl hps
  | cons p ps ih =>
    obtain ⟨hname, hnames⟩ := List.forall_mem_cons.mp hnames
    obtain ⟨hp, hsafe⟩ := List.forall_mem_cons.mp hsafe
    cases ps with
    | nil => exact params_query_singleton label hname hp
    | cons q ps =>
      rw [params_query_cons label hname hp, ih hnames (List.cons_ne_nil q ps) hsafe]
      rfl

theorem lookup_said (hnodup : (ps.map Prod.fst).Nodup) (hp : p ∈ ps) :
    (ps.map said).lookup (Utf8.bytes p.1) = some (Utf8.bytes p.2) := by
  induction ps with
  | nil => cases hp
  | cons q ps ih =>
    rw [List.map_cons, List.nodup_cons] at hnodup
    rw [List.map_cons, said]
    rcases List.mem_cons.mp hp with rfl | hp
    · rw [List.lookup_cons_self]
    · have hne : Utf8.bytes p.1 ≠ Utf8.bytes q.1 := fun heq =>
        hnodup.1 (Utf8.bytes_injective heq ▸ List.mem_map_of_mem hp)
      rw [List.lookup_cons, beq_false_of_ne hne]
      exact ih hnodup.2 hp

theorem lookup_said_eq_none {name : List Char} (hname : name ∉ ps.map Prod.fst) :
    (ps.map said).lookup (Utf8.bytes name) = none := by
  rw [List.lookup_eq_none_iff]
  intro q hq
  obtain ⟨r, hr, rfl⟩ := List.mem_map.mp hq
  rw [bne_iff_ne]
  exact fun heq => hname (Utf8.bytes_injective heq ▸ List.mem_map_of_mem hr)

theorem cut_query (label : List Char) (hnames : ∀ p ∈ ps, NameText p.1)
    (hsafe : ∀ p ∈ ps, ShareLink.Safe p.2) :
    cut (query ps ++ '#' :: label) = query ps := by
  have hall : ∀ c ∈ query ps, (c != '#') = true := by
    rw [ShareLink.forall_mem_query_iff (fun c => (c != '#') = true) ps rfl rfl]
    intro p hp
    exact ⟨fun c hc => ((Bool.and_eq_true _ _).mp ((hnames p hp).valueChar c hc)).2,
      fun c hc => ((Bool.and_eq_true _ _).mp ((hsafe p hp).1 c hc)).2⟩
  exact takeWhile_append_cons hall rfl

/-- Values may stand in a query as they are if the syntax allows each of their characters. -/
theorem forall_isValueChar_iff (hnames : ∀ p ∈ ps, NameText p.1) :
    (∀ p ∈ ps, ShareLink.Safe p.2) ∧ allowed isQueryChar (query ps) = true ↔
      ∀ p ∈ ps, ∀ c ∈ p.2, isValueChar c = true := by
  have hnoEscape (hsafe : ∀ p ∈ ps, ShareLink.Safe p.2) : '%' ∉ query ps := by
    rw [ShareLink.notMem_query_iff (by decide)]
    exact fun p hp =>
      ⟨fun h => ne_of_class (hnames p hp _ h).1 (d := '%') rfl rfl, (hsafe p hp).2⟩
  constructor
  · rintro ⟨hsafe, hquery⟩ p hp c hc
    rw [allowed_iff (hnoEscape hsafe),
      ShareLink.forall_mem_query_iff (isQueryChar · = true) ps rfl rfl] at hquery
    have hamp : (c != '&') = true := ((Bool.and_eq_true _ _).mp ((hsafe p hp).1 c hc)).1
    rw [isValueChar, (hquery p hp).2 c hc, hamp]
    rfl
  · intro hvalues
    have hsafe : ∀ p ∈ ps, ShareLink.Safe p.2 := fun p hp =>
      ⟨fun c hc => valueChar_of_isValueChar (hvalues p hp c hc), notMem_of_class (hvalues p hp) rfl⟩
    refine ⟨hsafe, ?_⟩
    rw [allowed_iff (hnoEscape hsafe), ShareLink.forall_mem_query_iff (isQueryChar · = true) ps rfl rfl]
    exact fun p hp => ⟨fun c hc => ((Bool.and_eq_true _ _).mp (hnames p hp c hc).1).1,
      fun c hc => ((Bool.and_eq_true _ _).mp (hvalues p hp c hc)).1⟩

end Parameters

section Reading

variable {scheme user host digits text label : List Char} {ps : List (List Char × List Char)}
  {n : Nat} {l : List UInt8} {c : Content}

theorem Parts.read_eq_some_iff {parts : Parts} : parts.read = some c ↔
    parts.scheme = c.scheme ∧ parts.user.mapM decode = some c.user ∧
      decode parts.host = some c.host ∧ parts.port.bind portNumber = c.port ∧
      decode parts.path = some c.path ∧ (parts.query.mapM params).map (·.getD []) = some c.params ∧
      parts.fragment.mapM decode = some c.label := by
  cases c
  unfold Parts.read
  simp only [Option.bind_eq_bind, Option.bind_eq_some_iff, Option.pure_def, Option.some.injEq,
    Content.mk.injEq, Option.map_eq_some_iff]
  constructor
  · rintro ⟨u, hu, h, hh, pa, hpa, qs, hqs, fr, hfr, rfl, rfl, rfl, rfl, rfl, rfl, rfl⟩
    exact ⟨rfl, hu, hh, rfl, hpa, ⟨qs, hqs, rfl⟩, hfr⟩
  · rintro ⟨rfl, hu, hh, rfl, hpa, ⟨qs, hqs, rfl⟩, hfr⟩
    exact ⟨_, hu, _, hh, _, hpa, qs, hqs, _, hfr, rfl, rfl, rfl, rfl, rfl, rfl, rfl⟩

/-- A user of its own characters is what stands in front of the first `@`. -/
theorem split_user (behind : List Char) (hscheme : ':' ∉ scheme)
    (huser : ∀ c ∈ user, isUserChar c = true) :
    split (scheme ++ [':', '/', '/'] ++ (user ++ '@' :: behind)) =
      (splitHost (behind.takeWhile hostChar)).bind fun cutHost => (portOf cutHost.2).map fun port =>
        let tail := behind.dropWhile hostChar
        ⟨scheme, some user, cutHost.1, port, (cut tail).takeWhile (· != '?'), after '?' (cut tail),
          after '#' tail⟩ := by
  have hcolon : ∀ c ∈ scheme, (c != ':') = true := forall_bne hscheme
  have hhost : ∀ c ∈ user, hostChar c = true := fun c hc => hostChar_of_isUserChar (huser c hc)
  have hnone : '@' ∉ user := notMem_of_class huser rfl
  have hput : scheme ++ [':', '/', '/'] ++ (user ++ '@' :: behind) =
      scheme ++ ':' :: '/' :: '/' :: (user ++ '@' :: behind) := by simp
  have hdrop : (scheme ++ ':' :: '/' :: '/' :: (user ++ '@' :: behind)).dropWhile (· != ':') =
      [':', '/', '/'] ++ (user ++ '@' :: behind) := dropWhile_append_cons hcolon rfl
  have hat' : hostChar '@' = true := rfl
  have hauthority : (user ++ '@' :: behind).takeWhile hostChar =
      user ++ '@' :: behind.takeWhile hostChar := by
    rw [List.takeWhile_append_of_pos hhost, List.takeWhile_cons, if_pos hat']
  have htail : (user ++ '@' :: behind).dropWhile hostChar = behind.dropWhile hostChar := by
    rw [List.dropWhile_append_of_pos hhost, List.dropWhile_cons, if_pos hat']
  have hschemeCut : (scheme ++ ':' :: '/' :: '/' :: (user ++ '@' :: behind)).takeWhile (· != ':') =
      scheme := takeWhile_append_cons hcolon rfl
  have huserCut : (user ++ '@' :: behind.takeWhile hostChar).takeWhile (· != '@') = user :=
    takeWhile_append_cons (forall_bne hnone) rfl
  unfold split
  rw [hput, hdrop, ShareLink.dropPrefix?_append_self, Option.bind_some, hschemeCut]
  dsimp only
  rw [hauthority, htail, after_append hnone, huserCut]
  rfl

/-- Whatever stands behind such a user, it is read. -/
theorem user_of_read {behind : List Char} (hscheme : ':' ∉ scheme)
    (huser : ∀ c ∈ user, isUserChar c = true)
    (hread : read (scheme ++ [':', '/', '/'] ++ (user ++ '@' :: behind)) = some c) :
    c.scheme = scheme ∧ c.user = some (Utf8.bytes user) := by
  obtain ⟨parts, hparse, hcontent⟩ := Option.bind_eq_some_iff.mp hread
  obtain ⟨hsplit, -⟩ := Option.filter_eq_some_iff.mp hparse
  rw [split_user behind hscheme huser, Option.bind_eq_some_iff] at hsplit
  obtain ⟨cutHost, -, hrest⟩ := hsplit
  obtain ⟨port, -, rfl⟩ := Option.map_eq_some_iff.mp hrest
  obtain ⟨hscheme', huser', -⟩ := Parts.read_eq_some_iff.mp hcontent
  refine ⟨hscheme'.symm, Option.some.inj (huser'.symm.trans ?_)⟩
  simp [(decode_eq_bytes_iff user).mpr (notMem_of_class huser rfl)]

theorem split_put (hscheme : ':' ∉ scheme) (huser : ∀ c ∈ user, isUserChar c = true) :
    split (put scheme user host digits text label) =
      (splitHost ((host ++ ':' :: (digits ++ '?' :: (text ++ '#' :: label))).takeWhile
        hostChar)).bind fun cutHost => (portOf cutHost.2).map fun port =>
          let tail := (host ++ ':' :: (digits ++ '?' :: (text ++ '#' :: label))).dropWhile hostChar
          ⟨scheme, some user, cutHost.1, port, (cut tail).takeWhile (· != '?'),
            after '?' (cut tail), after '#' tail⟩ :=
  split_user _ hscheme huser

theorem hostChar_of_isDigit {c : Char} (hc : c.isDigit = true) : hostChar c = true :=
  hostChar_of_isUserChar (by simp [isUserChar, isNameChar, isUnreserved, Char.isAlphanum, hc])

theorem authority_put (hhost : ∀ c ∈ host, hostChar c = true)
    (hdigits : ∀ c ∈ digits, c.isDigit = true) (behind : List Char) :
    (host ++ ':' :: (digits ++ '?' :: behind)).takeWhile hostChar = host ++ ':' :: digits ∧
      (host ++ ':' :: (digits ++ '?' :: behind)).dropWhile hostChar = '?' :: behind := by
  have hall : ∀ c ∈ host ++ ':' :: digits, hostChar c = true := by
    rw [List.forall_mem_append, List.forall_mem_cons]
    exact ⟨hhost, rfl, fun c hc => hostChar_of_isDigit (hdigits c hc)⟩
  have htext : host ++ ':' :: (digits ++ '?' :: behind) = (host ++ ':' :: digits) ++ '?' :: behind := by
    simp
  rw [htext]
  exact ⟨takeWhile_append_cons hall rfl, dropWhile_append_cons hall rfl⟩

theorem split_put_of_hostText (text label : List Char) (hscheme : ':' ∉ scheme)
    (huser : ∀ c ∈ user, isUserChar c = true) (hhost : hostText host = true) (hescape : '%' ∉ host)
    (hdigits : ∀ c ∈ digits, c.isDigit = true) :
    split (put scheme user host digits text label) =
      some ⟨scheme, some user, host, some digits, [], some (cut (text ++ '#' :: label)),
        after '#' (text ++ '#' :: label)⟩ := by
  obtain ⟨htake, hdrop⟩ :=
    authority_put (hostChar_of_hostText hhost hescape) hdigits (text ++ '#' :: label)
  rw [split_put hscheme huser, htake, hdrop, splitHost_append hhost hescape]
  rfl

theorem hostText_of_read (hscheme : ':' ∉ scheme) (huser : ∀ c ∈ user, isUserChar c = true)
    (hdigits : ∀ c ∈ digits, c.isDigit = true)
    (hread : read (put scheme user host digits text label) = some c)
    (hsame : c.host = Utf8.bytes host) : hostText host = true ∧ '%' ∉ host := by
  obtain ⟨parts, hparse, hcontent⟩ := Option.bind_eq_some_iff.mp hread
  obtain ⟨hsplit, hwell⟩ := Option.filter_eq_some_iff.mp hparse
  rw [split_put hscheme huser, Option.bind_eq_some_iff] at hsplit
  obtain ⟨⟨found, behind⟩, hfound, hrest⟩ := hsplit
  obtain ⟨port, -, rfl⟩ := Option.map_eq_some_iff.mp hrest
  have hdecode : decode found = some (Utf8.bytes host) := by
    rw [← hsame]
    exact (Parts.read_eq_some_iff.mp hcontent).2.2.1
  have hcut : found <+: host := by
    by_cases hall : ∀ c ∈ host, hostChar c = true
    · rw [(authority_put hall hdigits _).1] at hfound
      exact prefix_of_splitHost (notMem_of_class hdigits rfl) hfound
    · -- the authority ends inside the host
      have hshort : (host ++ ':' :: (digits ++ '?' :: (text ++ '#' :: label))).takeWhile hostChar =
          host.takeWhile hostChar := by
        rw [List.takeWhile_append, if_neg]
        intro hlen
        exact hall (List.takeWhile_eq_self_iff.mp ((List.takeWhile_prefix _).eq_of_length hlen))
      rw [hshort] at hfound
      exact (List.prefix_append found behind).trans
        (append_of_splitHost hfound ▸ List.takeWhile_prefix _)
  obtain ⟨rfl, hescape⟩ := eq_of_decode_of_prefix hcut hdecode
  simp only [Parts.wellFormed, Bool.and_eq_true] at hwell
  exact ⟨hwell.1.1.1.1.2, hescape⟩

theorem colon_notMem_of_schemeText (h : schemeText scheme = true) : ':' ∉ scheme := by
  cases scheme with
  | nil => simp
  | cons c rest =>
    rw [schemeText, Bool.and_eq_true, List.all_eq_true] at h
    rw [List.mem_cons, not_or]
    exact ⟨(ne_of_class h.1 rfl).symm, notMem_of_class h.2 rfl⟩

theorem isUserChar_of_read (hscheme : ':' ∉ scheme)
    (hread : read (put scheme user host digits text label) = some c)
    (hsame : c.user = some (Utf8.bytes user)) : ∀ c ∈ user, isUserChar c = true := by
  obtain ⟨parts, hparse, hcontent⟩ := Option.bind_eq_some_iff.mp hread
  obtain ⟨hsplit, hwell⟩ := Option.filter_eq_some_iff.mp hparse
  generalize hbehind : host ++ ':' :: (digits ++ '?' :: (text ++ '#' :: label)) = behind
  have hput : put scheme user host digits text label =
      scheme ++ ':' :: '/' :: '/' :: (user ++ '@' :: behind) := by
    simp [put, hbehind]
  have hdrop : (scheme ++ ':' :: '/' :: '/' :: (user ++ '@' :: behind)).dropWhile (· != ':') =
      [':', '/', '/'] ++ (user ++ '@' :: behind) := dropWhile_append_cons (forall_bne hscheme) rfl
  unfold split at hsplit
  rw [hput, hdrop, ShareLink.dropPrefix?_append_self, Option.bind_some] at hsplit
  obtain ⟨cutHost, -, hsplit⟩ := Option.bind_eq_some_iff.mp hsplit
  obtain ⟨port, -, rfl⟩ := Option.map_eq_some_iff.mp hsplit
  have huser := (Parts.read_eq_some_iff.mp hcontent).2.1
  rw [hsame] at huser
  dsimp only at huser hwell
  cases hafter : after '@' ((user ++ '@' :: behind).takeWhile hostChar) with
  | none => simp [hafter] at huser
  | some rest =>
    have hboth : (fun c => decide ((c != '@') = true ∧ hostChar c = true)) =
        fun c => c != '@' && hostChar c := by
      funext c
      rw [Bool.decide_and, Bool.decide_eq_true, Bool.decide_eq_true]
    simp only [Parts.wellFormed, hafter, Option.map_some, List.takeWhile_takeWhile, hboth,
      Bool.and_eq_true, Option.all_some] at huser hwell
    have hdecode : decode ((user ++ '@' :: behind).takeWhile fun c => c != '@' && hostChar c) =
        some (Utf8.bytes user) := by
      simpa using huser
    obtain ⟨hall, hescape⟩ := (decode_takeWhile_iff rfl).mp hdecode
    have hallowed := hwell.1.1.1.1.1.2
    rw [takeWhile_append_cons hall rfl, allowed_iff hescape] at hallowed
    exact hallowed

/-- Parts that may stand in a link as they are. -/
structure Stands (user host : List Char) (ps : List (List Char × List Char)) : Prop where
  user : ∀ c ∈ user, isUserChar c = true
  host : hostText host = true ∧ '%' ∉ host
  values : ∀ p ∈ ps, ∀ c ∈ p.2, isValueChar c = true

theorem isDigit_toDigits : ∀ c ∈ Nat.toDigits 10 n, c.isDigit = true := fun _ hc =>
  Nat.isDigit_of_mem_toDigits (by decide) (by decide) hc

/-- If the user, the host and the parameters looked up are found as they were put in, all of it may
stand in a link. -/
theorem stands_of_read (hscheme : schemeText scheme = true) (hnames : ∀ p ∈ ps, NameText p.1)
    (hnodup : (ps.map Prod.fst).Nodup)
    (hread : read (put scheme user host (Nat.toDigits 10 n) (query ps) label) = some c)
    (huser : c.user = some (Utf8.bytes user)) (hhost : c.host = Utf8.bytes host)
    (hfound : ∀ p ∈ ps, ShareLink.Safe p.2 ∨
      c.param? (Utf8.bytes p.1) = some (Utf8.bytes p.2)) : Stands user host ps := by
  have hcolon := colon_notMem_of_schemeText hscheme
  have husers := isUserChar_of_read hcolon hread huser
  obtain ⟨hhosts, hescape⟩ := hostText_of_read hcolon husers isDigit_toDigits hread hhost
  obtain ⟨parts, hparse, hcontent⟩ := Option.bind_eq_some_iff.mp hread
  obtain ⟨hsplit, hwell⟩ := Option.filter_eq_some_iff.mp hparse
  rw [split_put_of_hostText _ _ hcolon husers hhosts hescape isDigit_toDigits] at hsplit
  obtain rfl := Option.some.inj hsplit
  simp only [Parts.wellFormed, Bool.and_eq_true, Option.all_some] at hwell
  have hparams := (Parts.read_eq_some_iff.mp hcontent).2.2.2.2.2.1
  have hsafe : ∀ p ∈ ps, ShareLink.Safe p.2 :=
    safe_of_lookup label hnames hnodup (by simpa using hparams) hfound
  refine ⟨husers, ⟨hhosts, hescape⟩, (forall_isValueChar_iff hnames).mp ⟨hsafe, ?_⟩⟩
  rw [← cut_query label hnames hsafe]
  exact hwell.1.2

theorem read_put (hscheme : schemeText scheme = true) (hnames : ∀ p ∈ ps, NameText p.1)
    (hps : ps ≠ []) (hlabel : allowed isQueryChar label = true) (hdecode : decode label = some l)
    (hstands : Stands user host ps) :
    read (put scheme user host (Nat.toDigits 10 n) (query ps) label) =
      some ⟨scheme, some (Utf8.bytes user), Utf8.bytes host, some n, [], ps.map said, some l⟩ := by
  obtain ⟨huser, ⟨hhost, hescape⟩, hvalues⟩ := hstands
  obtain ⟨hsafe, hquery⟩ := (forall_isValueChar_iff hnames).mpr hvalues
  have hcut := cut_query label hnames hsafe
  have hhash : '#' ∉ query ps := by
    rw [← hcut]
    exact fun h => by simpa using List.mem_takeWhile_imp h
  have husers : '%' ∉ user := notMem_of_class huser rfl
  have hparams := params_query label hnames hps hsafe
  rw [hcut] at hparams
  have hsplit := split_put_of_hostText (query ps) label (colon_notMem_of_schemeText hscheme) huser
    hhost hescape (isDigit_toDigits (n := n))
  rw [hcut, after_append hhash] at hsplit
  unfold read parse
  rw [hsplit, Option.filter_some, if_pos, Option.bind_some, Parts.read_eq_some_iff]
  · refine ⟨rfl, ?_, (decode_eq_bytes_iff host).mpr hescape, ?_, rfl, ?_, ?_⟩
    · simp [(decode_eq_bytes_iff user).mpr husers]
    · simp [portNumber]
    · simp [hparams]
    · simp [hdecode]
  · simp only [Parts.wellFormed, Bool.and_eq_true, Option.all_some, hscheme, hhost, hquery, hlabel,
      allowed_iff husers, List.all_eq_true, and_true, true_and]
    exact ⟨⟨huser, isDigit_toDigits⟩, rfl⟩

/-- A link with the values put in as they are says just that exactly if the syntax allows each of
their characters where it stands. -/
theorem read_put_iff (hscheme : schemeText scheme = true) (hnames : ∀ p ∈ ps, NameText p.1)
    (hnodup : (ps.map Prod.fst).Nodup) (hps : ps ≠ [])
    (hlabel : allowed isQueryChar label = true) (hdecode : decode label = some l) :
    read (put scheme user host (Nat.toDigits 10 n) (query ps) label) =
        some ⟨scheme, some (Utf8.bytes user), Utf8.bytes host, some n, [], ps.map said, some l⟩ ↔
      Stands user host ps := by
  constructor
  · intro hread
    exact stands_of_read hscheme hnames hnodup hread rfl rfl fun p hp => .inr (lookup_said hnodup hp)
  · exact read_put hscheme hnames hps hlabel hdecode

end Reading

end Uri
