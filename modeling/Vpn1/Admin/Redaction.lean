import Vpn1.Compat.Credentials
import Vpn1.Lib.Runs
import Vpn1.Lib.Utf8

/-! `redact_secrets`: the scan over the bytes of a report, what it leaves of a text, and which of the
generated credentials it recognises. -/

namespace Vpn1.Admin

open Compat Runs

section Scan

def isAsciiDigit (b : UInt8) : Bool := 48 ≤ b && b ≤ 57

def isAsciiAlphabetic (b : UInt8) : Bool := (65 ≤ b && b ≤ 90) || (97 ≤ b && b ≤ 122)

def isAsciiHexdigit (b : UInt8) : Bool :=
  isAsciiDigit b || (65 ≤ b && b ≤ 70) || (97 ≤ b && b ≤ 102)

def isTokenByte (b : UInt8) : Bool :=
  isAsciiAlphabetic b || isAsciiDigit b || b == 45 || b == 95

/-- A digit, `-` or `_`. -/
def isMarkByte (b : UInt8) : Bool := isAsciiDigit b || b == 45 || b == 95

def looksLikeUuid (tok : List UInt8) : Bool :=
  let parts := tok.splitOn 45
  parts.length == 5 && ([8, 4, 4, 4, 12].zip parts).all fun (len, part) =>
    part.length == len && part.all isAsciiHexdigit

def looksLikeSecretToken (tok : List UInt8) : Bool :=
  if tok.length < 24 then false
  else if tok.all isAsciiHexdigit then true
  else tok.all isTokenByte && tok.any isAsciiAlphabetic && tok.any isMarkByte

def looksSecret (tok : List UInt8) : Bool := looksLikeUuid tok || looksLikeSecretToken tok

def placeholder : List Char := "<redacted>".toList

/-- The scan from offset `i` on, with the bytes from there; a slice across a character panics. -/
def redactLoop (text : List Char) (i plainStart : Nat) (out : List Char) :
    List UInt8 → Option (List Char)
  | [] => (Utf8.slice? text plainStart (Utf8.bytes text).length).map (out ++ ·)
  | b :: bs =>
    if isTokenByte b then
      let next := i + ((b :: bs).takeWhile isTokenByte).length
      (Utf8.slice? text i next).bind fun tok =>
        if looksSecret (Utf8.bytes tok) then
          (Utf8.slice? text plainStart i).bind fun plain =>
            redactLoop text next next (out ++ plain ++ placeholder)
              ((b :: bs).dropWhile isTokenByte)
        else redactLoop text next plainStart out ((b :: bs).dropWhile isTokenByte)
    else redactLoop text (i + 1) plainStart out bs
termination_by bs => bs.length
decreasing_by
  all_goals
    simp only [List.length_cons]
    first
      | rw [List.dropWhile_cons_of_pos (by assumption)]
        exact Nat.lt_succ_of_le (List.dropWhile_sublist _).length_le
      | omega

def redactSecrets (text : String) : Option String :=
  (redactLoop text.toList 0 0 [] (Utf8.bytes text.toList)).map String.ofList

end Scan

section Runs

/-- A digit, `-` or `_`. -/
def isMarkChar (c : Char) : Bool := c.isDigit || c == '-' || c == '_'

/-- A character of `[A-Za-z0-9_-]`. -/
def isTokenChar (c : Char) : Bool := c.isAlpha || isMarkChar c

def redactRun (run : List Char) : List Char :=
  if looksSecret (Utf8.bytes run) then placeholder else run

theorem ascii_tests {c : Char} (hc : c.toNat < 128) :
    isTokenByte c.val.toUInt8 = isTokenChar c ∧ isAsciiHexdigit c.val.toUInt8 = isAsciiHexDigit c ∧
      isAsciiAlphabetic c.val.toUInt8 = c.isAlpha ∧ isMarkByte c.val.toUInt8 = isMarkChar c := by
  exact Utf8.ascii_forall (P := fun c =>
    isTokenByte c.val.toUInt8 = isTokenChar c ∧ isAsciiHexdigit c.val.toUInt8 = isAsciiHexDigit c ∧
      isAsciiAlphabetic c.val.toUInt8 = c.isAlpha ∧ isMarkByte c.val.toUInt8 = isMarkChar c)
    (by decide) hc

theorem lt_of_isTokenChar {c : Char} (hc : isTokenChar c = true) : c.toNat < 128 := by
  change (c.isAlpha || (c.isDigit || c == '-' || c == '_')) = true at hc
  rw [Bool.or_eq_true, Bool.or_eq_true, Bool.or_eq_true, beq_iff_eq, beq_iff_eq] at hc
  rcases hc with hc | (hc | rfl) | rfl
  · exact Utf8.lt_of_isAlphanum ((Bool.or_eq_true _ _).mpr (.inl hc))
  · exact Utf8.lt_of_isAlphanum ((Bool.or_eq_true _ _).mpr (.inr hc))
  · decide
  · decide

private theorem onAscii_isTokenByte : Utf8.onAscii isTokenByte = isTokenChar := by
  funext c
  unfold Utf8.onAscii
  by_cases hc : c.toNat < 128
  · rw [decide_eq_true hc, Bool.true_and]
    exact (ascii_tests hc).1
  · cases hchar : isTokenChar c with
    | false => simp [hc]
    | true => exact absurd (lt_of_isTokenChar hchar) hc

theorem bytes_run {run : List Char} (hrun : Run isTokenChar run) :
    Utf8.bytes run = run.map fun c => c.val.toUInt8 :=
  Utf8.bytes_of_lt fun c hc => lt_of_isTokenChar (hrun.all c hc)

private theorem lt_of_isTokenByte (b : UInt8) (hb : isTokenByte b = true) : b.toNat < 128 := by
  simp only [isTokenByte, isAsciiAlphabetic, isAsciiDigit, Bool.or_eq_true, Bool.and_eq_true,
    decide_eq_true_eq, beq_iff_eq, UInt8.le_iff_toNat_le] at hb
  rcases hb with ((hb | hb) | rfl) | rfl <;> simp at * <;> omega

private theorem eq_false_of_isTokenChar {c : Char} (hc : isTokenChar c = false) :
    ∀ b ∈ String.utf8EncodeChar c, isTokenByte b = false :=
  Utf8.eq_false_of_onAscii lt_of_isTokenByte (onAscii_isTokenByte ▸ hc)

variable {text done pending cs run rest out : List Char}

private theorem redactLoop_skip {bs : List UInt8} (hbs : ∀ b ∈ bs, isTokenByte b = false)
    (i plainStart : Nat) (out : List Char) (rest : List UInt8) :
    redactLoop text i plainStart out (bs ++ rest) =
      redactLoop text (i + bs.length) plainStart out rest := by
  induction bs generalizing i with
  | nil => rfl
  | cons b bs ih =>
    obtain ⟨hb, hbs⟩ := List.forall_mem_cons.mp hbs
    rw [List.cons_append, redactLoop, hb, if_neg Bool.false_ne_true, ih hbs, List.length_cons]
    congr 1
    omega

private theorem takeWhile_bytes (hrun : Run isTokenChar run)
    (hrest : StartsOutside isTokenChar rest) :
    (Utf8.bytes (run ++ rest)).takeWhile isTokenByte = Utf8.bytes run ∧
      (Utf8.bytes (run ++ rest)).dropWhile isTokenByte = Utf8.bytes rest := by
  have hall : ∀ b ∈ Utf8.bytes run, isTokenByte b = true := by
    rw [bytes_run hrun]
    intro b hb
    obtain ⟨c, hc, rfl⟩ := List.mem_map.mp hb
    have htoken := hrun.all c hc
    rwa [(ascii_tests (lt_of_isTokenChar htoken)).1]
  have hnone : (Utf8.bytes rest).takeWhile isTokenByte = [] ∧
      (Utf8.bytes rest).dropWhile isTokenByte = Utf8.bytes rest := by
    cases rest with
    | nil => exact ⟨rfl, rfl⟩
    | cons c rest =>
      have hc := eq_false_of_isTokenChar (startsOutside_cons.mp hrest)
      cases henc : String.utf8EncodeChar c with
      | nil => exact absurd henc String.utf8EncodeChar_ne_nil
      | cons b bs =>
        have hb := hc b (by simp [henc])
        rw [Utf8.bytes_cons, henc, List.cons_append]
        constructor
        · rw [List.takeWhile_cons_of_neg (by simp [hb])]
        · rw [List.dropWhile_cons_of_neg (by simp [hb])]
  rw [Utf8.bytes_append, List.takeWhile_append_of_pos hall, List.dropWhile_append_of_pos hall,
    hnone.1, hnone.2, List.append_nil]
  exact ⟨rfl, rfl⟩

private theorem redactLoop_run (hrun : Run isTokenChar run) (hrest : StartsOutside isTokenChar rest)
    (out : List Char) :
    redactLoop (done ++ pending ++ (run ++ rest)) (Utf8.bytes (done ++ pending)).length
        (Utf8.bytes done).length out (Utf8.bytes (run ++ rest)) =
      if looksSecret (Utf8.bytes run) then
        redactLoop (done ++ pending ++ (run ++ rest)) (Utf8.bytes (done ++ pending ++ run)).length
          (Utf8.bytes (done ++ pending ++ run)).length (out ++ pending ++ placeholder)
          (Utf8.bytes rest)
      else
        redactLoop (done ++ pending ++ (run ++ rest)) (Utf8.bytes (done ++ pending ++ run)).length
          (Utf8.bytes done).length out (Utf8.bytes rest) := by
  obtain ⟨htake, hdrop⟩ := takeWhile_bytes hrun hrest
  have hnext : (Utf8.bytes (done ++ pending)).length + (Utf8.bytes run).length =
      (Utf8.bytes (done ++ pending ++ run)).length := by
    rw [Utf8.bytes_append (done ++ pending), List.length_append]
  have htok : Utf8.slice? (done ++ pending ++ (run ++ rest)) (Utf8.bytes (done ++ pending)).length
      (Utf8.bytes (done ++ pending ++ run)).length = some run := by
    rw [← List.append_assoc]
    exact Utf8.slice?_append (done ++ pending) run rest
  have hplain : Utf8.slice? (done ++ pending ++ (run ++ rest)) (Utf8.bytes done).length
      (Utf8.bytes (done ++ pending)).length = some pending :=
    Utf8.slice?_append done pending (run ++ rest)
  generalize hbytes : Utf8.bytes (run ++ rest) = bytes at htake hdrop
  cases bytes with
  | nil =>
    rw [Utf8.bytes_append, List.append_eq_nil_iff, Utf8.bytes_eq_nil] at hbytes
    exact absurd hbytes.1 hrun.ne_nil
  | cons b bs =>
    have hb : isTokenByte b = true := by
      by_contra hb
      rw [List.takeWhile_cons_of_neg hb] at htake
      exact hrun.ne_nil (Utf8.bytes_eq_nil.mp htake.symm)
    rw [redactLoop, if_pos hb, htake, hdrop, hnext]
    dsimp only
    rw [htok, Option.bind_some, hplain, Option.bind_some]

private theorem redactLoop_eq (cs done pending out : List Char) :
    redactLoop (done ++ pending ++ cs) (Utf8.bytes (done ++ pending)).length
        (Utf8.bytes done).length out (Utf8.bytes cs) =
      some (out ++ pending ++ mapRuns isTokenChar redactRun cs) := by
  induction cs using Runs.induction (p := isTokenChar) generalizing done pending out with
  | nil =>
    rw [List.append_nil, Utf8.bytes_nil, redactLoop]
    have hslice := Utf8.slice?_append done pending []
    rw [List.append_nil] at hslice
    rw [hslice]
    simp
  | other c cs hc ih =>
    have hbytes := eq_false_of_isTokenChar hc
    have hoffset : (Utf8.bytes (done ++ pending)).length + (String.utf8EncodeChar c).length =
        (Utf8.bytes (done ++ (pending ++ [c]))).length := by
      simp [Nat.add_assoc]
    have hrest := ih done (pending ++ [c]) out
    rw [Utf8.bytes_cons, redactLoop_skip hbytes, hoffset, mapRuns_cons_of_not hc]
    simpa using hrest
  | run run rest hrun hrest ih =>
    rw [redactLoop_run hrun hrest, mapRuns_append_run hrun hrest, redactRun]
    split_ifs
    · have hlater := ih (done ++ pending ++ run) [] (out ++ pending ++ placeholder)
      simpa using hlater
    · have hlater := ih done (pending ++ run) out
      simpa using hlater

theorem redactSecrets_eq (text : String) :
    redactSecrets text = some (String.ofList (mapRuns isTokenChar redactRun text.toList)) := by
  have hloop := redactLoop_eq text.toList [] [] []
  simp only [List.nil_append, Utf8.bytes_nil, List.length_nil] at hloop
  rw [redactSecrets, hloop]
  rfl

end Runs

section Recognition

variable {v t text : List Char}

def AllHex (v : List Char) : Prop := ∀ c ∈ v, isAsciiHexDigit c = true

def HasLetter (v : List Char) : Prop := ∃ c ∈ v, c.isAlpha = true

/-- It has a digit, a `-` or a `_`. -/
def HasMark (v : List Char) : Prop := ∃ c ∈ v, isMarkChar c = true

def Telling (v : List Char) : Prop := AllHex v ∨ HasLetter v ∧ HasMark v

private theorem hasLetter_cons {c : Char} : HasLetter
    (c :: v) ↔ c.isAlpha = true ∨ HasLetter v := by
  simp [HasLetter]

private theorem hasMark_cons {c : Char} : HasMark (c :: v) ↔ isMarkChar c = true ∨ HasMark v := by
  simp [HasMark]

private theorem length_of_looksLikeUuid {tok : List UInt8} (h : looksLikeUuid tok = true) :
    tok.length = 36 := by
  have hjoin : [45].intercalate (tok.splitOn 45) = tok := List.intercalate_splitOn 45
  unfold looksLikeUuid at h
  dsimp only at h
  generalize tok.splitOn 45 = parts at h hjoin
  rw [Bool.and_eq_true, beq_iff_eq] at h
  obtain ⟨hparts, hall⟩ := h
  match parts, hparts with
  | [p₁, p₂, p₃, p₄, p₅], _ =>
    simp only [List.zip_cons_cons, List.zip_nil_right, List.all_cons, List.all_nil, Bool.and_eq_true,
      beq_iff_eq] at hall
    rw [← hjoin]
    simp only [List.intercalate, List.intersperse_cons_cons, List.intersperse_singleton,
      List.flatten_cons, List.flatten_nil, List.length_append, List.length_cons, List.length_nil]
    omega

theorem looksSecret_iff (hv : Run isTokenChar v) (hlength : 24 ≤ v.length) :
    looksSecret (Utf8.bytes v) = true ↔ looksLikeUuid (Utf8.bytes v) = true ∨ Telling v := by
  have htests := fun c hc => ascii_tests (lt_of_isTokenChar (hv.all c hc))
  have hsize : ¬ (Utf8.bytes v).length < 24 := by
    rw [bytes_run hv, List.length_map]
    omega
  have hhex : (Utf8.bytes v).all isAsciiHexdigit = true ↔ AllHex v := by
    rw [bytes_run hv, List.all_map, List.all_eq_true]
    exact forall₂_congr fun c hc => by rw [Function.comp_apply, (htests c hc).2.1]
  have htoken : (Utf8.bytes v).all isTokenByte = true := by
    rw [bytes_run hv, List.all_map, List.all_eq_true]
    intro c hc
    rw [Function.comp_apply, (htests c hc).1]
    exact hv.all c hc
  have hletter : (Utf8.bytes v).any isAsciiAlphabetic = true ↔ HasLetter v := by
    rw [bytes_run hv, List.any_map, List.any_eq_true]
    exact exists_congr fun c => and_congr_right fun hc => by
      rw [Function.comp_apply, (htests c hc).2.2.1]
  have hmark : (Utf8.bytes v).any isMarkByte = true ↔ HasMark v := by
    rw [bytes_run hv, List.any_map, List.any_eq_true]
    exact exists_congr fun c => and_congr_right fun hc => by
      rw [Function.comp_apply, (htests c hc).2.2.2]
  unfold looksSecret looksLikeSecretToken Telling
  rw [Bool.or_eq_true, if_neg hsize]
  by_cases hall : (Utf8.bytes v).all isAsciiHexdigit = true
  · simp [hall, hhex.mp hall]
  · rw [if_neg hall, htoken, Bool.true_and, Bool.and_eq_true, hletter, hmark, ← hhex]
    simp [hall]

private theorem mapRuns_placeholder (rest : List Char) :
    mapRuns isTokenChar redactRun (placeholder ++ rest) =
      placeholder ++ mapRuns isTokenChar redactRun rest := by
  have hword : Run isTokenChar "redacted".toList :=
    ⟨by decide, List.all_eq_true.mp (by decide)⟩
  have hbehind : StartsOutside isTokenChar ('>' :: rest) := startsOutside_cons.mpr (by decide)
  have hkept : redactRun "redacted".toList = "redacted".toList := by decide
  have hsplit : placeholder ++ rest = '<' :: ("redacted".toList ++ '>' :: rest) := rfl
  rw [hsplit, mapRuns_cons_of_not (by decide), mapRuns_append_run hword hbehind, hkept,
    mapRuns_cons_of_not (by decide)]
  rfl

private theorem mapRuns_redactRun_idem (text : List Char) :
    mapRuns isTokenChar redactRun (mapRuns isTokenChar redactRun text) =
      mapRuns isTokenChar redactRun text := by
  apply mapRuns_mapRuns
  intro t rest ht hrest
  by_cases hsecret : looksSecret (Utf8.bytes t) = true
  · rw [redactRun, if_pos hsecret]
    exact mapRuns_placeholder rest
  · have hkept : redactRun t = t := if_neg hsecret
    rw [hkept, mapRuns_append_run ht hrest, hkept]

private theorem exists_of_infix_redacted (hv : Run isTokenChar v) (hlength : 24 ≤ v.length)
    (h : v <:+: mapRuns isTokenChar redactRun text) :
    ∃ pre t post, text = pre ++ t ++ post ∧ Maximal isTokenChar pre t post ∧ v <:+: t ∧
      looksSecret (Utf8.bytes t) = false := by
  obtain ⟨pre, t, post, htext, hmax, hinfix⟩ := exists_maximal_of_infix hv h
  unfold redactRun at hinfix
  split_ifs at hinfix with hsecret
  · have hshort := hinfix.length_le
    have hten : placeholder.length = 10 := by decide
    omega
  · exact ⟨pre, t, post, htext, hmax, hinfix, Bool.eq_false_iff.mpr hsecret⟩

end Recognition

section Hiding

variable {v t : List Char}

def Apart (pre post : List Char) : Prop :=
  EndsOutside isTokenChar pre ∧ StartsOutside isTokenChar post

/-- No report shows the value, wherever it stands apart at all its places. -/
def Hides (v : String) : Prop := ∀ text : String,
  (∀ pre post, text.toList = pre ++ v.toList ++ post → Apart pre post) →
    ∀ out, redactSecrets text = some out → ¬ v.toList <:+: out.toList

/-- No report shows the value, wherever it stands apart at one place. -/
def HidesBeside (v : String) : Prop := ∀ text : String,
  (∃ pre post, text.toList = pre ++ v.toList ++ post ∧ Apart pre post) →
    ∀ out, redactSecrets text = some out → ¬ v.toList <:+: out.toList

theorem hides_iff {v : String} (hv : Run isTokenChar v.toList) (hlength : 24 ≤ v.toList.length) :
    Hides v ↔ looksSecret (Utf8.bytes v.toList) = true := by
  constructor
  · intro hhides
    by_contra hsecret
    -- the value alone is a text in which it stands apart
    have halone : ∀ pre post, v.toList = pre ++ v.toList ++ post → Apart pre post := by
      intro pre post hsame
      have hsize := congrArg List.length hsame
      simp only [List.length_append] at hsize
      obtain rfl : pre = [] := List.length_eq_zero_iff.mp (by omega)
      obtain rfl : post = [] := List.length_eq_zero_iff.mp (by omega)
      exact ⟨endsOutside_nil, startsOutside_nil⟩
    have hkept : redactRun v.toList = v.toList := if_neg hsecret
    have hout := redactSecrets_eq v
    rw [mapRuns_run hv, hkept] at hout
    exact hhides v halone _ hout (by simp)
  · intro hsecret text hapart out hout hinfix
    rw [redactSecrets_eq] at hout
    obtain rfl := Option.some.inj hout
    rw [String.toList_ofList] at hinfix
    obtain ⟨pre, t, post, htext, hmax, ⟨a, b, hab⟩, hplain⟩ :=
      exists_of_infix_redacted hv hlength hinfix
    -- a value that stands apart is the whole of its run
    obtain ⟨hbefore, hafter⟩ := hapart (pre ++ a) (b ++ post) (by rw [htext, ← hab]; simp)
    obtain rfl : a = [] := by
      cases ha : a.getLast? with
      | none => exact List.getLast?_eq_none_iff.mp ha
      | some c =>
        have hc := hbefore c (by simp [List.getLast?_append, ha])
        rw [hmax.run.all c (by simp [← hab, List.mem_of_getLast? ha])] at hc
        cases hc
    obtain rfl : b = [] := by
      cases b with
      | nil => rfl
      | cons c b =>
        have hc := startsOutside_cons.mp hafter
        rw [hmax.run.all c (by simp [← hab])] at hc
        cases hc
    obtain rfl : v.toList = t := by simpa using hab
    rw [hsecret] at hplain
    cases hplain

private theorem hidesBeside_of_telling {v : String} (hv : Run isTokenChar v.toList)
    (hlength : 24 ≤ v.toList.length) (hletter : HasLetter v.toList) (hmark : HasMark v.toList) :
    HidesBeside v := by
  rintro text - out hout hinfix
  rw [redactSecrets_eq] at hout
  obtain rfl := Option.some.inj hout
  rw [String.toList_ofList] at hinfix
  obtain ⟨pre, t, post, -, hmax, hvt, hplain⟩ := exists_of_infix_redacted hv hlength hinfix
  obtain ⟨x, hx, hxletter⟩ := hletter
  obtain ⟨y, hy, hymark⟩ := hmark
  have htelling : Telling t := Or.inr ⟨⟨x, hvt.subset hx, hxletter⟩, ⟨y, hvt.subset hy, hymark⟩⟩
  rw [(looksSecret_iff hmax.run (hlength.trans hvt.length_le)).mpr (Or.inr htelling)] at hplain
  cases hplain

private theorem not_hidesBeside {v : String} (hv : Run isTokenChar v.toList) {c : Char}
    (hc : isTokenChar c = true) (hplain : looksSecret (Utf8.bytes (c :: v.toList)) = false) :
    ¬ HidesBeside v := by
  intro hhides
  have hlonger : Run isTokenChar (c :: v.toList) :=
    ⟨List.cons_ne_nil _ _, List.forall_mem_cons.mpr ⟨hc, hv.all⟩⟩
  have hbehind : StartsOutside isTokenChar (' ' :: v.toList) := startsOutside_cons.mpr (by decide)
  have hkept : redactRun (c :: v.toList) = c :: v.toList :=
    if_neg (Bool.eq_false_iff.mp hplain)
  let text := String.ofList (c :: v.toList ++ ' ' :: v.toList)
  have htext : text.toList = c :: v.toList ++ ' ' :: v.toList := String.toList_ofList
  refine hhides text ⟨c :: v.toList ++ [' '], [], ?_, ?_, startsOutside_nil⟩ _
    (redactSecrets_eq text) ?_
  · rw [htext]
    simp
  · exact endsOutside_concat.mpr (by decide)
  · rw [String.toList_ofList, htext, mapRuns_append_run hlonger hbehind, hkept]
    exact ⟨[c], _, rfl⟩

private theorem looksLikeUuid_dash (bs : List UInt8) : looksLikeUuid (45 :: bs) = false := by
  have hsplit : (45 :: bs).splitOn 45 = [] :: bs.splitOn 45 := by
    simpa using List.splitOn_append_cons_self [] bs
  unfold looksLikeUuid
  rw [hsplit]
  simp

private theorem looksLikeUuid_of_notMem {tok : List UInt8} (h : 45 ∉ tok) :
    looksLikeUuid tok = false := by
  unfold looksLikeUuid
  rw [List.splitOn_eq_singleton h]
  simp

private theorem hasMark_of_dash (hv : Run isTokenChar v) (h : 45 ∈ Utf8.bytes v) : HasMark v := by
  rw [bytes_run hv] at h
  obtain ⟨c, hc, hdash⟩ := List.mem_map.mp h
  have htest := (ascii_tests (lt_of_isTokenChar (hv.all c hc))).2.2.2
  rw [hdash] at htest
  exact ⟨c, hc, htest.symm⟩

private theorem looksSecret_cons_eq_false {c : Char} (hv : Run isTokenChar v)
    (hlength : 24 ≤ v.length)
    (hc : isTokenChar c = true) (huuid : looksLikeUuid (Utf8.bytes (c :: v)) = false)
    (hhex : isAsciiHexDigit c = false) (hmixed : ¬ (HasLetter (c :: v) ∧ HasMark (c :: v))) :
    looksSecret (Utf8.bytes (c :: v)) = false := by
  have hlonger : Run isTokenChar (c :: v) :=
    ⟨List.cons_ne_nil _ _, List.forall_mem_cons.mpr ⟨hc, hv.all⟩⟩
  rw [Bool.eq_false_iff, ne_eq, looksSecret_iff hlonger (by simp; omega)]
  rintro (huuid' | hall | hboth)
  · rw [huuid] at huuid'
    cases huuid'
  · rw [hall c List.mem_cons_self] at hhex
    cases hhex
  · exact hmixed hboth

theorem hidesBeside_iff {v : String} (hv : Run isTokenChar v.toList)
    (hlength : 24 ≤ v.toList.length) :
    HidesBeside v ↔ HasLetter v.toList ∧ HasMark v.toList := by
  constructor
  · intro hhides
    constructor
    · by_contra hletter
      -- a `-` before a value without letters
      refine not_hidesBeside hv (c := '-') (by decide) ?_ hhides
      refine looksSecret_cons_eq_false hv hlength (by decide) ?_ (by decide) ?_
      · exact looksLikeUuid_dash _
      · rintro ⟨hlonger, -⟩
        exact hletter ((hasLetter_cons.mp hlonger).resolve_left (by decide))
    · by_contra hmark
      -- a letter before a value of letters
      refine not_hidesBeside hv (c := 'g') (by decide) ?_ hhides
      refine looksSecret_cons_eq_false hv hlength (by decide) ?_ (by decide) ?_
      · refine looksLikeUuid_of_notMem fun hdash => hmark ?_
        have hlonger : Run isTokenChar ('g' :: v.toList) :=
          ⟨List.cons_ne_nil _ _, List.forall_mem_cons.mpr ⟨by decide, hv.all⟩⟩
        exact (hasMark_cons.mp (hasMark_of_dash hlonger hdash)).resolve_left (by decide)
      · rintro ⟨-, hlonger⟩
        exact hmark ((hasMark_cons.mp hlonger).resolve_left (by decide))
  · rintro ⟨hletter, hmark⟩
    exact hidesBeside_of_telling hv hlength hletter hmark

end Hiding

section Credentials

inductive Generated : String → Prop
  | subscriptionToken (random : Vector UInt8 20) : Generated (generateSubscriptionToken random)
  | uuid (random : Vector UInt8 16) : Generated (generateUuidV4 random)
  | hysteria2Password (random : Vector UInt8 24) : Generated (generateHysteria2Password random)
  | realityKey (key : Vector UInt8 32) : Generated (encodeRealityKey key)

private theorem isTokenChar_of_isAsciiHexDigit {c : Char} (hc : isAsciiHexDigit c = true) :
    isTokenChar c = true :=
  Utf8.ascii_forall (P := fun c => isAsciiHexDigit c = true → isTokenChar c = true) (by decide)
    (lt_of_isAsciiHexDigit hc) hc

private theorem bytes_allHex {v : List Char} (hv : AllHex v) :
    (Utf8.bytes v).length = v.length ∧ (Utf8.bytes v).all isAsciiHexdigit = true ∧
      45 ∉ Utf8.bytes v := by
  have hlt : ∀ c ∈ v, c.toNat < 128 := fun c hc => lt_of_isAsciiHexDigit (hv c hc)
  have hhex : ∀ b ∈ Utf8.bytes v, isAsciiHexdigit b = true := by
    rw [Utf8.bytes_of_lt hlt]
    intro b hb
    obtain ⟨c, hc, rfl⟩ := List.mem_map.mp hb
    rw [(ascii_tests (hlt c hc)).2.1]
    exact hv c hc
  refine ⟨?_, List.all_eq_true.mpr hhex, fun hdash => ?_⟩
  · rw [Utf8.bytes_of_lt hlt, List.length_map]
  · exact absurd (hhex 45 hdash) (by decide)

private theorem looksLikeUuid_join {p₁ p₂ p₃ p₄ p₅ : List UInt8}
    (hdash : 45 ∉ p₁ ∧ 45 ∉ p₂ ∧ 45 ∉ p₃ ∧ 45 ∉ p₄ ∧ 45 ∉ p₅)
    (hlength : p₁.length = 8 ∧ p₂.length = 4 ∧ p₃.length = 4 ∧ p₄.length = 4 ∧ p₅.length = 12)
    (hhex : p₁.all isAsciiHexdigit ∧ p₂.all isAsciiHexdigit ∧ p₃.all isAsciiHexdigit ∧
      p₄.all isAsciiHexdigit ∧ p₅.all isAsciiHexdigit) :
    looksLikeUuid (p₁ ++ 45 :: (p₂ ++ 45 :: (p₃ ++ 45 :: (p₄ ++ 45 :: p₅)))) = true := by
  obtain ⟨h₁, h₂, h₃, h₄, h₅⟩ := hdash
  have hsplit : (p₁ ++ 45 :: (p₂ ++ 45 :: (p₃ ++ 45 :: (p₄ ++ 45 :: p₅)))).splitOn 45 =
      [p₁, p₂, p₃, p₄, p₅] := by
    simp only [List.splitOn_append_cons_self, List.splitOn_eq_singleton h₁,
      List.splitOn_eq_singleton h₂, List.splitOn_eq_singleton h₃, List.splitOn_eq_singleton h₄,
      List.splitOn_eq_singleton h₅]
    rfl
  unfold looksLikeUuid
  rw [hsplit]
  simp [hlength, hhex]

private theorem looksLikeUuid_generateUuidV4 (random : Vector UInt8 16) :
    looksLikeUuid (Utf8.bytes (generateUuidV4 random).toList) = true := by
  unfold generateUuidV4
  dsimp only
  generalize hbytes : ((random.set 6 (random[6] &&& 0x0f ||| 0x40)).set 8
    (random[8] &&& 0x3f ||| 0x80)).toList = bytes
  have hlength : bytes.length = 16 := by
    rw [← hbytes, Vector.length_toList]
  have hgroup : ∀ group : List UInt8,
      (Utf8.bytes (hexEncode group).toList).length = 2 * group.length ∧
        (Utf8.bytes (hexEncode group).toList).all isAsciiHexdigit = true ∧
        45 ∉ Utf8.bytes (hexEncode group).toList := by
    intro group
    rw [← length_toList_hexEncode]
    exact bytes_allHex fun c => isAsciiHexDigit_of_mem_hexEncode
  have hsize := fun group => (hgroup group).1
  have hdash : "-".toList = ['-'] := rfl
  have hcode : String.utf8EncodeChar '-' = [45] := rfl
  simp only [String.toList_append, hdash, List.append_assoc, List.singleton_append,
    Utf8.bytes_append, Utf8.bytes_cons, hcode]
  refine looksLikeUuid_join ⟨(hgroup _).2.2, (hgroup _).2.2, (hgroup _).2.2, (hgroup _).2.2,
    (hgroup _).2.2⟩ ?_ ⟨(hgroup _).2.1, (hgroup _).2.1, (hgroup _).2.1, (hgroup _).2.1,
    (hgroup _).2.1⟩
  simp [hsize, hlength]

private theorem isTokenChar_base64Char {n : Nat} (hn : n < 64) : isTokenChar
    (base64Char n) = true := by
  interval_cases n <;> decide

private theorem isTokenChar_of_mem_base64Encode {bytes : List UInt8} {c : Char}
    (hc : c ∈ (base64Encode (bytes.map UInt8.toNat)).toList) : isTokenChar c = true := by
  rw [base64Encode, String.toList_ofList] at hc
  obtain ⟨n, hn, rfl⟩ := List.mem_map.mp hc
  refine isTokenChar_base64Char (lt_of_mem_encodeSextets ?_ n hn)
  intro b hb
  obtain ⟨x, -, rfl⟩ := List.mem_map.mp hb
  exact x.toNat_lt

theorem length_toList_base64Encode (bytes : List UInt8) :
    (base64Encode (bytes.map UInt8.toNat)).toList.length = (4 * bytes.length + 2) / 3 := by
  rw [base64Encode, String.toList_ofList, List.length_map, length_encodeSextets, List.length_map]

private theorem run_of_isTokenChar {v : String} (hlength : 24 ≤ v.toList.length)
    (hv : ∀ c ∈ v.toList, isTokenChar c = true) : Run isTokenChar v.toList := by
  refine ⟨fun hnil => ?_, hv⟩
  rw [hnil, List.length_nil] at hlength
  omega

theorem Generated.length {v : String} (h : Generated v) : 24 ≤ v.toList.length := by
  cases h with
  | subscriptionToken random =>
    unfold generateSubscriptionToken
    rw [length_toList_base64Encode, Vector.length_toList]
    decide
  | uuid random =>
    simp only [generateUuidV4, String.toList_append, List.length_append, length_toList_hexEncode,
      List.length_take, List.length_drop, Vector.length_toList]
    decide
  | hysteria2Password random =>
    rw [generateHysteria2Password, length_toList_hexEncode, Vector.length_toList]
    decide
  | realityKey key =>
    unfold encodeRealityKey
    rw [length_toList_base64Encode, Vector.length_toList]
    decide

theorem Generated.run {v : String} (h : Generated v) : Run isTokenChar v.toList := by
  refine run_of_isTokenChar h.length ?_
  cases h with
  | subscriptionToken random => exact fun c => isTokenChar_of_mem_base64Encode
  | uuid random =>
    intro c hc
    rcases of_mem_generateUuidV4 hc with hhex | rfl
    · exact isTokenChar_of_isAsciiHexDigit hhex
    · decide
  | hysteria2Password random =>
    exact fun c hc => isTokenChar_of_isAsciiHexDigit (isAsciiHexDigit_of_mem_hexEncode hc)
  | realityKey key => exact fun c => isTokenChar_of_mem_base64Encode

private theorem hides_generateUuidV4 (random : Vector UInt8 16) : Hides
    (generateUuidV4 random) := by
  have hgenerated := Generated.uuid random
  rw [hides_iff hgenerated.run hgenerated.length, looksSecret_iff hgenerated.run hgenerated.length]
  exact Or.inl (looksLikeUuid_generateUuidV4 random)

private theorem hides_generateHysteria2Password (random : Vector UInt8 24) :
    Hides (generateHysteria2Password random) := by
  have hgenerated := Generated.hysteria2Password random
  rw [hides_iff hgenerated.run hgenerated.length, looksSecret_iff hgenerated.run hgenerated.length]
  exact Or.inr (Or.inl fun c => isAsciiHexDigit_of_mem_hexEncode)

theorem Generated.hides_iff_telling {v : String} (h : Generated v) (hlength : v.toList.length ≠ 36) :
    Hides v ↔ Telling v.toList := by
  have hnot : looksLikeUuid (Utf8.bytes v.toList) ≠ true := by
    intro hlooks
    have hsize := length_of_looksLikeUuid hlooks
    rw [bytes_run h.run, List.length_map] at hsize
    exact hlength hsize
  rw [hides_iff h.run h.length, looksSecret_iff h.run h.length, or_iff_right hnot]

/-- UUIDs and passwords are always hidden, tokens and keys exactly if they are all hex digits or have
both a letter and a digit, `-` or `_`; beside a longer run that holds the value too, only the
latter. A report is redacted once, and is the text with some of its maximal runs replaced. -/
theorem redaction_iff (uuid : Vector UInt8 16) (password : Vector UInt8 24) (token : Vector UInt8 20)
    (key : Vector UInt8 32) (text : String) :
    Hides (generateUuidV4 uuid) ∧
      Hides (generateHysteria2Password password) ∧
      (Hides (generateSubscriptionToken token) ↔
        Telling (generateSubscriptionToken token).toList) ∧
      (Hides (encodeRealityKey key) ↔ Telling (encodeRealityKey key).toList) ∧
      (∀ v, Generated v → (HidesBeside v ↔ HasLetter v.toList ∧ HasMark v.toList)) ∧
      ∃ out, redactSecrets text = some out ∧ redactSecrets out = some out ∧
        out.toList = mapRuns isTokenChar redactRun text.toList := by
  refine ⟨hides_generateUuidV4 uuid, hides_generateHysteria2Password password, ?_, ?_,
    fun v hv => hidesBeside_iff hv.run hv.length, ?_⟩
  · refine (Generated.subscriptionToken token).hides_iff_telling ?_
    rw [generateSubscriptionToken, length_toList_base64Encode, Vector.length_toList]
    decide
  · refine (Generated.realityKey key).hides_iff_telling ?_
    rw [encodeRealityKey, length_toList_base64Encode, Vector.length_toList]
    decide
  · refine ⟨_, redactSecrets_eq text, ?_, String.toList_ofList⟩
    rw [redactSecrets_eq, String.toList_ofList, mapRuns_redactRun_idem]

/-- A token of letters alone stays in the report. -/
theorem word_token_shown :
    generateSubscriptionToken #v[0x65, 0x96, 0x59, 0x65, 0x96, 0x59, 0x65, 0x96, 0x59, 0x65, 0x96,
        0x59, 0x65, 0x96, 0x59, 0x65, 0x96, 0x59, 0x65, 0x96] = "ZZZZZZZZZZZZZZZZZZZZZZZZZZY" ∧
      redactSecrets "GET /sub/ZZZZZZZZZZZZZZZZZZZZZZZZZZY 200" =
        some "GET /sub/ZZZZZZZZZZZZZZZZZZZZZZZZZZY 200" := by
  constructor
  · decide
  · rw [redactSecrets_eq]
    decide

end Credentials

end Vpn1.Admin
