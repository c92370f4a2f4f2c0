import Mathlib.Logic.Function.Basic
import Vpn1.Lib.Lines
import Vpn1.Lib.Sessions
import Vpn1.Lib.Utf8

/-! The ownership manifest of `ownership.sh`: a file with a line `KEY="value"` for each fact, edited
through `grep`, `awk` and a renamed temporary file. Values are bytes, and `grep` prints no line that
is not text in its locale. -/

namespace Vpn1.Deploy.Ownership

open Traced Session Lines

section Shell

abbrev Bytes := List UInt8

def newline : UInt8 := 0x0a

def blank : UInt8 := 0x20

def quote : UInt8 := 0x22

def equals : UInt8 := 0x3d

/-- Which bytes are text under `LC_ALL`. -/
structure Locale where
  valid : Bytes → Bool
  valid_ascii : ∀ bs : Bytes, (∀ b ∈ bs, b.toNat < 128) → valid bs = true
  valid_append : ∀ as bs : Bytes, valid as = true → valid bs = true → valid (as ++ bs) = true

theorem Locale.valid_of_all (loc : Locale) {bs : Bytes} (h : bs.all (fun b => b.toNat < 128) = true) :
    loc.valid bs = true :=
  loc.valid_ascii bs fun b hb => of_decide_eq_true (List.all_eq_true.mp h b hb)

def isKeyByte (b : UInt8) : Bool :=
  (0x41 ≤ b && b ≤ 0x5a) || (0x30 ≤ b && b ≤ 0x39) || b == 0x5f

/-- Keys are over `[A-Z0-9_]`. None of these characters is special in a pattern of `grep`. -/
abbrev Key := { key : Bytes // ∀ b ∈ key, isKeyByte b = true }

/-- A value stays on its line. No variable of the shell holds a null byte. -/
abbrev Value := { value : Bytes // newline ∉ value ∧ 0 ∉ value }

/-- `OWNERSHIP_FILE` and the file that `mktemp` made for the current call. -/
structure Disk where
  manifest : Option (Bytes)
  tmp : Option (Bytes)
  deriving DecidableEq

def ownershipInit : Session Disk Unit := do
  let s ← Prog.look id
  if s.manifest.isNone then step fun s => { s with manifest := some [] } else pure ()

/-- `grep "^key="` on one line. -/
def isLineOf (key : Key) (line : Bytes) : Bool := (key.1 ++ [equals]).isPrefixOf line

/-- What a command writes reaches the file piece by piece. -/
def appendToTmp (text : Bytes) : Session Disk Unit :=
  Prog.forEach (fun c => step fun s => { s with tmp := s.tmp.map (· ++ [c]) }) text

/-- `printf '%s="%s"\n'`, without the end of the line. -/
def assignment (key : Key) (value : Bytes) : Bytes :=
  key.1 ++ equals :: quote :: (value ++ [quote])

/-- `grep -v "^key="`: a line that is not text only makes the file count as a binary one. -/
def otherLines (loc : Locale) (key : Key) (text : Bytes) : List Bytes :=
  (lines newline text).filter fun line => !isLineOf key line && loc.valid line

def ownershipSet (loc : Locale) (key : Key) (value : Bytes) : Session Disk Unit := do
  ownershipInit
  step fun s => { s with tmp := some [] }
  let s ← Prog.look id
  match s.manifest with
  | some text => appendToTmp (unlines newline (otherLines loc key text))
  | none => pure ()
  appendToTmp (assignment key value ++ [newline])
  -- `mv -f` replaces the manifest in one step
  step fun s => { manifest := s.tmp, tmp := none }

/-- `sub(/\"$/, "", value)`. -/
def stripQuote (value : Bytes) : Bytes :=
  if value.getLast? = some quote then value.dropLast else value

/-- What the `awk` script has found after one more line. -/
def awkStep (key : Key) (found line : Bytes) : Bytes :=
  if (key.1 ++ [equals, quote]).isPrefixOf line then stripQuote (line.drop (key.1.length + 2))
  else found

def ownershipGet (s : Disk) (key : Key) (default : Bytes) : Bytes :=
  match s.manifest with
  | none => default
  | some text =>
    let val := (lines newline text).foldl (awkStep key) []
    if val = [] then default else val

def ownershipMark (loc : Locale) (key : Key) : Session Disk Unit := ownershipSet loc key [0x31]

def ownershipListAdd (loc : Locale) (key : Key) (token : Bytes) : Session Disk Unit := do
  let s ← Prog.look id
  let current := ownershipGet s key []
  if hasWord blank current token then pure ()
  else ownershipSet loc key ((if current = [] then [] else current ++ [blank]) ++ token)

def ownershipSetBaselineOnce (loc : Locale) (key : Key) (value : Bytes) : Session Disk Unit := do
  ownershipInit
  let s ← Prog.look id
  -- `grep -q` finds a line whether it is text or not
  if (lines newline (s.manifest.getD [])).any (isLineOf key) then pure ()
  else ownershipSet loc key value

inductive Op
  | set (value : Value)
  | mark
  | listAdd (token : Value)
  | setBaselineOnce (value : Value)

structure Call where
  key : Key
  op : Op

/-- What is written is text in the locale. -/
def Call.Valid (loc : Locale) (call : Call) : Prop :=
  match call.op with
  | .set value | .listAdd value | .setBaselineOnce value => loc.valid value.1 = true
  | .mark => True

def Call.run (loc : Locale) (call : Call) : Session Disk Unit :=
  match call.op with
  | .set value => ownershipSet loc call.key value.1
  | .mark => ownershipMark loc call.key
  | .listAdd token => ownershipListAdd loc call.key token.1
  | .setBaselineOnce value => ownershipSetBaselineOnce loc call.key value.1

def after (loc : Locale) (calls : List Call) : Disk :=
  calls.foldl (fun s call => (call.run loc s).final) ⟨none, none⟩

end Shell

/-! What the manifest is for: a map, in which each call writes at most its own key. -/

section Map

def one : Value := ⟨[0x31], by decide⟩

def text (held : Option Value) : Bytes := held.elim [] Subtype.val

private theorem not_mem_text (held : Option Value) : newline ∉ text held ∧ 0 ∉ text held := by
  cases held with
  | none => exact ⟨List.not_mem_nil, List.not_mem_nil⟩
  | some value => exact value.2

private theorem not_mem_addWord {b : UInt8} {current token : Bytes} (hb : b ≠ blank)
    (hcurrent : b ∉ current) (htoken : b ∉ token) : b ∉ addWord blank current token := by
  rw [addWord]
  split_ifs <;> simp_all

def addToken (held : Option Value) (token : Value) : Value :=
  ⟨addWord blank (text held) token.1,
    not_mem_addWord (by decide) (not_mem_text held).1 token.2.1,
    not_mem_addWord (by decide) (not_mem_text held).2 token.2.2⟩

def Op.next (held : Option Value) : Op → Option Value
  | .set value => some value
  | .mark => some one
  | .listAdd token =>
    if hasWord blank (text held) token.1 then held else some (addToken held token)
  | .setBaselineOnce value => some (held.getD value)

abbrev Contents := Key → Option Value

def contents (calls : List Call) : Contents := fun key =>
  (calls.filter (·.key = key)).foldl (fun held call => call.op.next held) none

def Contents.get (m : Contents) (key : Key) (default : Bytes) : Bytes :=
  if text (m key) = [] then default else text (m key)

def Call.effect (m : Contents) (call : Call) : Contents :=
  Function.update m call.key (call.op.next (m call.key))

theorem contents_concat (calls : List Call) (call : Call) :
    contents (calls ++ [call]) = call.effect (contents calls) := by
  rw [Call.effect]
  funext key
  by_cases hkey : call.key = key
  · subst hkey
    simp [contents, List.filter_append]
  · rw [Function.update_of_ne (Ne.symm hkey)]
    simp [contents, List.filter_append, hkey]

end Map

section Refinement

variable {loc : Locale}

/-- What the lines of a manifest say about a key: the last one counts. -/
def lastOf (entries : List (Key × Value)) : Contents := fun key =>
  entries.foldl (fun held e => if e.1 = key then some e.2 else held) none

def entryLine (e : Key × Value) : Bytes := assignment e.1 e.2.1

def AllValid (loc : Locale) (entries : List (Key × Value)) : Prop :=
  ∀ e ∈ entries, loc.valid e.2.1 = true

def Disk.Holds (loc : Locale) (s : Disk) (m : Contents) : Prop :=
  ∃ entries : List (Key × Value), s.manifest.getD [] = unlines newline (entries.map entryLine) ∧
    m = lastOf entries ∧ AllValid loc entries

theorem not_mem_key (key : Key) {c : UInt8} (hc : isKeyByte c = false) : c ∉ key.1 := by
  intro hmem
  have hchar := key.2 c hmem
  rw [hc] at hchar
  cases hchar

theorem entryLine_eq (e : Key × Value) :
    entryLine e = e.1.1 ++ equals :: quote :: (e.2.1 ++ [quote]) := rfl

private theorem newline_not_mem_entryLine (e : Key × Value) : newline ∉ entryLine e := by
  have hkey := not_mem_key e.1 (c := newline) (by decide)
  have hequals : newline ≠ equals := by decide
  have hquote : newline ≠ quote := by decide
  simp [entryLine_eq, hkey, e.2.2.1, hequals, hquote]

theorem lines_entries (entries : List (Key × Value)) :
    lines newline (unlines newline (entries.map entryLine)) = entries.map entryLine := by
  apply lines_unlines
  intro line hline
  obtain ⟨e, -, rfl⟩ := List.mem_map.mp hline
  exact newline_not_mem_entryLine e

/-- A key that begins with another one is not taken for it: the sign behind the key tells them
apart. -/
theorem isLineOf_entryLine (key : Key) (e : Key × Value) :
    isLineOf key (entryLine e) = decide (e.1 = key) := by
  have hsign : isKeyByte equals = false := by decide
  have hiff : isLineOf key (entryLine e) = true ↔ key.1 = e.1.1 := by
    rw [isLineOf, List.isPrefixOf_iff_prefix, entryLine_eq]
    exact prefix_mark_iff (not_mem_key key hsign) (not_mem_key e.1 hsign) _
  rw [Bool.eq_iff_iff, hiff, decide_eq_true_eq, Subtype.ext_iff]
  exact eq_comm

private theorem stripQuote_append (value : Bytes) : stripQuote (value ++ [quote]) = value := by
  simp [stripQuote]

private theorem awkStep_entryLine (key : Key) (found : Bytes) (e : Key × Value) :
    awkStep key found (entryLine e) = if e.1 = key then e.2.1 else found := by
  rw [awkStep]
  by_cases hkey : e.1 = key
  · subst hkey
    have hfound : (e.1.1 ++ [equals, quote]).isPrefixOf (entryLine e) = true := by
      rw [List.isPrefixOf_iff_prefix]
      exact ⟨e.2.1 ++ [quote], by simp [entryLine_eq]⟩
    have hdrop : (entryLine e).drop (e.1.1.length + 2) = e.2.1 ++ [quote] := by
      rw [entryLine_eq, ← List.drop_drop, List.drop_left]
      rfl
    rw [if_pos hfound, if_pos rfl, hdrop, stripQuote_append]
  · have hnone : ¬(key.1 ++ [equals, quote]).isPrefixOf (entryLine e) = true := by
      rw [List.isPrefixOf_iff_prefix]
      intro hlong
      have hline : isLineOf key (entryLine e) = true := by
        rw [isLineOf, List.isPrefixOf_iff_prefix]
        exact List.IsPrefix.trans ⟨[quote], by simp⟩ hlong
      rw [isLineOf_entryLine] at hline
      exact hkey (of_decide_eq_true hline)
    rw [if_neg hnone, if_neg hkey]

private theorem foldl_awkStep (key : Key) (entries : List (Key × Value)) :
    (entries.map entryLine).foldl (awkStep key) [] = text (lastOf entries key) := by
  induction entries using List.reverseRecOn with
  | nil => rfl
  | append_singleton entries e ih =>
    rw [List.map_append, List.foldl_append, ih]
    by_cases hkey : e.1 = key
    · simp [awkStep_entryLine, lastOf, hkey, text]
    · simp [awkStep_entryLine, lastOf, hkey]

/-- `ownership_get` reads what the manifest holds. -/
theorem ownershipGet_eq {s : Disk} {m : Contents} (h : s.Holds loc m) (key : Key)
    (default : Bytes) : ownershipGet s key default = m.get key default := by
  obtain ⟨entries, htext, rfl, -⟩ := h
  rw [Contents.get, ownershipGet]
  cases hmanifest : s.manifest with
  | none =>
    rw [hmanifest, Option.getD_none] at htext
    have hfold := foldl_awkStep key entries
    rw [← lines_entries, ← htext] at hfold
    have hempty : text (lastOf entries key) = [] := hfold.symm
    rw [if_pos hempty]
  | some content =>
    rw [hmanifest, Option.getD_some] at htext
    simp only [htext, lines_entries, foldl_awkStep]

private theorem lastOf_replace (entries : List (Key × Value)) (key : Key) (value : Value) :
    lastOf (entries.filter (fun e => !decide (e.1 = key)) ++ [(key, value)]) =
      Function.update (lastOf entries) key (some value) := by
  funext other
  by_cases hother : other = key
  · subst hother
    simp [lastOf]
  · rw [Function.update_of_ne hother, lastOf, List.foldl_append, List.foldl_filter]
    simp only [List.foldl_cons, List.foldl_nil, if_neg (Ne.symm hother)]
    apply List.foldl_ext
    intro held e _
    by_cases he : e.1 = key
    · simp [he, Ne.symm hother]
    · simp [he]

private theorem any_isLineOf (key : Key) (entries : List (Key × Value)) :
    (entries.map entryLine).any (isLineOf key) = (lastOf entries key).isSome := by
  induction entries using List.reverseRecOn with
  | nil => rfl
  | append_singleton entries e ih =>
    rw [List.map_append, List.any_append, ih]
    by_cases hkey : e.1 = key
    · simp [isLineOf_entryLine, lastOf, hkey]
    · simp [isLineOf_entryLine, lastOf, hkey]

theorem wp_appendToTmp (written : Bytes) {s : Disk} {front : Bytes}
    (hs : s.tmp = some front) :
    Wp (appendToTmp written) s (fun _ t => t.manifest = s.manifest)
      (fun r t => r = .ok () ∧ t = ⟨s.manifest, some (front ++ written)⟩) := by
  induction written generalizing s front with
  | nil =>
    simp only [appendToTmp, Prog.forEach, wp_pure, List.append_nil, true_and]
    cases s
    subst hs
    rfl
  | cons c written ih =>
    have hrest := ih (s := ⟨s.manifest, some (front ++ [c])⟩) rfl
    rw [appendToTmp, Prog.forEach, wp_bind, wp_step, hs]
    rw [appendToTmp, List.append_assoc, List.singleton_append] at hrest
    exact ⟨rfl, hrest⟩

theorem wp_ownershipInit (s : Disk) :
    Wp ownershipInit s (fun _ t => t.manifest.getD [] = s.manifest.getD [])
      (fun r t => r = .ok () ∧ t.manifest = some (s.manifest.getD [])) := by
  rw [ownershipInit, wp_look_bind, id]
  cases hmanifest : s.manifest with
  | none =>
    rw [Option.isNone_none, if_pos rfl, wp_step]
    exact ⟨rfl, rfl, rfl⟩
  | some content =>
    rw [Option.isNone_some, if_neg Bool.false_ne_true, wp_pure]
    exact ⟨rfl, hmanifest⟩

def rewritten (loc : Locale) (key : Key) (value text : Bytes) : Bytes :=
  unlines newline (otherLines loc key text) ++ (assignment key value ++ [newline])

theorem ownershipSet_wp (loc : Locale) (key : Key) (value : Bytes) (s : Disk) :
    Wp (ownershipSet loc key value) s
      (fun _ t => t.manifest.getD [] = s.manifest.getD [] ∨
        t.manifest = some (rewritten loc key value (s.manifest.getD [])))
      (fun r t => r = .ok () ∧
        t.manifest = some (rewritten loc key value (s.manifest.getD []))) := by
  rw [ownershipSet]
  apply ((wp_ownershipInit s).mono (fun _ t ht => .inl ht) fun _ _ ht => ht).bind_of_ok
  rintro t hmanifest
  have hold (u : Disk) (hu : u.manifest = t.manifest) : u.manifest.getD [] = s.manifest.getD [] := by
    rw [hu, hmanifest, Option.getD_some]
  rw [wp_bind, wp_step]
  refine ⟨.inl (hold _ rfl), ?_⟩
  rw [wp_look_bind]
  simp only [id, hmanifest]
  apply ((wp_appendToTmp _ rfl).mono (fun _ u hu => .inl (hold u (hu.trans hmanifest.symm)))
    fun _ _ hu => hu).bind_of_ok
  rintro u rfl
  apply ((wp_appendToTmp _ rfl).mono (fun _ u hu => .inl (hold u (hu.trans hmanifest.symm)))
    fun _ _ hu => hu).bind_of_ok
  rintro u rfl
  rw [wp_step]
  exact ⟨.inr rfl, rfl, rfl⟩

private theorem valid_key (key : Key) : loc.valid key.1 = true := by
  apply loc.valid_ascii
  intro b hb
  have hchar := key.2 b hb
  simp only [isKeyByte, Bool.or_eq_true, Bool.and_eq_true, decide_eq_true_eq, beq_iff_eq] at hchar
  have hle : b ≤ 0x5f := by
    rcases hchar with (⟨-, hle⟩ | ⟨-, hle⟩) | rfl
    · exact UInt8.le_trans hle (by decide)
    · exact UInt8.le_trans hle (by decide)
    · decide
  have hnat := UInt8.le_iff_toNat_le.mp hle
  have h5f : (0x5f : UInt8).toNat = 95 := rfl
  omega

private theorem valid_entryLine (e : Key × Value) (he : loc.valid e.2.1 = true) :
    loc.valid (entryLine e) = true := by
  have hparts : entryLine e = e.1.1 ++ [equals, quote] ++ e.2.1 ++ [quote] := by
    simp [entryLine_eq]
  have hsigns : loc.valid [equals, quote] = true := loc.valid_of_all (by decide)
  have hquote : loc.valid [quote] = true := loc.valid_of_all (by decide)
  rw [hparts]
  exact loc.valid_append _ _
    (loc.valid_append _ _ (loc.valid_append _ _ (valid_key e.1) hsigns) he) hquote

private theorem otherLines_entries {entries : List (Key × Value)} (hvalid : AllValid loc entries)
    (key : Key) :
    otherLines loc key (unlines newline (entries.map entryLine)) =
      (entries.filter fun e => !decide (e.1 = key)).map entryLine := by
  rw [otherLines, lines_entries, List.filter_map]
  congr 1
  apply List.filter_congr
  intro e he
  rw [Function.comp_apply, isLineOf_entryLine, valid_entryLine e (hvalid e he), Bool.and_true]

theorem wp_ownershipSet {s : Disk} {m : Contents} (h : s.Holds loc m) (key : Key) (value : Value)
    (hvalue : loc.valid value.1 = true) :
    Wp (ownershipSet loc key value.1) s
      (fun _ t => t.Holds loc m ∨ t.Holds loc (Function.update m key (some value)))
      (fun r t => r = .ok () ∧ t.Holds loc (Function.update m key (some value))) := by
  obtain ⟨entries, htext, rfl, hvalid⟩ := h
  have hnew (t : Disk)
      (ht : t.manifest = some (rewritten loc key value.1 (s.manifest.getD []))) :
      t.Holds loc (Function.update (lastOf entries) key (some value)) := by
    refine ⟨entries.filter (fun e => !decide (e.1 = key)) ++ [(key, value)], ?_,
      (lastOf_replace entries key value).symm, ?_⟩
    · rw [ht, htext, rewritten, otherLines_entries hvalid, List.map_append, unlines_append]
      simp [unlines, entryLine]
    · intro e he
      rcases List.mem_append.mp he with he | he
      · exact hvalid e (List.mem_filter.mp he).1
      · rw [List.mem_singleton.mp he]
        exact hvalue
  refine (ownershipSet_wp loc key value.1 s).mono ?_ fun _ t ht => ⟨ht.1, hnew t ht.2⟩
  rintro _ t (ht | ht)
  · exact .inl ⟨entries, ht.trans htext, rfl, hvalid⟩
  · exact .inr (hnew t ht)

/-- What a manifest holds is text. -/
theorem Disk.Holds.valid {s : Disk} {m : Contents} (h : s.Holds loc m) (key : Key) :
    loc.valid (text (m key)) = true := by
  obtain ⟨entries, -, rfl, hvalid⟩ := h
  have hlast : ∀ held : Option Value, loc.valid (text held) = true →
      loc.valid (text (entries.foldl (fun held e => if e.1 = key then some e.2 else held) held)) =
        true := by
    clear * - hvalid
    induction entries with
    | nil => exact fun _ h => h
    | cons e entries ih =>
      obtain ⟨he, hrest⟩ := List.forall_mem_cons.mp hvalid
      intro held hheld
      rw [List.foldl_cons]
      split_ifs with hkey
      · exact ih hrest _ he
      · exact ih hrest _ hheld
  exact hlast none (loc.valid_ascii [] (by simp))

private theorem valid_addWord {current token : Bytes} (hcurrent : loc.valid current = true)
    (htoken : loc.valid token = true) : loc.valid (addWord blank current token) = true := by
  rw [addWord]
  split_ifs
  · exact hcurrent
  · exact htoken
  · exact loc.valid_append _ _
      (loc.valid_append _ _ hcurrent (loc.valid_of_all (by decide))) htoken

theorem wp_ownershipListAdd {s : Disk} {m : Contents} (h : s.Holds loc m) (key : Key)
    (token : Value) (htoken : loc.valid token.1 = true) :
    Wp (ownershipListAdd loc key token.1) s
      (fun _ t => t.Holds loc m ∨ t.Holds loc (Call.effect m ⟨key, .listAdd token⟩))
      (fun r t => r = .ok () ∧ t.Holds loc (Call.effect m ⟨key, .listAdd token⟩)) := by
  have hcurrent : ownershipGet s key [] = text (m key) := by
    rw [ownershipGet_eq h, Contents.get]
    split_ifs with hempty
    · exact hempty.symm
    · rfl
  rw [ownershipListAdd, wp_look_bind]
  simp only [id, hcurrent]
  by_cases hhas : hasWord blank (text (m key)) token.1 = true
  · have hsame : Call.effect m ⟨key, .listAdd token⟩ = m := by
      rw [Call.effect, Op.next, if_pos hhas, Function.update_eq_self]
    rw [if_pos hhas, wp_pure, hsame]
    exact ⟨rfl, h⟩
  · have hnext : Call.effect m ⟨key, .listAdd token⟩ =
        Function.update m key (some (addToken (m key) token)) := by
      rw [Call.effect, Op.next, if_neg hhas]
    have hvalue : (addToken (m key) token).1 =
        (if text (m key) = [] then [] else text (m key) ++ [blank]) ++ token.1 := by
      dsimp only [addToken]
      rw [addWord, if_neg hhas]
    rw [if_neg hhas, hnext, ← hvalue]
    exact wp_ownershipSet h key (addToken (m key) token) (valid_addWord (h.valid key) htoken)

theorem wp_ownershipSetBaselineOnce {s : Disk} {m : Contents} (h : s.Holds loc m) (key : Key)
    (value : Value) (hvalue : loc.valid value.1 = true) :
    Wp (ownershipSetBaselineOnce loc key value.1) s
      (fun _ t => t.Holds loc m ∨ t.Holds loc (Call.effect m ⟨key, .setBaselineOnce value⟩))
      (fun r t => r = .ok () ∧ t.Holds loc (Call.effect m ⟨key, .setBaselineOnce value⟩)) := by
  obtain ⟨entries, htext, rfl, hvalid⟩ := h
  have hsaid (t : Disk) (ht : t.manifest.getD [] = s.manifest.getD []) :
      t.Holds loc (lastOf entries) := ⟨entries, ht.trans htext, rfl, hvalid⟩
  rw [ownershipSetBaselineOnce]
  apply ((wp_ownershipInit s).mono (fun _ t ht => .inl (hsaid t ht)) fun _ _ ht => ht).bind_of_ok
  intro t hmanifest
  have hholds := hsaid t (by rw [hmanifest, Option.getD_some])
  have hfound : (lines newline (t.manifest.getD [])).any (isLineOf key) =
      (lastOf entries key).isSome := by
    rw [hmanifest, Option.getD_some, htext, lines_entries, any_isLineOf]
  rw [wp_look_bind, id, hfound]
  cases hheld : lastOf entries key with
  | some first =>
    have hsame : Call.effect (lastOf entries) ⟨key, .setBaselineOnce value⟩ = lastOf entries := by
      rw [Call.effect, Op.next, hheld, Option.getD_some, ← hheld, Function.update_eq_self]
    rw [Option.isSome_some, if_pos rfl, wp_pure, hsame]
    exact ⟨rfl, hholds⟩
  | none =>
    have hnext : Call.effect (lastOf entries) ⟨key, .setBaselineOnce value⟩ =
        Function.update (lastOf entries) key (some value) := by
      rw [Call.effect, Op.next, hheld, Option.getD_none]
    rw [Option.isSome_none, if_neg Bool.false_ne_true, hnext]
    exact wp_ownershipSet hholds key value hvalue

theorem Call.wp_run {s : Disk} {m : Contents} (h : s.Holds loc m) (call : Call)
    (hcall : call.Valid loc) :
    Wp (call.run loc) s (fun _ t => t.Holds loc m ∨ t.Holds loc (call.effect m))
      (fun r t => r = .ok () ∧ t.Holds loc (call.effect m)) := by
  obtain ⟨key, op⟩ := call
  cases op with
  | set value => exact wp_ownershipSet h key value hcall
  | mark => exact wp_ownershipSet h key one (loc.valid_of_all (by decide))
  | listAdd token => exact wp_ownershipListAdd h key token hcall
  | setBaselineOnce value => exact wp_ownershipSetBaselineOnce h key value hcall

private theorem after_concat (loc : Locale) (calls : List Call) (call : Call) :
    after loc (calls ++ [call]) = (call.run loc (after loc calls)).final := by
  rw [after, List.foldl_concat]
  rfl

/-- After whole calls the disk holds what the map does. -/
theorem after_holds {calls : List Call} (hcalls : ∀ call ∈ calls, call.Valid loc) :
    (after loc calls).Holds loc (contents calls) := by
  induction calls using List.reverseRecOn with
  | nil => exact ⟨[], rfl, rfl, by simp [AllValid]⟩
  | append_singleton calls call ih =>
    obtain ⟨hbefore, hlast⟩ := List.forall_mem_append.mp hcalls
    rw [after_concat, contents_concat]
    exact (call.wp_run (ih hbefore) (hlast call (by simp))).2.2

private theorem killed_holds {calls : List Call} {last : Call} {s : Disk}
    (hcalls : ∀ call ∈ calls, call.Valid loc) (hlast : last.Valid loc)
    (hs : s ∈ (last.run loc).states (after loc calls)) :
    s.Holds loc (contents calls) ∨ s.Holds loc (contents (calls ++ [last])) := by
  rw [contents_concat]
  exact (last.wp_run (after_holds hcalls) hlast).of_mem_states (.inl (after_holds hcalls))
    (fun _ _ ht => .inr ht.2) hs

end Refinement

section Facts

private theorem foldl_next_baselines {calls : List Call}
    (h : ∀ c ∈ calls, ∃ v, c.op = .setBaselineOnce v) (first : Value) :
    calls.foldl (fun held call => call.op.next held) (some first) = some first := by
  induction calls with
  | nil => rfl
  | cons call calls ih =>
    obtain ⟨⟨v, hv⟩, hrest⟩ := List.forall_mem_cons.mp h
    rw [List.foldl_cons, hv]
    exact ih hrest

private theorem text_foldl_listAdd (key : Key) (tokens : List Value) :
    text ((tokens.map fun token => (⟨key, .listAdd token⟩ : Call)).foldl
      (fun held call => call.op.next held) none) =
      (tokens.map Subtype.val).foldl (addWord blank) [] := by
  induction tokens using List.reverseRecOn with
  | nil => rfl
  | append_singleton tokens token ih =>
    rw [List.map_append, List.map_append, List.foldl_append, List.foldl_append, ← ih]
    simp only [List.map_cons, List.map_nil, List.foldl_cons, List.foldl_nil, Op.next]
    split_ifs with hhas
    · rw [addWord, if_pos hhas]
    · rfl

private theorem contents_baseline {key : Key} {value : Value} {before later : List Call}
    (hbefore : ∀ c ∈ before, c.key ≠ key)
    (hlater : ∀ c ∈ later, c.key = key → ∃ v, c.op = .setBaselineOnce v) :
    contents (before ++ ⟨key, .setBaselineOnce value⟩ :: later) key = some value := by
  have hnone : before.filter (·.key = key) = [] := by
    rw [List.filter_eq_nil_iff]
    intro c hc
    simpa using hbefore c hc
  have hrest : ∀ c ∈ later.filter (·.key = key), ∃ v, c.op = .setBaselineOnce v := by
    intro c hc
    obtain ⟨hmem, hkey⟩ := List.mem_filter.mp hc
    exact hlater c hmem (of_decide_eq_true hkey)
  rw [contents, List.filter_append, hnone, List.nil_append, List.filter_cons_of_pos (by simp),
    List.foldl_cons]
  exact foldl_next_baselines hrest value

private theorem words_contents {calls : List Call} {key : Key} {tokens : List Value}
    (hblank : ∀ t ∈ tokens, blank ∉ t.1)
    (hcalls : calls.filter (·.key = key) = tokens.map fun t => ⟨key, .listAdd t⟩) :
    words blank ((contents calls).get key []) =
      ((tokens.map Subtype.val).filter (· ≠ [])).eraseDups := by
  have hget : (contents calls).get key [] = (tokens.map Subtype.val).foldl (addWord blank) [] := by
    rw [← text_foldl_listAdd key, ← hcalls, Contents.get]
    split_ifs with hempty
    · exact hempty.symm
    · rfl
  rw [hget]
  apply words_foldl_addWord
  intro t ht
  obtain ⟨token, htoken, rfl⟩ := List.mem_map.mp ht
  exact hblank token htoken

/-- The manifest is a map that survives a kill of the `last` call. -/
structure CrashSafe (loc : Locale) (calls : List Call) (last : Call) : Prop where
  /-- `ownership_get` reads the last value that was written, or its default. -/
  get : ∀ key default,
    ownershipGet (after loc calls) key default = (contents calls).get key default
  set : ∀ value default, last.op = .set value →
    ownershipGet (after loc (calls ++ [last])) last.key default =
      if value.1 = [] then default else value.1
  mark : ∀ default, last.op = .mark →
    ownershipGet (after loc (calls ++ [last])) last.key default = [0x31]
  others : ∀ key default, key ≠ last.key →
    ownershipGet (after loc (calls ++ [last])) key default =
      ownershipGet (after loc calls) key default
  /-- A baseline on a new key keeps its value through all later ones. -/
  baseline : ∀ key value before later default,
    calls = before ++ ⟨key, .setBaselineOnce value⟩ :: later → (∀ c ∈ before, c.key ≠ key) →
    (∀ c ∈ later, c.key = key → ∃ v, c.op = .setBaselineOnce v) →
    ownershipGet (after loc calls) key default = if value.1 = [] then default else value.1
  /-- A list key has each of its tokens once, in the order of first addition. -/
  list : ∀ key, ∀ tokens : List Value, (∀ t ∈ tokens, blank ∉ t.1) →
    calls.filter (·.key = key) = tokens.map (fun t => ⟨key, .listAdd t⟩) →
    words blank (ownershipGet (after loc calls) key []) =
      ((tokens.map Subtype.val).filter (· ≠ [])).eraseDups
  killed : ∀ s ∈ (last.run loc).states (after loc calls),
    (∀ key default, ownershipGet s key default = ownershipGet (after loc calls) key default) ∨
    (∀ key default,
      ownershipGet s key default = ownershipGet (after loc (calls ++ [last])) key default)

/-- Values that are text make the manifest a map that survives a kill. -/
theorem manifest_crashSafe (loc : Locale) (calls : List Call) (last : Call)
    (hvalid : ∀ call ∈ calls ++ [last], call.Valid loc) : CrashSafe loc calls last := by
  obtain ⟨hcalls, hlast⟩ := List.forall_mem_append.mp hvalid
  have hold := fun key default => ownershipGet_eq (after_holds hcalls) key default
  have hnew := fun key default => ownershipGet_eq (after_holds hvalid) key default
  refine ⟨hold, ?_, ?_, ?_, ?_, ?_, ?_⟩
  · intro value default hop
    rw [hnew, contents_concat, Contents.get, Call.effect, Function.update_self, hop]
    rfl
  · intro default hop
    rw [hnew, contents_concat, Contents.get, Call.effect, Function.update_self, hop]
    rfl
  · intro key default hkey
    rw [hnew, hold, contents_concat, Contents.get, Call.effect, Function.update_of_ne hkey]
    rfl
  · rintro key value before later default rfl hbefore hlater
    rw [hold, Contents.get, contents_baseline hbefore hlater]
    rfl
  · intro key tokens hblank hfilter
    rw [hold]
    exact words_contents hblank hfilter
  · intro s hs
    rcases killed_holds hcalls (hlast last (by simp)) hs with hs | hs
    · left
      intro key default
      rw [ownershipGet_eq hs, hold]
    · right
      intro key default
      rw [ownershipGet_eq hs, hnew]

end Facts

section Utf8

/-- `C.UTF-8`. -/
def utf8 : Locale where
  valid bs := (Utf8.text? bs).isSome
  valid_ascii _ h := Utf8.isSome_text?_of_ascii h
  valid_append _ _ ha hb := Utf8.isSome_text?_append ha hb

def keyA : Key := ⟨[0x41], List.all_eq_true.mp (by decide)⟩

def keyB : Key := ⟨[0x42], List.all_eq_true.mp (by decide)⟩

theorem manifest_crashSafe_sample : (∀ call ∈ [⟨keyA, .set one⟩, ⟨keyB, .mark⟩],
    Call.Valid utf8 call) ∧ CrashSafe utf8 [⟨keyA, .set one⟩] ⟨keyB, .mark⟩ := by
  have hvalid : ∀ call ∈ [⟨keyA, .set one⟩, ⟨keyB, .mark⟩], Call.Valid utf8 call := by
    intro call hcall
    rcases List.mem_pair.mp hcall with rfl | rfl
    · exact utf8.valid_of_all (by decide)
    · trivial
  exact ⟨hvalid, manifest_crashSafe utf8 [⟨keyA, .set one⟩] ⟨keyB, .mark⟩ hvalid⟩

def undecodable : Value := ⟨[0xff], by decide⟩

/-- A value that is not text is lost when another key is written. -/
theorem undecodable_lost : ¬ ∀ loc calls last, CrashSafe loc calls last := by
  intro hall
  have hother := (hall utf8 [⟨keyA, .set undecodable⟩] ⟨keyB, .mark⟩).others keyA [] (by decide)
  have hline : utf8.valid (assignment keyA undecodable.1) = false := by
    have hff : (0xff : UInt8) ∈ assignment keyA undecodable.1 := by decide
    exact Utf8.isSome_text?_of_mem_ff hff
  have hset (s : Disk) := (ownershipSet_wp utf8 keyB [0x31] s).2.2
  have hfirst : after utf8 [⟨keyA, .set undecodable⟩] =
      ⟨some (assignment keyA undecodable.1 ++ [newline]), none⟩ := rfl
  -- the line of the first key is not among those that `grep -v` prints
  have hnone : otherLines utf8 keyB (assignment keyA undecodable.1 ++ [newline]) = [] := by
    rw [otherLines, lines_append (by decide), lines]
    simp [hline]
  have hsecond : (after utf8 ([⟨keyA, .set undecodable⟩] ++ [⟨keyB, .mark⟩])).manifest =
      some (assignment keyB [0x31] ++ [newline]) := by
    rw [after_concat, hfirst]
    refine (hset _).trans ?_
    rw [rewritten, Option.getD_some, hnone]
    rfl
  rw [ownershipGet, hsecond, hfirst] at hother
  revert hother
  decide

end Utf8

end Vpn1.Deploy.Ownership
