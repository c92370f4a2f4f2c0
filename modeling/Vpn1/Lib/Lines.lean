import Mathlib.Data.List.Basic
import Mathlib.Data.List.Induction
import Mathlib.Data.List.Infix

/-! Text over any characters as lines, as `grep` and `awk` see it, and as words between blanks, as a
`case` pattern of the shell finds them. -/

namespace Lines

variable {α : Type} [DecidableEq α]

section Text

variable (nl blank : α)

/-- The lines of a text. The last one need not have an end. -/
def lines : List α → List (List α)
  | [] => []
  | c :: cs =>
    if c = nl then [] :: lines cs
    else
      match lines cs with
      | [] => [[c]]
      | l :: ls => (c :: l) :: ls

def unlines (ls : List (List α)) : List α := ls.flatMap (· ++ [nl])

def spaced (words : List (List α)) : List α := words.flatMap (· ++ [blank])

/-- `case " $text " in *" $word "*)`. -/
def hasWord (text word : List α) : Bool :=
  decide ((blank :: (word ++ [blank])) <:+: (blank :: (text ++ [blank])))

/-- The words of a text, as an unquoted expansion of the shell hands them on. -/
def words (text : List α) : List (List α) := (text.splitOn blank).filter (· ≠ [])

/-- Put a word at the end of a text, unless the text has it: `${text:+$text }$word`. -/
def addWord (text word : List α) : List α :=
  if hasWord blank text word then text
  else (if text = [] then [] else text ++ [blank]) ++ word

end Text

section Line

variable {nl : α}

theorem lines_append {l : List α} (hl : nl ∉ l) (cs : List α) :
    lines nl (l ++ nl :: cs) = l :: lines nl cs := by
  induction l with
  | nil => simp [lines]
  | cons c l ih =>
    rw [List.mem_cons, not_or] at hl
    rw [List.cons_append, lines, if_neg (Ne.symm hl.1), ih hl.2]

theorem lines_unlines {ls : List (List α)} (h : ∀ l ∈ ls, nl ∉ l) :
    lines nl (unlines nl ls) = ls := by
  induction ls with
  | nil => rfl
  | cons l ls ih =>
    obtain ⟨hl, hrest⟩ := List.forall_mem_cons.mp h
    have hcut := lines_append hl (unlines nl ls)
    rw [ih hrest] at hcut
    simpa [unlines] using hcut

omit [DecidableEq α] in
theorem unlines_append (ls ms : List (List α)) :
    unlines nl (ls ++ ms) = unlines nl ls ++ unlines nl ms := List.flatMap_append

omit [DecidableEq α] in
theorem append_mark_inj {a b x y : List α} {c : α} (ha : c ∉ a) (hb : c ∉ b)
    (h : a ++ c :: x = b ++ c :: y) : a = b ∧ x = y := by
  rcases List.append_eq_append_iff.mp h with ⟨z, rfl, hz⟩ | ⟨z, rfl, hz⟩
  · cases z with
    | nil => simpa using hz
    | cons d z =>
      obtain rfl := (List.cons.inj hz).1
      simp at hb
  · cases z with
    | nil => simpa [eq_comm] using hz
    | cons d z =>
      obtain rfl := (List.cons.inj hz).1
      simp at ha

omit [DecidableEq α] in
theorem prefix_mark_iff {a b : List α} {c : α} (ha : c ∉ a) (hb : c ∉ b) (rest : List α) :
    a ++ [c] <+: b ++ c :: rest ↔ a = b := by
  constructor
  · rintro ⟨tail, htail⟩
    rw [List.append_assoc, List.singleton_append] at htail
    exact (append_mark_inj ha hb htail).1
  · rintro rfl
    exact ⟨rest, by simp⟩

end Line

section Word

variable {blank : α}

omit [DecidableEq α] in
theorem infix_spaced_iff {words : List (List α)} (hwords : ∀ w ∈ words, blank ∉ w)
    {word : List α} (hword : blank ∉ word) :
    (blank :: (word ++ [blank])) <:+: (blank :: spaced blank words) ↔ word ∈ words := by
  induction words with
  | nil =>
    constructor
    · intro h
      have hlength := h.length_le
      simp [spaced] at hlength
    · intro h
      cases h
  | cons w words ih =>
    obtain ⟨hw, hrest⟩ := List.forall_mem_cons.mp hwords
    have hsplit : blank :: spaced blank (w :: words) = blank :: (w ++ blank :: spaced blank words) := by
      simp [spaced]
    rw [hsplit, List.mem_cons]
    constructor
    · rintro ⟨front, tail, h⟩
      cases front with
      | nil =>
        have hbehind : word ++ blank :: tail = w ++ blank :: spaced blank words := by simpa using h
        exact .inl (append_mark_inj hword hw hbehind).1
      | cons c front =>
        have hbehind : front ++ blank :: (word ++ blank :: tail) = w ++ blank :: spaced blank words := by
          simpa using (List.cons.inj h).2
        -- the first word has no blank, so the one that was found begins behind it
        right
        apply (ih hrest).mp
        rcases List.append_eq_append_iff.mp hbehind with ⟨z, hz, hfound⟩ | ⟨z, -, hfound⟩
        · cases z with
          | nil => exact ⟨[], tail, by simpa using hfound⟩
          | cons d z =>
            obtain rfl := (List.cons.inj hfound).1
            simp [hz] at hw
        · exact ⟨z, tail, by simpa using hfound.symm⟩
    · rintro (rfl | hmem)
      · exact ⟨[], spaced blank words, by simp⟩
      · exact ((ih hrest).mpr hmem).trans ⟨blank :: w, [], by simp⟩

omit [DecidableEq α] in
theorem intercalate_append_blank {pieces : List (List α)} (h : pieces ≠ []) :
    [blank].intercalate pieces ++ [blank] = spaced blank pieces := by
  induction pieces with
  | nil => exact absurd rfl h
  | cons w pieces ih =>
    cases pieces with
    | nil => simp [spaced]
    | cons v pieces =>
      have hrest := ih (by simp)
      rw [List.intercalate_cons_cons, List.append_assoc, List.append_assoc, hrest]
      simp [spaced]

theorem not_mem_of_mem_splitOn {text : List α} : ∀ piece ∈ text.splitOn blank, blank ∉ piece := by
  induction text with
  | nil => simp
  | cons c text ih =>
    rw [List.splitOn_cons_eq_if_modifyHead]
    by_cases hc : c = blank
    · rw [if_pos (beq_iff_eq.mpr hc)]
      exact List.forall_mem_cons.mpr ⟨by simp, ih⟩
    · rw [if_neg (by simpa using hc)]
      cases hpieces : text.splitOn blank with
      | nil => exact absurd hpieces (List.splitOn_ne_nil blank text)
      | cons piece pieces =>
        rw [hpieces] at ih
        obtain ⟨hpiece, hrest⟩ := List.forall_mem_cons.mp ih
        have hlonger : blank ∉ c :: piece := by simp [hpiece, Ne.symm hc]
        exact List.forall_mem_cons.mpr ⟨hlonger, hrest⟩

/-- The pattern finds exactly what stands between two blanks, or between a blank and an end. -/
theorem hasWord_iff {text word : List α} (hword : blank ∉ word) :
    hasWord blank text word = true ↔ word ∈ text.splitOn blank := by
  have htext : text ++ [blank] = spaced blank (text.splitOn blank) := by
    rw [← intercalate_append_blank (List.splitOn_ne_nil blank text), List.intercalate_splitOn]
  rw [hasWord, decide_eq_true_eq, htext]
  exact infix_spaced_iff not_mem_of_mem_splitOn hword

theorem words_addWord (text : List α) {word : List α} (hword : blank ∉ word) :
    words blank (addWord blank text word) =
      if word = [] ∨ word ∈ words blank text then words blank text else words blank text ++ [word] := by
  have hmem : word ∈ words blank text ↔ hasWord blank text word = true ∧ word ≠ [] := by
    simp [words, hasWord_iff hword]
  have halone : word.splitOn blank = [word] := List.splitOn_eq_singleton hword
  rw [addWord]
  by_cases hhas : hasWord blank text word = true
  · have hkept : word = [] ∨ word ∈ words blank text := by
      by_cases hnil : word = []
      · exact .inl hnil
      · exact .inr (hmem.mpr ⟨hhas, hnil⟩)
    rw [if_pos hhas, if_pos hkept]
  · rw [if_neg hhas]
    have hnew : word ∉ words blank text := fun h => hhas (hmem.mp h).1
    by_cases htext : text = []
    · subst htext
      -- the empty text has the empty word, so this one is not it
      have hsome : word ≠ [] := by
        rintro rfl
        exact hhas ((hasWord_iff hword).mpr (by simp))
      simp [words, halone, hsome]
    · have hsplit : (text ++ blank :: word).splitOn blank = text.splitOn blank ++ [word] := by
        rw [List.splitOn_append_cons_self, halone]
      rw [if_neg htext, List.append_assoc, List.singleton_append]
      by_cases hnil : word = []
      · rw [if_pos (.inl hnil), words, hsplit]
        simp [words, hnil]
      · rw [if_neg (not_or.mpr ⟨hnil, hnew⟩), words, hsplit]
        simp [words, hnil]

/-- Of words that are added one after the other, each is there once, in the order of its first
addition. -/
theorem words_foldl_addWord {tokens : List (List α)} (h : ∀ t ∈ tokens, blank ∉ t) :
    words blank (tokens.foldl (addWord blank) []) = (tokens.filter (· ≠ [])).eraseDups := by
  induction tokens using List.reverseRecOn with
  | nil => simp [words]
  | append_singleton tokens token ih =>
    obtain ⟨hbefore, htoken⟩ := List.forall_mem_append.mp h
    rw [List.foldl_concat, words_addWord _ (htoken token (by simp)), ih hbefore, List.filter_append,
      List.eraseDups_append]
    by_cases hnil : token = []
    · simp [hnil]
    · by_cases hmem : token ∈ tokens
      · simp [hnil, hmem, List.removeAll]
      · simp [hnil, hmem, List.removeAll, List.eraseDups_cons]

end Word

end Lines
