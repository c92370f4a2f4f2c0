import Mathlib.Data.List.Sort
import Mathlib.Data.List.TakeWhile

/-! Links of the form `scheme://user@host:port?key=value&…#label` with their parts put in as they
are, and where such a text is cut again. -/

namespace ShareLink

section Cutting

variable {p : Char → Bool} {l rest : List Char} {d : Char}

theorem takeWhile_append_cons (hl : ∀ c ∈ l, p c = true) (hd : p d = false) :
    (l ++ d :: rest).takeWhile p = l := by
  rw [List.takeWhile_append_of_pos hl, List.takeWhile_cons_of_neg (by simp [hd]), List.append_nil]

theorem dropWhile_append_cons (hl : ∀ c ∈ l, p c = true) (hd : p d = false) :
    (l ++ d :: rest).dropWhile p = d :: rest := by
  rw [List.dropWhile_append_of_pos hl, List.dropWhile_cons_of_neg (by simp [hd])]

theorem forall_bne (hd : d ∉ l) : ∀ c ∈ l, (c != d) = true := by
  intro c hc
  rw [bne_iff_ne]
  rintro rfl
  exact hd hc

end Cutting

section Writing

/-- The authority ends before a path, a query or a fragment. -/
def hostChar (c : Char) : Bool := c != '/' && c != '?' && c != '#'

/-- A query ends where the fragment starts. -/
def cut (query : List Char) : List Char := query.takeWhile (· != '#')

/-- A link with the parts put in as they are. -/
def put (scheme user host port query label : List Char) : List Char :=
  scheme ++ [':', '/', '/'] ++ (user ++ '@' :: (host ++ ':' :: (port ++ '?' :: (query ++ '#' :: label))))

theorem dropPrefix?_append_self (front rest : List Char) :
    (front ++ rest).dropPrefix? front = some rest :=
  List.dropPrefix?_eq_some_iff.mpr ⟨front, rfl, by simp⟩

end Writing

section Parameters

/-- A value ends before the next parameter or the fragment. -/
def valueChar (c : Char) : Bool := c != '&' && c != '#'

/-- A list splits first where its first separator is. -/
theorem splitOn_eq_cons (a : Char) (l : List Char) :
    ∃ tail, l.splitOn a = l.takeWhile (· != a) :: tail := by
  have hclear : ∀ c ∈ l.takeWhile (· != a), (c == a) = false := by
    intro c hc
    simpa using List.mem_takeWhile_imp hc
  have hsplit := List.takeWhile_append_dropWhile (p := (· != a)) (l := l)
  cases hdrop : l.dropWhile (· != a) with
  | nil =>
    rw [hdrop, List.append_nil] at hsplit
    rw [hsplit] at hclear ⊢
    exact ⟨[], List.splitOnP_eq_singleton hclear⟩
  | cons c rest =>
    have hc : (c == a) = true := by
      have := List.head_dropWhile_not (fun x => x != a) (l := l) (by simp [hdrop])
      simpa [hdrop] using this
    refine ⟨rest.splitOn a, ?_⟩
    conv_lhs => rw [← hsplit, hdrop]
    exact List.splitOnP_append_cons_of_forall_mem hclear c hc rest

/-- A parameter that cannot be mistaken for two, or for the fragment. -/
def Clear (p : List Char × List Char) : Prop := ∀ c ∈ p.1 ++ '=' :: p.2, valueChar c = true

instance (p : List Char × List Char) : Decidable (Clear p) := List.decidableBAll _ _

theorem Clear.mk {name value : List Char} (hname : ∀ c ∈ name, valueChar c = true)
    (hvalue : ∀ c ∈ value, valueChar c = true) : Clear (name, value) := by
  intro c hc
  rcases List.mem_append.mp hc with hc | hc
  · exact hname c hc
  · rcases List.mem_cons.mp hc with rfl | hc
    · rfl
    · exact hvalue c hc

theorem Clear.bne_hash {p : List Char × List Char} (h : Clear p) :
    ∀ c ∈ p.1 ++ '=' :: p.2, (c != '#') = true := by
  intro c hc
  exact ((Bool.and_eq_true _ _).mp (h c hc)).2

theorem Clear.beq_amp {p : List Char × List Char} (h : Clear p) :
    ∀ c ∈ p.1 ++ '=' :: p.2, (c == '&') = false := by
  intro c hc
  have := ((Bool.and_eq_true _ _).mp (h c hc)).1
  simpa using this

/-- Parameters with the values put in as they are. -/
def query : List (List Char × List Char) → List Char
  | [] => []
  | [p] => p.1 ++ '=' :: p.2
  | p :: q :: rest => p.1 ++ '=' :: p.2 ++ '&' :: query (q :: rest)

variable {key rest : List Char}

/-- The first parameter reaches up to what ends its value. -/
theorem takeWhile_cut (hkey : ∀ c ∈ key, valueChar c = true) :
    (cut (key ++ '=' :: rest)).takeWhile (· != '&') = (key ++ ['=']) ++ rest.takeWhile valueChar := by
  have hfront : ∀ c ∈ key ++ ['='], valueChar c = true := by
    intro c hc
    rcases List.mem_append.mp hc with hc | hc
    · exact hkey c hc
    · rw [List.mem_singleton.mp hc]
      rfl
  have hand : (fun c => decide ((c != '&') = true ∧ (c != '#') = true)) = valueChar := by
    funext c
    simp [valueChar, bne, beq_eq_decide]
  rw [cut, List.takeWhile_takeWhile, hand, ← List.takeWhile_append_of_pos hfront]
  simp

/-- A parameter in which nothing ends it too early is a piece of its own. -/
theorem splitOn_cut {p : List Char × List Char} (hclear : Clear p) :
    (cut (p.1 ++ '=' :: p.2 ++ '&' :: rest)).splitOn '&' =
      (p.1 ++ '=' :: p.2) :: (cut rest).splitOn '&' := by
  have hcut : cut (p.1 ++ '=' :: p.2 ++ '&' :: rest) = p.1 ++ '=' :: p.2 ++ '&' :: cut rest := by
    rw [cut, List.takeWhile_append_of_pos hclear.bne_hash]
    rfl
  rw [hcut]
  exact List.splitOnP_append_cons_of_forall_mem hclear.beq_amp '&' (by decide) _

theorem query_cons {p : List Char × List Char} {ps : List (List Char × List Char)} (h : ps ≠ []) :
    query (p :: ps) = p.1 ++ '=' :: p.2 ++ '&' :: query ps := by
  cases ps with
  | nil => exact absurd rfl h
  | cons q ps => rfl

/-- A value that is read back as it was put in. -/
def Safe (value : List Char) : Prop := (∀ c ∈ value, valueChar c = true) ∧ '%' ∉ value

instance (value : List Char) : Decidable (Safe value) :=
  @instDecidableAnd _ _ (List.decidableBAll _ _) inferInstance

theorem forall_mem_query_iff (P : Char → Prop) (ps : List (List Char × List Char)) (heq : P '=')
    (hamp : P '&') :
    (∀ c ∈ query ps, P c) ↔ ∀ p ∈ ps, (∀ c ∈ p.1, P c) ∧ ∀ c ∈ p.2, P c := by
  have hpiece (p : List Char × List Char) :
      (∀ c ∈ p.1 ++ '=' :: p.2, P c) ↔ (∀ c ∈ p.1, P c) ∧ ∀ c ∈ p.2, P c := by
    simp only [List.forall_mem_append, List.forall_mem_cons, heq, true_and]
  fun_induction query ps with
  | case1 => simp
  | case2 p => simp only [hpiece, List.forall_mem_singleton]
  | case3 p q rest ih =>
    rw [List.forall_mem_append, hpiece, List.forall_mem_cons, List.forall_mem_cons]
    simp only [hamp, true_and]
    exact and_congr Iff.rfl ih

end Parameters

section Lines

variable {a : Char} {l l₁ l₂ x y : List Char}

theorem splitOn_eq_singleton_iff : l.splitOn a = [x] ↔ x = l ∧ a ∉ l := by
  constructor
  · intro h
    have hjoin : [a].intercalate (l.splitOn a) = l := List.intercalate_splitOn a
    rw [h] at hjoin
    obtain rfl : x = l := by simpa using hjoin
    obtain ⟨tail, htail⟩ := splitOn_eq_cons a x
    have hwhole : x.takeWhile (· != a) = x := (List.cons.inj (htail.symm.trans h)).1
    refine ⟨rfl, fun ha => ?_⟩
    have := List.takeWhile_eq_self_iff.mp hwhole a ha
    simp at this
  · rintro ⟨rfl, ha⟩
    refine List.splitOnP_eq_singleton fun c hc => ?_
    rw [beq_eq_false_iff_ne]
    rintro rfl
    exact ha hc

/-- Two lines are told apart exactly if neither holds a line break. -/
theorem splitOn_eq_pair_iff :
    (l₁ ++ a :: l₂).splitOn a = [x, y] ↔ (x = l₁ ∧ a ∉ l₁) ∧ y = l₂ ∧ a ∉ l₂ := by
  have hsplit : (l₁ ++ a :: l₂).splitOn a = l₁.splitOn a ++ l₂.splitOn a :=
    List.splitOnP_append_cons l₁ l₂ (beq_self_eq_true a)
  rw [hsplit, ← splitOn_eq_singleton_iff, ← splitOn_eq_singleton_iff]
  constructor
  · intro h
    obtain ⟨s, tail, hs⟩ := List.exists_cons_of_ne_nil (List.splitOnP_ne_nil (· == a) l₁)
    obtain ⟨t, tail', ht⟩ := List.exists_cons_of_ne_nil (List.splitOnP_ne_nil (· == a) l₂)
    have hs : l₁.splitOn a = s :: tail := hs
    have ht : l₂.splitOn a = t :: tail' := ht
    rw [hs, ht] at h ⊢
    simp only [List.cons_append, List.cons.injEq] at h
    cases tail with
    | nil => simpa using h
    | cons b tail => simp at h
  · rintro ⟨hx, hy⟩
    rw [hx, hy]
    rfl

variable {scheme user host port text label : List Char}

theorem notMem_put_iff (ha : a ∉ [':', '/', '@', '?', '#']) :
    a ∉ put scheme user host port text label ↔
      a ∉ scheme ∧ a ∉ user ∧ a ∉ host ∧ a ∉ port ∧ a ∉ text ∧ a ∉ label := by
  simp only [List.mem_cons, List.not_mem_nil, or_false, not_or] at ha
  simp [put, ha]

theorem notMem_query_iff {ps : List (List Char × List Char)} (ha : a ∉ ['=', '&']) :
    a ∉ query ps ↔ ∀ p ∈ ps, a ∉ p.1 ∧ a ∉ p.2 := by
  simp only [List.mem_cons, List.not_mem_nil, or_false, not_or] at ha
  have hall := forall_mem_query_iff (a ≠ ·) ps ha.1 ha.2
  simpa only [List.forall_mem_ne] using hall

end Lines

end ShareLink
