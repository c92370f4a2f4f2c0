import Mathlib.Data.List.Infix
import Mathlib.Data.List.SplitBy
import Mathlib.Data.List.TakeWhile

/-! Maximal runs of elements with a property, and functions that rewrite them one by one. -/

namespace Runs

variable {α : Type*}

/-- The maximal runs of `p` in order; every other element stands alone. -/
def groups (p : α → Bool) (l : List α) : List (List α) := l.splitBy fun a b => p a && p b

def mapRuns (p : α → Bool) (f : List α → List α) (l : List α) : List α :=
  (groups p l).flatMap fun g => if g.all p then f g else g

/-- No run goes on at the beginning of a list. -/
def StartsOutside (p : α → Bool) (l : List α) : Prop := ∀ a ∈ l.head?, p a = false

def EndsOutside (p : α → Bool) (l : List α) : Prop := ∀ a ∈ l.getLast?, p a = false

structure Run (p : α → Bool) (t : List α) : Prop where
  ne_nil : t ≠ []
  all : ∀ a ∈ t, p a = true

structure Maximal (p : α → Bool) (pre t post : List α) : Prop where
  run : Run p t
  before : EndsOutside p pre
  after : StartsOutside p post

variable {p : α → Bool} {f : List α → List α} {a : α} {l t v pre post rest : List α}

@[simp] theorem startsOutside_nil : StartsOutside p [] := nofun

@[simp] theorem endsOutside_nil : EndsOutside p [] := nofun

theorem startsOutside_cons : StartsOutside p (a :: l) ↔ p a = false := by
  simp [StartsOutside]

theorem endsOutside_concat : EndsOutside p (l ++ [a]) ↔ p a = false := by
  simp [EndsOutside]

theorem Run.not_startsOutside (ht : Run p t) (post : List α) : ¬ StartsOutside p (t ++ post) := by
  intro hstart
  cases t with
  | nil => exact ht.ne_nil rfl
  | cons a t =>
    have hfalse := startsOutside_cons.mp hstart
    rw [ht.all a List.mem_cons_self] at hfalse
    cases hfalse

theorem Run.isChain (ht : Run p t) : t.IsChain fun a b => (p a && p b) = true := by
  refine List.Pairwise.isChain (List.pairwise_of_forall_mem_list fun a ha b hb => ?_)
  simp [ht.all a ha, ht.all b hb]

@[simp] theorem groups_nil : groups p [] = [] := rfl

theorem groups_cons_of_not (ha : p a = false) (l : List α) :
    groups p (a :: l) = [a] :: groups p l := by
  unfold groups
  rw [← List.singleton_append, List.splitBy_append]
  · rfl
  · simp [ha]

theorem groups_append_run (ht : Run p t) (hrest : StartsOutside p rest) :
    groups p (t ++ rest) = t :: groups p rest := by
  unfold groups
  rw [List.splitBy_append, List.splitBy_of_isChain ht.ne_nil ht.isChain, List.singleton_append]
  intro a _ b hb
  simp [hrest b hb]

/-- A list is empty, starts outside the runs, or starts with a maximal run. -/
@[elab_as_elim] theorem induction {motive : List α → Prop} (nil : motive [])
    (other : ∀ a l, p a = false → motive l → motive (a :: l))
    (run : ∀ t rest, Run p t → StartsOutside p rest → motive rest → motive (t ++ rest))
    (l : List α) : motive l := by
  induction hn : l.length using Nat.strong_induction_on generalizing l with
  | _ n ih =>
    cases l with
    | nil => exact nil
    | cons a l =>
      cases ha : p a with
      | false => exact other a l ha (ih l.length (by simp [← hn]) l rfl)
      | true =>
        have hrun : Run p ((a :: l).takeWhile p) :=
          ⟨by simp [ha], fun b hb => List.mem_takeWhile_imp hb⟩
        have hrest : StartsOutside p ((a :: l).dropWhile p) := by
          intro b hb
          have hhead := List.head?_dropWhile_not p (a :: l)
          rw [Option.mem_def.mp hb] at hhead
          exact hhead
        have hshorter : ((a :: l).dropWhile p).length < n := by
          rw [← hn, List.dropWhile_cons_of_pos ha, List.length_cons]
          exact Nat.lt_succ_of_le (List.dropWhile_sublist p).length_le
        rw [← List.takeWhile_append_dropWhile (p := p) (l := a :: l)]
        exact run _ _ hrun hrest (ih _ hshorter _ rfl)

@[simp] theorem mapRuns_nil : mapRuns p f [] = [] := rfl

theorem mapRuns_cons_of_not (ha : p a = false) (l : List α) :
    mapRuns p f (a :: l) = a :: mapRuns p f l := by
  unfold mapRuns
  rw [groups_cons_of_not ha, List.flatMap_cons]
  simp [ha]

theorem mapRuns_append_run (ht : Run p t) (hrest : StartsOutside p rest) :
    mapRuns p f (t ++ rest) = f t ++ mapRuns p f rest := by
  have hall : t.all p = true := List.all_eq_true.mpr ht.all
  unfold mapRuns
  rw [groups_append_run ht hrest, List.flatMap_cons, if_pos hall]

theorem mapRuns_run (ht : Run p t) : mapRuns p f t = f t := by
  have happend := mapRuns_append_run (f := f) ht startsOutside_nil
  simpa using happend

/-- What starts outside the runs still does. -/
theorem StartsOutside.mapRuns (hl : StartsOutside p l) : StartsOutside p (mapRuns p f l) := by
  cases l with
  | nil => exact startsOutside_nil
  | cons a l =>
    have ha := startsOutside_cons.mp hl
    rw [mapRuns_cons_of_not ha]
    exact startsOutside_cons.mpr ha

/-- Rewriting twice is rewriting once, if what a run becomes is left alone. -/
theorem mapRuns_mapRuns (hf : ∀ t rest, Run p t → StartsOutside p rest →
    mapRuns p f (f t ++ rest) = f t ++ mapRuns p f rest) (l : List α) :
    mapRuns p f (mapRuns p f l) = mapRuns p f l := by
  induction l using induction (p := p) with
  | nil => rfl
  | other a l ha ih => rw [mapRuns_cons_of_not ha, mapRuns_cons_of_not ha, ih]
  | run t rest ht hrest ih => rw [mapRuns_append_run ht hrest, hf t _ ht hrest.mapRuns, ih]

theorem Run.infix_of_cons (hv : Run p v) (ha : p a = false) (h : v <:+: a :: l) : v <:+: l := by
  rcases List.infix_cons_iff.mp h with hprefix | hinfix
  · cases v with
    | nil => exact List.nil_infix
    | cons b v =>
      obtain ⟨rfl, -⟩ := List.cons_prefix_cons.mp hprefix
      rw [hv.all b List.mem_cons_self] at ha
      cases ha
  · exact hinfix

theorem Run.infix_of_append (hv : Run p v) (hrest : StartsOutside p rest) (h : v <:+: l ++ rest) :
    v <:+: l ∨ v <:+: rest := by
  induction l with
  | nil => exact Or.inr h
  | cons a l ih =>
    rcases List.infix_cons_iff.mp h with hprefix | hinfix
    · have hprefix : v <+: (a :: l) ++ rest := hprefix
      by_cases hlength : v.length ≤ (a :: l).length
      · exact Or.inl (List.prefix_of_prefix_length_le hprefix (List.prefix_append _ _)
          hlength).isInfix
      · -- it would take in the first element behind `l`
        obtain ⟨w, rfl⟩ := List.prefix_of_prefix_length_le (List.prefix_append (a :: l) rest) hprefix
          (by omega)
        cases w with
        | nil => simp at hlength
        | cons b w =>
          obtain ⟨rest', rfl⟩ := (List.prefix_append_right_inj _).mp hprefix
          have hb := startsOutside_cons.mp hrest
          rw [hv.all b (by simp)] at hb
          cases hb
    · rcases ih hinfix with hl | hrest
      · exact Or.inl (List.infix_cons hl)
      · exact Or.inr hrest

/-- A run in the result comes from what some maximal run became. -/
theorem exists_maximal_of_infix (hv : Run p v) (h : v <:+: mapRuns p f l) :
    ∃ pre t post, l = pre ++ t ++ post ∧ Maximal p pre t post ∧ v <:+: f t := by
  induction l using induction (p := p) with
  | nil => exact absurd (List.infix_nil.mp h) hv.ne_nil
  | other a l ha ih =>
    rw [mapRuns_cons_of_not ha] at h
    obtain ⟨pre, t, post, rfl, hmax, hinfix⟩ := ih (hv.infix_of_cons ha h)
    refine ⟨a :: pre, t, post, rfl, ⟨hmax.run, ?_, hmax.after⟩, hinfix⟩
    cases pre with
    | nil => simpa [EndsOutside] using ha
    | cons b pre => exact fun c hc => hmax.before c (by simpa using hc)
  | run t rest ht hrest ih =>
    rw [mapRuns_append_run ht hrest] at h
    rcases hv.infix_of_append hrest.mapRuns h with hfirst | hlater
    · exact ⟨[], t, rest, rfl, ⟨ht, endsOutside_nil, hrest⟩, hfirst⟩
    · obtain ⟨pre, u, post, rfl, hmax, hinfix⟩ := ih hlater
      refine ⟨t ++ pre, u, post, by simp, ⟨hmax.run, ?_, hmax.after⟩, hinfix⟩
      cases pre with
      | nil => exact absurd hrest (hmax.run.not_startsOutside post)
      | cons b pre =>
        intro c hc
        exact hmax.before c (by simpa using hc)

end Runs
