/-! Systems that answer one input at a time, runs of them that may stop early, and two systems that
answer alike for as long as a flag of the first one is up. -/

namespace Vpn1.Stepwise

variable {α β σ τ : Type}

/-- Feed inputs for as long as the answers ask for more. -/
def runWhile (step : α → σ → β × σ) (again : β → Bool) : List α → σ → List β × σ
  | [], s => ([], s)
  | a :: as, s =>
    let r := step a s
    if again r.1 then
      let rest := runWhile step again as r.2
      (r.1 :: rest.1, rest.2)
    else ([r.1], r.2)

def runAll (step : α → σ → β × σ) : List α → σ → List β × σ := runWhile step fun _ => true

theorem runAll_cons (step : α → σ → β × σ) (a : α) (as : List α) (s : σ) :
    runAll step (a :: as) s =
      ((step a s).1 :: (runAll step as (step a s).2).1, (runAll step as (step a s).2).2) := rfl

theorem runAll_append (step : α → σ → β × σ) (as bs : List α) (s : σ) :
    runAll step (as ++ bs) s =
      ((runAll step as s).1 ++ (runAll step bs (runAll step as s).2).1,
        (runAll step bs (runAll step as s).2).2) := by
  induction as generalizing s with
  | nil => rfl
  | cons a as ih => simp only [List.cons_append, runAll_cons, ih]

theorem length_runAll (step : α → σ → β × σ) (as : List α) (s : σ) :
    (runAll step as s).1.length = as.length := by
  induction as generalizing s with
  | nil => rfl
  | cons a as ih => rw [runAll_cons, List.length_cons, List.length_cons, ih]

/-- What holds at first and is kept by each step holds after a run. -/
theorem runAll_invariant {step : α → σ → β × σ} {I : σ → Prop}
    (hstep : ∀ a s, I s → I (step a s).2) (as : List α) {s : σ} (hs : I s) :
    I (runAll step as s).2 := by
  induction as generalizing s with
  | nil => exact hs
  | cons a as ih => exact ih (hstep a s hs)

/-- A run of a system is a run of each system it maps to. -/
theorem runWhile_map {step : α → σ → β × σ} {step' : α → τ → β × τ} (f : σ → τ)
    (hf : ∀ a s, step' a (f s) = Prod.map id f (step a s)) (again : β → Bool) (as : List α) (s : σ) :
    runWhile step' again as (f s) = Prod.map id f (runWhile step again as s) := by
  induction as generalizing s with
  | nil => rfl
  | cons a as ih =>
    simp only [runWhile, hf, Prod.map_fst, Prod.map_snd, id]
    split
    · rw [ih]
      rfl
    · rfl

/-- Answers that are read off other answers are read off the whole run. -/
theorem runWhile_mapAnswer {γ : Type} {step : α → σ → β × σ} {step' : α → σ → γ × σ} (f : β → γ)
    (hf : ∀ a s, step' a s = Prod.map f id (step a s)) (again : γ → Bool) (as : List α) (s : σ) :
    runWhile step' again as s = Prod.map (List.map f) id (runWhile step (again ∘ f) as s) := by
  induction as generalizing s with
  | nil => rfl
  | cons a as ih =>
    simp only [runWhile, hf, Prod.map_fst, Prod.map_snd, id, Function.comp]
    split
    · rw [ih]
      rfl
    · rfl

/-- Every answer of a run is the answer to one of its inputs in some state. -/
theorem exists_of_mem_runWhile {step : α → σ → β × σ} {again : β → Bool} {as : List α} {s : σ} {b : β}
    (hb : b ∈ (runWhile step again as s).1) : ∃ a ∈ as, ∃ t, b = (step a t).1 := by
  induction as generalizing s with
  | nil => simp [runWhile] at hb
  | cons a as ih =>
    simp only [runWhile] at hb
    split at hb
    · rcases List.mem_cons.mp hb with rfl | hrest
      · exact ⟨a, by simp, s, rfl⟩
      · obtain ⟨a', ha', t, ht⟩ := ih hrest
        exact ⟨a', List.mem_cons_of_mem _ ha', t, ht⟩
    · exact ⟨a, by simp, s, List.mem_singleton.mp hb⟩

/-- What a component of the state is after a run, by what each answer does to it. -/
theorem runWhile_foldl {γ : Type} {step : α → σ → β × σ} {f : σ → γ} {g : γ → β → γ}
    {ok : β → Prop} (hstep : ∀ a s, ok (step a s).1 → f (step a s).2 = g (f s) (step a s).1)
    (again : β → Bool) (as : List α) (s : σ) (hok : ∀ b ∈ (runWhile step again as s).1, ok b) :
    f (runWhile step again as s).2 = (runWhile step again as s).1.foldl g (f s) := by
  induction as generalizing s with
  | nil => rfl
  | cons a as ih =>
    simp only [runWhile] at hok ⊢
    split at hok
    · next hagain =>
      obtain ⟨hfirst, hrest⟩ := List.forall_mem_cons.mp hok
      rw [if_pos hagain, List.foldl_cons, ← hstep a s hfirst]
      exact ih _ hrest
    · next hagain =>
      rw [if_neg hagain]
      exact hstep a s (hok _ (List.mem_singleton.mpr rfl))

/-- From related states the two systems give the same answer exactly if the flag stays up, and are
related again. The flag never goes up again. -/
structure Lockstep (step₁ : α → σ → β × σ) (step₂ : α → τ → β × τ) (R : σ → τ → Prop)
    (flag : σ → Bool) : Prop where
  up : ∀ {s t}, R s t → flag s = true
  agree : ∀ {s t} a, R s t → ((step₁ a s).1 = (step₂ a t).1 ↔ flag (step₁ a s).2 = true)
  keep : ∀ {s t} a, R s t → flag (step₁ a s).2 = true → R (step₁ a s).2 (step₂ a t).2
  down : ∀ {s} a, flag s = false → flag (step₁ a s).2 = false

namespace Lockstep

variable {step₁ : α → σ → β × σ} {step₂ : α → τ → β × τ} {R : σ → τ → Prop} {flag : σ → Bool}

theorem runWhile_down (h : Lockstep step₁ step₂ R flag) (again : β → Bool) (as : List α) {s : σ}
    (hs : flag s = false) : flag (runWhile step₁ again as s).2 = false := by
  induction as generalizing s with
  | nil => exact hs
  | cons a as ih =>
    have hnext := h.down a hs
    simp only [runWhile]
    split
    · exact ih hnext
    · exact hnext

theorem runWhile_agree (h : Lockstep step₁ step₂ R flag) (again : β → Bool) (as : List α) {s : σ}
    {t : τ} (hst : R s t) :
    ((runWhile step₁ again as s).1 = (runWhile step₂ again as t).1 ↔
        flag (runWhile step₁ again as s).2 = true) ∧
      (flag (runWhile step₁ again as s).2 = true →
        R (runWhile step₁ again as s).2 (runWhile step₂ again as t).2) := by
  induction as generalizing s t with
  | nil => exact ⟨iff_of_true rfl (h.up hst), fun _ => hst⟩
  | cons a as ih =>
    have hagree := h.agree a hst
    simp only [runWhile]
    cases hflag : flag (step₁ a s).2 with
    | false =>
      -- the first answers differ already, and the flag is down for good
      have hne : (step₁ a s).1 ≠ (step₂ a t).1 := fun heq => by simp [hagree.mp heq] at hflag
      have hdown := h.runWhile_down again as hflag
      split <;> split <;> simp [hne, hflag, hdown]
    | true =>
      have hkeep := h.keep a hst hflag
      obtain ⟨ihagree, ihkeep⟩ := ih hkeep
      rw [← hagree.mpr hflag]
      split
      · simp only [List.cons.injEq, true_and]
        exact ⟨ihagree, ihkeep⟩
      · exact ⟨iff_of_true rfl hflag, fun _ => hkeep⟩

/-- Runs are steps of their own. -/
theorem run (h : Lockstep step₁ step₂ R flag) (again : β → Bool) :
    Lockstep (runWhile step₁ again) (runWhile step₂ again) R flag where
  up := h.up
  agree as hst := (h.runWhile_agree again as hst).1
  keep as hst := (h.runWhile_agree again as hst).2
  down as hs := h.runWhile_down again as hs

end Lockstep

end Vpn1.Stepwise
