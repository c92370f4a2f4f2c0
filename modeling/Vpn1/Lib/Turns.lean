import Mathlib.Data.Fintype.Basic
import Mathlib.Logic.Function.Basic
import Mathlib.Logic.Relation

/-! Processes that change a shared state one at a time, under a lock that is free again when its
holder is gone. Each of them may be killed at any point. -/

namespace Turns

/-- What a process does next, by its phase and an answer of its surroundings. -/
structure Program (ι S P A : Type) where
  /-- The phases in which it has the lock. -/
  holds : P → Bool
  gone : P
  next : ι → S → P → A → Option (S × P)

structure System (ι S P : Type) where
  shared : S
  phase : ι → P

inductive Event (ι A : Type)
  | run (i : ι) (a : A)
  | kill (i : ι)

variable {ι S P A : Type} [DecidableEq ι] [Fintype ι]

/-- A process that is to take the lock waits until no other has it. -/
def apply (prog : Program ι S P A) (σ : System ι S P) : Event ι A → Option (System ι S P)
  | .run i a =>
    (prog.next i σ.shared (σ.phase i) a).bind fun (s, p) =>
      if prog.holds p && !prog.holds (σ.phase i) && decide (∃ j, prog.holds (σ.phase j)) then none
      else some ⟨s, Function.update σ.phase i p⟩
  | .kill i => some ⟨σ.shared, Function.update σ.phase i prog.gone⟩

/-- An event that is among those considered. -/
def Step (prog : Program ι S P A) (may : System ι S P → Event ι A → Prop) (σ τ : System ι S P) :
    Prop :=
  ∃ e, may σ e ∧ apply prog σ e = some τ

def Reaches (prog : Program ι S P A) (may : System ι S P → Event ι A → Prop) :
    System ι S P → System ι S P → Prop :=
  Relation.ReflTransGen (Step prog may)

def applyIf (prog : Program ι S P A) (may : System ι S P → Event ι A → Prop)
    [∀ σ e, Decidable (may σ e)] (σ : System ι S P) (e : Event ι A) : Option (System ι S P) :=
  if may σ e then apply prog σ e else none

/-- Events that are all considered lead to a state that is reached. -/
theorem reaches_of_foldlM {prog : Program ι S P A} {may : System ι S P → Event ι A → Prop}
    [∀ σ e, Decidable (may σ e)] {σ τ : System ι S P} (events : List (Event ι A))
    (h : events.foldlM (applyIf prog may) σ = some τ) : Reaches prog may σ τ := by
  induction events generalizing σ with
  | nil =>
    obtain rfl : σ = τ := by simpa using h
    exact .refl
  | cons e events ih =>
    rw [List.foldlM_cons] at h
    obtain ⟨υ, hfirst, hrest⟩ := Option.bind_eq_some_iff.mp h
    unfold applyIf at hfirst
    split_ifs at hfirst with hmay
    exact .head ⟨e, hmay, hfirst⟩ (ih hrest)

def Alone (prog : Program ι S P A) (i : ι) : S × P → S × P → Prop :=
  Relation.ReflTransGen fun x y => ∃ a, prog.next i x.1 x.2 a = some y

/-- A process can run while no other has the lock. -/
theorem Alone.reaches {prog : Program ι S P A} {i : ι} {phase : ι → P} {x y : S × P}
    (h : Alone prog i x y) (hfree : ∀ j, j ≠ i → prog.holds (phase j) = false) :
    Reaches prog (fun _ _ => True) ⟨x.1, Function.update phase i x.2⟩
      ⟨y.1, Function.update phase i y.2⟩ := by
  induction h with
  | refl => exact .refl
  | @tail y z _ hstep ih =>
    obtain ⟨a, hnext⟩ := hstep
    refine ih.tail ⟨.run i a, trivial, ?_⟩
    have hothers (hself : prog.holds y.2 = false) :
        ¬ ∃ j, prog.holds (Function.update phase i y.2 j) = true := by
      rintro ⟨j, hj⟩
      by_cases hji : j = i
      · rw [hji, Function.update_self, hself] at hj
        cases hj
      · rw [Function.update_of_ne hji, hfree j hji] at hj
        cases hj
    simp only [apply, Function.update_self, hnext, Option.bind_some]
    cases hself : prog.holds y.2 with
    | true => simp
    | false =>
      rw [decide_eq_false (hothers hself)]
      simp

/-- A process can be killed at any time. -/
theorem reaches_kill (prog : Program ι S P A) (i : ι) (phase : ι → P) (s : S) (p : P) :
    Reaches prog (fun _ _ => True) ⟨s, Function.update phase i p⟩
      ⟨s, Function.update phase i prog.gone⟩ := by
  refine .single ⟨.kill i, trivial, ?_⟩
  simp [apply]

/-- Who does not hold the lock changes nothing, and what a process relies on in its phase is kept by
its own steps and by those of the holder. -/
structure Protocol (prog : Program ι S P A) (may : System ι S P → Event ι A → Prop)
    (Safe : S → Prop) (Relies : S → ι → P → Prop) : Prop where
  gone_free : prog.holds prog.gone = false
  gone_relies : ∀ s i, Relies s i prog.gone
  idle : ∀ {i s p a t q}, prog.holds p = false → prog.next i s p a = some (t, q) → t = s
  step : ∀ {σ i a t q}, may σ (.run i a) → Safe σ.shared → Relies σ.shared i (σ.phase i) →
    prog.next i σ.shared (σ.phase i) a = some (t, q) → Safe t ∧ Relies t i q
  frame : ∀ {σ i j a t q}, may σ (.run i a) → j ≠ i → prog.holds (σ.phase i) = true →
    prog.holds (σ.phase j) = false → prog.next i σ.shared (σ.phase i) a = some (t, q) →
    Relies σ.shared j (σ.phase j) → Relies t j (σ.phase j)

/-- At most one process has the lock, and each finds what it relies on. -/
structure Orderly (prog : Program ι S P A) (Safe : S → Prop) (Relies : S → ι → P → Prop)
    (σ : System ι S P) : Prop where
  alone : ∀ i j, prog.holds (σ.phase i) → prog.holds (σ.phase j) → i = j
  safe : Safe σ.shared
  relies : ∀ i, Relies σ.shared i (σ.phase i)

variable {prog : Program ι S P A} {may : System ι S P → Event ι A → Prop} {Safe : S → Prop}
  {Relies : S → ι → P → Prop} {σ τ : System ι S P}

omit [Fintype ι] in
/-- A new phase of one process, that holds the lock only if no other does. -/
theorem Orderly.update {i : ι} {s : S} {p : P} (h : Orderly prog Safe Relies σ)
    (hlock : prog.holds p = true → ∀ j, j ≠ i → prog.holds (σ.phase j) = false) (hsafe : Safe s)
    (hrelies : Relies s i p) (hothers : ∀ j, j ≠ i → Relies s j (σ.phase j)) :
    Orderly prog Safe Relies ⟨s, Function.update σ.phase i p⟩ where
  alone j k hj hk := by
    by_cases hji : j = i
    · by_cases hki : k = i
      · rw [hji, hki]
      · subst hji
        simp only [Function.update_self, Function.update_of_ne hki] at hj hk
        simp [hlock hj k hki] at hk
    · by_cases hki : k = i
      · subst hki
        simp only [Function.update_self, Function.update_of_ne hji] at hj hk
        simp [hlock hk j hji] at hj
      · simp only [Function.update_of_ne hji, Function.update_of_ne hki] at hj hk
        exact h.alone j k hj hk
  safe := hsafe
  relies j := by
    by_cases hj : j = i
    · subst hj
      simpa only [Function.update_self] using hrelies
    · simpa only [Function.update_of_ne hj] using hothers j hj

omit [DecidableEq ι] [Fintype ι] in
/-- While one process has the lock, no other has it. -/
theorem Orderly.others (h : Orderly prog Safe Relies σ) {i j : ι}
    (hi : prog.holds (σ.phase i) = true) (hj : j ≠ i) : prog.holds (σ.phase j) = false := by
  by_contra hheld
  exact hj (h.alone j i (by simpa using hheld) hi)

theorem Protocol.orderly_step (hprot : Protocol prog may Safe Relies)
    (h : Orderly prog Safe Relies σ) (hstep : Step prog may σ τ) : Orderly prog Safe Relies τ := by
  obtain ⟨e, hmay, hstep⟩ := hstep
  cases e with
  | kill i =>
    obtain rfl := Option.some.inj hstep
    refine h.update (fun hheld => ?_) h.safe (hprot.gone_relies _ i) (fun j _ => h.relies j)
    rw [hprot.gone_free] at hheld
    cases hheld
  | run i a =>
    obtain ⟨⟨s, p⟩, hnext, htaken⟩ := Option.bind_eq_some_iff.mp hstep
    dsimp only at htaken
    split_ifs at htaken with hwaits
    obtain rfl := Option.some.inj htaken
    obtain ⟨hsafe, hrelies⟩ := hprot.step hmay h.safe (h.relies i) hnext
    have hlock : prog.holds p = true → ∀ j, j ≠ i → prog.holds (σ.phase j) = false := by
      intro hp j hj
      by_cases hi : prog.holds (σ.phase i) = true
      · exact h.others hi hj
      · by_contra hheld
        simp only [hp, hi, Bool.true_and, decide_eq_true_eq, Bool.not_false] at hwaits
        exact hwaits ⟨j, by simpa using hheld⟩
    refine h.update hlock hsafe hrelies fun j hj => ?_
    by_cases hi : prog.holds (σ.phase i) = true
    · exact hprot.frame hmay hj hi (h.others hi hj) hnext (h.relies j)
    · rw [hprot.idle (by simpa using hi) hnext]
      exact h.relies j

/-- What the protocol keeps holds in every state that is reached. -/
theorem Protocol.orderly (hprot : Protocol prog may Safe Relies) (h : Orderly prog Safe Relies σ)
    (hreach : Reaches prog may σ τ) : Orderly prog Safe Relies τ := by
  induction hreach with
  | refl => exact h
  | tail _ hstep ih => exact hprot.orderly_step ih hstep

end Turns
