import Mathlib.Logic.Function.Basic
import Vpn1.Lib.Traced

/-! Programs on one slot of a state, a program for each slot of a list, and histories of programs
that were each run to their end or killed. -/

namespace Traced

variable {σ ω ε α ι τ : Type}

namespace Prog

def forEach (p : ι → Prog σ ω ε Unit) : List ι → Prog σ ω ε Unit
  | [] => pure ()
  | i :: is => do
    p i
    forEach p is

def focus [DecidableEq ι] (i : ι) (p : Prog τ ω ε α) : Prog (ι → τ) ω ε α := fun s =>
  ⟨(p (s i)).result, Function.update s i (p (s i)).final,
    (p (s i)).trail.map fun x => (x.1, Function.update s i x.2)⟩

end Prog

open Prog

/-- A script runs to its end or is killed; nothing it calls fails. -/
abbrev Session (σ α : Type) := Prog σ Unit Empty α

namespace Session

def step (f : σ → σ) : Session σ Unit := Prog.move () f

theorem wp_step {f : σ → σ} {s : σ} {G : Unit → σ → Prop} {Q : Except Empty Unit → σ → Prop} :
    Wp (step f) s G Q ↔ G () (f s) ∧ Q (.ok ()) (f s) := wp_move

end Session

/-- What holds again after each of the programs holds after all of them. -/
theorem wp_forEach {p : ι → Prog σ ω ε Unit} {G : ω → σ → Prop} {I : σ → Prop} (is : List ι) {s : σ}
    (hs : I s) (hp : ∀ i ∈ is, ∀ s, I s → Wp (p i) s G (fun r t => r = .ok () ∧ I t)) :
    Wp (forEach p is) s G (fun r t => r = .ok () ∧ I t) := by
  induction is generalizing s with
  | nil => simpa [forEach] using hs
  | cons i is ih =>
    obtain ⟨hi, hrest⟩ := List.forall_mem_cons.mp hp
    rw [forEach, wp_bind]
    refine (hi s hs).mono (fun _ _ h => h) ?_
    rintro r t ⟨rfl, ht⟩
    exact ih ht hrest

/-- What each of the programs keeps, whether it fails or not, all of them keep. -/
theorem wp_forEach_keeps {p : ι → Prog σ ω ε Unit} {G : ω → σ → Prop} {I : σ → Prop} (is : List ι)
    {s : σ} (hs : I s) (hp : ∀ i ∈ is, ∀ s, I s → Wp (p i) s G (fun _ t => I t)) :
    Wp (forEach p is) s G (fun _ t => I t) := by
  induction is generalizing s with
  | nil => exact wp_pure.mpr hs
  | cons i is ih =>
    obtain ⟨hi, hrest⟩ := List.forall_mem_cons.mp hp
    rw [forEach]
    apply (hi s hs).bind
    · intro _ t ht
      exact ih ht hrest
    · intro _ t ht
      exact ht

section Slots

variable [DecidableEq ι] {i : ι} {s : ι → τ}

@[simp] theorem wp_focus {p : Prog τ ω ε α} {G : ω → (ι → τ) → Prop}
    {Q : Except ε α → (ι → τ) → Prop} :
    Wp (focus i p) s G Q ↔ Wp p (s i) (fun w t => G w (Function.update s i t))
      (fun r t => Q r (Function.update s i t)) := by
  simp only [Wp, focus, List.forall_mem_map]

/-- Programs on slots of their own keep an invariant of each slot, and each does what it does alone. -/
theorem wp_forEach_focus {p : ι → Prog τ ω ε Unit} {K : ι → τ → Prop} {Q : ι → τ → τ → Prop}
    (is : List ι) (hnodup : is.Nodup) (hK : ∀ i, K i (s i))
    (hp : ∀ i ∈ is, Wp (p i) (s i) (fun _ => K i) (fun r t => r = .ok () ∧ K i t ∧ Q i (s i) t)) :
    Wp (forEach (fun i => focus i (p i)) is) s (fun _ t => ∀ i, K i (t i))
      (fun r t => r = .ok () ∧ (∀ i, K i (t i)) ∧ (∀ i ∈ is, Q i (s i) (t i)) ∧
        ∀ i ∉ is, t i = s i) := by
  induction is generalizing s with
  | nil => simpa [forEach] using hK
  | cons i is ih =>
    obtain ⟨hi, hrest⟩ := List.nodup_cons.mp hnodup
    have hput : ∀ t, K i t → ∀ j, K j (Function.update s i t j) := by
      intro t ht j
      by_cases hj : j = i
      · subst hj
        rwa [Function.update_self]
      · rw [Function.update_of_ne hj]
        exact hK j
    rw [forEach, wp_bind, wp_focus]
    refine (hp i List.mem_cons_self).mono (fun _ t ht => hput t ht) ?_
    rintro r t ⟨rfl, ht, hQ⟩
    have hsame : ∀ j ∈ is, Function.update s i t j = s j := by
      intro j hj
      have hne : j ≠ i := by
        rintro rfl
        exact hi hj
      exact Function.update_of_ne hne t s
    refine (ih hrest (hput t ht) fun j hj => ?_).mono (fun _ _ hw => hw) ?_
    · rw [hsame j hj]
      exact hp j (List.mem_cons_of_mem i hj)
    · rintro r u ⟨hr, hu, hdone, hothers⟩
      refine ⟨hr, hu, fun j hj => ?_, fun j hj => ?_⟩
      · rcases List.mem_cons.mp hj with rfl | hj
        · rwa [hothers j hi, Function.update_self]
        · have := hdone j hj
          rwa [hsame j hj] at this
      · rw [List.mem_cons, not_or] at hj
        rw [hothers j hj.2, Function.update_of_ne hj.1]

end Slots

/-- The states that programs leave which are started one after the other, where `may` allows it, and
run to their end or are killed. -/
inductive History (may : σ → Prog σ ω ε α → Prop) (first : σ) : σ → Prop
  | start : History may first first
  | ran {s t : σ} {p : Prog σ ω ε α} (before : History may first s) (hmay : may s p)
      (ht : t ∈ p.states s) : History may first t

/-- A program that may be started can run to its end. -/
theorem History.final {may : σ → Prog σ ω ε α → Prop} {first s : σ} {p : Prog σ ω ε α}
    (before : History may first s) (hmay : may s p) : History may first (p s).final :=
  .ran before hmay (by simp [Prog.states])

/-- What holds first, and throughout every program that may be started, holds in every history. -/
theorem History.invariant {may : σ → Prog σ ω ε α → Prop} {first s : σ} {I : σ → Prop}
    (h : History may first s) (hfirst : I first)
    (hstep : ∀ s p, I s → may s p → Wp p s (fun _ => I) (fun _ => I)) : I s := by
  induction h with
  | start => exact hfirst
  | ran before hmay ht ih =>
    exact (hstep _ _ ih hmay).of_mem_states ih (fun _ _ hu => hu) ht

end Traced
