import Mathlib.Algebra.BigOperators.Group.Finset.Piecewise
import Mathlib.Data.Fintype.BigOperators
import Mathlib.Tactic.Abel

/-! Tasks that take atomic steps on what they share, in any order, while the surroundings change the
shared state on their own. What the tasks hold and what they share together is conserved along a run
if every step conserves it. -/

namespace Interleave

structure Program (S P A B : Type) where
  /-- The next step of a task, by its phase and an answer of the surroundings. -/
  step : A → P → S → P × S
  env : B → S → S

structure System (ι S P : Type) where
  shared : S
  phase : ι → P

inductive Event (ι A B : Type)
  | task (i : ι) (a : A)
  | env (b : B)
  deriving DecidableEq

variable {ι S P A B M : Type} [DecidableEq ι] (prog : Program S P A B)

def act (σ : System ι S P) : Event ι A B → System ι S P
  | .task i a =>
    let r := prog.step a (σ.phase i) σ.shared
    ⟨r.2, Function.update σ.phase i r.1⟩
  | .env b => ⟨prog.env b σ.shared, σ.phase⟩

def run (es : List (Event ι A B)) (σ : System ι S P) : System ι S P := es.foldl (act prog) σ

def reading [Zero M] (f : A → P → S → M) (σ : System ι S P) : Event ι A B → M
  | .task i a => f a (σ.phase i) σ.shared
  | .env _ => 0

/-- The sum of what is read off the steps of a run. -/
def total [AddCommMonoid M] (f : A → P → S → M) : List (Event ι A B) → System ι S P → M
  | [], _ => 0
  | e :: es, σ => reading f σ e + total f es (act prog σ e)

/-- The sum of what is read off the steps of one task. -/
def totalOf [AddCommMonoid M] (i : ι) (f : A → P → S → M) : List (Event ι A B) → System ι S P → M
  | [], _ => 0
  | .task j a :: es, σ =>
    (if j = i then f a (σ.phase j) σ.shared else 0) + totalOf i f es (act prog σ (.task j a))
  | .env b :: es, σ => totalOf i f es (act prog σ (.env b))

/-- In every state of a run, the first and the last included. -/
def Always (Q : System ι S P → Prop) (es : List (Event ι A B)) (σ : System ι S P) : Prop :=
  ∀ front, front <+: es → Q (run prog front σ)

/-- At every event of a run, with the state before it. -/
def Along (R : System ι S P → Event ι A B → Prop) : List (Event ι A B) → System ι S P → Prop
  | [], _ => True
  | e :: es, σ => R σ e ∧ Along R es (act prog σ e)

variable {prog} {es : List (Event ι A B)} {e : Event ι A B} {σ : System ι S P}

theorem run_cons : run prog (e :: es) σ = run prog es (act prog σ e) := rfl

theorem total_cons [AddCommMonoid M] (f : A → P → S → M) :
    total prog f (e :: es) σ = reading f σ e + total prog f es (act prog σ e) := rfl

theorem phase_act_self (i : ι) (a : A) :
    (act prog σ (.task i a)).phase i = (prog.step a (σ.phase i) σ.shared).1 :=
  Function.update_self _ _ _

theorem phase_act_of_ne {i j : ι} (hj : j ≠ i) (a : A) :
    (act prog σ (.task i a)).phase j = σ.phase j :=
  Function.update_of_ne hj _ _

/-- What holds of all phases needs to be looked at again only for the task that moves. -/
theorem forall_phase_act (Q : P → Prop) {i : ι} {a : A} (hσ : ∀ j, Q (σ.phase j))
    (hi : Q (prog.step a (σ.phase i) σ.shared).1) (j : ι) :
    Q ((act prog σ (.task i a)).phase j) := by
  by_cases hj : j = i
  · rw [hj, phase_act_self]
    exact hi
  · rw [phase_act_of_ne hj]
    exact hσ j

theorem run_append (fs : List (Event ι A B)) :
    run prog (es ++ fs) σ = run prog fs (run prog es σ) := List.foldl_append

theorem run_concat : run prog (es ++ [e]) σ = act prog (run prog es σ) e := by
  rw [run_append]
  rfl

theorem Always.first {Q : System ι S P → Prop} (h : Always prog Q es σ) : Q σ :=
  h [] List.nil_prefix

theorem Always.last {Q : System ι S P → Prop} (h : Always prog Q es σ) : Q (run prog es σ) :=
  h es List.prefix_rfl

theorem Always.tail {Q : System ι S P → Prop} (h : Always prog Q (e :: es) σ) :
    Always prog Q es (act prog σ e) := by
  intro front hfront
  exact h (e :: front) (List.cons_prefix_cons.mpr ⟨rfl, hfront⟩)

/-- What holds at first and is kept by each event of a run holds in all its states. -/
theorem always_of_act {Q : System ι S P → Prop} (hact : ∀ e ∈ es, ∀ σ, Q σ → Q (act prog σ e))
    (hσ : Q σ) : Always prog Q es σ := by
  induction es generalizing σ with
  | nil =>
    intro front hfront
    obtain rfl := List.prefix_nil.mp hfront
    exact hσ
  | cons e es ih =>
    intro front hfront
    cases front with
    | nil => exact hσ
    | cons f front =>
      obtain ⟨rfl, hrest⟩ := List.cons_prefix_cons.mp hfront
      refine ih (fun g hg => hact g (List.mem_cons_of_mem _ hg)) ?_ front hrest
      exact hact f List.mem_cons_self σ hσ

section Solo

def solo (prog : Program S P A B) (as : List A) (p : P) (s : S) : P × S :=
  as.foldl (fun r a => prog.step a r.1 r.2) (p, s)

theorem solo_cons (a : A) (as : List A) (p : P) (s : S) :
    solo prog (a :: as) p s = solo prog as (prog.step a p s).1 (prog.step a p s).2 := rfl

theorem solo_append (as bs : List A) (p : P) (s : S) :
    solo prog (as ++ bs) p s = solo prog bs (solo prog as p s).1 (solo prog as p s).2 :=
  List.foldl_append

/-- Steps of one task leave the phases of the others as they are. -/
theorem run_task (i : ι) (as : List A) (σ : System ι S P) :
    run prog (as.map (Event.task i)) σ =
      ⟨(solo prog as (σ.phase i) σ.shared).2,
        Function.update σ.phase i (solo prog as (σ.phase i) σ.shared).1⟩ := by
  induction as generalizing σ with
  | nil => simp [run, solo]
  | cons a as ih =>
    rw [List.map_cons, run_cons, ih, solo_cons]
    simp only [act, Function.update_self, Function.update_idem]

end Solo

section Progress

def steps (i : ι) (es : List (Event ι A B)) : Nat :=
  es.countP fun
    | .task j _ => j = i
    | .env _ => false

/-- A task whose own steps each use up a rank has used it up after as many of them, whatever happens in
between. -/
theorem rank_run {I : P → Prop} {rank : P → Nat}
    (hstep : ∀ a p s, I p → I (prog.step a p s).1 ∧ rank (prog.step a p s).1 ≤ rank p - 1) {i : ι}
    (es : List (Event ι A B)) {σ : System ι S P} (hσ : I (σ.phase i)) :
    I ((run prog es σ).phase i) ∧
      rank ((run prog es σ).phase i) ≤ rank (σ.phase i) - steps i es := by
  induction es generalizing σ with
  | nil => exact ⟨hσ, Nat.le_refl _⟩
  | cons e es ih =>
    rw [run_cons]
    cases e with
    | env b => exact ih hσ
    | task j a =>
      by_cases hj : j = i
      · subst hj
        obtain ⟨hnext, hrank⟩ := hstep a (σ.phase j) σ.shared hσ
        have hphase : (act prog σ (.task j a)).phase j = (prog.step a (σ.phase j) σ.shared).1 :=
          phase_act_self j a
        have hrest := ih (hphase ▸ hnext)
        have hcount : steps j (.task j a :: es) = steps j es + 1 := by simp [steps]
        rw [hphase] at hrest
        exact ⟨hrest.1, by omega⟩
      · have hphase : (act prog σ (.task j a)).phase i = σ.phase i := phase_act_of_ne (Ne.symm hj) a
        have hrest := ih (hphase ▸ hσ)
        have hcount : steps i (.task j a :: es) = steps i es := by simp [steps, hj]
        rw [hphase] at hrest
        exact ⟨hrest.1, by omega⟩

end Progress

section Conservation

variable [Fintype ι] [AddCommMonoid M]

theorem sum_update (load : P → M) (phase : ι → P) (i : ι) (p : P) :
    ∑ j, load (Function.update phase i p j) + load (phase i) = ∑ j, load (phase j) + load p := by
  have hload : ∀ j, load (Function.update phase i p j) =
      Function.update (fun j => load (phase j)) i (load p) j := by
    intro j
    by_cases hj : j = i
    · subst hj
      simp
    · simp [Function.update_of_ne hj]
  have hwhole := Finset.sum_erase_add Finset.univ (fun j => load (phase j)) (Finset.mem_univ i)
  rw [Finset.sum_congr rfl fun j _ => hload j, Finset.sum_update_of_mem (Finset.mem_univ i),
    Finset.sdiff_singleton_eq_erase, ← hwhole, add_comm (load p), add_right_comm]

/-- What the tasks hold, and the shared state with them. -/
def held (share : S → M) (load : P → M) (σ : System ι S P) : M :=
  share σ.shared + ∑ i, load (σ.phase i)

variable [IsCancelAdd M] {share : S → M} {load : P → M} {gain loss : A → P → S → M}
  (hstep : ∀ a p s, share (prog.step a p s).2 + load (prog.step a p s).1 + loss a p s =
    share s + load p + gain a p s)
  (henv : ∀ b s, share (prog.env b s) = share s)
include hstep henv

theorem held_act (σ : System ι S P) (e : Event ι A B) :
    held share load (act prog σ e) + reading loss σ e = held share load σ + reading gain σ e := by
  cases e with
  | env b => simp [held, act, reading, henv]
  | task i a =>
    have hone := hstep a (σ.phase i) σ.shared
    simp only [held, act, reading]
    generalize prog.step a (σ.phase i) σ.shared = r at hone ⊢
    obtain ⟨q, t⟩ := r
    have hsum := sum_update load σ.phase i q
    -- the old phase of the task is added on both sides, to be exchanged for the new one
    apply add_right_cancel (b := load (σ.phase i))
    calc share t + ∑ j, load (Function.update σ.phase i q j) + loss a (σ.phase i) σ.shared +
          load (σ.phase i)
        = share t + loss a (σ.phase i) σ.shared +
            (∑ j, load (Function.update σ.phase i q j) + load (σ.phase i)) := by abel
      _ = share t + load q + loss a (σ.phase i) σ.shared + ∑ j, load (σ.phase j) := by
          rw [hsum]
          abel
      _ = share σ.shared + ∑ j, load (σ.phase j) + gain a (σ.phase i) σ.shared +
            load (σ.phase i) := by
          rw [hone]
          abel

/-- Only what the steps take in and give away changes what is held. -/
theorem held_run (es : List (Event ι A B)) (σ : System ι S P) :
    held share load (run prog es σ) + total prog loss es σ =
      held share load σ + total prog gain es σ := by
  induction es generalizing σ with
  | nil => simp [run, total]
  | cons e es ih =>
    have hfirst := held_act hstep henv σ e
    have hrest := ih (act prog σ e)
    rw [run_cons, total_cons, total_cons]
    calc held share load (run prog es (act prog σ e)) +
          (reading loss σ e + total prog loss es (act prog σ e))
        = held share load (run prog es (act prog σ e)) + total prog loss es (act prog σ e) +
            reading loss σ e := by abel
      _ = held share load (act prog σ e) + reading loss σ e +
            total prog gain es (act prog σ e) := by
          rw [hrest]
          abel
      _ = held share load σ + (reading gain σ e + total prog gain es (act prog σ e)) := by
          rw [hfirst]
          abel

end Conservation

end Interleave
