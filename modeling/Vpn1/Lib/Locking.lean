import Mathlib.Data.Finset.Max
import Mathlib.Data.Fintype.Basic
import Mathlib.Logic.Hydra

/-! Sequential programs that take exclusive locks over a shared state. Finitely many of them never
run forever, and if each takes its locks in increasing order none is left waiting. -/

namespace Vpn1.Locking

/-- A program. An action answers with a value that the rest of the program depends on. -/
inductive Script (L S : Type) : Type 1
  | exit
  | acquire (lock : L) (next : Script L S)
  | release (lock : L) (next : Script L S)
  | act {A : Type} (effect : S → A → S → Prop) (next : A → Script L S)

variable {ι L S : Type} [DecidableEq L]

/-- A running program and the locks it took. -/
structure Proc (L S : Type) where
  script : Script L S
  held : List L

namespace Proc

/-- The locks that are not free on its account: an exit drops all of them. -/
def locks (p : Proc L S) : List L :=
  match p.script with
  | .exit => []
  | _ => p.held

def wants (p : Proc L S) : Option L :=
  match p.script with
  | .acquire l _ => some l
  | _ => none

omit [DecidableEq L] in
theorem mem_held {p : Proc L S} {l : L} (h : l ∈ p.locks) : l ∈ p.held ∧ p.script ≠ .exit := by
  unfold locks at h
  cases hp : p.script with
  | exit => simp [hp] at h
  | acquire | release | act => exact ⟨by simpa [hp] using h, by simp⟩

omit [DecidableEq L] in
theorem locks_of_wants {p : Proc L S} {l : L} (h : p.wants = some l) : p.locks = p.held := by
  unfold wants at h
  unfold locks
  cases hp : p.script with
  | exit => simp [hp] at h
  | acquire | release | act => rfl

inductive Move : Proc L S → S → Proc L S → S → Prop
  | acquire {l : L} {next : Script L S} {held : List L} {s : S} :
      Move ⟨.acquire l next, held⟩ s ⟨next, l :: held⟩ s
  | release {l : L} {next : Script L S} {held : List L} {s : S} :
      Move ⟨.release l next, held⟩ s ⟨next, held.erase l⟩ s
  | act {A : Type} {effect : S → A → S → Prop} {next : A → Script L S} {held : List L} {s t : S}
      {a : A} (h : effect s a t) : Move ⟨.act effect next, held⟩ s ⟨next a, held⟩ t

/-- Moves of one program while no other holds a lock. -/
inductive Solo : Proc L S → S → Proc L S → S → Prop
  | refl {p : Proc L S} {s : S} : Solo p s p s
  | head {p q r : Proc L S} {s t u : S} (hmove : Move p s q t)
      (hfree : ∀ l, p.wants = some l → l ∉ p.held) (hrest : Solo q t r u) : Solo p s r u

end Proc

open Proc

/-- Every run of the script that comes to its end leaves a state in `Q`. -/
def Script.Ends (Q : S → Prop) : Script L S → S → Prop
  | .exit, s => Q s
  | .acquire _ next, s => next.Ends Q s
  | .release _ next, s => next.Ends Q s
  | .act effect next, s => ∀ a t, effect s a t → (next a).Ends Q t

theorem Proc.Solo.ends {Q : S → Prop} {p q : Proc L S} {s t : S} (h : Solo p s q t)
    (hexit : q.script = .exit) (hQ : p.script.Ends Q s) : Q t := by
  induction h with
  | refl =>
    rw [hexit] at hQ
    exact hQ
  | head hmove _ _ ih =>
    refine ih hexit ?_
    cases hmove with
    | acquire => exact hQ
    | release => exact hQ
    | act heffect => exact hQ _ _ heffect

theorem Proc.Solo.act {A : Type} {effect : S → A → S → Prop} {next : A → Script L S}
    {held : List L} {q : Proc L S} {s t u : S} {a : A} (h : effect s a t)
    (hrest : Solo ⟨next a, held⟩ t q u) : Solo ⟨.act effect next, held⟩ s q u :=
  .head (.act h) (fun _ hwants => by cases hwants) hrest

structure System (ι L S : Type) where
  procs : ι → Proc L S
  state : S

namespace System

def Free (σ : System ι L S) (l : L) : Prop := ∀ j, l ∉ (σ.procs j).locks

/-- It waits for a lock that it holds itself. -/
def SelfBlocked (σ : System ι L S) (i : ι) (l : L) : Prop :=
  (σ.procs i).wants = some l ∧ l ∈ (σ.procs i).held

variable [DecidableEq ι]

/-- Some program moves; a lock that it takes must be free. -/
inductive Step (σ : System ι L S) : System ι L S → Prop
  | move (i : ι) {p : Proc L S} {s : S} (hmove : Move (σ.procs i) σ.state p s)
      (hfree : ∀ l, (σ.procs i).wants = some l → σ.Free l) :
      Step σ ⟨Function.update σ.procs i p, s⟩

def Reaches : System ι L S → System ι L S → Prop := Relation.ReflTransGen Step

def Stuck (σ : System ι L S) : Prop := ∀ τ, ¬ Step σ τ

/-- Every run ends, and with every program gone. -/
structure Completes (σ : System ι L S) : Prop where
  ends : Acc (fun τ υ => Step υ τ) σ
  gone : ∀ τ, Reaches σ τ → Stuck τ → ∀ i, (τ.procs i).script = .exit

section Termination

/-- The rest of a program after one of its steps. -/
inductive Rest : Script L S → Script L S → Prop
  | acquire (l : L) (next : Script L S) : Rest next (.acquire l next)
  | release (l : L) (next : Script L S) : Rest next (.release l next)
  | act {A : Type} (effect : S → A → S → Prop) (next : A → Script L S) (a : A) :
      Rest (next a) (.act effect next)

omit [DecidableEq L] in
theorem wellFounded_rest : WellFounded (Rest (L := L) (S := S)) := by
  constructor
  intro p
  induction p with
  | exit => exact ⟨_, fun _ h => nomatch h⟩
  | acquire l next ih =>
    refine ⟨_, fun q h => ?_⟩
    cases h
    exact ih
  | release l next ih =>
    refine ⟨_, fun q h => ?_⟩
    cases h
    exact ih
  | act effect next ih =>
    refine ⟨_, fun q h => ?_⟩
    cases h with
    | act _ _ a => exact ih a

theorem rest_of_move {p q : Proc L S} {s t : S} (h : Move p s q t) : Rest q.script p.script := by
  cases h with
  | acquire => exact .acquire _ _
  | release => exact .release _ _
  | act => exact .act _ _ _

variable [Fintype ι]

def scripts (procs : ι → Proc L S) : Multiset (Script L S) :=
  Finset.univ.val.map fun i => (procs i).script

omit [DecidableEq L] in
theorem scripts_update (procs : ι → Proc L S) (i : ι) (p : Proc L S) :
    scripts (Function.update procs i p) =
      (Finset.univ.erase i).val.map (fun j => (procs j).script) + {p.script} := by
  have huniv : (Finset.univ : Finset ι).val = i ::ₘ (Finset.univ.erase i).val := by
    rw [← Finset.insert_val_of_notMem (Finset.notMem_erase i _),
      Finset.insert_erase (Finset.mem_univ i)]
  have hrest : (Finset.univ.erase i).val.map (fun j => (Function.update procs i p j).script) =
      (Finset.univ.erase i).val.map fun j => (procs j).script := by
    refine Multiset.map_congr rfl fun j hj => ?_
    rw [Function.update_of_ne (Finset.ne_of_mem_erase hj)]
  rw [scripts, huniv, Multiset.map_cons, hrest, Function.update_self, ← Multiset.singleton_add,
    add_comm]

/-- Each step leaves one program with less to run, so that no run is infinite. -/
theorem wellFounded_step : WellFounded fun τ σ : System ι L S => Step σ τ := by
  refine Subrelation.wf ?_
    (InvImage.wf (fun σ : System ι L S => scripts σ.procs) wellFounded_rest.cutExpand)
  intro τ σ hstep
  cases hstep with
  | move i hmove =>
    have hself := scripts_update σ.procs i (σ.procs i)
    rw [Function.update_eq_self] at hself
    show Relation.CutExpand Rest (scripts _) (scripts σ.procs)
    rw [scripts_update, hself]
    exact Relation.cutExpand_add_single _ (rest_of_move hmove)

theorem exists_stuck (σ : System ι L S) : ∃ τ, Reaches σ τ ∧ Stuck τ := by
  induction wellFounded_step.apply σ with
  | intro σ _ ih =>
    by_cases hstuck : Stuck σ
    · exact ⟨σ, .refl, hstuck⟩
    · obtain ⟨τ, hstep⟩ := not_forall_not.mp hstuck
      obtain ⟨υ, hreach, hend⟩ := ih τ hstep
      exact ⟨υ, .head hstep hreach, hend⟩

end Termination

section SelfBlocking

/-- Nobody else can free the lock. -/
theorem SelfBlocked.step {σ τ : System ι L S} {i : ι} {l : L} (h : σ.SelfBlocked i l)
    (hstep : Step σ τ) : τ.SelfBlocked i l := by
  obtain ⟨hwants, hheld⟩ := h
  cases hstep with
  | move j hmove hfree =>
    have hne : i ≠ j := by
      rintro rfl
      exact hfree l hwants i (by rwa [locks_of_wants hwants])
    simpa [SelfBlocked, Function.update_of_ne hne] using ⟨hwants, hheld⟩

theorem SelfBlocked.reaches {σ τ : System ι L S} {i : ι} {l : L} (h : σ.SelfBlocked i l)
    (hreach : Reaches σ τ) : τ.SelfBlocked i l := by
  induction hreach with
  | refl => exact h
  | tail _ hstep ih => exact ih.step hstep

theorem SelfBlocked.not_completes [Fintype ι] {σ τ : System ι L S} {i : ι} {l : L}
    (hreach : Reaches σ τ) (h : τ.SelfBlocked i l) : ¬ Completes σ := by
  intro hcompletes
  obtain ⟨υ, hlater, hstuck⟩ := exists_stuck τ
  have hexit := hcompletes.gone υ (Relation.ReflTransGen.trans hreach hlater) hstuck i
  have hwants := (h.reaches hlater).1
  simp [wants, hexit] at hwants

/-- One program runs alone as long as the others hold nothing. -/
theorem reaches_of_solo {i : ι} {p q : Proc L S} {s t : S} (h : Solo p s q t)
    {procs : ι → Proc L S} (hothers : ∀ j, j ≠ i → (procs j).locks = []) :
    Reaches ⟨Function.update procs i p, s⟩ ⟨Function.update procs i q, t⟩ := by
  induction h with
  | refl => exact .refl
  | @head p q r s t u hmove hfree _ ih =>
    refine .head ?_ ih
    have hstep : Step ⟨Function.update procs i p, s⟩
        ⟨Function.update (Function.update procs i p) i q, t⟩ := by
      refine .move i (by simpa using hmove) fun l hl j => ?_
      by_cases hj : j = i
      · subst hj
        simp only [Function.update_self] at hl ⊢
        rw [locks_of_wants hl]
        exact hfree l hl
      · simp [Function.update_of_ne hj, hothers j hj]
    rwa [Function.update_idem] at hstep

end SelfBlocking

section Order

variable (rank : L → ℕ) (I : S → Prop)

/-- From states in `I` a program stays in `I`, its actions always answer, and each lock that it
takes ranks above those it holds. -/
def Ordered : List L → Script L S → Prop
  | _, .exit => True
  | held, .acquire l next => (∀ m ∈ held, rank m < rank l) ∧ Ordered (l :: held) next
  | held, .release l next => Ordered (held.erase l) next
  | held, .act effect next => ∀ s, I s →
      (∃ a t, effect s a t) ∧ ∀ a t, effect s a t → I t ∧ Ordered held (next a)

structure Orderly (σ : System ι L S) : Prop where
  state : I σ.state
  procs : ∀ i, Ordered rank I (σ.procs i).held (σ.procs i).script

variable {rank I}

omit [DecidableEq ι] in
theorem ordered_move {p q : Proc L S} {s t : S} (hmove : Move p s q t) (hs : I s)
    (hp : Ordered rank I p.held p.script) : I t ∧ Ordered rank I q.held q.script := by
  cases hmove with
  | acquire => exact ⟨hs, hp.2⟩
  | release => exact ⟨hs, hp⟩
  | act heffect => exact (hp _ hs).2 _ _ heffect

theorem Orderly.step {σ τ : System ι L S} (h : Orderly rank I σ) (hstep : Step σ τ) :
    Orderly rank I τ := by
  cases hstep with
  | move i hmove =>
    obtain ⟨hstate, hproc⟩ := ordered_move hmove h.state (h.procs i)
    refine ⟨hstate, fun j => ?_⟩
    by_cases hj : j = i
    · subst hj
      simpa using hproc
    · simpa [Function.update_of_ne hj] using h.procs j

theorem Orderly.reaches {σ τ : System ι L S} (h : Orderly rank I σ) (hreach : Reaches σ τ) :
    Orderly rank I τ := by
  induction hreach with
  | refl => exact h
  | tail _ hstep ih => exact ih.step hstep

omit [DecidableEq ι] in
theorem Orderly.rank_lt {σ : System ι L S} (h : Orderly rank I σ) {i : ι} {l m : L}
    (hwants : (σ.procs i).wants = some l) (hm : m ∈ (σ.procs i).held) : rank m < rank l := by
  have hp := h.procs i
  unfold wants at hwants
  cases hscript : (σ.procs i).script with
  | acquire l' next =>
    rw [hscript] at hwants hp
    obtain rfl : l' = l := Option.some.inj hwants
    exact hp.1 m hm
  | exit | release | act => simp [hscript] at hwants

omit [DecidableEq ι] in
theorem Orderly.not_selfBlocked {σ : System ι L S} (h : Orderly rank I σ) (i : ι) (l : L) :
    ¬ σ.SelfBlocked i l :=
  fun ⟨hwants, hheld⟩ => lt_irrefl _ (h.rank_lt hwants hheld)

/-- A program that cannot move has exited or wants a lock that some program holds. -/
theorem Orderly.waits {σ : System ι L S} (h : Orderly rank I σ) (hstuck : Stuck σ) {i : ι}
    (hi : (σ.procs i).script ≠ .exit) : ∃ l, (σ.procs i).wants = some l ∧ ¬ σ.Free l := by
  have hblocked : ∀ {p s}, Move (σ.procs i) σ.state p s →
      ∃ l, (σ.procs i).wants = some l ∧ ¬ σ.Free l := by
    intro p s hmove
    by_contra hnone
    exact hstuck _ (.move i hmove fun l hl => by_contra fun hfree => hnone ⟨l, hl, hfree⟩)
  have hp := h.procs i
  rcases hproc : σ.procs i with ⟨script, held⟩
  rw [hproc] at hi hblocked hp
  cases script with
  | exit => exact absurd rfl hi
  | acquire => exact hblocked .acquire
  | release => exact hblocked .release
  | act effect next =>
    obtain ⟨⟨a, t, heffect⟩, -⟩ := hp σ.state h.state
    exact hblocked (.act heffect)

/-- The holder of the highest lock that anybody waits for would wait for a higher one. -/
theorem Orderly.gone [Fintype ι] {σ : System ι L S} (h : Orderly rank I σ) (hstuck : Stuck σ)
    (i : ι) : (σ.procs i).script = .exit := by
  classical
  by_contra hi
  let wanted (i : ι) : ℕ := ((σ.procs i).wants.map rank).getD 0
  obtain ⟨j, hj, hmax⟩ := Finset.exists_max_image
    (Finset.univ.filter fun i => (σ.procs i).script ≠ .exit) wanted ⟨i, by simpa using hi⟩
  obtain ⟨l, hwants, hheld⟩ := h.waits hstuck (Finset.mem_filter.mp hj).2
  obtain ⟨k, hk⟩ := not_forall_not.mp hheld
  obtain ⟨hlock, halive⟩ := mem_held hk
  obtain ⟨m, hm, -⟩ := h.waits hstuck halive
  have hlt : rank l < rank m := h.rank_lt hm hlock
  have hle : wanted k ≤ wanted j := hmax k (by simpa using halive)
  simp only [wanted, hwants, hm, Option.map_some, Option.getD_some] at hle
  omega

theorem Orderly.completes [Fintype ι] {σ : System ι L S} (h : Orderly rank I σ) : Completes σ :=
  ⟨wellFounded_step.apply σ, fun _ hreach hstuck => (h.reaches hreach).gone hstuck⟩

end Order

end System

end Vpn1.Locking
