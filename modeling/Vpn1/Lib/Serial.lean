import Mathlib.Data.List.Nodup
import Mathlib.Logic.Function.Basic
import Mathlib.Logic.Relation
import Vpn1.Lib.Traced

/-! Programs that run at the same time under one lock, each of which may be killed at any point. Taking
the lock puts them in an order, and the shared state is at all times one that they reach when they are
run in that order, one after the other. -/

namespace Serial

open Traced

/-- Where a process is. It runs from the state `found` and has the lock for as long as it runs; one
that was `refused` never ran. -/
inductive Phase (S α : Type)
  | waiting
  | refused
  | running (found : S) (n : Nat)
  | ended (result : Option α)

namespace Phase

variable {S α : Type}

def runs : Phase S α → Bool
  | running .. => true
  | _ => false

/-- What a process has said so far; one that was killed says nothing. -/
def message : Phase S α → Option α
  | ended result => result
  | _ => none

end Phase

structure System (ι S α : Type) where
  shared : S
  phase : ι → Phase S α

section Order

variable {ι S ω α : Type} (prog : ι → Prog S ω Empty α)

def start (first : S) : System ι S α := ⟨first, fun _ => .waiting⟩

/-- Programs run one after the other, to their end or until they are killed. -/
inductive Log (first : S) : List (ι × Option α) → S → Prop
  | nil : Log first [] first
  | ended {entries : List (ι × Option α)} {s : S} {i : ι} {result : α}
      (hlog : Log first entries s) (hresult : (prog i s).result = .ok result) :
      Log first (entries ++ [(i, some result)]) (prog i s).final
  | killed {entries : List (ι × Option α)} {s t : S} {i : ι} (hlog : Log first entries s)
      (ht : t ∈ (prog i).states s) : Log first (entries ++ [(i, none)]) t

/-- What the processes of a list have said, in its order. -/
def entries (σ : System ι S α) (order : List ι) : List (ι × Option α) :=
  order.map fun i => (i, (σ.phase i).message)

/-- The processes of `order` have ended, in this order and with `s` as the state that the last of them
left. Whoever runs since then has found `s`, and nobody else has touched what it left. -/
structure Ordered (first : S) (order : List ι) (s : S) (σ : System ι S α) : Prop where
  nodup : order.Nodup
  ended : ∀ i ∈ order, ∃ result, σ.phase i = .ended result
  complete : ∀ i result, σ.phase i = .ended (some result) → i ∈ order
  log : Log prog first (entries σ order) s
  alone : ∀ i j, (σ.phase i).runs = true → (σ.phase j).runs = true → i = j
  runner : ∀ i found n, σ.phase i = .running found n →
    found = s ∧ ((prog i).states s)[n]? = some σ.shared
  idle : (∀ i, (σ.phase i).runs = false) → σ.shared = s

variable {prog} {first s : S} {order : List ι} {σ τ : System ι S α}

theorem ordered_start (first : S) : Ordered prog first [] first (start first) where
  nodup := List.nodup_nil
  ended := by simp
  complete i result hi := by cases hi
  log := .nil
  alone i j hi := by cases hi
  runner i found n hi := by cases hi
  idle _ := rfl

theorem Ordered.not_mem (h : Ordered prog first order s σ) {i : ι}
    (hi : ∀ result, σ.phase i ≠ .ended result) : i ∉ order := by
  intro hmem
  obtain ⟨result, hresult⟩ := h.ended i hmem
  exact hi result hresult

theorem entries_congr (hsame : ∀ i ∈ order, τ.phase i = σ.phase i) :
    entries τ order = entries σ order := by
  refine List.map_congr_left fun i hi => ?_
  rw [hsame i hi]

theorem states_zero (p : Prog S ω Empty α) (s : S) : (p.states s)[0]? = some s := rfl

theorem states_last {p : Prog S ω Empty α} {s t : S} {n : Nat}
    (hlast : n + 1 = (p.states s).length) (ht : (p.states s)[n]? = some t) : t = (p s).final := by
  have hend : (p.states s).getLast? = some (p s).final := by
    rw [Prog.states, ← List.cons_append]
    exact List.getLast?_concat
  rw [List.getLast?_eq_getElem?, ← hlast, Nat.add_sub_cancel, ht] at hend
  exact Option.some.inj hend

theorem Ordered.log_finish (h : Ordered prog first order s σ) {i : ι} {found : S} {n : Nat}
    {result : α} (hi : σ.phase i = .running found n)
    (hlast : n + 1 = ((prog i).states found).length)
    (hresult : (prog i found).result = .ok result) :
    Log prog first (entries σ order ++ [(i, some result)]) σ.shared := by
  obtain ⟨hfound, hhere⟩ := h.runner i found n hi
  subst hfound
  rw [states_last hlast hhere]
  exact h.log.ended hresult

theorem Ordered.log_kill (h : Ordered prog first order s σ) {i : ι} {found : S} {n : Nat}
    (hi : σ.phase i = .running found n) :
    Log prog first (entries σ order ++ [(i, none)]) σ.shared := by
  obtain ⟨-, hhere⟩ := h.runner i found n hi
  exact h.log.killed (List.mem_of_getElem? hhere)

theorem Phase.runs_eq_true {p : Phase S α} (h : p.runs = true) :
    ∃ found n, p = .running found n := by
  cases p with
  | running found n => exact ⟨found, n, rfl⟩
  | _ => cases h

/-- At every moment the shared state is that of a log: whoever runs is taken for one that was killed
where it is. -/
theorem Ordered.exists_log (h : Ordered prog first order s σ) :
    ∃ running : List ι, (order ++ running).Nodup ∧ (∀ i ∈ running, (σ.phase i).runs = true) ∧
      Log prog first (entries σ (order ++ running)) σ.shared := by
  by_cases hfree : ∀ i, (σ.phase i).runs = false
  · refine ⟨[], by rw [List.append_nil]; exact h.nodup, by simp, ?_⟩
    rw [List.append_nil, h.idle hfree]
    exact h.log
  · push Not at hfree
    obtain ⟨i, hi⟩ := hfree
    have hruns : (σ.phase i).runs = true := by simpa using hi
    obtain ⟨found, n, hrun⟩ := Phase.runs_eq_true hruns
    have hnot : i ∉ order := h.not_mem (by simp [hrun])
    refine ⟨[i], ?_, by simpa using hruns, ?_⟩
    · exact h.nodup.append (List.nodup_singleton i) (List.disjoint_singleton.mpr hnot)
    · rw [entries, List.map_append, ← entries]
      simpa [Phase.message, hrun] using h.log_kill hrun

end Order

section Steps

variable {ι S ω α : Type} [DecidableEq ι] (prog : ι → Prog S ω Empty α) (locks : ι → Bool)

/-- Who `locks` waits until nobody else has the lock. A run goes on from what it found, whatever the
others have made of the state since then: without the lock it writes over their changes. -/
inductive Move : System ι S α → System ι S α → Prop
  | enter {σ : System ι S α} (i : ι) (hi : σ.phase i = .waiting)
      (hfree : locks i = true → ∀ j, locks j = true → (σ.phase j).runs = false) :
      Move σ ⟨σ.shared, Function.update σ.phase i (.running σ.shared 0)⟩
  | refuse {σ : System ι S α} (i : ι) (hi : σ.phase i = .waiting) :
      Move σ ⟨σ.shared, Function.update σ.phase i .refused⟩
  | advance {σ : System ι S α} (i : ι) {found t : S} {n : Nat}
      (hi : σ.phase i = .running found n)
      (hnext : ((prog i).states found)[n + 1]? = some t) :
      Move σ ⟨t, Function.update σ.phase i (.running found (n + 1))⟩
  | finish {σ : System ι S α} (i : ι) {found : S} {n : Nat} {result : α}
      (hi : σ.phase i = .running found n)
      (hlast : n + 1 = ((prog i).states found).length)
      (hresult : (prog i found).result = .ok result) :
      Move σ ⟨σ.shared, Function.update σ.phase i (.ended (some result))⟩
  | kill {σ : System ι S α} (i : ι) (hi : σ.phase i = .waiting ∨ (σ.phase i).runs = true) :
      Move σ ⟨σ.shared, Function.update σ.phase i (.ended none)⟩

def Reaches : System ι S α → System ι S α → Prop := Relation.ReflTransGen (Move prog locks)

variable {prog} {locks} {first s : S} {order : List ι} {σ τ : System ι S α}

/-- A process that is not done yet moves to a phase in which it has said nothing. -/
theorem Ordered.move (h : Ordered prog first order s σ) {i : ι} {shared : S} {p : Phase S α}
    (hi : ∀ result, σ.phase i ≠ .ended result) (hp : ∀ result, p ≠ .ended (some result))
    (halone : p.runs = true → ∀ j, j ≠ i → (σ.phase j).runs = false)
    (hrunner : ∀ found n, p = .running found n →
      found = s ∧ ((prog i).states s)[n]? = some shared)
    (hothers : ∀ j, j ≠ i → (σ.phase j).runs = true → shared = σ.shared)
    (hidle : p.runs = false → (∀ j, j ≠ i → (σ.phase j).runs = false) → shared = s) :
    Ordered prog first order s ⟨shared, Function.update σ.phase i p⟩ := by
  have hnot : i ∉ order := h.not_mem hi
  have hsame : ∀ j ∈ order, Function.update σ.phase i p j = σ.phase j := by
    intro j hj
    apply Function.update_of_ne
    intro heq
    exact hnot (heq ▸ hj)
  refine ⟨h.nodup, ?_, ?_, ?_, ?_, ?_, ?_⟩
  · intro j hj
    show ∃ result, Function.update σ.phase i p j = .ended result
    rw [hsame j hj]
    exact h.ended j hj
  · intro j result hj
    by_cases hji : j = i
    · subst hji
      exact absurd ((Function.update_self j p σ.phase).symm.trans hj) (hp result)
    · exact h.complete j result ((Function.update_of_ne hji p σ.phase).symm.trans hj)
  · rw [entries_congr hsame]
    exact h.log
  · intro j k hj hk
    by_cases hji : j = i
    · by_cases hki : k = i
      · rw [hji, hki]
      · subst hji
        simp only [Function.update_self, Function.update_of_ne hki] at hj hk
        rw [halone hj k hki] at hk
        cases hk
    · by_cases hki : k = i
      · subst hki
        simp only [Function.update_self, Function.update_of_ne hji] at hj hk
        rw [halone hk j hji] at hj
        cases hj
      · simp only [Function.update_of_ne hji, Function.update_of_ne hki] at hj hk
        exact h.alone j k hj hk
  · intro j found n hj
    by_cases hji : j = i
    · subst hji
      exact hrunner found n ((Function.update_self j p σ.phase).symm.trans hj)
    · have hold : σ.phase j = .running found n :=
        (Function.update_of_ne hji p σ.phase).symm.trans hj
      have hruns : (σ.phase j).runs = true := by rw [hold]; rfl
      rw [hothers j hji hruns]
      exact h.runner j found n hold
  · intro hfree
    have hpi : p.runs = false := by
      have hown := hfree i
      simpa only [Function.update_self] using hown
    refine hidle hpi fun j hji => ?_
    have hother := hfree j
    simpa only [Function.update_of_ne hji] using hother

theorem Ordered.conclude (h : Ordered prog first order s σ) {i : ι} {result : Option α}
    (hi : (σ.phase i).runs = true)
    (hlog : Log prog first (entries σ order ++ [(i, result)]) σ.shared) :
    Ordered prog first (order ++ [i]) σ.shared
      ⟨σ.shared, Function.update σ.phase i (.ended result)⟩ := by
  have hnot : i ∉ order := by
    refine h.not_mem fun r hr => ?_
    rw [hr] at hi
    cases hi
  have hsame : ∀ j, j ≠ i →
      Function.update σ.phase i (.ended result) j = σ.phase j :=
    fun j hj => Function.update_of_ne hj _ _
  have hfree : ∀ j, (Function.update σ.phase i (.ended result) j).runs = false := by
    intro j
    by_cases hji : j = i
    · subst hji
      rw [Function.update_self]
      rfl
    · rw [hsame j hji]
      by_contra hruns
      exact hji (h.alone j i (by simpa using hruns) hi)
  refine ⟨?_, ?_, ?_, ?_, ?_, ?_, fun _ => rfl⟩
  · exact h.nodup.append (List.nodup_singleton i) (List.disjoint_singleton.mpr hnot)
  · intro j hj
    by_cases hji : j = i
    · subst hji
      exact ⟨result, Function.update_self _ _ _⟩
    · rcases List.mem_append.mp hj with hj | hj
      · obtain ⟨r, hr⟩ := h.ended j hj
        exact ⟨r, (hsame j hji).trans hr⟩
      · exact absurd (List.mem_singleton.mp hj) hji
  · intro j r hj
    by_cases hji : j = i
    · rw [hji]
      exact List.mem_append_right _ List.mem_cons_self
    · exact List.mem_append_left _ (h.complete j r ((hsame j hji).symm.trans hj))
  · have hfront : entries ⟨σ.shared, Function.update σ.phase i (.ended result)⟩ order =
        entries σ order :=
      entries_congr fun j hj => hsame j fun heq => hnot (heq ▸ hj)
    rw [entries, List.map_append, ← entries, hfront]
    simpa [Phase.message] using hlog
  · intro j k hj
    rw [hfree j] at hj
    cases hj
  · intro j found n hj
    have hruns : (Phase.running found n : Phase S α).runs = false := hj ▸ hfree j
    cases hruns

/-- One step leaves the order alone or puts at its end a process that had not ended. -/
theorem Ordered.step (h : Ordered prog first order s σ) (hlocks : ∀ i, locks i = true)
    (hmove : Move prog locks σ τ) :
    ∃ more s', Ordered prog first (order ++ more) s' τ ∧
      ∀ i ∈ more, ∀ result, σ.phase i ≠ .ended result := by
  -- What a step that adds nobody to the order comes to.
  have same {τ : System ι S α} (hτ : Ordered prog first order s τ) :
      ∃ more s', Ordered prog first (order ++ more) s' τ ∧
        ∀ i ∈ more, ∀ result, σ.phase i ≠ .ended result :=
    ⟨[], s, by rwa [List.append_nil], by simp⟩
  have last {i : ι} {result : Option α} (hi : (σ.phase i).runs = true)
      (hlog : Log prog first (entries σ order ++ [(i, result)]) σ.shared) :
      ∃ more s', Ordered prog first (order ++ more) s'
          ⟨σ.shared, Function.update σ.phase i (.ended result)⟩ ∧
        ∀ i ∈ more, ∀ result, σ.phase i ≠ .ended result := by
    refine ⟨[i], σ.shared, h.conclude hi hlog, fun j hj r hr => ?_⟩
    rw [List.mem_singleton.mp hj] at hr
    rw [hr] at hi
    cases hi
  -- A process that has not run yet leaves the queue: the lock and the state stay as they are.
  have leave {i : ι} {p : Phase S α} (hi : σ.phase i = .waiting) (hp : p.runs = false)
      (hsilent : ∀ result, p ≠ .ended (some result)) :
      Ordered prog first order s ⟨σ.shared, Function.update σ.phase i p⟩ := by
    have hown : (σ.phase i).runs = false := by rw [hi]; rfl
    apply h.move (by simp [hi]) hsilent
    · intro hruns
      rw [hp] at hruns
      cases hruns
    · intro found n heq
      rw [heq] at hp
      cases hp
    · intro _ _ _
      rfl
    · intro _ hfree
      apply h.idle
      intro j
      by_cases hji : j = i
      · rw [hji, hown]
      · exact hfree j hji
  cases hmove with
  | enter i hi hlocked =>
    have hfree : ∀ j, (σ.phase j).runs = false := fun j => hlocked (hlocks i) j (hlocks j)
    apply same
    apply h.move (by simp [hi]) (by simp)
    · intro _ j _
      exact hfree j
    · intro found n heq
      cases heq
      have hs : σ.shared = s := h.idle hfree
      rw [hs]
      exact ⟨rfl, states_zero _ _⟩
    · intro _ _ _
      rfl
    · intro hruns
      cases hruns
  | refuse i hi => exact same (leave hi rfl (by simp))
  | @advance i found t n hi hnext =>
    have hruns : (σ.phase i).runs = true := by rw [hi]; rfl
    have hothers : ∀ j, j ≠ i → (σ.phase j).runs = false := by
      intro j hji
      by_contra hj
      exact hji (h.alone j i (by simpa using hj) hruns)
    obtain ⟨hfound, -⟩ := h.runner i found n hi
    apply same
    apply h.move (by simp [hi]) (by simp)
    · intro _ j hji
      exact hothers j hji
    · intro found' n' heq
      cases heq
      exact ⟨hfound, hfound ▸ hnext⟩
    · intro j hji hj
      rw [hothers j hji] at hj
      cases hj
    · intro hfree
      cases hfree
  | finish i hi hlast hresult =>
    exact last (by rw [hi]; rfl) (h.log_finish hi hlast hresult)
  | kill i hi =>
    rcases hi with hi | hi
    · exact same (leave hi rfl (by simp))
    · obtain ⟨found, n, hrun⟩ := Phase.runs_eq_true hi
      exact last hi (h.log_kill hrun)

/-- Who has ended stays as it is. -/
theorem Move.ended (hmove : Move prog locks σ τ) {i : ι} {result : Option α}
    (hi : σ.phase i = .ended result) : τ.phase i = .ended result := by
  -- Whoever moves has not ended, so it is somebody else.
  have other {j : ι} {p : Phase S α} (hj : ∀ result, σ.phase j ≠ .ended result) :
      Function.update σ.phase j p i = .ended result := by
    have hne : i ≠ j := fun heq => hj result (heq ▸ hi)
    rw [Function.update_of_ne hne]
    exact hi
  cases hmove with
  | enter j hj _ => exact other (by simp [hj])
  | refuse j hj => exact other (by simp [hj])
  | advance j hj _ => exact other (by simp [hj])
  | finish j hj _ _ => exact other (by simp [hj])
  | kill j hj =>
    apply other
    intro r hr
    rw [hr] at hj
    simp [Phase.runs] at hj

theorem Reaches.ended (hrun : Reaches prog locks σ τ) {i : ι} {result : Option α}
    (hi : σ.phase i = .ended result) : τ.phase i = .ended result := by
  induction hrun with
  | refl => exact hi
  | tail _ hmove ih => exact hmove.ended ih

/-- A whole run extends the order, by processes that had not ended where it began. -/
theorem Ordered.run (h : Ordered prog first order s σ) (hlocks : ∀ i, locks i = true)
    (hrun : Reaches prog locks σ τ) :
    ∃ more s', Ordered prog first (order ++ more) s' τ ∧
      ∀ i ∈ more, ∀ result, σ.phase i ≠ .ended result := by
  induction hrun with
  | refl => exact ⟨[], s, by rwa [List.append_nil], by simp⟩
  | tail hbefore hmove ih =>
    obtain ⟨more, s₁, hmid, hmore⟩ := ih
    obtain ⟨next, s₂, hend, hnext⟩ := hmid.step hlocks hmove
    refine ⟨more ++ next, s₂, by rwa [← List.append_assoc], fun i hi result hresult => ?_⟩
    rcases List.mem_append.mp hi with hi | hi
    · exact hmore i hi result hresult
    · exact hnext i hi result (Reaches.ended hbefore hresult)

theorem Reaches.to_end {i : ι} {found : S} {n : Nat} {result : α}
    (hi : σ.phase i = .running found n) (hhere : ((prog i).states found)[n]? = some σ.shared)
    (hresult : (prog i found).result = .ok result) :
    Reaches prog locks σ
      ⟨(prog i found).final, Function.update σ.phase i (.ended (some result))⟩ := by
  obtain ⟨hn, -⟩ := List.getElem?_eq_some_iff.mp hhere
  -- on the number of points that are left
  obtain ⟨left, hleft⟩ := Nat.exists_eq_add_of_lt hn
  induction left generalizing σ n with
  | zero =>
    have hlast : n + 1 = ((prog i).states found).length := by omega
    rw [← states_last hlast hhere]
    exact .single (.finish i hi hlast hresult)
  | succ left ih =>
    have hnext : n + 1 < ((prog i).states found).length := by omega
    have hthere := List.getElem?_eq_getElem hnext
    have hmove : Move prog locks σ ⟨_, Function.update σ.phase i (.running found (n + 1))⟩ :=
      .advance i hi hthere
    have hrest := @ih ⟨_, Function.update σ.phase i (.running found (n + 1))⟩ (n + 1)
      (Function.update_self ..) hthere hnext (by omega)
    rw [Function.update_idem] at hrest
    exact .head hmove hrest

/-- A process that finds the lock free can run from its beginning to its end. -/
theorem Reaches.whole {i : ι} {result : α} (hi : σ.phase i = .waiting)
    (hfree : ∀ j, (σ.phase j).runs = false) (hresult : (prog i σ.shared).result = .ok result) :
    Reaches prog locks σ
      ⟨(prog i σ.shared).final, Function.update σ.phase i (.ended (some result))⟩ := by
  have henter : Move prog locks σ ⟨σ.shared, Function.update σ.phase i (.running σ.shared 0)⟩ :=
    .enter i hi fun _ j _ => hfree j
  have hrest : Reaches prog locks ⟨σ.shared, Function.update σ.phase i (.running σ.shared 0)⟩ _ :=
    Reaches.to_end (Function.update_self ..) (states_zero ..) hresult
  rw [Function.update_idem] at hrest
  exact .head henter hrest

end Steps

end Serial
